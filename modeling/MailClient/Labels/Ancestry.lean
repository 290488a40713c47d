import MailClient.Labels.Dependencies

/-!
# Ancestors of fetched labels

The server has a forest of labels.  A label is stored under its parent only if
the parent is stored first, so the order in which fetched labels are stored
matters, and the ancestors that are fetched as well.
-/

namespace MailClient
namespace Labels

open Foundation Relation

/-!
# The server
-/

/-- The labels of the server; it answers a request in any order. -/
structure LabelServer where
  labels : List ApiLabel
  answer : Finset LabelId -> List ApiLabel
  ids_nodup : (labels.map ApiLabel.id).Nodup
  parents_known : forall l, l ∈ labels -> forall p, l.parentId = some p ->
    p ∈ labels.map ApiLabel.id
  acyclic : Acyclic (IsParent labels)
  answer_perm : forall ids,
    (answer ids).Perm (labels.filter (fun l => l.id ∈ ids))

namespace LabelServer

theorem mem_answer {s : LabelServer} {ids : Finset LabelId} {l : ApiLabel} :
    l ∈ s.answer ids ↔ l ∈ s.labels ∧ l.id ∈ ids := by
  rw [(s.answer_perm ids).mem_iff, List.mem_filter, decide_eq_true_eq]

/-- `Label::fetch_labels` asks for one type after the other and sorts. -/
def api (s : LabelServer) (order : PopOrder LabelId) : DependencyApi where
  fetchLabelsByIds := s.answer
  fetchLabels := fun types =>
    DependencyFetcher.sortLabels order
      (types.flatMap (fun type => s.labels.filter (fun l =>
        l.labelType = type)))
  requested := fun _ _ hl => (mem_answer.mp hl).right

theorem label_unique (s : LabelServer) {l l' : ApiLabel} (hl : l ∈ s.labels)
    (hl' : l' ∈ s.labels) (hid : l.id = l'.id) : l = l' :=
  List.inj_on_of_nodup_map s.ids_nodup hl hl' hid

end LabelServer

/-!
# The order of the labels
-/

section Order

variable {labels labels' : List ApiLabel}

theorem IsParent.mono (hsub : forall l, l ∈ labels -> l ∈ labels')
    {parent child : LabelId} (h : IsParent labels parent child) :
    IsParent labels' parent child := by
  rcases h with ⟨l, hl, hid, hparent⟩
  exact ⟨l, hsub l hl, hid, hparent⟩

theorem rooted_of_acyclic (h : Acyclic (IsParent labels)) (id : LabelId) :
    Rooted labels id :=
  fun ancestor _ => h ancestor

/-- Parents that are in the list stand before their children. -/
def ParentsFirst (labels : List ApiLabel) : Prop :=
  forall before l after, labels = before ++ l :: after ->
    forall p, l.parentId = some p -> p ∈ labels.map ApiLabel.id ->
      p ∈ before.map ApiLabel.id

namespace DependencyFetcher

variable {order : PopOrder LabelId}

theorem of_find {id : LabelId} {l : ApiLabel}
    (h : labels.find? (fun l => l.id = id) = some l) :
    l ∈ labels ∧ l.id = id :=
  ⟨List.mem_of_find?_eq_some h, by simpa using List.find?_some h⟩

theorem sortLabels_subset {l : ApiLabel} (hl : l ∈ sortLabels order labels) :
    l ∈ labels := by
  rcases List.mem_filterMap.mp hl with ⟨id, _, hfind⟩
  exact (of_find hfind).left

theorem sortLabels_nodup :
    ((sortLabels order labels).map ApiLabel.id).Nodup := by
  unfold sortLabels List.Nodup
  rw [List.pairwise_map, List.pairwise_filterMap]
  refine (TopologicalSort.drain_nodup order _ _).imp ?_
  intro id id' hne l hl l' hl' hsame
  rw [(of_find hl).right, (of_find hl').right] at hsame
  exact hne hsame

theorem sortLabels_parentsFirst (hacyclic : Acyclic (IsParent labels)) :
    ParentsFirst (sortLabels order labels) := by
  intro before l after heq p hparent hp
  have hl : l ∈ labels := by
    refine @sortLabels_subset labels order l ?_
    rw [heq]
    exact List.mem_append_right _ List.mem_cons_self
  have hedge : IsParent labels p l.id := ⟨l, hl, rfl, hparent⟩
  rw [heq, List.map_append, List.map_cons, List.mem_append, List.mem_cons]
    at hp
  rcases hp with hbefore | hself | hafter
  · exact hbefore
  · rw [hself] at hedge
    exact absurd (TransGen.single hedge) (hacyclic l.id)
  · -- the order in which the sorter pops rules out a parent after its child
    rcases List.mem_map.mp hafter with ⟨l', hl', hid⟩
    have hordered : (sortLabels order labels).Pairwise (fun x y =>
        ¬ TransGen (IsParent labels) y.id x.id) := by
      unfold sortLabels
      rw [List.pairwise_filterMap]
      refine (TopologicalSort.drain_ordered order _ _).imp ?_
      intro x y hxy a ha b hb
      rw [(of_find ha).right, (of_find hb).right, <- parentsFirst_edge]
      exact hxy
    rw [heq] at hordered
    have hlater := List.rel_of_pairwise_cons
      (List.pairwise_append.mp hordered).right.left hl'
    rw [hid] at hlater
    exact absurd (TransGen.single hedge) hlater

end DependencyFetcher

end Order

/-!
# Storing labels that are new
-/

namespace LabelTable

variable {t : LabelTable} {r : LabelRow} {labels : List ApiLabel}

theorem knows_save (t : LabelTable) (a : ApiLabel) :
    t.Knows (t.save a.toLabel).1 :=
  (t.save_wrote a.toLabel).knows (fun _ hr hid => (savedId_api hr a).mp hid)

theorem knows_storeLabels (t : LabelTable) (labels : List ApiLabel) :
    t.Knows (t.storeLabels (labels.map ApiLabel.toLabel)) := by
  induction labels generalizing t with
  | nil => exact fun _ _ h => h
  | cons a rest ih =>
      intro rid id hid
      exact ih (t.save a.toLabel).1 rid id (knows_save t a rid id hid)

theorem storeLabels_untouched (hr : r ∈ t.rows)
    (hother : forall a, a ∈ labels -> r.remoteId ≠ some a.id) :
    r ∈ (t.storeLabels (labels.map ApiLabel.toLabel)).rows := by
  induction labels generalizing t with
  | nil => exact hr
  | cons a rest ih =>
      refine ih ?_ (fun b hb => hother b (List.mem_cons_of_mem a hb))
      refine ((t.save_wrote a.toLabel).others r ?_).mpr hr
      intro hid
      exact hother a List.mem_cons_self ((savedId_api hr a).mp hid)

theorem storeLabels_append (t : LabelTable) (labels labels' : List Label) :
    t.storeLabels (labels ++ labels') =
      (t.storeLabels labels).storeLabels labels' :=
  List.foldl_append

theorem remoteId_unique {r' : LabelRow} (hr : r ∈ t.rows) (hr' : r' ∈ t.rows)
    {rid : LabelId} (hrid : r.remoteId = some rid)
    (hrid' : r'.remoteId = some rid) : r = r' := by
  refine row_unique t hr hr' (t.remoteIds_unique r r' hr hr' ?_ ?_)
  · rw [hrid]
    exact Option.some_ne_none rid
  · rw [hrid, hrid']

/-- The label has a row, with the local id of the server's parent. -/
def StoredUnderParent (t : LabelTable) (l : ApiLabel) : Prop :=
  exists r, r ∈ t.rows ∧ r.remoteId = some l.id ∧
    r.localParentId = l.parentId.bind t.remoteIdCounterpart

theorem counterpart_of_knows {t' : LabelTable} (hknows : t.Knows t')
    {rid : LabelId} (hstores : t.Stores rid) :
    t'.remoteIdCounterpart rid = t.remoteIdCounterpart rid := by
  rcases hstores with ⟨r, hr, hrid⟩
  have hlocal := remoteIdCounterpart_iff.mpr ⟨r, hr, hrid, rfl⟩
  rw [hlocal]
  exact hknows rid r.localId hlocal

theorem counterpart_eq_none {rid : LabelId} :
    t.remoteIdCounterpart rid = none ↔ ¬ t.Stores rid := by
  rw [<- labelIsMissing_iff]
  exact Option.isNone_iff_eq_none.symm

theorem storedUnderParent_iff_of_row {l : ApiLabel} (hr : r ∈ t.rows)
    (hrid : r.remoteId = some l.id) :
    t.StoredUnderParent l ↔
      r.localParentId = l.parentId.bind t.remoteIdCounterpart := by
  constructor
  · intro h
    rcases h with ⟨r', hr', hrid', hparent⟩
    rw [remoteId_unique hr hr' hrid hrid']
    exact hparent
  · exact fun hparent => ⟨r, hr, hrid, hparent⟩

theorem storedUnderParent_iff {before after : List ApiLabel} {l : ApiLabel}
    (heq : labels = before ++ l :: after)
    (hnodup : (labels.map ApiLabel.id).Nodup) :
    (t.storeLabels (labels.map ApiLabel.toLabel)).StoredUnderParent l ↔
      forall p, l.parentId = some p ->
        (t.storeLabels (labels.map ApiLabel.toLabel)).Stores p ->
          (t.Stores p ∨ p ∈ before.map ApiLabel.id) ∨ p = l.id := by
  let earlier := t.storeLabels (before.map ApiLabel.toLabel)
  let now := (earlier.save l.toLabel).1
  have hlater : t.storeLabels (labels.map ApiLabel.toLabel) =
      now.storeLabels (after.map ApiLabel.toLabel) := by
    rw [heq, List.map_append, storeLabels_append]
    rfl
  have hknows : now.Knows (now.storeLabels (after.map ApiLabel.toLabel)) :=
    knows_storeLabels now after
  have hstores : forall p, now.Stores p ↔
      (t.Stores p ∨ p ∈ before.map ApiLabel.id) ∨ p = l.id := by
    intro p
    rw [stores_save, stores_storeLabels]
  rcases (earlier.save_wrote l.toLabel).self with ⟨r, hr, _, hdata⟩
  have hrid : r.remoteId = some l.id := remoteId_of_savedData hdata
  have hparent : r.localParentId = l.parentId.bind now.remoteIdCounterpart :=
    congrArg LabelData.localParentId hdata
  have hkept : r ∈ (now.storeLabels (after.map ApiLabel.toLabel)).rows := by
    refine storeLabels_untouched hr ?_
    intro a ha hsame
    rw [hrid] at hsame
    rw [heq, List.map_append, List.map_cons] at hnodup
    exact (List.nodup_cons.mp (List.nodup_append.mp hnodup).right.left).left
      (List.mem_map.mpr ⟨a, ha, (Option.some.inj hsame).symm⟩)
  rw [hlater, storedUnderParent_iff_of_row hkept hrid, hparent]
  cases l.parentId with
  | none => exact ⟨fun _ p hp => (nomatch hp), fun _ => rfl⟩
  | some p =>
      rw [Option.bind_some, Option.bind_some]
      by_cases hnow : now.Stores p
      · rw [counterpart_of_knows hknows hnow]
        refine ⟨fun _ q hq _ => ?_, fun _ => rfl⟩
        rw [<- Option.some.inj hq]
        exact (hstores p).mp hnow
      · rw [counterpart_eq_none.mpr hnow]
        constructor
        · intro hnone q hq hstored
          rw [<- Option.some.inj hq] at hstored
          exact absurd hstored (counterpart_eq_none.mp hnone.symm)
        · intro h
          refine (counterpart_eq_none.mpr ?_).symm
          exact fun hstored => hnow ((hstores p).mpr (h p rfl hstored))

end LabelTable

/-!
# Ancestors
-/

namespace LabelServer

variable {s : LabelServer} {t : LabelTable} {f : DependencyFetcher}
variable {order order' : PopOrder LabelId}

def IsAncestor (s : LabelServer) (ancestor id : LabelId) : Prop :=
  ReflTransGen (IsParent s.labels) ancestor id

/-- Labels of the server are only stored together with their parents. -/
def ClosedUnderParents (s : LabelServer) (t : LabelTable) : Prop :=
  forall l, l ∈ s.labels -> t.Stores l.id ->
    forall p, l.parentId = some p -> t.Stores p

/-- The labels that the server answers with, and all above them. -/
def RequestedAncestor (s : LabelServer) (f : DependencyFetcher)
    (l : ApiLabel) : Prop :=
  l ∈ s.labels ∧ exists id, id ∈ f.labelIds ∧ id ∈ s.labels.map ApiLabel.id ∧
    s.IsAncestor l.id id

/-- No label is lost, and the requested ones have their place in the tree. -/
structure AncestryStored (s : LabelServer) (f : DependencyFetcher)
    (t t' : LabelTable) : Prop where
  kept : forall r, r ∈ t.rows -> r ∈ t'.rows
  stored : forall l, s.RequestedAncestor f l -> t'.StoredUnderParent l

/-- Parents outside of the request that have to be fetched. -/
def missingParents (s : LabelServer) (f : DependencyFetcher)
    (t : LabelTable) : Finset LabelId :=
  DependencyFetcher.missingParentsIds t f.labelIds (s.answer f.labelIds)

def missingGrandparents (s : LabelServer) (f : DependencyFetcher)
    (t : LabelTable) : Finset LabelId :=
  DependencyFetcher.missingParentsIds t f.labelIds
    (s.answer (s.missingParents f t))

/-- The types that are fetched instead hold every ancestor that is missing. -/
def TypesCover (s : LabelServer) (f : DependencyFetcher)
    (t : LabelTable) : Prop :=
  forall l, s.RequestedAncestor f l -> ¬ t.Stores l.id -> l.id ∉ f.labelIds ->
    l.labelType ∈ DependencyFetcher.selectedTypes (s.answer f.labelIds)

theorem api_acyclic {labels : List ApiLabel}
    (hsub : forall l, l ∈ labels -> l ∈ s.labels) :
    Acyclic (IsParent labels) :=
  s.acyclic.mono (fun _ _ h => h.mono hsub)

theorem mem_fetchLabels {types : List LabelType} {l : ApiLabel} :
    l ∈ (s.api order').fetchLabels types ↔
      l ∈ s.labels ∧ l.labelType ∈ types := by
  have hmem : forall l, l ∈ types.flatMap (fun type =>
      s.labels.filter (fun l => l.labelType = type)) ↔
      l ∈ s.labels ∧ l.labelType ∈ types := by
    intro l
    rw [List.mem_flatMap]
    constructor
    · intro h
      rcases h with ⟨type, htype, hl⟩
      rw [List.mem_filter, decide_eq_true_eq] at hl
      exact ⟨hl.left, hl.right ▸ htype⟩
    · intro h
      exact ⟨_, h.right, List.mem_filter.mpr ⟨h.left, decide_eq_true rfl⟩⟩
  constructor
  · exact fun hl => (hmem l).mp (DependencyFetcher.sortLabels_subset hl)
  · intro hl
    have hid := (@DependencyFetcher.mem_sortLabels order' _ l.id).mpr
      ⟨List.mem_map_of_mem ((hmem l).mpr hl), rooted_of_acyclic
        (api_acyclic (fun l hl => ((hmem l).mp hl).left)) l.id⟩
    rcases List.mem_map.mp hid with ⟨l', hl', hsame⟩
    have hserver := (hmem l').mp (DependencyFetcher.sortLabels_subset hl')
    rw [s.label_unique hl.left hserver.left hsame.symm]
    exact hl'

theorem mem_missingParentsIds {excluded : Finset LabelId}
    {labels : List ApiLabel} {p : LabelId} :
    p ∈ DependencyFetcher.missingParentsIds t excluded labels ↔
      (exists l, l ∈ labels ∧ l.parentId = some p) ∧ p ∉ excluded ∧
        ¬ t.Stores p := by
  unfold DependencyFetcher.missingParentsIds
    DependencyFetcher.findMissingLabelIds DependencyFetcher.createParentIdsSet
  rw [Finset.mem_filter, LabelTable.labelIsMissing_iff, Finset.mem_sdiff,
    List.mem_toFinset, List.mem_filterMap, and_assoc]

/-!
# What is gathered
-/

section Gathered

variable {l : ApiLabel}

theorem gathered_of_parents (hnone : s.missingParents f t = ∅) :
    DependencyFetcher.gathered (s.api order') f t = s.answer f.labelIds :=
  if_pos hnone

theorem gathered_of_missing (hsome : s.missingParents f t ≠ ∅) :
    DependencyFetcher.gathered (s.api order') f t =
      DependencyFetcher.withParents (s.api order') t f.labelIds
        (s.answer f.labelIds) (s.missingParents f t) :=
  if_neg hsome

theorem mem_gathered_of_grandparents (hsome : s.missingParents f t ≠ ∅)
    (hnone : s.missingGrandparents f t = ∅) :
    l ∈ DependencyFetcher.gathered (s.api order') f t ↔
      l ∈ s.answer f.labelIds ∨ l ∈ s.answer (s.missingParents f t) := by
  have hparents : DependencyFetcher.withParents (s.api order') t f.labelIds
      (s.answer f.labelIds) (s.missingParents f t) =
      s.answer f.labelIds ++ s.answer (s.missingParents f t) := if_pos hnone
  rw [gathered_of_missing hsome, hparents]
  exact List.mem_append

theorem mem_gathered_of_types (hsome : s.missingParents f t ≠ ∅)
    (hmissing : s.missingGrandparents f t ≠ ∅) :
    l ∈ DependencyFetcher.gathered (s.api order') f t ↔
      (l ∈ s.labels ∧ ¬ t.Stores l.id ∧
        l.labelType ∈ DependencyFetcher.selectedTypes
          (s.answer f.labelIds)) ∨
      l ∈ s.answer f.labelIds := by
  have htypes : DependencyFetcher.withParents (s.api order') t f.labelIds
      (s.answer f.labelIds) (s.missingParents f t) =
      ((s.api order').fetchLabels (DependencyFetcher.selectedTypes
        (s.answer f.labelIds))).filter (fun l => t.labelIsMissing l.id) ++
        s.answer f.labelIds := if_neg hmissing
  rw [gathered_of_missing hsome, htypes, List.mem_append, List.mem_filter,
    mem_fetchLabels, LabelTable.labelIsMissing_iff, and_assoc, and_comm
    (a := l.labelType ∈ _)]

theorem gathered_subset
    (hl : l ∈ DependencyFetcher.gathered (s.api order') f t) :
    l ∈ s.labels := by
  by_cases hparents : s.missingParents f t = ∅
  · rw [gathered_of_parents hparents] at hl
    exact (mem_answer.mp hl).left
  · by_cases hgrand : s.missingGrandparents f t = ∅
    · rcases (mem_gathered_of_grandparents hparents hgrand).mp hl with hl | hl
      · exact (mem_answer.mp hl).left
      · exact (mem_answer.mp hl).left
    · rcases (mem_gathered_of_types hparents hgrand).mp hl with hl | hl
      · exact hl.left
      · exact (mem_answer.mp hl).left

theorem gathered_of_answer (hl : l ∈ s.answer f.labelIds) :
    l ∈ DependencyFetcher.gathered (s.api order') f t := by
  by_cases hparents : s.missingParents f t = ∅
  · rw [gathered_of_parents hparents]
    exact hl
  · by_cases hgrand : s.missingGrandparents f t = ∅
    · exact (mem_gathered_of_grandparents hparents hgrand).mpr (Or.inl hl)
    · exact (mem_gathered_of_types hparents hgrand).mpr (Or.inr hl)

theorem fetched_iff {id : LabelId} :
    DependencyFetcher.Fetched (s.api order') f t id ↔
      id ∈ (DependencyFetcher.gathered (s.api order') f t).map
        ApiLabel.id :=
  ⟨And.left, fun h => ⟨h, Or.inr (rooted_of_acyclic
    (api_acyclic (fun _ hl => gathered_subset hl)) id)⟩⟩

theorem fetched_label (hl : l ∈ s.labels) :
    DependencyFetcher.Fetched (s.api order') f t l.id ↔
      l ∈ DependencyFetcher.gathered (s.api order') f t := by
  rw [fetched_iff, List.mem_map]
  constructor
  · intro h
    rcases h with ⟨l', hl', hid⟩
    rw [s.label_unique hl (gathered_subset hl') hid.symm]
    exact hl'
  · exact fun h => ⟨l, h, rfl⟩

end Gathered

/-!
# Every ancestor is fetched
-/

section Complete

theorem ancestor_induction {holds : LabelId -> Prop}
    (hrequested : forall l, l ∈ s.labels -> l.id ∈ f.labelIds -> holds l.id)
    (hparent : forall l, l ∈ s.labels -> holds l.id ->
      forall p, l.parentId = some p -> holds p)
    {l : ApiLabel} (hl : s.RequestedAncestor f l) : holds l.id := by
  rcases hl with ⟨_, id, hid, hserver, hway⟩
  have hup : ReflTransGen (IsParent s.labels) l.id id := hway
  generalize l.id = ancestor at hup
  induction hup using ReflTransGen.head_induction_on with
  | refl =>
      rcases List.mem_map.mp hserver with ⟨own, hown, rfl⟩
      exact hrequested own hown hid
  | head hedge _ ih =>
      rcases hedge with ⟨child, hchild, rfl, hp⟩
      exact hparent child hchild ih _ hp

def Complete (s : LabelServer) (order : PopOrder LabelId)
    (f : DependencyFetcher) (t : LabelTable) : Prop :=
  forall l, s.RequestedAncestor f l ->
    t.Stores l.id ∨ DependencyFetcher.Fetched (s.api order) f t l.id

theorem complete_of_gathered (hclosed : s.ClosedUnderParents t)
    (h : forall l, l ∈ DependencyFetcher.gathered (s.api order') f t ->
      forall p, l.parentId = some p -> p ∉ f.labelIds ->
        t.Stores p ∨
          p ∈ (DependencyFetcher.gathered (s.api order') f t).map
            ApiLabel.id) :
    s.Complete order' f t := by
  intro l hl
  refine @ancestor_induction s f (fun id => t.Stores id ∨
    DependencyFetcher.Fetched (s.api order') f t id) ?_ ?_ l hl
  · intro l hl hid
    exact Or.inr ((fetched_label hl).mpr
      (gathered_of_answer (mem_answer.mpr ⟨hl, hid⟩)))
  · intro l hl hknown p hp
    rcases hknown with hstored | hfetched
    · exact Or.inl (hclosed l hl hstored p hp)
    · by_cases hrequested : p ∈ f.labelIds
      · rcases List.mem_map.mp (s.parents_known l hl p hp) with
          ⟨parent, hparent, rfl⟩
        exact Or.inr ((fetched_label hparent).mpr
          (gathered_of_answer (mem_answer.mpr ⟨hparent, hrequested⟩)))
      · rw [fetched_iff]
        exact h l ((fetched_label hl).mp hfetched) p hp hrequested

theorem complete_of_parents (hclosed : s.ClosedUnderParents t)
    (hparents : s.missingParents f t = ∅) : s.Complete order' f t := by
  refine complete_of_gathered hclosed ?_
  intro l hl p hp hrequested
  rw [gathered_of_parents hparents] at hl
  by_contra hmissing
  have hmem : p ∈ s.missingParents f t := mem_missingParentsIds.mpr
    ⟨⟨l, hl, hp⟩, hrequested, fun h => hmissing (Or.inl h)⟩
  rw [hparents] at hmem
  exact absurd hmem (Finset.notMem_empty p)

theorem complete_of_grandparents (hclosed : s.ClosedUnderParents t)
    (hsome : s.missingParents f t ≠ ∅)
    (hgrand : s.missingGrandparents f t = ∅) : s.Complete order' f t := by
  refine complete_of_gathered hclosed ?_
  intro l hl p hp hrequested
  by_cases hstored : t.Stores p
  · exact Or.inl hstored
  · right
    rcases List.mem_map.mp (s.parents_known l
      (gathered_subset hl) p hp) with ⟨parent, hparent, hid⟩
    rcases (mem_gathered_of_grandparents hsome hgrand).mp hl with hl | hl
    · have hmem : p ∈ s.missingParents f t :=
        mem_missingParentsIds.mpr ⟨⟨l, hl, hp⟩, hrequested, hstored⟩
      rw [<- hid] at hmem ⊢
      exact List.mem_map_of_mem
        ((mem_gathered_of_grandparents hsome hgrand).mpr
          (Or.inr (mem_answer.mpr ⟨hparent, hmem⟩)))
    · have hmem : p ∈ s.missingGrandparents f t :=
        mem_missingParentsIds.mpr ⟨⟨l, hl, hp⟩, hrequested, hstored⟩
      rw [hgrand] at hmem
      exact absurd hmem (Finset.notMem_empty p)

theorem complete_of_types_iff (hsome : s.missingParents f t ≠ ∅)
    (hmissing : s.missingGrandparents f t ≠ ∅) :
    s.Complete order' f t ↔ s.TypesCover f t := by
  constructor
  · intro h l hl hnew hother
    have hfetched := (h l hl).resolve_left hnew
    rw [fetched_label hl.left, mem_gathered_of_types hsome hmissing]
      at hfetched
    rcases hfetched with htype | hanswer
    · exact htype.right.right
    · exact absurd (mem_answer.mp hanswer).right hother
  · intro h l hl
    by_cases hnew : t.Stores l.id
    · exact Or.inl hnew
    · right
      rw [fetched_label hl.left]
      by_cases hother : l.id ∈ f.labelIds
      · exact gathered_of_answer (mem_answer.mpr ⟨hl.left, hother⟩)
      · rw [mem_gathered_of_types hsome hmissing]
        exact Or.inl ⟨hl.left, hnew, h l hl hnew hother⟩

theorem complete_iff (hclosed : s.ClosedUnderParents t) :
    s.Complete order' f t ↔
      s.missingParents f t = ∅ ∨ s.missingGrandparents f t = ∅ ∨
        s.TypesCover f t := by
  by_cases hparents : s.missingParents f t = ∅
  · exact ⟨fun _ => Or.inl hparents,
      fun _ => complete_of_parents hclosed hparents⟩
  · by_cases hgrand : s.missingGrandparents f t = ∅
    · exact ⟨fun _ => Or.inr (Or.inl hgrand),
        fun _ => complete_of_grandparents hclosed hparents hgrand⟩
    · rw [complete_of_types_iff hparents hgrand]
      constructor
      · exact fun h => Or.inr (Or.inr h)
      · exact fun h => (h.resolve_left hparents).resolve_left hgrand

end Complete

/-!
# What is stored
-/

section Stored

variable {l : ApiLabel}

/-- A child before its parent in an answer that is not sorted. -/
def AnswerInOrder (s : LabelServer) (f : DependencyFetcher)
    (t : LabelTable) : Prop :=
  s.missingParents f t = ∅ -> ParentsFirst (s.answer f.labelIds)

/-- Ancestors that were stored before already have their place in the tree. -/
def StoredAncestorsPlaced (s : LabelServer) (f : DependencyFetcher)
    (t : LabelTable) : Prop :=
  forall l, s.RequestedAncestor f l -> t.Stores l.id -> t.StoredUnderParent l

/-- The labels in the order in which they are stored. -/
def stored (s : LabelServer) (order order' : PopOrder LabelId)
    (f : DependencyFetcher) (t : LabelTable) : List ApiLabel :=
  DependencyFetcher.fetchMissingLabels (s.api order') order f t

theorem mem_stored {id : LabelId} :
    id ∈ (s.stored order order' f t).map ApiLabel.id ↔
      DependencyFetcher.Fetched (s.api order') f t id :=
  DependencyFetcher.mem_fetchMissingLabels

theorem stored_nodup :
    ((s.stored order order' f t).map ApiLabel.id).Nodup := by
  have hanswer : ((s.answer f.labelIds).map ApiLabel.id).Nodup :=
    ((s.answer_perm f.labelIds).map ApiLabel.id).nodup_iff.mpr
      (s.ids_nodup.sublist (List.filter_sublist.map _))
  unfold stored DependencyFetcher.fetchMissingLabels
    DependencyFetcher.fetchLabelParents
  split
  · exact hanswer
  · exact DependencyFetcher.sortLabels_nodup

theorem stored_parentsFirst :
    ParentsFirst (s.stored order order' f t) ↔ s.AnswerInOrder f t := by
  unfold stored AnswerInOrder
  by_cases hparents : s.missingParents f t = ∅
  · have hanswer : DependencyFetcher.fetchMissingLabels (s.api order') order f
        t = s.answer f.labelIds := if_pos hparents
    rw [hanswer]
    exact ⟨fun h _ => h, fun h => h hparents⟩
  · have hsorted : DependencyFetcher.fetchMissingLabels (s.api order') order f
        t = DependencyFetcher.sortLabels order
          (DependencyFetcher.gathered (s.api order') f t) := by
      rw [gathered_of_missing hparents]
      exact if_neg hparents
    rw [hsorted]
    exact ⟨fun _ h => absurd h hparents,
      fun _ => DependencyFetcher.sortLabels_parentsFirst
        (api_acyclic (fun _ hl => gathered_subset hl))⟩

theorem stored_subset (hl : l ∈ s.stored order order' f t) :
    l ∈ DependencyFetcher.gathered (s.api order') f t := by
  unfold stored DependencyFetcher.fetchMissingLabels
    DependencyFetcher.fetchLabelParents at hl
  split at hl
  · rename_i hparents
    rw [gathered_of_parents hparents]
    exact hl
  · rename_i hparents
    rw [gathered_of_missing hparents]
    exact DependencyFetcher.sortLabels_subset hl

theorem mem_stored_label (hl : l ∈ s.labels)
    (hfetched : DependencyFetcher.Fetched (s.api order') f t l.id) :
    l ∈ s.stored order order' f t := by
  rcases List.mem_map.mp ((@mem_stored s t f order order' l.id).mpr hfetched) with
    ⟨l', hl', hid⟩
  rw [s.label_unique hl (gathered_subset (stored_subset hl')) hid.symm]
  exact hl'

theorem fetchAndStore_eq :
    (DependencyFetcher.fetchAndStore (s.api order') order f t).1 =
      t.storeLabels ((s.stored order order' f t).map ApiLabel.toLabel) := by
  unfold DependencyFetcher.fetchAndStore
  by_cases hempty : f.labelIds = ∅
  · have hnil : s.stored order order' f t = [] := by
      refine List.eq_nil_iff_forall_not_mem.mpr ?_
      intro l hl
      exact DependencyFetcher.not_fetched_of_empty hempty l.id
        (mem_stored.mp (List.mem_map_of_mem hl))
    rw [if_pos hempty, hnil]
    rfl
  · rw [if_neg hempty]
    rfl

variable (hnew : forall id, id ∈ f.labelIds -> ¬ t.Stores id)

include hnew in
theorem not_stores_stored {id : LabelId}
    (hid : id ∈ (s.stored order order' f t).map ApiLabel.id) :
    ¬ t.Stores id := by
  by_cases hrequested : id ∈ f.labelIds
  · exact hnew id hrequested
  · exact DependencyFetcher.not_stores_fetched (mem_stored.mp hid) hrequested

include hnew in
theorem rows_kept {r : LabelRow} (hr : r ∈ t.rows) :
    r ∈ (t.storeLabels
      ((s.stored order order' f t).map ApiLabel.toLabel)).rows := by
  refine LabelTable.storeLabels_untouched hr ?_
  intro a ha hrid
  exact not_stores_stored hnew (List.mem_map_of_mem ha) ⟨r, hr, hrid⟩

include hnew in
theorem storedUnderParent_kept (hclosed : s.ClosedUnderParents t)
    (hl : l ∈ s.labels) (hstored : t.Stores l.id) :
    (t.storeLabels ((s.stored order order' f t).map
        ApiLabel.toLabel)).StoredUnderParent l ↔
      t.StoredUnderParent l := by
  have hparents : l.parentId.bind (t.storeLabels
      ((s.stored order order' f t).map
        ApiLabel.toLabel)).remoteIdCounterpart =
      l.parentId.bind t.remoteIdCounterpart := by
    cases hp : l.parentId with
    | none => rfl
    | some p =>
        exact LabelTable.counterpart_of_knows
          (LabelTable.knows_storeLabels t _) (hclosed l hl hstored p hp)
  rcases hstored with ⟨r, hr, hrid⟩
  rw [LabelTable.storedUnderParent_iff_of_row (rows_kept hnew hr) hrid,
    LabelTable.storedUnderParent_iff_of_row hr hrid, hparents]

include hnew in
theorem storedUnderParent_new {before after : List ApiLabel}
    (heq : s.stored order order' f t = before ++ l :: after) :
    (t.storeLabels ((s.stored order order' f t).map
        ApiLabel.toLabel)).StoredUnderParent l ↔
      forall p, l.parentId = some p ->
        p ∈ (s.stored order order' f t).map ApiLabel.id ->
        p ∈ before.map ApiLabel.id := by
  have hmem : l ∈ s.stored order order' f t := by
    rw [heq]
    exact List.mem_append_right _ List.mem_cons_self
  have hl : l ∈ s.labels := gathered_subset (stored_subset hmem)
  rw [LabelTable.storedUnderParent_iff heq stored_nodup]
  constructor
  · intro h p hp hmem
    rcases h p hp ((LabelTable.stores_storeLabels t _).mpr (Or.inr hmem)) with
      (hstored | hbefore) | hself
    · exact absurd hstored (not_stores_stored hnew hmem)
    · exact hbefore
    · have hedge : IsParent s.labels p l.id := ⟨l, hl, rfl, hp⟩
      rw [hself] at hedge
      exact absurd (TransGen.single hedge) (s.acyclic l.id)
  · intro h p hp hstores
    rcases (LabelTable.stores_storeLabels t _).mp hstores with
      hstored | hmem
    · exact Or.inl (Or.inl hstored)
    · exact Or.inl (Or.inr (h p hp hmem))

/--
The requested labels end up in their place in the tree, with all above them,
if every missing ancestor is fetched and an answer that is not sorted has the
parents first.
-/
theorem ancestry_stored (s : LabelServer) (order order' : PopOrder LabelId)
    (f : DependencyFetcher) (t : LabelTable)
    (hclosed : s.ClosedUnderParents t)
    (hnew : forall id, id ∈ f.labelIds -> ¬ t.Stores id) :
    s.AncestryStored f t
        (DependencyFetcher.fetchAndStore (s.api order') order f t).1 ↔
      (s.missingParents f t = ∅ ∨ s.missingGrandparents f t = ∅ ∨
          s.TypesCover f t) ∧
        s.AnswerInOrder f t ∧ s.StoredAncestorsPlaced f t := by
  rw [fetchAndStore_eq, <- @complete_iff s t f order' hclosed]
  constructor
  · intro h
    refine ⟨?_, ?_, ?_⟩
    · intro l hl
      rcases h.stored l hl with ⟨r, hr, hrid, _⟩
      refine ((LabelTable.stores_storeLabels t _).mp ⟨r, hr, hrid⟩).imp_right ?_
      exact mem_stored.mp
    · intro hparents before l after heq p hp hmem
      have hanswer : s.stored order order' f t = s.answer f.labelIds :=
        if_pos hparents
      have hl := mem_answer.mp (heq ▸ List.mem_append_right before
        List.mem_cons_self)
      rw [<- hanswer] at heq hmem
      exact (storedUnderParent_new hnew heq).mp
        (h.stored l ⟨hl.left, l.id, hl.right,
          List.mem_map_of_mem hl.left, ReflTransGen.refl⟩) p hp hmem
    · intro l hl hstored
      exact (storedUnderParent_kept hnew hclosed hl.left hstored).mp
        (h.stored l hl)
  · intro h
    rcases h with ⟨hcomplete, horder, hplaced⟩
    refine ⟨fun r hr => rows_kept hnew hr, ?_⟩
    intro l hl
    rcases hcomplete l hl with hstored | hfetched
    · exact (storedUnderParent_kept hnew hclosed hl.left hstored).mpr
        (hplaced l hl hstored)
    · rcases List.append_of_mem
        (@mem_stored_label s t f order order' l hl.left hfetched) with
        ⟨before, after, heq⟩
      exact (storedUnderParent_new hnew heq).mpr
        (stored_parentsFirst.mpr horder before l after heq)

end Stored

/-!
# A folder and one below it
-/

def family : List ApiLabel :=
  [{ id := "a", labelType := LabelType.folder },
    { id := "b", parentId := some "a", labelType := LabelType.folder }]

theorem family_parent {parent child : LabelId}
    (h : IsParent family parent child) : parent = "a" ∧ child = "b" := by
  rcases h with ⟨l, hl, rfl, hp⟩
  rcases List.mem_cons.mp hl with rfl | hl
  · cases hp
  · rw [List.mem_singleton.mp hl] at hp ⊢
    exact ⟨(Option.some.inj hp).symm, rfl⟩

theorem family_parentsFirst : ParentsFirst family := by
  intro before l after heq p hp _
  cases before with
  | nil =>
      cases heq
      cases hp
  | cons first rest =>
      rcases List.cons_eq_cons.mp heq with ⟨hfirst, hrest⟩
      have hl : l ∈ family := by
        rw [heq]
        exact List.mem_append_right _ List.mem_cons_self
      rw [<- hfirst, (family_parent ⟨l, hl, rfl, hp⟩).left]
      exact List.mem_cons_self

def familyServer (arrange : List ApiLabel -> List ApiLabel)
    (harrange : forall labels, (arrange labels).Perm labels) :
    LabelServer where
  labels := family
  answer := fun ids => arrange (family.filter (fun l => l.id ∈ ids))
  ids_nodup := by decide
  parents_known := by decide
  acyclic := by
    intro id hcycle
    rcases TransGen.tail'_iff.mp hcycle with ⟨_, _, hlast⟩
    rcases TransGen.head'_iff.mp hcycle with ⟨_, hfirst, _⟩
    have hsame := (family_parent hfirst).left.symm.trans
      (family_parent hlast).right
    exact absurd hsame (by decide)
  answer_perm := fun _ => harrange _

def childFirst : LabelServer :=
  familyServer List.reverse List.reverse_perm

def parentFirst : LabelServer :=
  familyServer id (fun labels => List.Perm.refl labels)

def bothRequested : DependencyFetcher where
  labelIds := {"a", "b"}

theorem parentFirst_stored :
    parentFirst.AncestryStored bothRequested DependencyFetcher.noLabels
      (DependencyFetcher.fetchAndStore (parentFirst.api (PopOrder.first _))
        (PopOrder.first _) bothRequested DependencyFetcher.noLabels).1 := by
  have hnone : forall rid, ¬ DependencyFetcher.noLabels.Stores rid := by
    intro rid h
    rcases h with ⟨r, hr, _⟩
    exact absurd hr List.not_mem_nil
  refine (ancestry_stored parentFirst _ _ _ _ ?_ ?_).mpr ⟨?_, ?_, ?_⟩
  · exact fun l _ h => absurd h (hnone l.id)
  · exact fun id _ => hnone id
  · exact Or.inl (by decide)
  · exact fun _ => family_parentsFirst
  · exact fun l _ h => absurd h (hnone l.id)

/-- A child that the server lists first is stored without its parent. -/
theorem childFirst_misplaced :
    ¬ childFirst.AncestryStored bothRequested DependencyFetcher.noLabels
      (DependencyFetcher.fetchAndStore (childFirst.api (PopOrder.first _))
        (PopOrder.first _) bothRequested DependencyFetcher.noLabels).1 := by
  intro h
  have hstored := h.stored
    { id := "b", parentId := some "a", labelType := LabelType.folder }
    ⟨by decide, "b", by decide, by decide, ReflTransGen.refl⟩
  unfold LabelTable.StoredUnderParent at hstored
  revert hstored
  decide

end LabelServer

end Labels
end MailClient
