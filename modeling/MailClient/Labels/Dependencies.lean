import MailClient.Labels.Update

/-!
# Fetching missing labels

Messages and conversations name labels that may not be stored yet.  The missing
ones are fetched by their ids, then their parents, and whole types of labels
when a grandparent is missing as well.
-/

namespace MailClient
namespace Labels

open Foundation

/-- What is asked of the server; it may leave out any label. -/
structure DependencyApi where
  fetchLabelsByIds : Finset LabelId -> List ApiLabel
  fetchLabels : List LabelType -> List ApiLabel
  requested : forall ids l, l ∈ fetchLabelsByIds ids -> l.id ∈ ids

/-!
# Collecting
-/

def LabelTable.labelIsMissing (t : LabelTable) (id : LabelId) : Bool :=
  (t.remoteIdCounterpart id).isNone

/-- The labels that are missing; addresses are fetched one by one. -/
structure DependencyFetcher where
  labelIds : Finset LabelId

namespace DependencyFetcher

def checkLabelId (t : LabelTable) (f : DependencyFetcher) (id : LabelId) :
    DependencyFetcher :=
  if t.labelIsMissing id then { labelIds := insert id f.labelIds } else f

def checkLabelIds (t : LabelTable) (f : DependencyFetcher)
    (ids : List LabelId) : DependencyFetcher :=
  ids.foldl (checkLabelId t) f

/-!
# Fetching
-/

def createParentIdsSet (labels : List ApiLabel) (excluded : Finset LabelId) :
    Finset LabelId :=
  (labels.filterMap ApiLabel.parentId).toFinset \ excluded

def findMissingLabelIds (t : LabelTable) (ids : Finset LabelId) :
    Finset LabelId :=
  ids.filter (fun id => t.labelIsMissing id)

/-- `objs` keeps the first label of each id, as in `topoSort`. -/
def sortLabels (order : PopOrder LabelId) (labels : List ApiLabel) :
    List ApiLabel :=
  ((parentsFirst labels).popAll order).filterMap (fun id =>
    labels.find? (fun l => l.id = id))

def selectedTypes (labels : List ApiLabel) : List LabelType :=
  ((labels.filter (fun l => l.parentId.isSome)).map
    ApiLabel.labelType).eraseDups

/-- The labels of the last round, before they are sorted. -/
def withParents (api : DependencyApi) (t : LabelTable)
    (excluded : Finset LabelId) (labels : List ApiLabel)
    (missingParentsIds : Finset LabelId) : List ApiLabel :=
  let missingParents := api.fetchLabelsByIds missingParentsIds
  let grandparentIds := createParentIdsSet missingParents excluded
  if findMissingLabelIds t grandparentIds = ∅ then
    labels ++ missingParents
  else
    (api.fetchLabels (selectedTypes labels)).filter
      (fun l => t.labelIsMissing l.id) ++ labels

def missingParentsIds (t : LabelTable) (excluded : Finset LabelId)
    (labels : List ApiLabel) : Finset LabelId :=
  findMissingLabelIds t (createParentIdsSet labels excluded)

/-- Labels without missing parents stay in the order of the answer. -/
def fetchLabelParents (api : DependencyApi) (order : PopOrder LabelId)
    (t : LabelTable) (excluded : Finset LabelId) (labels : List ApiLabel) :
    List ApiLabel :=
  if missingParentsIds t excluded labels = ∅ then
    labels
  else
    sortLabels order
      (withParents api t excluded labels (missingParentsIds t excluded labels))

def fetchMissingLabels (api : DependencyApi) (order : PopOrder LabelId)
    (f : DependencyFetcher) (t : LabelTable) : List ApiLabel :=
  fetchLabelParents api order t f.labelIds (api.fetchLabelsByIds f.labelIds)

/--
The labels are stored, and the ids that are returned are called unresolved.
Counters of the new labels start at zero, and queued actions are rebased.
-/
def fetchAndStore (api : DependencyApi) (order : PopOrder LabelId)
    (f : DependencyFetcher) (t : LabelTable) : LabelTable × Finset LabelId :=
  if f.labelIds = ∅ then
    (t, ∅)
  else
    let missingLabels := fetchMissingLabels api order f t
    (t.storeLabels (missingLabels.map ApiLabel.toLabel),
      (missingLabels.map ApiLabel.id).toFinset \ f.labelIds)

end DependencyFetcher

/-- `Message::prune_unresolved_labels`, and that of a conversation. -/
def pruneUnresolvedLabels (labelIds : List LabelId)
    (unresolved : Finset LabelId) : List LabelId :=
  if unresolved = ∅ then labelIds
  else labelIds.filter (fun id => id ∉ unresolved)

/-!
# Storing labels of the server
-/

namespace LabelTable

variable {t : LabelTable} {r : LabelRow} {rid : LabelId}

def Stores (t : LabelTable) (rid : LabelId) : Prop :=
  exists r, r ∈ t.rows ∧ r.remoteId = some rid

theorem labelIsMissing_iff : t.labelIsMissing rid = true ↔ ¬ t.Stores rid := by
  unfold labelIsMissing
  rw [Option.isNone_iff_eq_none, Option.eq_none_iff_forall_not_mem]
  constructor
  · intro hnone hstores
    rcases hstores with ⟨r, hr, hrid⟩
    exact hnone r.localId (remoteIdCounterpart_iff.mpr ⟨r, hr, hrid, rfl⟩)
  · intro hmissing id hid
    rcases remoteIdCounterpart_iff.mp hid with ⟨r, hr, hrid, _⟩
    exact hmissing ⟨r, hr, hrid⟩

theorem stores_save (t : LabelTable) (a : ApiLabel) :
    (t.save a.toLabel).1.Stores rid ↔ t.Stores rid ∨ rid = a.id := by
  have hwrote := t.save_wrote a.toLabel
  rcases hwrote.self with ⟨own, hown, hid, hdata⟩
  have howned : own.remoteId = some a.id := remoteId_of_savedData hdata
  constructor
  · intro hstores
    rcases hstores with ⟨r, hr, hrid⟩
    by_cases hlocal : r.localId = t.savedId a.toLabel
    · rw [row_unique _ hr hown (hlocal.trans hid.symm), howned] at hrid
      exact Or.inr (Option.some.inj hrid).symm
    · exact Or.inl ⟨r, (hwrote.others r hlocal).mp hr, hrid⟩
  · intro hstores
    rcases hstores with ⟨r, hr, hrid⟩ | hself
    · by_cases hlocal : r.localId = t.savedId a.toLabel
      · have hself := (savedId_api hr a).mp hlocal
        exact ⟨own, hown, howned.trans (hself.symm.trans hrid)⟩
      · exact ⟨r, (hwrote.others r hlocal).mpr hr, hrid⟩
    · rw [hself]
      exact ⟨own, hown, howned⟩

theorem stores_storeLabels (t : LabelTable) (labels : List ApiLabel) :
    (t.storeLabels (labels.map ApiLabel.toLabel)).Stores rid ↔
      t.Stores rid ∨ rid ∈ labels.map ApiLabel.id := by
  induction labels generalizing t with
  | nil =>
      rw [List.map_nil, List.map_nil]
      exact ⟨Or.inl, fun h => h.resolve_right List.not_mem_nil⟩
  | cons a rest ih =>
      rw [List.map_cons, List.map_cons, List.mem_cons]
      change (storeLabels (t.save a.toLabel).1 _).Stores rid ↔ _
      rw [ih, stores_save, or_assoc]

end LabelTable

/-!
# What is fetched
-/

namespace DependencyFetcher

variable {api : DependencyApi} {order : PopOrder LabelId}
variable {f : DependencyFetcher} {t : LabelTable}

theorem topoSort_eq (order : PopOrder LabelId) (labels : List ApiLabel) :
    topoSort order labels = (sortLabels order labels).map ApiLabel.toLabel := by
  unfold topoSort sortLabels
  rw [List.map_filterMap]

theorem mem_sortLabels {labels : List ApiLabel} {id : LabelId} :
    id ∈ (sortLabels order labels).map ApiLabel.id ↔
      id ∈ labels.map ApiLabel.id ∧ Rooted labels id := by
  rw [<- mem_topoSort order, topoSort_eq, List.map_map, List.mem_map,
    List.mem_map]
  constructor
  · intro h
    rcases h with ⟨l, hl, hid⟩
    exact ⟨l, hl, congrArg some hid⟩
  · intro h
    rcases h with ⟨l, hl, hid⟩
    exact ⟨l, hl, Option.some.inj hid⟩

/-- Everything that the server has answered with and that may be stored. -/
def gathered (api : DependencyApi) (f : DependencyFetcher) (t : LabelTable) :
    List ApiLabel :=
  let labels := api.fetchLabelsByIds f.labelIds
  if missingParentsIds t f.labelIds labels = ∅ then
    labels
  else
    withParents api t f.labelIds labels
      (missingParentsIds t f.labelIds labels)

/-- Labels on or below a cycle of parents are lost when they are sorted. -/
def Fetched (api : DependencyApi) (f : DependencyFetcher) (t : LabelTable)
    (id : LabelId) : Prop :=
  id ∈ (gathered api f t).map ApiLabel.id ∧
    (missingParentsIds t f.labelIds (api.fetchLabelsByIds f.labelIds) = ∅ ∨
      Rooted (gathered api f t) id)

theorem mem_fetchMissingLabels {id : LabelId} :
    id ∈ (fetchMissingLabels api order f t).map ApiLabel.id ↔
      Fetched api f t id := by
  unfold fetchMissingLabels fetchLabelParents Fetched gathered
  dsimp only
  by_cases hnone :
      missingParentsIds t f.labelIds (api.fetchLabelsByIds f.labelIds) = ∅
  · rw [if_pos hnone, if_pos hnone]
    exact ⟨fun h => ⟨h, Or.inl hnone⟩, fun h => h.left⟩
  · rw [if_neg hnone, if_neg hnone, mem_sortLabels]
    exact ⟨fun h => ⟨h.left, Or.inr h.right⟩,
      fun h => ⟨h.left, h.right.resolve_left hnone⟩⟩

theorem not_stores_missingParents {labels : List ApiLabel} {id : LabelId}
    (hid : id ∈ missingParentsIds t f.labelIds labels) : ¬ t.Stores id :=
  LabelTable.labelIsMissing_iff.mp (Finset.mem_filter.mp hid).right

theorem not_stores_fetched {id : LabelId} (h : Fetched api f t id)
    (hother : id ∉ f.labelIds) : ¬ t.Stores id := by
  rcases List.mem_map.mp h.left with ⟨l, hl, rfl⟩
  have hrequested : l ∉ api.fetchLabelsByIds f.labelIds :=
    fun hl => hother (api.requested _ l hl)
  unfold gathered at hl
  dsimp only at hl
  split at hl
  · exact absurd hl hrequested
  · unfold withParents at hl
    dsimp only at hl
    split at hl
    · have hparent := (List.mem_append.mp hl).resolve_left hrequested
      exact not_stores_missingParents (api.requested _ l hparent)
    · have hancestor := (List.mem_append.mp hl).resolve_right hrequested
      exact LabelTable.labelIsMissing_iff.mp
        (List.mem_filter.mp hancestor).right

theorem not_fetched_of_empty (hempty : f.labelIds = ∅) (id : LabelId) :
    ¬ Fetched api f t id := by
  have hnil : api.fetchLabelsByIds f.labelIds = [] := by
    refine List.eq_nil_iff_forall_not_mem.mpr ?_
    intro l hl
    have hid := api.requested _ l hl
    rw [hempty] at hid
    exact absurd hid (Finset.notMem_empty _)
  have hnone :
      missingParentsIds t f.labelIds (api.fetchLabelsByIds f.labelIds) = ∅ := by
    rw [hnil]
    unfold missingParentsIds findMissingLabelIds createParentIdsSet
    rw [List.filterMap_nil, List.toFinset_nil, Finset.empty_sdiff,
      Finset.filter_empty]
  intro h
  have hmem := h.left
  unfold gathered at hmem
  dsimp only at hmem
  rw [if_pos hnone, hnil] at hmem
  cases hmem

theorem stores_fetchAndStore {id : LabelId} :
    (fetchAndStore api order f t).1.Stores id ↔
      t.Stores id ∨ Fetched api f t id := by
  unfold fetchAndStore
  by_cases hempty : f.labelIds = ∅
  · rw [if_pos hempty]
    exact ⟨Or.inl, fun h => h.resolve_right (not_fetched_of_empty hempty id)⟩
  · rw [if_neg hempty, <- @mem_fetchMissingLabels _ order]
    exact LabelTable.stores_storeLabels t _

theorem mem_unresolved {id : LabelId} :
    id ∈ (fetchAndStore api order f t).2 ↔
      Fetched api f t id ∧ id ∉ f.labelIds := by
  unfold fetchAndStore
  by_cases hempty : f.labelIds = ∅
  · rw [if_pos hempty]
    constructor
    · exact fun h => absurd h (Finset.notMem_empty id)
    · exact fun h => absurd h.left (not_fetched_of_empty hempty id)
  · rw [if_neg hempty, <- @mem_fetchMissingLabels _ order]
    dsimp only
    rw [Finset.mem_sdiff, List.mem_toFinset]

/-!
# Unresolved labels
-/

/-- The collected labels that have no row after the fetch. -/
def unstored (api : DependencyApi) (order : PopOrder LabelId)
    (f : DependencyFetcher) (t : LabelTable) : Finset LabelId :=
  f.labelIds.filter
    (fun id => (fetchAndStore api order f t).1.labelIsMissing id)

/-- Every missing label of a message has been collected. -/
def Collected (f : DependencyFetcher) (t : LabelTable)
    (labelIds : List LabelId) : Prop :=
  forall id, id ∈ labelIds -> ¬ t.Stores id -> id ∈ f.labelIds

theorem mem_checkLabelIds {labelIds : List LabelId} {id : LabelId} :
    id ∈ (checkLabelIds t f labelIds).labelIds ↔
      id ∈ f.labelIds ∨ id ∈ labelIds ∧ ¬ t.Stores id := by
  unfold checkLabelIds
  induction labelIds generalizing f with
  | nil => simp
  | cons first rest ih =>
      have hfirst : id ∈ (checkLabelId t f first).labelIds ↔
          id ∈ f.labelIds ∨ id = first ∧ ¬ t.Stores id := by
        unfold checkLabelId
        split
        · rename_i hmissing
          have hnew := LabelTable.labelIsMissing_iff.mp hmissing
          rw [Finset.mem_insert, or_comm]
          exact or_congr Iff.rfl
            ⟨fun h => ⟨h, h ▸ hnew⟩, fun h => h.left⟩
        · rename_i hknown
          rw [LabelTable.labelIsMissing_iff, not_not] at hknown
          exact ⟨Or.inl, fun h => h.resolve_right
            (fun hid => hid.right (hid.left ▸ hknown))⟩
      rw [List.foldl_cons, ih, hfirst, List.mem_cons, or_assoc, or_and_right]

/-- What a message names is collected by checking it. -/
theorem collected_checkLabelIds (f : DependencyFetcher) (t : LabelTable)
    (labelIds : List LabelId) : Collected (checkLabelIds t f labelIds) t labelIds :=
  fun _ hid hmissing => mem_checkLabelIds.mpr (Or.inr ⟨hid, hmissing⟩)

/-- A message keeps exactly the labels that have a row after the fetch. -/
def PrunesUnstored (api : DependencyApi) (order : PopOrder LabelId)
    (f : DependencyFetcher) (t : LabelTable) : Prop :=
  forall labelIds, Collected f t labelIds ->
    pruneUnresolvedLabels labelIds (fetchAndStore api order f t).2 =
      labelIds.filter (fun id =>
        !(fetchAndStore api order f t).1.labelIsMissing id)

/-- Parents that the server is asked for in its second request. -/
def askedParents (api : DependencyApi) (f : DependencyFetcher)
    (t : LabelTable) : Finset LabelId :=
  missingParentsIds t f.labelIds (api.fetchLabelsByIds f.labelIds)

/-- The second answer names no parents that are missing. -/
def NoGrandparents (api : DependencyApi) (f : DependencyFetcher)
    (t : LabelTable) : Prop :=
  missingParentsIds t f.labelIds
    (api.fetchLabelsByIds (askedParents api f t)) = ∅

/-- The label is in an answer, and if it is sorted it is not on or below a cycle. -/
inductive Answered (api : DependencyApi) (f : DependencyFetcher)
    (t : LabelTable) (id : LabelId) : Prop where
  | requested (hnone : askedParents api f t = ∅)
      (hid : id ∈ (api.fetchLabelsByIds f.labelIds).map ApiLabel.id)
  | parents {labels : List ApiLabel} (hsome : askedParents api f t ≠ ∅)
      (hnone : NoGrandparents api f t)
      (hlabels : labels = api.fetchLabelsByIds f.labelIds ++
        api.fetchLabelsByIds (askedParents api f t))
      (hid : id ∈ labels.map ApiLabel.id) (hrooted : Rooted labels id)
  | types {labels : List ApiLabel} (hsome : askedParents api f t ≠ ∅)
      (hmissing : ¬ NoGrandparents api f t)
      (hlabels : labels = (api.fetchLabels
        (selectedTypes (api.fetchLabelsByIds f.labelIds))).filter
          (fun l => t.labelIsMissing l.id) ++ api.fetchLabelsByIds f.labelIds)
      (hid : id ∈ labels.map ApiLabel.id) (hrooted : Rooted labels id)

theorem fetched_iff_answered {id : LabelId} :
    Fetched api f t id ↔ Answered api f t id := by
  by_cases hparents : askedParents api f t = ∅
  · have hgathered : gathered api f t = api.fetchLabelsByIds f.labelIds :=
      if_pos hparents
    unfold Fetched
    rw [hgathered]
    constructor
    · exact fun h => Answered.requested hparents h.left
    · intro h
      cases h with
      | requested _ hid => exact ⟨hid, Or.inl hparents⟩
      | parents hsome _ _ _ _ => exact absurd hparents hsome
      | types hsome _ _ _ _ => exact absurd hparents hsome
  · have hgathered : gathered api f t = withParents api t f.labelIds
        (api.fetchLabelsByIds f.labelIds) (askedParents api f t) :=
      if_neg hparents
    by_cases hgrand : NoGrandparents api f t
    · have hlabels := hgathered.trans (if_pos hgrand)
      constructor
      · exact fun h => Answered.parents hparents hgrand hlabels h.left
          (h.right.resolve_left hparents)
      · intro h
        cases h with
        | requested hnone _ => exact absurd hnone hparents
        | parents _ _ heq hid hrooted =>
            rw [heq, <- hlabels] at hid hrooted
            exact ⟨hid, Or.inr hrooted⟩
        | types _ hmissing _ _ _ => exact absurd hgrand hmissing
    · have hlabels := hgathered.trans (if_neg hgrand)
      constructor
      · exact fun h => Answered.types hparents hgrand hlabels h.left
          (h.right.resolve_left hparents)
      · intro h
        cases h with
        | requested hnone _ => exact absurd hnone hparents
        | parents _ hnone _ _ _ => exact absurd hnone hgrand
        | types _ _ heq hid hrooted =>
            rw [heq, <- hlabels] at hid hrooted
            exact ⟨hid, Or.inr hrooted⟩

def AllFetched (api : DependencyApi) (f : DependencyFetcher)
    (t : LabelTable) : Prop :=
  forall id, id ∈ f.labelIds -> t.Stores id ∨ Answered api f t id

def OnlyRequestedFetched (api : DependencyApi) (f : DependencyFetcher)
    (t : LabelTable) : Prop :=
  forall id, Answered api f t id -> id ∈ f.labelIds

theorem mem_unstored {id : LabelId} :
    id ∈ unstored api order f t ↔
      id ∈ f.labelIds ∧ ¬ (t.Stores id ∨ Fetched api f t id) := by
  unfold unstored
  rw [Finset.mem_filter, LabelTable.labelIsMissing_iff, stores_fetchAndStore]

theorem unresolved_eq_unstored_iff :
    (fetchAndStore api order f t).2 = unstored api order f t ↔
      AllFetched api f t ∧ OnlyRequestedFetched api f t := by
  constructor
  · intro heq
    constructor
    · intro id hid
      rw [<- fetched_iff_answered]
      by_contra hmissing
      have hmem : id ∈ unstored api order f t :=
        mem_unstored.mpr ⟨hid, hmissing⟩
      rw [<- heq, mem_unresolved] at hmem
      exact hmem.right hid
    · intro id hanswered
      by_contra hother
      have hmem : id ∈ (fetchAndStore api order f t).2 :=
        mem_unresolved.mpr ⟨fetched_iff_answered.mpr hanswered, hother⟩
      rw [heq, mem_unstored] at hmem
      exact hother hmem.left
  · intro h
    refine Finset.ext ?_
    intro id
    rw [mem_unresolved, mem_unstored]
    constructor
    · intro hid
      exact absurd (h.right id (fetched_iff_answered.mp hid.left)) hid.right
    · intro hid
      have hknown := h.left id hid.left
      rw [<- fetched_iff_answered] at hknown
      exact absurd hknown hid.right

theorem pruneUnresolvedLabels_eq (labelIds : List LabelId)
    (unresolved : Finset LabelId) :
    pruneUnresolvedLabels labelIds unresolved =
      labelIds.filter (fun id => id ∉ unresolved) := by
  unfold pruneUnresolvedLabels
  split
  · rename_i hnone
    rw [hnone, List.filter_eq_self.mpr]
    intro id _
    exact decide_eq_true (Finset.notMem_empty id)
  · rfl

theorem prunesUnstored_iff :
    PrunesUnstored api order f t ↔ AllFetched api f t := by
  constructor
  · intro h id hid
    have hprune := h [id] (fun other hother _ => by
      rw [List.mem_singleton.mp hother]
      exact hid)
    rw [pruneUnresolvedLabels_eq] at hprune
    have hkept : id ∈ [id].filter
        (fun id => id ∉ (fetchAndStore api order f t).2) :=
      List.mem_filter.mpr ⟨List.mem_singleton_self id,
        decide_eq_true (fun h => (mem_unresolved.mp h).right hid)⟩
    rw [hprune] at hkept
    have hstored := (List.mem_filter.mp hkept).right
    rw [Bool.not_eq_true', Bool.eq_false_iff, ne_eq,
      LabelTable.labelIsMissing_iff, not_not, stores_fetchAndStore,
      fetched_iff_answered] at hstored
    exact hstored
  · intro h labelIds hcollected
    rw [pruneUnresolvedLabels_eq]
    refine List.filter_congr ?_
    intro id hid
    have hstored : t.Stores id ∨ Fetched api f t id := by
      by_cases hknown : t.Stores id
      · exact Or.inl hknown
      · rw [fetched_iff_answered]
        exact h id (hcollected id hid hknown)
    have hresolved : id ∉ (fetchAndStore api order f t).2 := by
      intro hunresolved
      have h' := mem_unresolved.mp hunresolved
      exact h'.right
        (hcollected id hid (not_stores_fetched h'.left h'.right))
    have hmissing :
        ¬ (fetchAndStore api order f t).1.labelIsMissing id = true := by
      rw [LabelTable.labelIsMissing_iff, stores_fetchAndStore]
      exact not_not_intro hstored
    rw [decide_eq_true hresolved, Bool.not_eq_true _ |>.mp hmissing]
    rfl

/--
Both hold exactly when the server answers with every requested label and with
no other one.
-/
theorem unresolved_reported (api : DependencyApi) (order : PopOrder LabelId)
    (f : DependencyFetcher) (t : LabelTable) :
    ((fetchAndStore api order f t).2 = unstored api order f t ∧
        PrunesUnstored api order f t) ↔
      AllFetched api f t ∧ OnlyRequestedFetched api f t := by
  rw [unresolved_eq_unstored_iff, prunesUnstored_iff]
  exact ⟨And.left, fun h => ⟨h, h.left⟩⟩

def emptyAnswers : DependencyApi where
  fetchLabelsByIds := fun _ => []
  fetchLabels := fun _ => []
  requested := fun _ _ hl => nomatch hl

def noLabels : LabelTable :=
  LabelTable.ofRows [] 1 (by decide) (by decide) (by decide)

/-- A label that the server does not know any more is not reported. -/
theorem unknown_not_reported :
    (fetchAndStore emptyAnswers (PopOrder.first LabelId) ⟨{"gone"}⟩
      noLabels).2 ≠
      unstored emptyAnswers (PopOrder.first LabelId) ⟨{"gone"}⟩
        noLabels := by
  decide

end DependencyFetcher

end Labels
end MailClient
