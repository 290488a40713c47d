import MailClient.Foundation.TopologicalSort
import MailClient.Labels.Label

/-!
# Refreshing the mailbox

A refresh fetches the server's labels, stores them and deletes the labels that
the server does not list.  The labels to delete are what is left of a map keyed
by the optional remote id, from which the fetched labels have been taken out.
-/

namespace MailClient
namespace Labels

open Foundation

structure ApiLabel where
  id : LabelId
  parentId : Option LabelId := none
  color : String := ""
  order : Nat := 0
  display : Bool := true
  expanded : Bool := false
  labelType : LabelType := LabelType.label
  name : String := ""
  notify : Bool := false
  path : Option String := none
  sticky : Bool := false
  lastUnseenMessage : Option String := none
  deriving DecidableEq, Repr

def ApiLabel.toLabel (l : ApiLabel) : Label where
  localId := none
  remoteId := some l.id
  localParentId := none
  remoteParentId := l.parentId
  color := l.color
  displayOrder := l.order
  display := l.display
  expanded := l.expanded
  labelType := l.labelType
  name := l.name
  notify := l.notify
  path := l.path
  sticky := l.sticky
  lastUnseenMessage := l.lastUnseenMessage

/-!
# Parents first
-/

def addLabel (ids : TopologicalSort LabelId) (l : ApiLabel) :
    TopologicalSort LabelId :=
  match l.parentId with
  | some parentId => ids.addDependency parentId l.id
  | none => ids.insert l.id

def parentsFirst (labels : List ApiLabel) : TopologicalSort LabelId :=
  labels.foldl addLabel (TopologicalSort.empty LabelId)

/--
`objs` keeps the first label of each id.  A popped id without a label is a
parent that the server did not list.
-/
def topoSort (order : PopOrder LabelId) (labels : List ApiLabel) :
    List Label :=
  ((parentsFirst labels).popAll order).filterMap (fun id =>
    (labels.find? (fun l => l.id = id)).map ApiLabel.toLabel)

def IsParent (labels : List ApiLabel) (parent child : LabelId) : Prop :=
  exists l, l ∈ labels ∧ l.id = child ∧ l.parentId = some parent

/-- Neither the label nor one it descends from is its own ancestor. -/
def Rooted (labels : List ApiLabel) (id : LabelId) : Prop :=
  forall ancestor, Relation.ReflTransGen (IsParent labels) ancestor id ->
    ¬ Relation.TransGen (IsParent labels) ancestor ancestor

theorem foldl_addLabel_closed (labels : List ApiLabel)
    {ids : TopologicalSort LabelId} (h : ids.Closed) :
    (labels.foldl addLabel ids).Closed := by
  induction labels generalizing ids with
  | nil => exact h
  | cons l rest ih =>
      apply ih
      unfold addLabel
      cases l.parentId with
      | none => exact h.insert l.id
      | some parentId => exact h.addDependency parentId l.id

theorem foldl_addLabel_edge (labels : List ApiLabel)
    {ids : TopologicalSort LabelId} {parent child : LabelId} :
    (labels.foldl addLabel ids).Edge parent child ↔
      ids.Edge parent child ∨ IsParent labels parent child := by
  induction labels generalizing ids with
  | nil => simp [IsParent]
  | cons l rest ih =>
      have hstep : (addLabel ids l).Edge parent child ↔
          ids.Edge parent child ∨ (l.id = child ∧ l.parentId = some parent) := by
        unfold addLabel TopologicalSort.Edge
        cases hparent : l.parentId with
        | none => simp [TopologicalSort.insert]
        | some parentId =>
            simp only [TopologicalSort.mem_addDependency_edges, Prod.mk.injEq,
              Option.some.injEq]
            constructor
            · rintro (⟨rfl, rfl⟩ | hedge)
              · exact Or.inr ⟨rfl, rfl⟩
              · exact Or.inl hedge
            · rintro (hedge | ⟨rfl, rfl⟩)
              · exact Or.inr hedge
              · exact Or.inl ⟨rfl, rfl⟩
      rw [List.foldl_cons, ih, hstep]
      simp only [IsParent, List.exists_mem_cons_iff, or_assoc]

theorem mem_foldl_addLabel (labels : List ApiLabel)
    {ids : TopologicalSort LabelId} {id : LabelId}
    (hid : id ∈ ids.nodes ∨ id ∈ labels.map ApiLabel.id) :
    id ∈ (labels.foldl addLabel ids).nodes := by
  induction labels generalizing ids with
  | nil => simpa using hid
  | cons l rest ih =>
      apply ih
      rw [List.map_cons, List.mem_cons, <- or_assoc] at hid
      refine hid.imp_left (fun hid => ?_)
      unfold addLabel
      cases l.parentId with
      | none =>
          exact List.mem_insert_iff.mpr hid.symm
      | some parentId =>
          rw [TopologicalSort.mem_addDependency_nodes]
          exact hid.elim (fun h => Or.inr (Or.inr h)) Or.inl

theorem parentsFirst_edge (labels : List ApiLabel) :
    (parentsFirst labels).Edge = IsParent labels := by
  funext parent child
  refine propext ((foldl_addLabel_edge labels).trans ?_)
  simp [TopologicalSort.Edge, TopologicalSort.empty]

theorem mem_topoSort (order : PopOrder LabelId) (labels : List ApiLabel)
    (id : LabelId) :
    some id ∈ (topoSort order labels).map (fun l => l.remoteId) ↔
      id ∈ labels.map ApiLabel.id ∧ Rooted labels id := by
  have hpop := TopologicalSort.mem_popAll
    (foldl_addLabel_closed labels TopologicalSort.closed_empty) order (x := id)
  have hrooted : (parentsFirst labels).Grounded id ↔ Rooted labels id := by
    unfold TopologicalSort.Grounded Rooted
    rw [parentsFirst_edge]
  constructor
  · intro hmem
    rcases List.mem_map.mp hmem with ⟨l, hl, hrid⟩
    rcases List.mem_filterMap.mp hl with ⟨popped, hpopped, hobj⟩
    rcases Option.map_eq_some_iff.mp hobj with ⟨obj, hfind, rfl⟩
    have hobjId := List.find?_some hfind
    simp only [decide_eq_true_eq] at hobjId
    have hsame : popped = id := by
      rw [<- hobjId]
      exact Option.some.inj hrid
    subst hsame
    constructor
    · exact List.mem_map.mpr ⟨obj, List.mem_of_find?_eq_some hfind, hobjId⟩
    · exact hrooted.mp (hpop.mp hpopped).right
  · rintro ⟨hlisted, hid⟩
    have hpopped := hpop.mpr
      ⟨mem_foldl_addLabel labels (Or.inr hlisted), hrooted.mpr hid⟩
    rcases List.mem_map.mp hlisted with ⟨l, hl, rfl⟩
    cases hfind : labels.find? (fun l' => l'.id = l.id) with
    | none =>
        have hnone := List.find?_eq_none.mp hfind l hl
        exact absurd (decide_eq_true rfl) hnone
    | some obj =>
        have hobjId := List.find?_some hfind
        simp only [decide_eq_true_eq] at hobjId
        refine List.mem_map.mpr ⟨obj.toLabel, ?_, congrArg some hobjId⟩
        exact List.mem_filterMap.mpr ⟨l.id, hpopped, by rw [hfind]; rfl⟩

namespace LabelTable

/-!
# The refresh
-/

/-- `collect` into a `HashMap`: a later label replaces one with the same key. -/
def byRemoteId (labels : List Label) :
    AList (fun _ : Option LabelId => Label) :=
  labels.foldl (fun m l => m.insert l.remoteId l) ∅

def withoutLabels (m : AList (fun _ : Option LabelId => Label))
    (labels : List Label) : AList (fun _ : Option LabelId => Label) :=
  labels.foldl (fun m l => m.erase l.remoteId) m

/-- System labels stay, as the server does not return all of them. -/
def labelsToRemove (m : AList (fun _ : Option LabelId => Label)) :
    List LocalLabelId :=
  m.entries.filterMap (fun e =>
    if (fromOptRid e.2.remoteId).isSome then none else e.2.localId)

def storeLabels (t : LabelTable) (labels : List Label) : LabelTable :=
  labels.foldl (fun t l => (t.save l).1) t

/--
The part of the refresh that writes labels.  Rebasing the queued actions
afterwards brings no label back: a pending creation has nothing to rebase.
-/
def refreshMail (t : LabelTable) (order : PopOrder LabelId)
    (server : List ApiLabel) : LabelTable :=
  let allLocalLabels := byRemoteId t.allMail
  let allRemoteLabels := topoSort order server
  let remaining := withoutLabels allLocalLabels allRemoteLabels
  (t.storeLabels allRemoteLabels).deleteByIds (labelsToRemove remaining)

theorem storeLabels_ids (t : LabelTable) (labels : List Label)
    {id : LocalLabelId} (hid : id ∈ t.ids) :
    id ∈ (t.storeLabels labels).ids := by
  induction labels generalizing t with
  | nil => exact hid
  | cons l rest ih => exact ih (t.save l).1 (save_ids t l hid)

theorem lookup_byRemoteId (labels : List Label) (key : Option LabelId) :
    (byRemoteId labels).lookup key =
      labels.reverse.find? (fun l => l.remoteId = key) := by
  unfold byRemoteId
  rw [<- List.foldr_reverse]
  induction labels.reverse with
  | nil => rfl
  | cons l rest ih =>
      rw [List.foldr_cons]
      by_cases hkey : l.remoteId = key
      · subst hkey
        simp
      · rw [AList.lookup_insert_ne (Ne.symm hkey), ih]
        simp [hkey]

theorem lookup_withoutLabels (labels : List Label)
    (m : AList (fun _ : Option LabelId => Label)) (key : Option LabelId) :
    (withoutLabels m labels).lookup key =
      if key ∈ labels.map (fun l => l.remoteId) then none
      else m.lookup key := by
  unfold withoutLabels
  induction labels generalizing m with
  | nil => rfl
  | cons l rest ih =>
      rw [List.foldl_cons, ih]
      by_cases hkey : key = l.remoteId
      · subst hkey
        simp
      · rw [AList.lookup_erase_ne hkey]
        simp [hkey]

theorem mem_labelsToRemove {m : AList (fun _ : Option LabelId => Label)}
    {id : LocalLabelId} :
    id ∈ labelsToRemove m ↔
      exists key l, m.lookup key = some l ∧ fromOptRid l.remoteId = none ∧
        l.localId = some id := by
  unfold labelsToRemove
  rw [List.mem_filterMap]
  constructor
  · rintro ⟨e, he, hid⟩
    split at hid
    · cases hid
    · rename_i hsystem
      exists e.1, e.2
      exact ⟨AList.mem_lookup_iff.mpr he, by simpa using hsystem, hid⟩
  · rintro ⟨key, l, hlookup, hsystem, hid⟩
    exact ⟨⟨key, l⟩, AList.mem_lookup_iff.mp hlookup, by simp [hsystem, hid]⟩

/-!
# What is deleted
-/

/-- The rows that `Label::all_mail` selects. -/
def Visible (r : LabelRow) : Prop :=
  r.labelType ∈ mailLabelTypes ∧ r.deleted = 0

def Deleted (t : LabelTable) (order : PopOrder LabelId)
    (server : List ApiLabel) (r : LabelRow) : Prop :=
  r.localId ∉ (t.refreshMail order server).ids

/-- A visible label that is no system label and that the server does not list. -/
def GoneOnServer (server : List ApiLabel) (r : LabelRow) : Prop :=
  Visible r ∧ fromOptRid r.remoteId = none ∧
    exists rid, r.remoteId = some rid ∧ rid ∉ server.map ApiLabel.id

theorem mem_allMail {t : LabelTable} {l : Label} :
    l ∈ t.allMail ↔ exists r, r ∈ t.rows ∧ Visible r ∧ t.loadRow r = l := by
  unfold allMail findByKinds Visible
  rw [List.mem_map]
  simp only [List.mem_insertionSort, List.mem_filter, decide_eq_true_eq,
    and_assoc]

theorem row_unique (t : LabelTable) {r r' : LabelRow} (hr : r ∈ t.rows)
    (hr' : r' ∈ t.rows) (hid : r.localId = r'.localId) : r = r' :=
  List.inj_on_of_nodup_map t.ids_unique hr hr' hid

theorem exists_lookup {t : LabelTable} {r : LabelRow} (hr : r ∈ t.rows)
    (hvisible : Visible r) :
    exists r', r' ∈ t.rows ∧ Visible r' ∧ r'.remoteId = r.remoteId ∧
      (byRemoteId t.allMail).lookup r.remoteId = some (t.loadRow r') := by
  rw [lookup_byRemoteId]
  cases hfind : t.allMail.reverse.find?
      (fun l => l.remoteId = r.remoteId) with
  | none =>
      have hmem : t.loadRow r ∈ t.allMail := mem_allMail.mpr
        ⟨r, hr, hvisible, rfl⟩
      have hnone := List.find?_eq_none.mp hfind _ (List.mem_reverse.mpr hmem)
      exact absurd (decide_eq_true rfl) hnone
  | some l =>
      have hmem := List.mem_reverse.mp (List.mem_of_find?_eq_some hfind)
      have hkey := List.find?_some hfind
      simp only [decide_eq_true_eq] at hkey
      rcases mem_allMail.mp hmem with ⟨r', hr', hvisible', rfl⟩
      exact ⟨r', hr', hvisible', hkey, rfl⟩

theorem of_lookup {t : LabelTable} {key : Option LabelId} {l : Label}
    (hlookup : (byRemoteId t.allMail).lookup key = some l) :
    exists r, r ∈ t.rows ∧ Visible r ∧ r.remoteId = key ∧
      t.loadRow r = l := by
  rw [lookup_byRemoteId] at hlookup
  have hmem := List.mem_reverse.mp (List.mem_of_find?_eq_some hlookup)
  have hkey := List.find?_some hlookup
  simp only [decide_eq_true_eq] at hkey
  rcases mem_allMail.mp hmem with ⟨r, hr, hvisible, rfl⟩
  exact ⟨r, hr, hvisible, hkey, rfl⟩

/--
The deleted labels are those that the map still holds.  Of the labels without
a remote id it holds one, and it is never taken out.
-/
theorem deleted_iff (t : LabelTable) (order : PopOrder LabelId)
    (server : List ApiLabel) {r : LabelRow} (hr : r ∈ t.rows) :
    t.Deleted order server r ↔
      Visible r ∧ fromOptRid r.remoteId = none ∧
        (forall rid, r.remoteId = some rid ->
          rid ∈ server.map ApiLabel.id -> ¬ Rooted server rid) ∧
        (byRemoteId t.allMail).lookup r.remoteId = some (t.loadRow r) := by
  have hstored : r.localId ∈ (t.storeLabels (topoSort order server)).ids :=
    storeLabels_ids t _ (List.mem_map_of_mem hr)
  unfold Deleted refreshMail
  rw [mem_deleteByIds, mem_labelsToRemove]
  simp only [hstored, true_and, not_not, lookup_withoutLabels]
  constructor
  · rintro ⟨key, l, hlookup, hsystem, hid⟩
    split at hlookup
    · cases hlookup
    · rename_i hkept
      rcases of_lookup hlookup with ⟨r', hr', hvisible, rfl, rfl⟩
      have hsame : r' = r := row_unique t hr' hr (Option.some.inj hid)
      subst hsame
      refine ⟨hvisible, hsystem, ?_, hlookup⟩
      intro rid hrid hlisted hrooted
      rw [hrid] at hkept
      exact hkept ((mem_topoSort order server rid).mpr ⟨hlisted, hrooted⟩)
  · rintro ⟨_, hsystem, hlost, hlookup⟩
    refine ⟨r.remoteId, t.loadRow r, ?_, hsystem, rfl⟩
    rw [if_neg, hlookup]
    intro hkept
    rcases List.mem_map.mp hkept with ⟨l, hl, hrid⟩
    rcases List.mem_filterMap.mp hl with ⟨_, _, hobj⟩
    rcases Option.map_eq_some_iff.mp hobj with ⟨obj, _, rfl⟩
    rw [<- hrid] at hkept
    have hlisted := (mem_topoSort order server obj.id).mp hkept
    exact hlost obj.id hrid.symm hlisted.left hlisted.right

theorem lookup_self {t : LabelTable} {r : LabelRow} (hr : r ∈ t.rows)
    (hvisible : Visible r) (hrid : r.remoteId ≠ none) :
    (byRemoteId t.allMail).lookup r.remoteId = some (t.loadRow r) := by
  rcases exists_lookup hr hvisible with ⟨r', hr', _, hkey, hlookup⟩
  have hid := t.remoteIds_unique r r' hr hr' hrid hkey.symm
  rw [hlookup, row_unique t hr hr' hid]

/--
A refresh deletes exactly the labels that are gone on the server if and only
if every visible label has a remote id and no visible label that the server
lists lies on or below a cycle of parents.
-/
theorem refresh_removes_only_gone_iff (t : LabelTable)
    (order : PopOrder LabelId) (server : List ApiLabel) :
    (forall r, r ∈ t.rows ->
      (t.Deleted order server r ↔ GoneOnServer server r)) ↔
      (forall r, r ∈ t.rows -> Visible r -> r.remoteId ≠ none) ∧
      (forall r, r ∈ t.rows -> Visible r -> fromOptRid r.remoteId = none ->
        forall rid, r.remoteId = some rid -> rid ∈ server.map ApiLabel.id ->
          Rooted server rid) := by
  constructor
  · intro hexact
    constructor
    · intro r hr hvisible hnone
      rcases exists_lookup hr hvisible with
        ⟨r', hr', hvisible', hkey, hlookup⟩
      have hdeleted : t.Deleted order server r' := by
        rw [deleted_iff t order server hr', hkey, hnone]
        rw [hnone] at hlookup
        exact ⟨hvisible', rfl, fun rid hrid => (nomatch hrid), hlookup⟩
      rcases ((hexact r' hr').mp hdeleted).right.right with ⟨rid, hrid, _⟩
      rw [hkey, hnone] at hrid
      cases hrid
    · intro r hr hvisible hsystem rid hrid hlisted
      by_contra hcycle
      have hdeleted : t.Deleted order server r := by
        rw [deleted_iff t order server hr]
        refine ⟨hvisible, hsystem, ?_, lookup_self hr hvisible (by simp [hrid])⟩
        intro other hother _
        rw [hrid] at hother
        cases hother
        exact hcycle
      rcases ((hexact r hr).mp hdeleted).right.right with
        ⟨other, hother, hgone⟩
      rw [hrid] at hother
      cases hother
      exact hgone hlisted
  · rintro ⟨hremote, hrooted⟩ r hr
    rw [deleted_iff t order server hr]
    constructor
    · rintro ⟨hvisible, hsystem, hlost, _⟩
      refine ⟨hvisible, hsystem, ?_⟩
      cases hrid : r.remoteId with
      | none => exact absurd hrid (hremote r hr hvisible)
      | some rid =>
          refine ⟨rid, rfl, fun hlisted => ?_⟩
          exact hlost rid hrid hlisted
            (hrooted r hr hvisible hsystem rid hrid hlisted)
    · rintro ⟨hvisible, hsystem, rid, hrid, hgone⟩
      refine ⟨hvisible, hsystem, ?_, lookup_self hr hvisible (by simp [hrid])⟩
      intro other hother hlisted
      rw [hrid] at hother
      cases hother
      exact absurd hlisted hgone

/-- A label created offline, whose `Create` action is still queued. -/
def createdOffline : LabelRow where
  name := "Receipts"
  localId := 1

theorem createdOffline_lt (r : LabelRow) (hr : r ∈ [createdOffline]) :
    r.localId < 2 := by
  rw [List.mem_singleton.mp hr]
  decide

def offlineTable : LabelTable where
  rows := [createdOffline]
  nextId := 2
  ids_unique := by simp
  ids_lt := createdOffline_lt
  remoteIds_unique := by simp

theorem createdOffline_deleted :
    createdOffline ∈ offlineTable.rows ∧
      ¬ GoneOnServer [] createdOffline ∧
      offlineTable.Deleted (PopOrder.first LabelId) [] createdOffline := by
  refine ⟨List.mem_singleton.mpr rfl, ?_, ?_⟩
  · rintro ⟨_, _, rid, hrid, _⟩
    cases hrid
  · intro hkept
    have hids : (offlineTable.refreshMail (PopOrder.first LabelId) []).ids =
        [] := by decide
    rw [hids] at hkept
    cases hkept

end LabelTable

end Labels
end MailClient
