import MailClient.Foundation.Transition
import MailClient.Labels.Refresh

/-!
# Updating a label

The action writes a new name, color, parent and notification setting and keeps
the old values for a revert.  When a save of the server touches the label, the
action is applied again, to what the server has saved.  A save of a label below
this one touches it as well, and then the values that the action takes for the
old ones are its own.
-/

namespace MailClient
namespace Labels

open Foundation

/-!
# The action
-/

structure UpdateValues where
  localParentId : Option LocalLabelId
  name : String
  color : String
  notify : Bool
  displayOrder : Nat
  deriving DecidableEq, Repr

structure Update where
  localId : LocalLabelId
  newValues : UpdateValues
  oldValues : Option UpdateValues := none
  deriving DecidableEq, Repr

inductive UpdateError where
  | labelWithoutIds
  | noOldValues
  deriving DecidableEq, Repr

def Label.updateValues (l : Label) : UpdateValues where
  localParentId := l.localParentId
  name := l.name
  color := l.color
  notify := l.notify
  displayOrder := l.displayOrder

namespace LabelTable

/-- Folders in the order of a query, also those that are marked as deleted. -/
def foldersWithDeleted (t : LabelTable) : List Label :=
  ((t.rows.filter (fun r => r.labelType = LabelType.folder)).insertionSort
    (fun r r' => r.displayOrder ≤ r'.displayOrder)).map t.loadRow

/-- An entry of the map from parents to children. -/
def childrenOf (labels : List Label) (id : LocalLabelId) :
    List LocalLabelId :=
  (labels.filter (fun l => l.localParentId = some id)).filterMap
    Label.localId

def withoutChildren (labels : List Label) (id : LocalLabelId) : List Label :=
  labels.filter (fun l => l.localParentId ≠ some id)

theorem withoutChildren_length (labels : List Label) (id : LocalLabelId) :
    (withoutChildren labels id).length + (childrenOf labels id).length ≤
      labels.length := by
  have hsplit := List.length_eq_length_filter_add
    (f := fun l : Label => decide (l.localParentId = some id)) (l := labels)
  have hchildren := List.length_filterMap_le Label.localId
    (labels.filter (fun l => l.localParentId = some id))
  unfold withoutChildren childrenOf
  simp only [decide_not]
  omega

/-- The children of a label leave the map when the label is visited. -/
def visitDescendants (remaining : List Label)
    (toVisit out : List LocalLabelId) : List LocalLabelId :=
  match toVisit with
  | [] => out
  | id :: rest =>
      let children := childrenOf remaining id
      visitDescendants (withoutChildren remaining id)
        (children.reverse ++ rest) (out ++ children)
termination_by remaining.length + toVisit.length
decreasing_by
  have hlength := withoutChildren_length remaining id
  simp only [List.length_append, List.length_reverse, List.length_cons]
  omega

def findDescendants (t : LabelTable) (id : LocalLabelId) :
    List LocalLabelId :=
  visitDescendants t.foldersWithDeleted [id] []

def maxDescendantsDisplayOrder (t : LabelTable)
    (id : Option LocalLabelId) : Nat :=
  let descendants :=
    match id with
    | some id => (t.findDescendants id).filterMap t.load
    | none => t.findByKinds [LabelType.folder]
  descendants.foldl (fun order l => max order l.displayOrder) 0

end LabelTable

namespace Update

def applyLocal (action : Update) (t : LabelTable) :
    Except UpdateError (Update × LabelTable) :=
  match t.load action.localId with
  | none => Except.error UpdateError.labelWithoutIds
  | some label =>
      let displayOrder :=
        if label.localParentId ≠ action.newValues.localParentId then
          t.maxDescendantsDisplayOrder action.newValues.localParentId + 1
        else
          label.displayOrder
      Except.ok
        ({ action with oldValues := some label.updateValues },
          (t.save { label with
            displayOrder := displayOrder
            localParentId := action.newValues.localParentId
            name := action.newValues.name
            color := action.newValues.color
            notify := action.newValues.notify }).1)

def revertLocal (action : Update) (t : LabelTable) :
    Except UpdateError (Update × LabelTable) :=
  match t.load action.localId, action.oldValues with
  | none, _ => Except.error UpdateError.labelWithoutIds
  | some _, none => Except.error UpdateError.noOldValues
  | some label, some old =>
      Except.ok
        ({ action with oldValues := none },
          (t.save { label with
            localParentId := old.localParentId
            displayOrder := old.displayOrder
            name := old.name
            color := old.color
            notify := old.notify }).1)

def rebaseLocal (changeset : List LocalLabelId) (action : Update)
    (t : LabelTable) : Except UpdateError (Update × LabelTable) :=
  if action.localId ∈ changeset then
    action.applyLocal t
  else
    Except.ok (action, t)

end Update

/-!
# Saves of the server
-/

/-- A created or updated label, with what it adds to the change set. -/
def handleEvent (p : LabelTable × List LocalLabelId) (l : ApiLabel) :
    LabelTable × List LocalLabelId :=
  let (t, label) := p.1.save l.toLabel
  (t, p.2 ++ label.localId.toList ++ label.localParentId.toList)

def handleEvents (t : LabelTable) (labels : List ApiLabel) :
    LabelTable × List LocalLabelId :=
  labels.foldl handleEvent (t, [])

/-!
# What a save writes
-/

namespace LabelTable

variable {t t' : LabelTable} {id : LocalLabelId} {rid : LabelId}

theorem remoteIdCounterpart_iff :
    t.remoteIdCounterpart rid = some id ↔
      exists r, r ∈ t.rows ∧ r.remoteId = some rid ∧ r.localId = id := by
  unfold remoteIdCounterpart
  rw [Option.map_eq_some_iff]
  constructor
  · rintro ⟨r, hfind, hid⟩
    have hrid := List.find?_some hfind
    exact ⟨r, List.mem_of_find?_eq_some hfind, of_decide_eq_true hrid, hid⟩
  · rintro ⟨r, hr, hrid, hid⟩
    cases hfind : t.rows.find? (fun r => r.remoteId = some rid) with
    | none =>
        exact absurd (decide_eq_true hrid) (List.find?_eq_none.mp hfind r hr)
    | some found =>
        have hfound : found.remoteId = some rid := by
          simpa using List.find?_some hfind
        refine ⟨found, rfl, ?_⟩
        rw [<- hid]
        exact t.remoteIds_unique found r (List.mem_of_find?_eq_some hfind) hr
          (by rw [hfound]; exact Option.some_ne_none rid)
          (hfound.trans hrid.symm)

theorem load_of_mem {r : LabelRow} (hr : r ∈ t.rows)
    (hlocal : r.localId = id) : t.load id = some (t.loadRow r) := by
  subst hlocal
  unfold load
  cases hfind : t.rows.find? (fun r' => r'.localId = r.localId) with
  | none =>
      exact absurd (decide_eq_true rfl) (List.find?_eq_none.mp hfind r hr)
  | some found =>
      have hid : found.localId = r.localId := by
        simpa using List.find?_some hfind
      rw [Option.map_some,
        row_unique _ (List.mem_of_find?_eq_some hfind) hr hid]

/-- One row has been written. -/
structure Wrote (t : LabelTable) (id : LocalLabelId) (data : LabelData)
    (t' : LabelTable) : Prop where
  self : exists r, r ∈ t'.rows ∧ r.localId = id ∧ r.toLabelData = data
  others : forall r, r.localId ≠ id -> (r ∈ t'.rows ↔ r ∈ t.rows)

theorem setParents_counterpart (t : LabelTable)
    (parent : LabelRow -> Option LocalLabelId) :
    (t.setParents parent).remoteIdCounterpart = t.remoteIdCounterpart := by
  funext rid
  unfold remoteIdCounterpart setParents
  rw [List.find?_map, Option.map_map]
  rfl

theorem afterSave_wrote {data : LabelData} (h : Wrote t id data t') :
    Wrote t id
      { data with
        localParentId := data.remoteParentId.bind
          (t'.afterSave id data).1.remoteIdCounterpart }
      (t'.afterSave id data).1 := by
  have hcounterpart : (t'.afterSave id data).1.remoteIdCounterpart =
      t'.remoteIdCounterpart := setParents_counterpart _ _
  rw [hcounterpart]
  rcases h.self with ⟨r, hr, hid, hdata⟩
  refine ⟨⟨_, List.mem_map_of_mem hr, hid, ?_⟩, ?_⟩
  · dsimp only
    rw [if_pos hid, <- hdata]
  · intro r' hne
    rw [<- h.others r' hne]
    constructor
    · intro hr'
      rcases List.mem_map.mp hr' with ⟨old, hold, rfl⟩
      dsimp only at hne ⊢
      rw [if_neg hne]
      exact hold
    · intro hr'
      refine List.mem_map.mpr ⟨r', hr', ?_⟩
      dsimp only
      rw [if_neg hne]

theorem update_wrote {data : LabelData} (hfits : t.Fits (some id) data)
    (hcontains : t.contains id = true) :
    Wrote t id data (t.update id data hfits) := by
  rcases List.mem_map.mp (contains_iff.mp hcontains) with ⟨r, hr, hid⟩
  refine ⟨⟨setData id data r, List.mem_map_of_mem hr, ?_, ?_⟩, ?_⟩
  · rw [setData_localId, hid]
  · unfold setData
    rw [if_pos hid]
  · intro r' hne
    constructor
    · intro hr'
      rcases List.mem_map.mp hr' with ⟨old, hold, rfl⟩
      rw [setData_localId] at hne
      unfold setData
      rw [if_neg hne]
      exact hold
    · intro hr'
      refine List.mem_map.mpr ⟨r', hr', ?_⟩
      unfold setData
      rw [if_neg hne]

theorem insert_wrote {data : LabelData} (hfits : t.Fits none data) :
    Wrote t t.nextId data (t.insert data hfits) := by
  refine ⟨⟨{ data with localId := t.nextId },
    List.mem_append_right _ (List.mem_singleton.mpr rfl), rfl, rfl⟩, ?_⟩
  intro r hne
  constructor
  · intro hr
    rcases List.mem_append.mp hr with hr | hr
    · exact hr
    · rw [List.mem_singleton.mp hr] at hne
      exact absurd rfl hne
  · exact fun hr => List.mem_append_left _ hr

/-- The row that a label is written to. -/
def savedId (t : LabelTable) (l : Label) : LocalLabelId :=
  match (t.beforeSave l).localId with
  | none => t.nextId
  | some id => if t.contains id = true then id else t.nextId

/-- The data of a row after a save. -/
def savedData (t' : LabelTable) (l : Label) : LabelData :=
  { l.toLabelData with
    localParentId := l.remoteParentId.bind t'.remoteIdCounterpart }

theorem remoteId_of_savedData {l : Label} {r : LabelRow}
    (h : r.toLabelData = savedData t l) : r.remoteId = l.remoteId := by
  rw [h]
  rfl

theorem remoteParentId_of_savedData {l : Label} {r : LabelRow}
    (h : r.toLabelData = savedData t l) :
    r.remoteParentId = l.remoteParentId := by
  rw [h]
  rfl

theorem beforeSave_savedData (t t' : LabelTable) (l : Label) :
    savedData t' (t.beforeSave l) = savedData t' l := by
  unfold beforeSave
  split
  · rfl
  · split
    · rfl
    · rfl

theorem save_eq (t : LabelTable) (l : Label) :
    exists u, t.save l =
        u.afterSave (t.savedId l) (t.beforeSave l).toLabelData ∧
      Wrote t (t.savedId l) (t.beforeSave l).toLabelData u := by
  unfold save
  dsimp only
  split
  · rename_i hid
    have hsaved : t.savedId l = t.nextId := by
      unfold savedId
      rw [hid]
    rw [hsaved]
    exact ⟨_, rfl, insert_wrote _⟩
  · rename_i id hid
    split
    · rename_i hcontains
      have hsaved : t.savedId l = id := by
        unfold savedId
        rw [hid]
        exact if_pos hcontains
      rw [hsaved]
      exact ⟨_, rfl, update_wrote _ hcontains⟩
    · rename_i hcontains
      have hsaved : t.savedId l = t.nextId := by
        unfold savedId
        rw [hid]
        exact if_neg hcontains
      rw [hsaved]
      exact ⟨_, rfl, insert_wrote _⟩

theorem save_wrote (t : LabelTable) (l : Label) :
    Wrote t (t.savedId l) (savedData (t.save l).1 l) (t.save l).1 := by
  rcases save_eq t l with ⟨u, heq, hwrote⟩
  rw [heq, <- beforeSave_savedData t]
  exact afterSave_wrote hwrote

theorem save_label (t : LabelTable) (l : Label) :
    (t.save l).2 = { savedData (t.save l).1 l with
      localId := some (t.savedId l) } := by
  rcases save_eq t l with ⟨u, heq, _⟩
  rw [heq, <- beforeSave_savedData t]
  unfold savedData afterSave
  dsimp only
  rw [setParents_counterpart]

theorem beforeSave_of_mem {l : Label} {r : LabelRow} (hr : r ∈ t.rows)
    (hrid : l.remoteId = some rid) (hsame : r.remoteId = some rid) :
    (t.beforeSave l).localId = some r.localId := by
  rcases Option.map_eq_some_iff.mp
    (remoteIdCounterpart_iff.mpr ⟨r, hr, hsame, rfl⟩) with
    ⟨found, hfind, hid⟩
  unfold beforeSave
  rw [hrid]
  dsimp only
  rw [hfind, <- hid]
  rfl

theorem savedId_of_contains {l : Label}
    (hid : (t.beforeSave l).localId = some id)
    (hcontains : id ∈ t.rows.map LabelRow.localId) : t.savedId l = id := by
  unfold savedId
  rw [hid]
  exact if_pos (contains_iff.mpr hcontains)

theorem savedId_of_loaded {l : Label} {r : LabelRow} (hr : r ∈ t.rows)
    (hid : l.localId = some r.localId) (hrid : l.remoteId = r.remoteId) :
    t.savedId l = r.localId := by
  refine savedId_of_contains ?_ (List.mem_map_of_mem hr)
  cases hremote : r.remoteId with
  | none =>
      unfold beforeSave
      rw [hrid, hremote]
      exact hid
  | some rid =>
      rw [hremote] at hrid
      exact beforeSave_of_mem hr hrid hremote

theorem savedId_api {r : LabelRow} (hr : r ∈ t.rows) (a : ApiLabel) :
    r.localId = t.savedId a.toLabel ↔ r.remoteId = some a.id := by
  constructor
  · intro hid
    by_cases hknown : exists r', r' ∈ t.rows ∧ r'.remoteId = some a.id
    · rcases hknown with ⟨r', hr', hrid⟩
      rw [savedId_of_contains (beforeSave_of_mem hr' rfl hrid)
        (List.mem_map_of_mem hr')] at hid
      rw [row_unique _ hr hr' hid]
      exact hrid
    · have hnone : t.rows.find? (fun r => r.remoteId = some a.id) = none := by
        rw [List.find?_eq_none]
        intro r' hr' hrid
        exact hknown ⟨r', hr', of_decide_eq_true hrid⟩
      have hbefore : t.beforeSave a.toLabel = a.toLabel := by
        unfold beforeSave ApiLabel.toLabel
        dsimp only
        rw [hnone]
      have hnext : t.savedId a.toLabel = t.nextId := by
        unfold savedId
        rw [hbefore]
        rfl
      rw [hnext] at hid
      exact absurd hid (Nat.ne_of_lt (t.ids_lt r hr))
  · intro hrid
    exact (savedId_of_contains (beforeSave_of_mem hr rfl hrid)
      (List.mem_map_of_mem hr)).symm

/-- Remote ids that are known stay with their labels. -/
def Knows (t t' : LabelTable) : Prop :=
  forall rid id, t.remoteIdCounterpart rid = some id ->
    t'.remoteIdCounterpart rid = some id

theorem Wrote.exists_row {data : LabelData} (h : Wrote t id data t')
    (hrid : forall r, r ∈ t.rows -> r.localId = id ->
      r.remoteId = data.remoteId) {r : LabelRow} (hr : r ∈ t.rows) :
    exists r', r' ∈ t'.rows ∧ r'.localId = r.localId ∧
      r'.remoteId = r.remoteId := by
  by_cases hid : r.localId = id
  · rcases h.self with ⟨r', hr', hid', hdata⟩
    refine ⟨r', hr', hid'.trans hid.symm, ?_⟩
    rw [hrid r hr hid, <- hdata]
  · exact ⟨r, (h.others r hid).mpr hr, rfl, rfl⟩

theorem Wrote.knows {data : LabelData} (h : Wrote t id data t')
    (hrid : forall r, r ∈ t.rows -> r.localId = id ->
      r.remoteId = data.remoteId) : Knows t t' := by
  intro rid q hq
  rcases remoteIdCounterpart_iff.mp hq with ⟨r, hr, hremote, hlocal⟩
  rcases h.exists_row hrid hr with ⟨r', hr', hid', hrid'⟩
  exact remoteIdCounterpart_iff.mpr
    ⟨r', hr', hrid'.trans hremote, hid'.trans hlocal⟩

end LabelTable

/-!
# Parents
-/

/-- The parent of a label is the one that its remote parent id names. -/
def ParentSettled (t : LabelTable) (data : LabelData) : Prop :=
  forall id, data.localParentId = some id ->
    data.remoteParentId.bind t.remoteIdCounterpart = some id

section Parents

variable {t t' : LabelTable} {data : LabelData}

theorem ParentSettled.knows (h : ParentSettled t data)
    (hknows : t.Knows t') : ParentSettled t' data := by
  intro id hid
  rcases Option.bind_eq_some_iff.mp (h id hid) with ⟨rid, hrid, hparent⟩
  exact Option.bind_eq_some_iff.mpr ⟨rid, hrid, hknows rid id hparent⟩

theorem parentSettled_savedData (t : LabelTable) (l : Label) :
    ParentSettled t (LabelTable.savedData t l) :=
  fun _ hid => hid

theorem ParentSettled.loadRow {r : LabelRow}
    (h : ParentSettled t r.toLabelData) :
    (t.loadRow r).localParentId =
      r.remoteParentId.bind t.remoteIdCounterpart := by
  unfold LabelTable.loadRow
  dsimp only
  split
  · rename_i rid hrid _
    rw [hrid]
    rfl
  · rename_i hcase
    cases hparent : r.localParentId with
    | some id => exact (h id hparent).symm
    | none =>
        cases hrid : r.remoteParentId with
        | none => rfl
        | some rid => exact absurd hparent (hcase rid hrid)

end Parents

/-!
# A pending update
-/

/-- The action, the table, and the saved labels since, newest first. -/
structure PendingUpdate where
  table : LabelTable
  action : Update
  saved : List ApiLabel

/-- The values of the server, the parent as it is known here. -/
def ApiLabel.valuesIn (t : LabelTable) (a : ApiLabel) : UpdateValues where
  localParentId := a.parentId.bind t.remoteIdCounterpart
  name := a.name
  color := a.color
  notify := a.notify
  displayOrder := a.order

/-- Every label shows its last saved version, or what it was before. -/
structure LastVersions (before : LabelTable) (saved : List ApiLabel)
    (t : LabelTable) : Prop where
  unsaved : forall r, r ∈ before.rows ->
    (forall a, a ∈ saved -> r.remoteId ≠ some a.id) ->
    exists r', r' ∈ t.rows ∧ r'.localId = r.localId ∧
      (t.loadRow r').updateValues = (t.loadRow r).updateValues
  saved : forall rid a, saved.find? (fun a => a.id = rid) = some a ->
    exists r, r ∈ t.rows ∧ r.remoteId = some rid ∧
      (t.loadRow r).updateValues = a.valuesIn t

namespace PendingUpdate

/-- Saves of the server and the rebase with their change set. -/
def rebase (s : PendingUpdate) (labels : List ApiLabel) :
    Except UpdateError PendingUpdate :=
  (s.action.rebaseLocal (handleEvents s.table labels).2
    (handleEvents s.table labels).1).map (fun p =>
      { table := p.2, action := p.1, saved := labels.reverse ++ s.saved })

def system (t : LabelTable) (localId : LocalLabelId)
    (newValues : UpdateValues) :
    TransitionSystem PendingUpdate (List ApiLabel) where
  init := fun s => exists p,
    Update.applyLocal { localId := localId, newValues := newValues } t =
      Except.ok p ∧
    s = { table := p.2, action := p.1, saved := [] }
  step := fun s labels s' => s.rebase labels = Except.ok s'

def Reverts (before : LabelTable) (s : PendingUpdate) : Prop :=
  exists p, s.action.revertLocal s.table = Except.ok p ∧
    LastVersions before s.saved p.2

/-- A label below the updated one is only saved together with it. -/
def Harmless (s : PendingUpdate) (labels : List ApiLabel) : Prop :=
  forall rid, s.table.localIdCounterpart s.action.localId = some rid ->
    (exists a, a ∈ labels ∧ a.parentId = some rid) ->
    exists a, a ∈ labels ∧ a.id = rid

/-!
# Versions
-/

/-- The last version of a row. -/
def Version (before : LabelTable) (saved : List ApiLabel) (r : LabelRow)
    (v : LabelData) : Prop :=
  match saved.find? (fun a => some a.id = r.remoteId) with
  | some a => v = a.toLabel.toLabelData
  | none => exists r', r' ∈ before.rows ∧ r'.localId = r.localId ∧
      v = r'.toLabelData

/-- The same values, with parents that follow from the same remote parent. -/
structure SameValues (t : LabelTable) (data v : LabelData) : Prop where
  name : data.name = v.name
  color : data.color = v.color
  notify : data.notify = v.notify
  displayOrder : data.displayOrder = v.displayOrder
  remoteParentId : data.remoteParentId = v.remoteParentId
  settled : ParentSettled t data
  settled_version : ParentSettled t v

/-- The row shows its last version, in a table that may still grow. -/
def Shown (before : LabelTable) (saved : List ApiLabel) (t : LabelTable)
    (r : LabelRow) : Prop :=
  exists v, Version before saved r v ∧
    (r.toLabelData = v ∨ SameValues t r.toLabelData v)

/-- A row that shows its last version, and whose parent is settled. -/
def ShownSettled (before : LabelTable) (saved : List ApiLabel)
    (t : LabelTable) (r : LabelRow) : Prop :=
  exists v, Version before saved r v ∧ SameValues t r.toLabelData v

/-- The values that the action keeps are those of the last version. -/
def Owed (before : LabelTable) (saved : List ApiLabel) (t : LabelTable)
    (old : Option UpdateValues) (r : LabelRow) : Prop :=
  exists v values, Version before saved r v ∧ old = some values ∧
    values.name = v.name ∧ values.color = v.color ∧
    values.notify = v.notify ∧ values.displayOrder = v.displayOrder ∧
    r.remoteParentId = v.remoteParentId ∧ ParentSettled t v

/-- All labels but the updated one show their last versions. -/
structure Tracks (before : LabelTable) (saved : List ApiLabel)
    (t : LabelTable) (id : LocalLabelId) (own : LabelRow -> Prop) :
    Prop where
  present : forall r, r ∈ before.rows -> exists r', r' ∈ t.rows ∧
    r'.localId = r.localId ∧ r'.remoteId = r.remoteId
  stored : forall a, a ∈ saved -> exists r, r ∈ t.rows ∧
    r.remoteId = some a.id
  others : forall r, r ∈ t.rows -> r.localId ≠ id ->
    Shown before saved t r
  self : exists r, r ∈ t.rows ∧ r.localId = id ∧ own r

section Versions

variable {before t t' : LabelTable} {saved : List ApiLabel} {r : LabelRow}
  {v : LabelData} {a : ApiLabel} {id : LocalLabelId}
  {old : Option UpdateValues} {own own' : LabelRow -> Prop}

theorem SameValues.knows {data : LabelData} (h : SameValues t data v)
    (hknows : t.Knows t') : SameValues t' data v :=
  { h with
    settled := h.settled.knows hknows
    settled_version := h.settled_version.knows hknows }

theorem Shown.knows (h : Shown before saved t r) (hknows : t.Knows t') :
    Shown before saved t' r := by
  rcases h with ⟨v, hv, hsame⟩
  exact ⟨v, hv, hsame.imp_right (fun hsame => hsame.knows hknows)⟩

theorem ShownSettled.shown (h : ShownSettled before saved t r) :
    Shown before saved t r := by
  rcases h with ⟨v, hv, hsame⟩
  exact ⟨v, hv, Or.inr hsame⟩

theorem SameValues.loadRow (h : SameValues t r.toLabelData v) :
    (t.loadRow r).updateValues =
      (t.loadRow { v with localId := r.localId }).updateValues := by
  have hparent : (t.loadRow r).localParentId =
      (t.loadRow { v with localId := r.localId }).localParentId := by
    rw [h.settled.loadRow, ParentSettled.loadRow h.settled_version,
      h.remoteParentId]
  unfold Label.updateValues
  rw [hparent]
  have hname : (t.loadRow r).name = v.name := h.name
  have hcolor : (t.loadRow r).color = v.color := h.color
  have hnotify : (t.loadRow r).notify = v.notify := h.notify
  have horder : (t.loadRow r).displayOrder = v.displayOrder := h.displayOrder
  rw [hname, hcolor, hnotify, horder]
  rfl

theorem Shown.loadRow (h : Shown before saved t r) :
    exists v, Version before saved r v ∧ (t.loadRow r).updateValues =
      (t.loadRow { v with localId := r.localId }).updateValues := by
  rcases h with ⟨v, hv, rfl | hsame⟩
  · exact ⟨_, hv, rfl⟩
  · exact ⟨v, hv, hsame.loadRow⟩

theorem Tracks.lastVersions
    (h : Tracks before saved t id (Shown before saved t)) :
    LastVersions before saved t := by
  have hshown : forall r, r ∈ t.rows -> Shown before saved t r := by
    intro r hr
    by_cases hid : r.localId = id
    · rcases h.self with ⟨r', hr', hid', hown⟩
      rw [LabelTable.row_unique _ hr hr' (hid.trans hid'.symm)]
      exact hown
    · exact h.others r hr hid
  refine ⟨?_, ?_⟩
  · intro r hr hunsaved
    rcases h.present r hr with ⟨r', hr', hid, hrid⟩
    rcases (hshown r' hr').loadRow with ⟨v, hv, hvalues⟩
    refine ⟨r', hr', hid, ?_⟩
    have hnone : saved.find? (fun a => some a.id = r'.remoteId) = none := by
      rw [List.find?_eq_none]
      intro a ha heq
      exact hunsaved a ha (hrid.symm.trans (of_decide_eq_true heq).symm)
    unfold Version at hv
    rw [hnone] at hv
    rcases hv with ⟨r'', hr'', hid'', rfl⟩
    have hsame := LabelTable.row_unique _ hr'' hr (hid''.trans hid)
    rw [hvalues, hsame]
    rfl
  · intro rid a hfind
    have hrid : a.id = rid := by
      simpa using List.find?_some hfind
    rcases h.stored a (List.mem_of_find?_eq_some hfind) with ⟨r, hr, hremote⟩
    rw [hrid] at hremote
    refine ⟨r, hr, hremote, ?_⟩
    rcases (hshown r hr).loadRow with ⟨v, hv, hvalues⟩
    unfold Version at hv
    simp only [hremote, Option.some.injEq, hfind] at hv
    rw [hvalues, hv]
    have hparent : (t.loadRow { a.toLabel.toLabelData with
        localId := r.localId }).localParentId =
        a.parentId.bind t.remoteIdCounterpart :=
      ParentSettled.loadRow (fun _ hid => (nomatch hid))
    unfold Label.updateValues ApiLabel.valuesIn
    rw [hparent]
    rfl

theorem Version.congr {r' : LabelRow} (h : Version before saved r v)
    (hlocal : r'.localId = r.localId) (hremote : r'.remoteId = r.remoteId) :
    Version before saved r' v := by
  unfold Version at h ⊢
  rw [hremote, hlocal]
  exact h

theorem version_cons (hother : r.remoteId ≠ some a.id) :
    Version before (a :: saved) r v ↔ Version before saved r v := by
  unfold Version
  rw [List.find?_cons_of_neg]
  simpa using fun heq => hother heq.symm

theorem version_self (hself : r.remoteId = some a.id) :
    Version before (a :: saved) r a.toLabel.toLabelData := by
  unfold Version
  rw [List.find?_cons_of_pos (by simp [hself])]

theorem Tracks.kept_rows (h : Tracks before saved t id own)
    (hrows : forall r, r ∈ t.rows -> exists r', r' ∈ t'.rows ∧
      r'.localId = r.localId ∧ r'.remoteId = r.remoteId) :
    (forall r, r ∈ before.rows -> exists r', r' ∈ t'.rows ∧
      r'.localId = r.localId ∧ r'.remoteId = r.remoteId) ∧
    forall a, a ∈ saved -> exists r, r ∈ t'.rows ∧
      r.remoteId = some a.id := by
  refine ⟨?_, ?_⟩
  · intro r hr
    rcases h.present r hr with ⟨r1, hr1, hid1, hrid1⟩
    rcases hrows r1 hr1 with ⟨r2, hr2, hid2, hrid2⟩
    exact ⟨r2, hr2, hid2.trans hid1, hrid2.trans hrid1⟩
  · intro a ha
    rcases h.stored a ha with ⟨r1, hr1, hrid1⟩
    rcases hrows r1 hr1 with ⟨r2, hr2, _, hrid2⟩
    exact ⟨r2, hr2, hrid2.trans hrid1⟩

/-!
# Writing the updated label
-/

theorem Tracks.writeOwn (h : Tracks before saved t id own) {l : Label}
    (hr : r ∈ t.rows) (hid : r.localId = id)
    (hlocal : l.localId = some r.localId) (hremote : l.remoteId = r.remoteId) :
    Tracks before saved (t.save l).1 id (fun r' =>
      r'.remoteId = r.remoteId ∧
        r'.toLabelData = LabelTable.savedData (t.save l).1 l) ∧
      t.Knows (t.save l).1 := by
  have hwrote := t.save_wrote l
  rw [LabelTable.savedId_of_loaded hr hlocal hremote, hid] at hwrote
  have hrid : forall r', r' ∈ t.rows -> r'.localId = id ->
      r'.remoteId = (LabelTable.savedData (t.save l).1 l).remoteId := by
    intro r' hr' hid'
    rw [LabelTable.row_unique _ hr' hr (hid'.trans hid.symm)]
    exact hremote.symm
  have hknows := hwrote.knows hrid
  have hkept := h.kept_rows (fun r => hwrote.exists_row hrid)
  refine ⟨⟨hkept.left, hkept.right, ?_, ?_⟩, hknows⟩
  · intro r' hr' hne
    exact (h.others r' ((hwrote.others r' hne).mp hr') hne).knows hknows
  · rcases hwrote.self with ⟨r', hr', hid', hdata⟩
    exact ⟨r', hr', hid',
      (LabelTable.remoteId_of_savedData hdata).trans hremote, hdata⟩

theorem tracks_applyLocal {action : Update} (hid : action.localId = id)
    (h : Tracks before saved t id (ShownSettled before saved t)) :
    exists p, action.applyLocal t = Except.ok p ∧ p.1.localId = id ∧
      Tracks before saved p.2 id
        (Owed before saved p.2 p.1.oldValues) := by
  rcases h.self with ⟨r, hr, hlocal, v, hv, hsame⟩
  have hload : t.load action.localId = some (t.loadRow r) :=
    LabelTable.load_of_mem hr (hlocal.trans hid.symm)
  unfold Update.applyLocal
  rw [hload]
  refine ⟨_, rfl, hid, ?_⟩
  dsimp only
  generalize hl : ({ t.loadRow r with
    displayOrder :=
      if (t.loadRow r).localParentId ≠ action.newValues.localParentId then
        t.maxDescendantsDisplayOrder action.newValues.localParentId + 1
      else (t.loadRow r).displayOrder
    localParentId := action.newValues.localParentId
    name := action.newValues.name
    color := action.newValues.color
    notify := action.newValues.notify } : Label) = l
  have hremote : l.remoteId = r.remoteId := by
    rw [<- hl]
    rfl
  have hparent : l.remoteParentId = r.remoteParentId := by
    rw [<- hl]
    rfl
  rcases h.writeOwn hr hlocal (by rw [<- hl]; rfl) hremote with
    ⟨htracks, hknows⟩
  refine { htracks with self := ?_ }
  rcases htracks.self with ⟨r', hr', hlocal', hremote', hdata⟩
  refine ⟨r', hr', hlocal', v, _,
    hv.congr (hlocal'.trans hlocal.symm) hremote', rfl, hsame.name,
    hsame.color, hsame.notify, hsame.displayOrder, ?_,
    hsame.settled_version.knows hknows⟩
  rw [LabelTable.remoteParentId_of_savedData hdata, hparent]
  exact hsame.remoteParentId

theorem tracks_revertLocal {action : Update} (hid : action.localId = id)
    (h : Tracks before saved t id
      (Owed before saved t action.oldValues)) :
    exists p, action.revertLocal t = Except.ok p ∧
      Tracks before saved p.2 id (Shown before saved p.2) := by
  rcases h.self with ⟨r, hr, hlocal, v, old, hv, hold, hname, hcolor, hnotify,
    horder, hparent, hsettled⟩
  have hload : t.load action.localId = some (t.loadRow r) :=
    LabelTable.load_of_mem hr (hlocal.trans hid.symm)
  unfold Update.revertLocal
  rw [hload, hold]
  refine ⟨_, rfl, ?_⟩
  dsimp only
  generalize hl : ({ t.loadRow r with
    localParentId := old.localParentId
    displayOrder := old.displayOrder
    name := old.name
    color := old.color
    notify := old.notify } : Label) = l
  rcases h.writeOwn (l := l) hr hlocal (by rw [<- hl]; rfl)
    (by rw [<- hl]; rfl) with ⟨htracks, hknows⟩
  refine { htracks with self := ?_ }
  rcases htracks.self with ⟨r', hr', hlocal', hremote', hdata⟩
  refine ⟨r', hr', hlocal', v, hv.congr (hlocal'.trans hlocal.symm) hremote',
    Or.inr ?_⟩
  rw [hdata]
  refine ⟨?_, ?_, ?_, ?_, ?_, parentSettled_savedData _ _,
    hsettled.knows hknows⟩
  · rw [<- hl]
    exact hname
  · rw [<- hl]
    exact hcolor
  · rw [<- hl]
    exact hnotify
  · rw [<- hl]
    exact horder
  · rw [<- hl]
    exact hparent

/-!
# Saves of the server
-/

/--
The updated label during the saves of one step: it shows the version of the
server once it has been saved, and is owed its old values until then.
-/
structure Own (before : LabelTable) (rid : Option LabelId) (isSaved : Prop)
    (old : Option UpdateValues) (saved : List ApiLabel) (t : LabelTable)
    (r : LabelRow) : Prop where
  remoteId : r.remoteId = rid
  shown : isSaved -> ShownSettled before saved t r
  owed : ¬ isSaved -> Owed before saved t old r

theorem Own.later {rid : Option LabelId} {isSaved : Prop}
    (h : Own before rid isSaved old saved t r) (hknows : t.Knows t')
    (hother : r.remoteId ≠ some a.id) :
    Own before rid (isSaved ∨ some a.id = rid) old (a :: saved) t' r := by
  have hnot : some a.id ≠ rid :=
    fun heq => hother (h.remoteId.trans heq.symm)
  refine ⟨h.remoteId, ?_, ?_⟩
  · rintro (hsaved | heq)
    · rcases h.shown hsaved with ⟨v, hv, hsame⟩
      exact ⟨v, (version_cons hother).mpr hv, hsame.knows hknows⟩
    · exact absurd heq hnot
  · intro hunsaved
    rcases h.owed (fun hsaved => hunsaved (Or.inl hsaved)) with
      ⟨v, values, hv, hold, hname, hcolor, hnotify, horder, hparent,
        hsettled⟩
    exact ⟨v, values, (version_cons hother).mpr hv, hold, hname, hcolor,
      hnotify, horder, hparent, hsettled.knows hknows⟩

theorem shownSettled_saved
    (hdata : r.toLabelData = LabelTable.savedData t a.toLabel) :
    ShownSettled before (a :: saved) t r := by
  refine ⟨a.toLabel.toLabelData,
    version_self (LabelTable.remoteId_of_savedData hdata), ?_⟩
  rw [hdata]
  exact ⟨rfl, rfl, rfl, rfl, rfl, parentSettled_savedData _ _,
    fun _ hid => (nomatch hid)⟩

theorem tracks_save {rid : Option LabelId} {isSaved : Prop}
    (h : Tracks before saved t id (Own before rid isSaved old saved t))
    (a : ApiLabel) :
    Tracks before (a :: saved) (t.save a.toLabel).1 id
      (Own before rid (isSaved ∨ some a.id = rid) old (a :: saved)
        (t.save a.toLabel).1) := by
  have hwrote := t.save_wrote a.toLabel
  have hrid : forall r, r ∈ t.rows -> r.localId = t.savedId a.toLabel ->
      r.remoteId =
        (LabelTable.savedData (t.save a.toLabel).1 a.toLabel).remoteId :=
    fun r hr hid => (LabelTable.savedId_api hr a).mp hid
  have hknows := hwrote.knows hrid
  have hother : forall r, r ∈ t.rows -> r.localId ≠ t.savedId a.toLabel ->
      r.remoteId ≠ some a.id :=
    fun r hr hne heq => hne ((LabelTable.savedId_api hr a).mpr heq)
  have hkept := h.kept_rows (fun r => hwrote.exists_row hrid)
  rcases hwrote.self with ⟨new, hnew, hnewId, hdata⟩
  have hnewRid : new.remoteId = some a.id :=
    LabelTable.remoteId_of_savedData hdata
  refine ⟨hkept.left, ?_, ?_, ?_⟩
  · intro a' ha'
    rcases List.mem_cons.mp ha' with rfl | ha'
    · exact ⟨new, hnew, hnewRid⟩
    · exact hkept.right a' ha'
  · intro r hr hne
    by_cases hsaved : r.localId = t.savedId a.toLabel
    · rw [LabelTable.row_unique _ hr hnew (hsaved.trans hnewId.symm)]
      exact (shownSettled_saved hdata).shown
    · have hold := (hwrote.others r hsaved).mp hr
      rcases (h.others r hold hne).knows hknows with ⟨v, hv, hsame⟩
      exact ⟨v, (version_cons (hother r hold hsaved)).mpr hv, hsame⟩
  · rcases h.self with ⟨r, hr, hid, hown⟩
    by_cases hsaved : r.localId = t.savedId a.toLabel
    · have hself := (LabelTable.savedId_api hr a).mp hsaved
      refine ⟨new, hnew, hnewId.trans (hsaved.symm.trans hid), ?_, ?_, ?_⟩
      · exact hnewRid.trans (hself.symm.trans hown.remoteId)
      · exact fun _ => shownSettled_saved hdata
      · intro hunsaved
        exact absurd (Or.inr (hself.symm.trans hown.remoteId)) hunsaved
    · exact ⟨r, (hwrote.others r hsaved).mpr hr, hid,
        hown.later hknows (hother r hr hsaved)⟩

/-- The label of an event, or the one it names as its parent. -/
def Touches (rid : Option LabelId) (a : ApiLabel) : Prop :=
  some a.id = rid ∨ exists parent, a.parentId = some parent ∧
    rid = some parent

theorem mem_handleEvent {rid : Option LabelId} (hr : r ∈ t.rows)
    (hid : r.localId = id) (hrid : r.remoteId = rid)
    {changeset : List LocalLabelId} (a : ApiLabel) :
    id ∈ (handleEvent (t, changeset) a).2 ↔
      id ∈ changeset ∨ Touches rid a := by
  have hwrote := t.save_wrote a.toLabel
  rcases hwrote.exists_row (fun r' hr' hid' =>
    (LabelTable.savedId_api hr' a).mp hid') hr with ⟨r', hr', hid', hrid'⟩
  have hself : t.savedId a.toLabel = id ↔ some a.id = rid := by
    rw [<- hid, <- hrid, eq_comm, LabelTable.savedId_api hr a, eq_comm]
  have hparent : a.parentId.bind (t.save a.toLabel).1.remoteIdCounterpart =
      some id ↔ exists parent, a.parentId = some parent ∧
        rid = some parent := by
    rw [Option.bind_eq_some_iff]
    refine exists_congr (fun parent => and_congr_right (fun _ => ?_))
    rw [LabelTable.remoteIdCounterpart_iff]
    constructor
    · rintro ⟨r'', hr'', hremote, hlocal⟩
      rw [<- hrid, <- hrid', <- LabelTable.row_unique _ hr'' hr'
        (hlocal.trans (hid'.trans hid).symm)]
      exact hremote
    · intro hremote
      exact ⟨r', hr', hrid'.trans (hrid.trans hremote), hid'.trans hid⟩
  unfold handleEvent Touches
  dsimp only
  rw [LabelTable.save_label]
  simp only [List.mem_append, Option.mem_toList, Option.some.injEq,
    LabelTable.savedData]
  rw [hself, or_assoc]
  exact or_congr_right (or_congr_right hparent)

theorem tracks_handleEvents {rid : Option LabelId} {isSaved : Prop}
    (labels : List ApiLabel) (changeset : List LocalLabelId)
    (h : Tracks before saved t id (Own before rid isSaved old saved t)) :
    Tracks before (labels.reverse ++ saved)
        (labels.foldl handleEvent (t, changeset)).1 id
        (Own before rid
          (isSaved ∨ exists a, a ∈ labels ∧ some a.id = rid) old
          (labels.reverse ++ saved)
          (labels.foldl handleEvent (t, changeset)).1) ∧
      (id ∈ (labels.foldl handleEvent (t, changeset)).2 ↔
        id ∈ changeset ∨ exists a, a ∈ labels ∧ Touches rid a) := by
  induction labels generalizing t changeset saved isSaved with
  | nil => simpa using h
  | cons a rest ih =>
      have hfirst := tracks_save h a
      rcases h.self with ⟨r, hr, hid, hown⟩
      have hrest := ih (handleEvent (t, changeset) a).2 hfirst
      rw [List.foldl_cons, List.reverse_cons, List.append_assoc]
      refine ⟨?_, ?_⟩
      · have hsplit : (isSaved ∨ some a.id = rid) ∨
            (exists a, a ∈ rest ∧ some a.id = rid) ↔
            isSaved ∨ exists a', a' ∈ a :: rest ∧ some a'.id = rid := by
          rw [List.exists_mem_cons_iff, or_assoc]
        rw [<- propext hsplit]
        exact hrest.left
      · rw [List.exists_mem_cons_iff, <- or_assoc,
          <- mem_handleEvent hr hid hown.remoteId a]
        exact hrest.right

/-!
# Runs
-/

/-- What the action keeps is right, and it is still about the same label. -/
def Tracked (before : LabelTable) (id : LocalLabelId) (s : PendingUpdate) :
    Prop :=
  s.action.localId = id ∧ Tracks before s.saved s.table id
    (Owed before s.saved s.table s.action.oldValues)

theorem tracks_refl (hr : r ∈ before.rows)
    (hsettled : ParentSettled before r.toLabelData) :
    Tracks before [] before r.localId (ShownSettled before [] before) := by
  have hversion : forall r, r ∈ before.rows ->
      Version before [] r r.toLabelData :=
    fun r hr => ⟨r, hr, rfl, rfl⟩
  refine ⟨fun r hr => ⟨r, hr, rfl, rfl⟩, fun _ ha => (nomatch ha), ?_, ?_⟩
  · intro r' hr' _
    exact ⟨r'.toLabelData, hversion r' hr', Or.inl rfl⟩
  · exact ⟨r, hr, rfl, r.toLabelData, hversion r hr,
      ⟨rfl, rfl, rfl, rfl, rfl, hsettled, hsettled⟩⟩

theorem Tracked.rebase {s : PendingUpdate} (h : Tracked before id s)
    {labels : List ApiLabel} (hharmless : Harmless s labels) :
    exists s', s.rebase labels = Except.ok s' ∧ Tracked before id s' := by
  rcases h with ⟨hid, htracks⟩
  rcases htracks.self with ⟨r, hr, hlocal, howed⟩
  have hcounterpart : s.table.localIdCounterpart s.action.localId =
      r.remoteId := by
    have hload := LabelTable.load_of_mem hr rfl
    unfold LabelTable.load at hload
    rcases Option.map_eq_some_iff.mp hload with ⟨found, hfind, _⟩
    unfold LabelTable.localIdCounterpart
    rw [hid, <- hlocal, hfind]
    have hfound : found.localId = r.localId := by
      simpa using List.find?_some hfind
    rw [LabelTable.row_unique _ (List.mem_of_find?_eq_some hfind) hr hfound]
    rfl
  have hown : Tracks before s.saved s.table id (Own before r.remoteId False
      s.action.oldValues s.saved s.table) :=
    { htracks with
      self := ⟨r, hr, hlocal, rfl, fun hsaved => hsaved.elim, fun _ => howed⟩ }
  rcases tracks_handleEvents labels [] hown with ⟨hevents, hchangeset⟩
  rw [false_or] at hevents
  have hsaved : id ∈ (handleEvents s.table labels).2 ↔
      exists a, a ∈ labels ∧ some a.id = r.remoteId := by
    refine hchangeset.trans ?_
    constructor
    · rintro (hnone | ⟨a, ha, hself | ⟨parent, hparent, hrid⟩⟩)
      · cases hnone
      · exact ⟨a, ha, hself⟩
      · -- a label below the updated one: only a saved parent is harmless
        rcases hharmless parent (hcounterpart.trans hrid) ⟨a, ha, hparent⟩
          with ⟨a', ha', hid'⟩
        exact ⟨a', ha', by rw [hid', hrid]⟩
    · rintro ⟨a, ha, hself⟩
      exact Or.inr ⟨a, ha, Or.inl hself⟩
  unfold PendingUpdate.rebase Update.rebaseLocal
  rw [hid]
  split
  · rename_i hchanged
    have hshown : Tracks before (labels.reverse ++ s.saved)
        (handleEvents s.table labels).1 id
        (ShownSettled before (labels.reverse ++ s.saved)
          (handleEvents s.table labels).1) := by
      rcases hevents.self with ⟨r', hr', hlocal', hown'⟩
      exact { hevents with
        self := ⟨r', hr', hlocal', hown'.shown (hsaved.mp hchanged)⟩ }
    rcases tracks_applyLocal hid hshown with ⟨p, happly, hpid, hp⟩
    rw [happly]
    exact ⟨_, rfl, hpid, hp⟩
  · rename_i hchanged
    refine ⟨_, rfl, hid, ?_⟩
    rcases hevents.self with ⟨r', hr', hlocal', hown'⟩
    exact { hevents with
      self := ⟨r', hr', hlocal',
        hown'.owed (fun hin => hchanged (hsaved.mpr hin))⟩ }

theorem reverts_of_reachable {newValues : UpdateValues} {s : PendingUpdate}
    (hr : r ∈ before.rows) (hsettled : ParentSettled before r.toLabelData)
    (hreach : TransitionSystem.ReachableWhen
      (system before r.localId newValues) Harmless s) :
    Reverts before s := by
  have htracked : Tracked before r.localId s := by
    refine TransitionSystem.invariant_when (Tracked before r.localId) ?_ ?_
      hreach
    · rintro s ⟨p, hp, rfl⟩
      have hlocal : Update.localId ⟨r.localId, newValues, none⟩ =
          r.localId := rfl
      rcases tracks_applyLocal hlocal (tracks_refl hr hsettled) with
        ⟨p', hp', hid, htracks⟩
      rw [hp] at hp'
      cases hp'
      exact ⟨hid, htracks⟩
    · intro s labels s' _ hinv hharmless hstep
      rcases hinv.rebase hharmless with ⟨t, ht, htracked⟩
      have hsame : Except.ok t = Except.ok s' := ht.symm.trans hstep
      cases hsame
      exact htracked
  rcases tracks_revertLocal htracked.left htracked.right with ⟨p, hp, hshown⟩
  exact ⟨p, hp, hshown.lastVersions⟩

end Versions

end PendingUpdate

end Labels
end MailClient
