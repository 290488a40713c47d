import Mathlib.Data.List.AList
import Mathlib.Data.List.Sort
import MailClient.Messages.Ids

/-!
# Labels

The `labels` table and the parts of the `Label` model that read and write it.
A label gets a local id when it is inserted, and a remote id when the server
knows it.
-/

namespace MailClient
namespace Labels

inductive LabelType where
  | label
  | folder
  | system
  deriving DecidableEq, Repr

def mailLabelTypes : List LabelType :=
  [LabelType.label, LabelType.folder, LabelType.system]

structure LabelData where
  remoteId : Option LabelId := none
  localParentId : Option LocalLabelId := none
  remoteParentId : Option LabelId := none
  color : String := ""
  display : Bool := true
  expanded : Bool := false
  labelType : LabelType := LabelType.label
  name : String := ""
  notify : Bool := false
  displayOrder : Nat := 0
  path : Option String := none
  sticky : Bool := false
  lastUnseenMessage : Option String := none
  deriving DecidableEq, Repr

/-- A label in memory; it has no local id before it is saved. -/
structure Label extends LabelData where
  localId : Option LocalLabelId
  deriving DecidableEq, Repr

/-- `deleted` counts the actions that hide the label; `Label` has no such field. -/
structure LabelRow extends LabelData where
  localId : LocalLabelId
  deleted : Nat := 0
  deriving DecidableEq, Repr

/-- The keys of the table: local ids are never used twice. -/
structure LabelTable where
  rows : List LabelRow
  nextId : LocalLabelId
  ids_unique : (rows.map LabelRow.localId).Nodup
  ids_lt : forall r, r ∈ rows -> r.localId < nextId
  remoteIds_unique : forall r r', r ∈ rows -> r' ∈ rows ->
    r.remoteId ≠ none -> r.remoteId = r'.remoteId -> r.localId = r'.localId

/-- A table whose keys can be checked row by row. -/
def LabelTable.ofRows (rows : List LabelRow) (nextId : LocalLabelId)
    (hunique : (rows.map LabelRow.localId).Nodup)
    (hlt : forall r, r ∈ rows -> r.localId < nextId)
    (hremote : forall r, r ∈ rows -> forall r', r' ∈ rows ->
      r.remoteId ≠ none -> r.remoteId = r'.remoteId ->
      r.localId = r'.localId) : LabelTable where
  rows := rows
  nextId := nextId
  ids_unique := hunique
  ids_lt := hlt
  remoteIds_unique := fun r r' hr hr' => hremote r hr r' hr'

/-!
# System labels
-/

/-- `str::parse::<u8>`: digits, with an optional plus sign. -/
def parseU8 (s : String) : Option Nat :=
  let digits :=
    match s.toList with
    | '+' :: rest => rest
    | chars => chars
  if digits ≠ [] ∧ digits.all Char.isDigit then
    let n := digits.foldl (fun n c => 10 * n + (c.toNat - '0'.toNat)) 0
    if n ≤ 255 then some n else none
  else
    none

/-- The remote ids of the variants of `SystemLabel`. -/
def systemLabels : List Nat :=
  [0, 1, 2, 3, 4, 5, 6, 7, 8, 9, 10, 12, 14, 15, 16, 17, 20, 21, 22, 23, 24,
    25, 26]

def fromOptRid (remoteId : Option LabelId) : Option Nat := do
  let rid <- remoteId
  let n <- parseU8 rid
  if n ∈ systemLabels then some n else none

namespace LabelTable

/-!
# Reading
-/

def remoteIdCounterpart (t : LabelTable) (rid : LabelId) :
    Option LocalLabelId :=
  (t.rows.find? (fun r => r.remoteId = some rid)).map LabelRow.localId

def localIdCounterpart (t : LabelTable) (id : LocalLabelId) :
    Option LabelId :=
  (t.rows.find? (fun r => r.localId = id)).bind (fun r => r.remoteId)

/-- A row as a model, with the hook `after_load`. -/
def loadRow (t : LabelTable) (r : LabelRow) : Label :=
  let localParentId :=
    match r.remoteParentId, r.localParentId with
    | some rid, none => t.remoteIdCounterpart rid
    | _, parent => parent
  { r.toLabelData with
    localParentId := localParentId
    localId := some r.localId }

def load (t : LabelTable) (id : LocalLabelId) : Option Label :=
  (t.rows.find? (fun r => r.localId = id)).map t.loadRow

def findByKinds (t : LabelTable) (kinds : List LabelType) : List Label :=
  ((t.rows.filter (fun r => r.labelType ∈ kinds ∧ r.deleted = 0)).insertionSort
    (fun r r' => r.displayOrder ≤ r'.displayOrder)).map t.loadRow

def allMail (t : LabelTable) : List Label :=
  t.findByKinds mailLabelTypes

/-!
# Writing
-/

def setData (id : LocalLabelId) (data : LabelData) (r : LabelRow) : LabelRow :=
  if r.localId = id then { r with toLabelData := data } else r

theorem setData_localId (id : LocalLabelId) (data : LabelData)
    (r : LabelRow) : (setData id data r).localId = r.localId := by
  unfold setData
  split
  · rfl
  · rfl

/-- The remote id of a label is free, or belongs to the row it is written to. -/
def Fits (t : LabelTable) (id : Option LocalLabelId) (data : LabelData) :
    Prop :=
  forall r, r ∈ t.rows -> data.remoteId ≠ none ->
    r.remoteId = data.remoteId -> id = some r.localId

theorem map_setData_localId (t : LabelTable) (id : LocalLabelId)
    (data : LabelData) :
    (t.rows.map (setData id data)).map LabelRow.localId =
      t.rows.map LabelRow.localId := by
  rw [List.map_map]
  exact List.map_congr_left (fun r _ => setData_localId id data r)

def update (t : LabelTable) (id : LocalLabelId) (data : LabelData)
    (hfits : t.Fits (some id) data) : LabelTable where
  rows := t.rows.map (setData id data)
  nextId := t.nextId
  ids_unique := by
    rw [map_setData_localId]
    exact t.ids_unique
  ids_lt := by
    intro r hr
    rcases List.mem_map.mp hr with ⟨old, hold, rfl⟩
    rw [setData_localId]
    exact t.ids_lt old hold
  remoteIds_unique := by
    intro r r' hr hr' hsome heq
    rcases List.mem_map.mp hr with ⟨a, ha, rfl⟩
    rcases List.mem_map.mp hr' with ⟨b, hb, rfl⟩
    rw [setData_localId, setData_localId]
    unfold setData at hsome heq
    by_cases hid : a.localId = id
    · by_cases hid' : b.localId = id
      · rw [hid, hid']
      · rw [if_pos hid] at hsome heq
        rw [if_neg hid'] at heq
        exact absurd (Option.some.inj (hfits b hb hsome heq.symm)).symm hid'
    · rw [if_neg hid] at hsome heq
      by_cases hid' : b.localId = id
      · rw [if_pos hid'] at heq
        exact absurd (Option.some.inj (hfits a ha (heq ▸ hsome) heq)).symm hid
      · rw [if_neg hid'] at heq
        exact t.remoteIds_unique a b ha hb hsome heq

def insert (t : LabelTable) (data : LabelData) (hfits : t.Fits none data) :
    LabelTable where
  rows := t.rows ++ [{ data with localId := t.nextId }]
  nextId := t.nextId + 1
  ids_unique := by
    rw [List.map_append, List.map_singleton]
    refine List.nodup_append.mpr ⟨t.ids_unique, List.nodup_singleton _, ?_⟩
    intro a ha b hb
    rcases List.mem_map.mp ha with ⟨r, hr, rfl⟩
    rw [List.mem_singleton.mp hb]
    exact Nat.ne_of_lt (t.ids_lt r hr)
  ids_lt := by
    intro r hr
    rcases List.mem_append.mp hr with hr | hr
    · exact Nat.lt_succ_of_lt (t.ids_lt r hr)
    · rw [List.mem_singleton.mp hr]
      exact Nat.lt_succ_self _
  remoteIds_unique := by
    intro r r' hr hr' hsome heq
    rcases List.mem_append.mp hr with hr | hr
    · rcases List.mem_append.mp hr' with hr' | hr'
      · exact t.remoteIds_unique r r' hr hr' hsome heq
      · rw [List.mem_singleton.mp hr'] at heq
        cases hfits r hr (heq ▸ hsome) heq
    · rw [List.mem_singleton.mp hr] at hsome heq ⊢
      rcases List.mem_append.mp hr' with hr' | hr'
      · cases hfits r' hr' hsome heq.symm
      · rw [List.mem_singleton.mp hr']

def beforeSave (t : LabelTable) (l : Label) : Label :=
  match l.remoteId with
  | none => l
  | some rid =>
      match t.rows.find? (fun r => r.remoteId = some rid) with
      | none => l
      | some r =>
          { l with
            localParentId := (t.loadRow r).localParentId
            localId := (t.loadRow r).localId }

theorem beforeSave_fits (t : LabelTable) (l : Label) :
    t.Fits (t.beforeSave l).localId (t.beforeSave l).toLabelData := by
  intro r hr hsome heq
  unfold beforeSave at hsome heq ⊢
  cases hrid : l.remoteId with
  | none =>
      simp only [hrid] at hsome
      exact absurd rfl hsome
  | some rid =>
      simp only [hrid] at heq ⊢
      cases hfind : t.rows.find? (fun r => r.remoteId = some rid) with
      | none =>
          simp only [hfind, hrid] at heq
          have hnone := List.find?_eq_none.mp hfind r hr
          exact absurd (decide_eq_true heq) hnone
      | some found =>
          simp only [hfind] at heq ⊢
          have hmem := List.mem_of_find?_eq_some hfind
          have hfound := List.find?_some hfind
          simp only [decide_eq_true_eq] at hfound
          have hsame := t.remoteIds_unique found r hmem hr (by simp [hfound])
            (hfound.trans heq.symm)
          exact congrArg some hsame

def contains (t : LabelTable) (id : LocalLabelId) : Bool :=
  t.rows.any (fun r => r.localId = id)

theorem contains_iff {t : LabelTable} {id : LocalLabelId} :
    t.contains id = true ↔ id ∈ t.rows.map LabelRow.localId := by
  simp [contains]

theorem Fits.of_absent {t : LabelTable} {id : Option LocalLabelId}
    {data : LabelData} (h : t.Fits id data)
    (habsent : forall i, id = some i -> ¬ t.contains i = true) :
    t.Fits none data := by
  intro r hr hsome heq
  have hid := h r hr hsome heq
  exact absurd (contains_iff.mpr (List.mem_map_of_mem hr)) (habsent _ hid)

/-- A change of the parents only. -/
def setParents (t : LabelTable)
    (parent : LabelRow -> Option LocalLabelId) : LabelTable where
  rows := t.rows.map (fun r => { r with localParentId := parent r })
  nextId := t.nextId
  ids_unique := by
    rw [List.map_map]
    exact t.ids_unique
  ids_lt := by
    intro r hr
    rcases List.mem_map.mp hr with ⟨old, hold, rfl⟩
    exact t.ids_lt old hold
  remoteIds_unique := by
    intro r r' hr hr'
    rcases List.mem_map.mp hr with ⟨a, ha, rfl⟩
    rcases List.mem_map.mp hr' with ⟨b, hb, rfl⟩
    exact t.remoteIds_unique a b ha hb

/-- The parent follows from the remote parent, also if there is none. -/
def afterSave (t : LabelTable) (id : LocalLabelId) (data : LabelData) :
    LabelTable × Label :=
  let parent := data.remoteParentId.bind t.remoteIdCounterpart
  (t.setParents (fun r => if r.localId = id then parent else r.localParentId),
    { data with
      localParentId := parent
      localId := some id })

def save (t : LabelTable) (l : Label) : LabelTable × Label :=
  let l' := t.beforeSave l
  let hfits := t.beforeSave_fits l
  match hid : l'.localId with
  | none =>
      (t.insert l'.toLabelData (hid ▸ hfits)).afterSave t.nextId
        l'.toLabelData
  | some id =>
      if hcontains : t.contains id = true then
        (t.update id l'.toLabelData (hid ▸ hfits)).afterSave id
          l'.toLabelData
      else
        (t.insert l'.toLabelData (hfits.of_absent (fun i hi => by
          cases hid.symm.trans hi
          exact hcontains))).afterSave t.nextId l'.toLabelData

/-- `DELETE`, which clears the parent of the labels below. -/
def deleteByIds (t : LabelTable) (ids : List LocalLabelId) : LabelTable :=
  setParents
    { rows := t.rows.filter (fun r => r.localId ∉ ids)
      nextId := t.nextId
      ids_unique := t.ids_unique.sublist (List.filter_sublist.map _)
      ids_lt := fun r hr => t.ids_lt r (List.mem_of_mem_filter hr)
      remoteIds_unique := fun r r' hr hr' =>
        t.remoteIds_unique r r' (List.mem_of_mem_filter hr)
          (List.mem_of_mem_filter hr') }
    (fun r => r.localParentId.filter (fun parent => parent ∉ ids))

/-!
# What writing does to the ids
-/

def ids (t : LabelTable) : List LocalLabelId :=
  t.rows.map LabelRow.localId

theorem setParents_ids (t : LabelTable)
    (parent : LabelRow -> Option LocalLabelId) :
    (t.setParents parent).ids = t.ids := by
  simp [ids, setParents]

theorem save_ids (t : LabelTable) (l : Label) {id : LocalLabelId}
    (hid : id ∈ t.ids) : id ∈ (t.save l).1.ids := by
  unfold save
  dsimp only
  split
  · unfold afterSave
    rw [setParents_ids]
    simp only [ids, insert, List.map_append, List.mem_append]
    exact Or.inl hid
  · split
    · unfold afterSave
      rw [setParents_ids]
      unfold ids update
      rw [map_setData_localId]
      exact hid
    · unfold afterSave
      rw [setParents_ids]
      simp only [ids, insert, List.map_append, List.mem_append]
      exact Or.inl hid

theorem mem_deleteByIds {t : LabelTable} {removed : List LocalLabelId}
    {id : LocalLabelId} :
    id ∈ (t.deleteByIds removed).ids ↔ id ∈ t.ids ∧ id ∉ removed := by
  unfold deleteByIds
  rw [setParents_ids]
  simp only [ids, List.mem_map, List.mem_filter, decide_eq_true_eq]
  constructor
  · rintro ⟨r, ⟨hr, hkept⟩, rfl⟩
    exact ⟨⟨r, hr, rfl⟩, hkept⟩
  · rintro ⟨⟨r, hr, rfl⟩, hkept⟩
    exact ⟨r, ⟨hr, hkept⟩, rfl⟩

end LabelTable

end Labels
end MailClient
