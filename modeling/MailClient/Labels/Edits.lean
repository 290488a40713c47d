import MailClient.Labels.Update

/-!
# Creating and updating labels

Both actions write the parent that was asked for, and the hook that runs after
every save replaces it by the one that the remote parent id names.
-/

namespace MailClient
namespace Labels

/-!
# The action
-/

structure Create where
  localId : Option LocalLabelId := none
  localParentId : Option LocalLabelId
  labelType : LabelType
  name : String
  color : String
  notify : Bool
  deriving DecidableEq, Repr

namespace Create

def newLabel (action : Create) (t : LabelTable) : Label where
  localId := none
  remoteId := none
  localParentId := action.localParentId
  remoteParentId := none
  color := action.color
  display := true
  displayOrder := t.maxDescendantsDisplayOrder action.localParentId + 1
  expanded := false
  labelType := action.labelType
  name := action.name
  notify := action.notify
  path := none
  sticky := false
  lastUnseenMessage := none

def applyLocal (action : Create) (t : LabelTable) : Create × LabelTable :=
  let (t', label) := t.save (action.newLabel t)
  ({ action with localId := label.localId }, t')

/-- The label that is loaded next is the one that was asked for. -/
def TakesEffect (action : Create) (t : LabelTable) : Prop :=
  exists id label, (action.applyLocal t).1.localId = some id ∧
    (action.applyLocal t).2.load id = some label ∧
    label.name = action.name ∧ label.color = action.color ∧
    label.notify = action.notify ∧
    label.localParentId = action.localParentId

end Create

namespace Update

def TakesEffect (action : Update) (t : LabelTable) : Prop :=
  forall r, r ∈ t.rows -> r.localId = action.localId ->
    exists p label, action.applyLocal t = Except.ok p ∧
      p.2.load action.localId = some label ∧
      label.name = action.newValues.name ∧
      label.color = action.newValues.color ∧
      label.notify = action.newValues.notify ∧
      label.localParentId = action.newValues.localParentId

/-- The row is back, with all its columns. -/
def Undone (action : Update) (t : LabelTable) : Prop :=
  forall r, r ∈ t.rows -> r.localId = action.localId ->
    exists p q, action.applyLocal t = Except.ok p ∧
      p.1.revertLocal p.2 = Except.ok q ∧ r ∈ q.2.rows

end Update

/-!
# Saving a loaded label
-/

namespace LabelTable

variable {t t' : LabelTable} {r : LabelRow} {l : Label}

/-- The parent as the server knows it. -/
def serverParent (t : LabelTable) (data : LabelData) : Option LocalLabelId :=
  data.remoteParentId.bind t.remoteIdCounterpart

theorem save_loaded_rows (hr : r ∈ t.rows) (hid : l.localId = some r.localId)
    (hrid : l.remoteId = r.remoteId) :
    (t.save l).1.rows =
      t.rows.map (setData r.localId (savedData (t.save l).1 l)) := by
  have hbefore : (t.beforeSave l).localId = some r.localId := by
    cases hremote : r.remoteId with
    | none =>
        unfold beforeSave
        rw [hrid, hremote]
        exact hid
    | some rid =>
        rw [hremote] at hrid
        exact beforeSave_of_mem hr hrid hremote
  have hcontains : t.contains r.localId = true :=
    contains_iff.mpr (List.mem_map_of_mem hr)
  rw [<- beforeSave_savedData t]
  unfold save
  dsimp only
  split
  · rename_i hnone
    rw [hbefore] at hnone
    cases hnone
  · rename_i id hsome
    rw [hbefore] at hsome
    cases hsome
    rw [dif_pos hcontains]
    unfold afterSave savedData
    dsimp only
    rw [setParents_counterpart]
    change List.map _ (List.map _ t.rows) = _
    rw [List.map_map]
    refine List.map_congr_left ?_
    intro old _
    unfold setData
    dsimp only [Function.comp_apply]
    by_cases hold : old.localId = r.localId
    · rw [if_pos hold, if_pos hold, if_pos hold]
    · rw [if_neg hold, if_neg hold, if_neg hold]

theorem setData_remoteId {data : LabelData} (hr : r ∈ t.rows)
    (hrid : data.remoteId = r.remoteId) {old : LabelRow}
    (hold : old ∈ t.rows) :
    (setData r.localId data old).remoteId = old.remoteId := by
  unfold setData
  by_cases hid : old.localId = r.localId
  · rw [if_pos hid, row_unique _ hold hr hid]
    exact hrid
  · rw [if_neg hid]

theorem save_loaded_counterpart (hr : r ∈ t.rows)
    (hid : l.localId = some r.localId) (hrid : l.remoteId = r.remoteId) :
    (t.save l).1.remoteIdCounterpart = t.remoteIdCounterpart := by
  have hdata : (savedData (t.save l).1 l).remoteId = r.remoteId := hrid
  funext rid
  refine Option.ext ?_
  intro q
  rw [remoteIdCounterpart_iff, remoteIdCounterpart_iff,
    save_loaded_rows hr hid hrid]
  constructor
  · intro hfound
    rcases hfound with ⟨row, hrow, hremote, hlocal⟩
    rcases List.mem_map.mp hrow with ⟨old, hold, rfl⟩
    rw [setData_remoteId hr hdata hold] at hremote
    rw [setData_localId] at hlocal
    exact ⟨old, hold, hremote, hlocal⟩
  · intro hfound
    rcases hfound with ⟨old, hold, hremote, hlocal⟩
    refine ⟨_, List.mem_map_of_mem hold, ?_, ?_⟩
    · rw [setData_remoteId hr hdata hold]
      exact hremote
    · rw [setData_localId]
      exact hlocal

theorem save_loaded_row (hr : r ∈ t.rows) (hid : l.localId = some r.localId)
    (hrid : l.remoteId = r.remoteId) :
    { r with
      toLabelData := { l.toLabelData with
        localParentId := t.serverParent l.toLabelData } } ∈
      (t.save l).1.rows := by
  rw [save_loaded_rows hr hid hrid]
  refine List.mem_map.mpr ⟨r, hr, ?_⟩
  unfold setData savedData
  rw [if_pos rfl, save_loaded_counterpart hr hid hrid]
  rfl

theorem loadRow_serverParent
    (h : r.localParentId = t.serverParent r.toLabelData) :
    (t.loadRow r).localParentId = t.serverParent r.toLabelData := by
  have hsettled : ParentSettled t r.toLabelData := by
    intro id hid
    rw [<- hid, h]
    rfl
  exact hsettled.loadRow

end LabelTable

/-!
# Updates
-/

namespace Update

variable {t : LabelTable} {r : LabelRow} {action : Update}

/-- What an update saves. -/
def edited (action : Update) (t : LabelTable) (r : LabelRow) : Label :=
  { t.loadRow r with
    displayOrder :=
      if (t.loadRow r).localParentId ≠ action.newValues.localParentId then
        t.maxDescendantsDisplayOrder action.newValues.localParentId + 1
      else
        (t.loadRow r).displayOrder
    localParentId := action.newValues.localParentId
    name := action.newValues.name
    color := action.newValues.color
    notify := action.newValues.notify }

theorem applyLocal_of_mem (hr : r ∈ t.rows)
    (hid : r.localId = action.localId) :
    action.applyLocal t = Except.ok
      ({ action with oldValues := some (t.loadRow r).updateValues },
        (t.save (action.edited t r)).1) := by
  unfold applyLocal
  rw [LabelTable.load_of_mem hr hid]
  rfl

theorem edited_row (hr : r ∈ t.rows) :
    { r with
      toLabelData := { (action.edited t r).toLabelData with
        localParentId := t.serverParent r.toLabelData } } ∈
      (t.save (action.edited t r)).1.rows :=
  LabelTable.save_loaded_row hr rfl rfl

theorem edited_counterpart (hr : r ∈ t.rows) :
    (t.save (action.edited t r)).1.remoteIdCounterpart =
      t.remoteIdCounterpart :=
  LabelTable.save_loaded_counterpart hr rfl rfl

theorem edited_loaded (hr : r ∈ t.rows) (hid : r.localId = action.localId) :
    exists label,
      (t.save (action.edited t r)).1.load action.localId = some label ∧
      label.name = action.newValues.name ∧
      label.color = action.newValues.color ∧
      label.notify = action.newValues.notify ∧
      label.localParentId = t.serverParent r.toLabelData := by
  have hparent : (t.save (action.edited t r)).1.serverParent r.toLabelData =
      t.serverParent r.toLabelData := by
    unfold LabelTable.serverParent
    rw [edited_counterpart hr]
  refine ⟨_, LabelTable.load_of_mem (edited_row hr) hid, rfl, rfl, rfl, ?_⟩
  refine (LabelTable.loadRow_serverParent ?_).trans hparent
  exact hparent.symm

theorem takesEffect_iff : action.TakesEffect t ↔
    forall r, r ∈ t.rows -> r.localId = action.localId ->
      action.newValues.localParentId = t.serverParent r.toLabelData := by
  constructor
  · intro h r hr hid
    rcases h r hr hid with ⟨p, label, hp, hload, _, _, _, hparent⟩
    rcases edited_loaded hr hid with ⟨label', hload', _, _, _, hserver⟩
    rw [applyLocal_of_mem hr hid] at hp
    cases hp
    rw [hload'] at hload
    cases hload
    rw [<- hparent, hserver]
  · intro h r hr hid
    rcases edited_loaded hr hid with ⟨label, hload, hname, hcolor, hnotify,
      hserver⟩
    exact ⟨_, label, applyLocal_of_mem hr hid, hload, hname, hcolor, hnotify,
      hserver.trans (h r hr hid).symm⟩

/-- What a revert saves. -/
def restored (old : UpdateValues) (t : LabelTable) (r : LabelRow) : Label :=
  { t.loadRow r with
    localParentId := old.localParentId
    displayOrder := old.displayOrder
    name := old.name
    color := old.color
    notify := old.notify }

theorem revertLocal_of_mem {old : UpdateValues} (hr : r ∈ t.rows)
    (hid : r.localId = action.localId) (hold : action.oldValues = some old) :
    action.revertLocal t = Except.ok
      ({ action with oldValues := none }, (t.save (restored old t r)).1) := by
  unfold revertLocal
  rw [LabelTable.load_of_mem hr hid, hold]
  rfl

theorem reverted (hr : r ∈ t.rows) (hid : r.localId = action.localId) :
    exists p q, action.applyLocal t = Except.ok p ∧
      p.1.revertLocal p.2 = Except.ok q ∧
      { r with localParentId := t.serverParent r.toLabelData } ∈
        q.2.rows := by
  have hrow : { r with
      toLabelData := { (action.edited t r).toLabelData with
        localParentId := t.serverParent r.toLabelData } } ∈
      (t.save (action.edited t r)).1.rows := edited_row hr
  have hparent : (t.save (action.edited t r)).1.serverParent r.toLabelData =
      t.serverParent r.toLabelData := by
    unfold LabelTable.serverParent
    rw [edited_counterpart hr]
  refine ⟨_, _, applyLocal_of_mem hr hid, revertLocal_of_mem hrow hid rfl, ?_⟩
  have hsaved := LabelTable.save_loaded_row
    (l := restored (t.loadRow r).updateValues
      (t.save (action.edited t r)).1 _) hrow rfl rfl
  rw [<- hparent]
  exact hsaved

theorem undone_iff : action.Undone t ↔
    forall r, r ∈ t.rows -> r.localId = action.localId ->
      r.localParentId = t.serverParent r.toLabelData := by
  constructor
  · intro h r hr hid
    rcases h r hr hid with ⟨p, q, hp, hq, hrow⟩
    rcases reverted hr hid with ⟨p', q', hp', hq', hrow'⟩
    rw [hp] at hp'
    cases hp'
    rw [hq] at hq'
    cases hq'
    exact congrArg (fun r : LabelRow => r.localParentId)
      (LabelTable.row_unique _ hrow hrow' rfl)
  · intro h r hr hid
    rcases reverted hr hid with ⟨p, q, hp, hq, hrow⟩
    rw [<- h r hr hid] at hrow
    exact ⟨p, q, hp, hq, hrow⟩

end Update

/-!
# New labels
-/

theorem Create.applyLocal_loaded (action : Create) (t : LabelTable) :
    exists id label, (action.applyLocal t).1.localId = some id ∧
      (action.applyLocal t).2.load id = some label ∧
      label.name = action.name ∧ label.color = action.color ∧
      label.notify = action.notify ∧ label.localParentId = none := by
  have hwrote := t.save_wrote (action.newLabel t)
  have hlabel := t.save_label (action.newLabel t)
  rcases hwrote.self with ⟨r, hr, hid, hdata⟩
  refine ⟨_, _, congrArg Label.localId hlabel, LabelTable.load_of_mem hr hid,
    ?_, ?_, ?_, ?_⟩
  · exact congrArg LabelData.name hdata
  · exact congrArg LabelData.color hdata
  · exact congrArg LabelData.notify hdata
  · have hparent : r.remoteParentId = none :=
      congrArg LabelData.remoteParentId hdata
    have hnone : r.localParentId = (t.save (action.newLabel t)).1.serverParent
        r.toLabelData := by
      unfold LabelTable.serverParent
      rw [hparent, hdata]
      rfl
    refine (LabelTable.loadRow_serverParent hnone).trans ?_
    unfold LabelTable.serverParent
    rw [hparent]
    rfl

theorem Create.takesEffect_iff {action : Create} {t : LabelTable} :
    action.TakesEffect t ↔ action.localParentId = none := by
  rcases action.applyLocal_loaded t with ⟨id, label, hid, hload, hname,
    hcolor, hnotify, hparent⟩
  constructor
  · intro h
    rcases h with ⟨id', label', hid', hload', _, _, _, hparent'⟩
    rw [hid] at hid'
    cases hid'
    rw [hload] at hload'
    cases hload'
    rw [<- hparent', hparent]
  · intro hnone
    exact ⟨id, label, hid, hload, hname, hcolor, hnotify,
      hparent.trans hnone.symm⟩

/-!
# Local edits
-/

/-- A local edit takes effect and is undone where no parent changes. -/
theorem local_edits (t : LabelTable) (create : Create) (update : Update) :
    (create.TakesEffect t ↔ create.localParentId = none) ∧
      (update.TakesEffect t ↔
        forall r, r ∈ t.rows -> r.localId = update.localId ->
          update.newValues.localParentId = t.serverParent r.toLabelData) ∧
      (update.Undone t ↔
        forall r, r ∈ t.rows -> r.localId = update.localId ->
          r.localParentId = t.serverParent r.toLabelData) :=
  ⟨Create.takesEffect_iff, Update.takesEffect_iff, Update.undone_iff⟩

/-- A folder that the server knows, and one that it does not know. -/
def twoFolders : LabelTable :=
  LabelTable.ofRows
    [{ localId := 1
       remoteId := some "a"
       labelType := LabelType.folder
       name := "A" },
      { localId := 2
        labelType := LabelType.folder
        name := "B" }]
    3 (by decide) (by decide) (by decide)

def newFolder (parent : LocalLabelId) : Create where
  localParentId := some parent
  labelType := LabelType.folder
  name := "C"
  color := "#fff"
  notify := true

/-- A new folder below another one is stored at the top. -/
theorem parent_lost : ¬ (newFolder 1).TakesEffect twoFolders := by
  rw [Create.takesEffect_iff]
  exact Option.some_ne_none 1

end Labels
end MailClient
