import MailClient.Foundation.Transition
import MailClient.Foundation.Writes
import MailClient.ActionQueue.Store
import MailClient.Messages.Ids

/-!
# The metadata of a draft

Every draft has one row in `draft_metadata`.  The composer reads the row, changes
its copy and saves the whole copy in a transaction of its own, and a save action
keeps its copy while it waits for the server.  The local parts of the actions
read and save the row within one transaction.
-/

namespace MailClient
namespace Drafts

open Foundation
open ActionQueue (ActionId)

abbrev EncryptedPassword := List UInt8

inductive DraftExpirationOption where
  | never
  | oneHour
  | oneDay
  | threeDays
  | custom
  deriving DecidableEq, Repr

inductive DraftExpirationTime where
  | never
  | oneHour
  | oneDay
  | threeDays
  | custom (time : Nat)
  deriving DecidableEq, Repr

inductive ReplyMode where
  | sender
  | all
  | forward
  deriving DecidableEq, Repr

structure DraftMetadata where
  localMessageId : Option LocalMessageId := none
  localConversationId : Option LocalConversationId := none
  localParentId : Option LocalMessageId := none
  replyMode : Option ReplyMode := none
  saveActionId : Option ActionId := none
  sendActionId : Option ActionId := none
  expirationTime : Option Nat := none
  password : Option EncryptedPassword := none
  passwordHint : Option String := none
  expirationOption : DraftExpirationOption := DraftExpirationOption.never
  deriving DecidableEq, Repr

def DraftMetadata.setExpirationTime (m : DraftMetadata) :
    DraftExpirationTime -> DraftMetadata
  | DraftExpirationTime.never =>
      { m with
        expirationTime := none
        expirationOption := DraftExpirationOption.never }
  | DraftExpirationTime.oneHour =>
      { m with
        expirationTime := none
        expirationOption := DraftExpirationOption.oneHour }
  | DraftExpirationTime.oneDay =>
      { m with
        expirationTime := none
        expirationOption := DraftExpirationOption.oneDay }
  | DraftExpirationTime.threeDays =>
      { m with
        expirationTime := none
        expirationOption := DraftExpirationOption.threeDays }
  | DraftExpirationTime.custom v =>
      { m with
        expirationTime := some v
        expirationOption := DraftExpirationOption.custom }

/-!
# Changes of the row
-/

inductive Change where
  | setPassword (password : EncryptedPassword) (hint : Option String)
  | removePassword
  | setExpirationTime (time : DraftExpirationTime)
  /-- The server has moved the draft to another conversation. -/
  | replaceConversation (id : LocalConversationId)
  /-- The local part of a save, with ids for what it may have to create. -/
  | save (action : ActionId) (message : LocalMessageId)
      (conversation : LocalConversationId)
  | send (action : ActionId)
  deriving DecidableEq, Repr

def Change.edit (m : DraftMetadata) : Change -> DraftMetadata
  | setPassword password hint =>
      { m with password := some password, passwordHint := hint }
  | removePassword => { m with password := none, passwordHint := none }
  | setExpirationTime time => m.setExpirationTime time
  | replaceConversation id => { m with localConversationId := some id }
  | save action message conversation =>
      { m with
        localConversationId := some (m.localConversationId.getD conversation)
        localMessageId := some (m.localMessageId.getD message)
        saveActionId := some action }
  | send action => { m with sendActionId := some action }

/-!
# Steps
-/

inductive Call where
  | setPassword (password : EncryptedPassword) (hint : Option String)
  | removePassword
  | setExpirationTime (time : DraftExpirationTime)
  | saveRemote
  | sendRemote
  deriving DecidableEq, Repr

/-- What a call saves when it ends as expected. -/
def Call.change : Call -> Option Change
  | setPassword password hint => some (Change.setPassword password hint)
  | removePassword => some Change.removePassword
  | setExpirationTime time => some (Change.setExpirationTime time)
  | saveRemote => none
  | sendRemote => none

/-- Whether a call goes on after it has read the row. -/
def Call.proceeds (m : DraftMetadata) : Call -> Bool
  | removePassword => m.password.isSome
  | saveRemote => m.localConversationId.isSome
  | _ => true

/-- A call that has read the row and has not ended yet. -/
structure Pending where
  call : Call
  copy : DraftMetadata
  deriving DecidableEq, Repr

inductive Column where
  | localMessageId
  | localConversationId
  | saveActionId
  | sendActionId
  | expirationTime
  | password
  | passwordHint
  | expirationOption
  deriving DecidableEq, Repr

inductive ColumnValue where
  | id (value : Option Nat)
  | password (value : Option EncryptedPassword)
  | text (value : Option String)
  | expiration (value : DraftExpirationOption)
  deriving DecidableEq, Repr

structure ColumnWrite where
  column : Column
  value : ColumnValue
  deriving DecidableEq, Repr

def DraftMetadata.column (m : DraftMetadata) : Column -> ColumnValue
  | Column.localMessageId => ColumnValue.id m.localMessageId
  | Column.localConversationId => ColumnValue.id m.localConversationId
  | Column.saveActionId => ColumnValue.id m.saveActionId
  | Column.sendActionId => ColumnValue.id m.sendActionId
  | Column.expirationTime => ColumnValue.id m.expirationTime
  | Column.password => ColumnValue.password m.password
  | Column.passwordHint => ColumnValue.text m.passwordHint
  | Column.expirationOption => ColumnValue.expiration m.expirationOption

/-- The columns that a change is meant to change. -/
def Change.columns (m : DraftMetadata) : Change -> List Column
  | setPassword _ _ => [Column.password, Column.passwordHint]
  | removePassword => [Column.password, Column.passwordHint]
  | setExpirationTime _ => [Column.expirationTime, Column.expirationOption]
  | replaceConversation _ => [Column.localConversationId]
  | save _ _ _ =>
      if m.localConversationId = none then
        [Column.localMessageId, Column.saveActionId, Column.localConversationId]
      else [Column.localMessageId, Column.saveActionId]
  | send _ => [Column.sendActionId]

def Change.writes (m : DraftMetadata) (change : Change) : List ColumnWrite :=
  (change.columns m).map (fun c =>
    { column := c, value := (change.edit m).column c })

structure MetadataState where
  row : Option DraftMetadata
  pending : List Pending := []
  /-- The columns written on purpose, in the order of the transactions. -/
  written : List ColumnWrite := []
  /-- The row has been deleted. -/
  deleted : Bool := false
  deriving DecidableEq, Repr

namespace MetadataState

/-- `Model::save` of a changed copy: all columns, also of a missing row. -/
def store (s : MetadataState) (copy : DraftMetadata) (change : Change) :
    MetadataState :=
  { s with
    row := some (change.edit copy)
    written := s.written ++ change.writes copy }

def delete (s : MetadataState) : MetadataState :=
  { s with row := none, deleted := true }

def finished (s : MetadataState) (p : Pending) : MetadataState :=
  { s with pending := s.pending.erase p }

end MetadataState

inductive MetadataEvent where
  | read (call : Call)
  | finish (p : Pending)
  | replaceConversation (p : Pending) (id : LocalConversationId)
  /-- The server refuses to update a draft that has been sent. -/
  | alreadySent (p : Pending)
  | fail (p : Pending)
  | save (action : ActionId) (message : LocalMessageId)
      (conversation : LocalConversationId)
  | send (action : ActionId)
  | discard
  deriving DecidableEq, Repr

namespace MetadataState

def next (s : MetadataState) : MetadataEvent -> Option MetadataState
  | MetadataEvent.read call =>
      match s.row with
      | none => none
      | some row =>
          if call.proceeds row then
            some { s with pending := { call := call, copy := row } :: s.pending }
          else some s
  | MetadataEvent.finish p =>
      if p ∈ s.pending then
        match p.call.change with
        | some change => some ((s.finished p).store p.copy change)
        | none =>
            if p.call = Call.sendRemote then some (s.finished p).delete
            else some (s.finished p)
      else none
  | MetadataEvent.replaceConversation p id =>
      if p ∈ s.pending ∧ p.call = Call.saveRemote then
        some ((s.finished p).store p.copy (Change.replaceConversation id))
      else none
  | MetadataEvent.alreadySent p =>
      if p ∈ s.pending ∧ p.call = Call.saveRemote then
        some (s.finished p).delete
      else none
  | MetadataEvent.fail p =>
      if p ∈ s.pending then some (s.finished p) else none
  | MetadataEvent.save action message conversation =>
      match s.row with
      | none => none
      | some row => some (s.store row (Change.save action message conversation))
  | MetadataEvent.send action =>
      match s.row with
      | none => none
      | some row =>
          if row.localMessageId.isSome then
            some (s.store row (Change.send action))
          else none
  | MetadataEvent.discard =>
      match s.row with
      | none => none
      | some _ => some s.delete

end MetadataState

def MetadataRuns (initial : DraftMetadata) :
    TransitionSystem MetadataState MetadataEvent where
  init := fun s => s = { row := some initial }
  step := fun s e s' => s.next e = some s'

/--
The row is still there, and the columns that are not meant to change have kept
the values of the copy.
-/
def Unmoved (s : MetadataState) (copy : DraftMetadata) (change : Change) :
    Prop :=
  exists row, s.row = some row ∧
    forall c, c ∉ change.columns copy -> row.column c = copy.column c

def Fresh (s : MetadataState) : MetadataEvent -> Prop
  | MetadataEvent.finish p =>
      forall change, p.call.change = some change -> Unmoved s p.copy change
  | MetadataEvent.replaceConversation p id =>
      Unmoved s p.copy (Change.replaceConversation id)
  | _ => True

/-!
# What a change writes
-/

namespace Change

theorem edit_of_not_mem {m : DraftMetadata} {change : Change} {c : Column}
    (h : c ∉ change.columns m) : (change.edit m).column c = m.column c := by
  cases change with
  | setPassword password hint =>
      cases c <;> first | rfl | simp [columns] at h
  | removePassword =>
      cases c <;> first | rfl | simp [columns] at h
  | setExpirationTime time =>
      cases time <;> cases c <;> first | rfl | simp [columns] at h
  | replaceConversation id =>
      cases c <;> first | rfl | simp [columns] at h
  | save action message conversation =>
      cases hconversation : m.localConversationId with
      | none =>
          cases c <;> first | rfl | simp [columns, hconversation] at h
      | some id =>
          -- The draft already has a conversation, which the save keeps.
          cases c with
          | localConversationId =>
              simp [edit, DraftMetadata.column, hconversation]
          | localMessageId => simp [columns, hconversation] at h
          | saveActionId => simp [columns, hconversation] at h
          | sendActionId => rfl
          | expirationTime => rfl
          | password => rfl
          | passwordHint => rfl
          | expirationOption => rfl
  | send action =>
      cases c <;> first | rfl | simp [columns] at h

theorem writeAll_of_mem_columns {m : DraftMetadata} {change : Change}
    {c : Column} (h : c ∈ change.columns m) (table : Column -> ColumnValue) :
    writeAll ColumnWrite.column ColumnWrite.value table (change.writes m) c =
      (change.edit m).column c := by
  have hmem : { column := c, value := (change.edit m).column c } ∈
      change.writes m := List.mem_map.mpr ⟨c, h, rfl⟩
  refine writeAll_of_mem hmem ?_ table
  intro w hw hcolumn
  rcases List.mem_map.mp hw with ⟨c', _, rfl⟩
  rw [show c' = c from hcolumn]

theorem writeAll_of_not_mem_columns {m : DraftMetadata} {change : Change}
    {c : Column} (h : c ∉ change.columns m) (table : Column -> ColumnValue) :
    writeAll ColumnWrite.column ColumnWrite.value table (change.writes m) c =
      table c := by
  refine writeAll_of_not_mem ?_ table
  intro w hw hcolumn
  rcases List.mem_map.mp hw with ⟨c', hc', rfl⟩
  exact h (hcolumn ▸ hc')

end Change

/-!
# The invariant
-/

structure Kept (initial : DraftMetadata) (s : MetadataState) : Prop where
  deleted : s.deleted = true ↔ s.row = none
  column : forall row, s.row = some row -> forall c, row.column c =
    writeAll ColumnWrite.column ColumnWrite.value initial.column s.written c

namespace Kept

variable {initial : DraftMetadata} {s s' : MetadataState}

theorem store (h : Kept initial s) {copy : DraftMetadata} {change : Change}
    (hunmoved : Unmoved s copy change) : Kept initial (s.store copy change) := by
  rcases hunmoved with ⟨row, hrow, hsame⟩
  refine ⟨⟨?_, fun heq => nomatch heq⟩, ?_⟩
  · intro hdeleted
    rw [h.deleted.mp hdeleted] at hrow
    cases hrow
  · intro row' hrow' c
    cases hrow'
    show (change.edit copy).column c =
      writeAll ColumnWrite.column ColumnWrite.value initial.column
        (s.written ++ change.writes copy) c
    rw [writeAll_append]
    by_cases hc : c ∈ change.columns copy
    · rw [Change.writeAll_of_mem_columns hc]
    · rw [Change.writeAll_of_not_mem_columns hc, Change.edit_of_not_mem hc,
        <- h.column row hrow c, hsame c hc]

theorem store_row (h : Kept initial s) {row : DraftMetadata}
    (hrow : s.row = some row) (change : Change) :
    Kept initial (s.store row change) :=
  h.store ⟨row, hrow, fun _ _ => rfl⟩

theorem delete (initial : DraftMetadata) (s : MetadataState) :
    Kept initial s.delete where
  deleted := ⟨fun _ => rfl, fun _ => rfl⟩
  column := fun _ heq => nomatch heq

theorem finished (h : Kept initial s) (p : Pending) :
    Kept initial (s.finished p) :=
  ⟨h.deleted, h.column⟩

theorem next (h : Kept initial s) {e : MetadataEvent} (hfresh : Fresh s e)
    (hstep : s.next e = some s') : Kept initial s' := by
  cases e with
  | read call =>
      simp only [MetadataState.next] at hstep
      split at hstep
      · cases hstep
      · split at hstep
        · cases hstep
          exact ⟨h.deleted, h.column⟩
        · cases hstep
          exact h
  | finish p =>
      simp only [MetadataState.next] at hstep
      split at hstep
      · split at hstep
        · rename_i change hchange
          cases hstep
          exact (h.finished p).store (hfresh change hchange)
        · split at hstep
          · cases hstep
            exact delete initial _
          · cases hstep
            exact h.finished p
      · cases hstep
  | replaceConversation p id =>
      simp only [MetadataState.next] at hstep
      split at hstep
      · cases hstep
        exact (h.finished p).store hfresh
      · cases hstep
  | alreadySent p =>
      simp only [MetadataState.next] at hstep
      split at hstep
      · cases hstep
        exact delete initial _
      · cases hstep
  | fail p =>
      simp only [MetadataState.next] at hstep
      split at hstep
      · cases hstep
        exact h.finished p
      · cases hstep
  | save action message conversation =>
      simp only [MetadataState.next] at hstep
      split at hstep
      · cases hstep
      · rename_i row hrow
        cases hstep
        exact h.store_row hrow _
  | send action =>
      simp only [MetadataState.next] at hstep
      split at hstep
      · cases hstep
      · rename_i row hrow
        split at hstep
        · cases hstep
          exact h.store_row hrow _
        · cases hstep
  | discard =>
      simp only [MetadataState.next] at hstep
      split at hstep
      · cases hstep
      · cases hstep
        exact delete initial s

end Kept

/-!
# Main result
-/

theorem edits_kept {initial : DraftMetadata} {s : MetadataState}
    (h : (MetadataRuns initial).ReachableWhen Fresh s) :
    (s.deleted = true ↔ s.row = none) ∧
      forall row, s.row = some row ->
        (forall before w after, s.written = before ++ w :: after ->
          (forall w', w' ∈ after -> w'.column ≠ w.column) ->
          row.column w.column = w.value) ∧
        forall c, (forall w, w ∈ s.written -> w.column ≠ c) ->
          row.column c = initial.column c := by
  have hkept : Kept initial s := by
    refine TransitionSystem.invariant_when (Kept initial) ?_ ?_ h
    · intro s hinit
      rw [show s = { row := some initial } from hinit]
      refine ⟨⟨(fun heq => nomatch heq), (fun heq => nomatch heq)⟩, ?_⟩
      intro row hrow c
      cases hrow
      rfl
    · intro s e s' _ hkept hfresh hstep
      exact hkept.next hfresh hstep
  refine ⟨hkept.deleted, ?_⟩
  intro row hrow
  constructor
  · intro before w after hwritten hlast
    rw [hkept.column row hrow, hwritten, writeAll_of_last hlast]
  · intro c hnever
    rw [hkept.column row hrow, writeAll_of_not_mem hnever]

/-- A call that has read the row of a new draft. -/
def readNew (call : Call) : Pending :=
  { call := call, copy := {} }

theorem consecutive_edits_kept :
    exists s : MetadataState, exists row,
      (MetadataRuns {}).ReachableWhen Fresh s ∧ s.pending = [] ∧
      s.row = some row ∧ row.password = some [7] ∧
      row.expirationOption = DraftExpirationOption.oneDay := by
  let password := Change.setPassword [7] none
  let expiration := Change.setExpirationTime DraftExpirationTime.oneDay
  let protectedRow := password.edit {}
  have hread : (MetadataRuns {}).ReachableWhen Fresh
      { row := some {}, pending := [readNew (Call.setPassword [7] none)] } :=
    TransitionSystem.ReachableWhen.next
      (l := MetadataEvent.read (Call.setPassword [7] none))
      (TransitionSystem.ReachableWhen.start rfl) True.intro rfl
  have hpassword : (MetadataRuns {}).ReachableWhen Fresh
      { row := some protectedRow, written := password.writes {} } := by
    refine TransitionSystem.ReachableWhen.next
      (l := MetadataEvent.finish (readNew (Call.setPassword [7] none)))
      hread ?_ rfl
    intro change hchange
    cases hchange
    exact ⟨_, rfl, fun _ _ => rfl⟩
  have hagain : (MetadataRuns {}).ReachableWhen Fresh
      { row := some protectedRow
        pending := [⟨Call.setExpirationTime DraftExpirationTime.oneDay,
          protectedRow⟩]
        written := password.writes {} } :=
    TransitionSystem.ReachableWhen.next
      (l := MetadataEvent.read
        (Call.setExpirationTime DraftExpirationTime.oneDay))
      hpassword True.intro rfl
  have hexpiration : (MetadataRuns {}).ReachableWhen Fresh
      { row := some (expiration.edit protectedRow)
        written := password.writes {} ++ expiration.writes protectedRow } := by
    refine TransitionSystem.ReachableWhen.next
      (l := MetadataEvent.finish
        ⟨Call.setExpirationTime DraftExpirationTime.oneDay, protectedRow⟩)
      hagain ?_ rfl
    intro change hchange
    cases hchange
    exact ⟨_, rfl, fun _ _ => rfl⟩
  have hkept := (edits_kept hexpiration).right _ rfl
  have hfirst := hkept.left []
    { column := Column.password, value := ColumnValue.password (some [7]) }
    _ rfl (by decide)
  have hlast := hkept.left
    (password.writes {} ++
      [{ column := Column.expirationTime, value := ColumnValue.id none }])
    { column := Column.expirationOption
      value := ColumnValue.expiration DraftExpirationOption.oneDay } [] rfl
    (by decide)
  exact ⟨_, _, hexpiration, rfl, rfl, ColumnValue.password.inj hfirst,
    ColumnValue.expiration.inj hlast⟩

/-- A password is set between the read and the save of an expiration time. -/
def overlappingEdits : List MetadataEvent :=
  [MetadataEvent.read (Call.setExpirationTime DraftExpirationTime.oneDay),
    MetadataEvent.read (Call.setPassword [7] none),
    MetadataEvent.finish (readNew (Call.setPassword [7] none)),
    MetadataEvent.finish
      (readNew (Call.setExpirationTime DraftExpirationTime.oneDay))]

theorem overlappingEdits_lost :
    exists s : MetadataState, (MetadataRuns {}).Reachable s ∧
      List.foldlM MetadataState.next { row := some {} } overlappingEdits =
        some s ∧
      s.pending = [] ∧
      (exists before after, s.written = before ++
          { column := Column.password,
            value := ColumnValue.password (some [7]) } :: after ∧
        forall w, w ∈ after -> w.column ≠ Column.password) ∧
      (exists row, s.row = some row ∧ row.password = none) := by
  have hrun : exists s : MetadataState,
      List.foldlM MetadataState.next { row := some {} } overlappingEdits =
        some s ∧
      s.pending = [] ∧
      (exists before after, s.written = before ++
          { column := Column.password,
            value := ColumnValue.password (some [7]) } :: after ∧
        forall w, w ∈ after -> w.column ≠ Column.password) ∧
      (exists row, s.row = some row ∧ row.password = none) :=
    ⟨_, rfl, rfl, ⟨[], _, rfl, by decide⟩, _, rfl, rfl⟩
  rcases hrun with ⟨s, hs, hrest⟩
  refine ⟨s, ?_, hs, hrest⟩
  exact TransitionSystem.Reachable.replay (fun _ _ _ h => h)
    (TransitionSystem.ReachableWhen.start rfl) hs

end Drafts
end MailClient
