import MailClient.ActionQueue.Store
import MailClient.Conversations.OneMessage
import MailClient.Messages.SyncDecision

/-!
# Sending a draft

The local parts of sending a draft and of taking a sent message back.  Both move
the message from some labels into others, and move it back when the action
fails.
-/

namespace MailClient
namespace Drafts
namespace Sending

open ActionQueue (ActionId)
open Conversations (Database Message)
open Messages (MessageFlags)

/-- The columns of a message that only sending uses. -/
structure Columns where
  remoteId : Option MessageId := none
  flags : MessageFlags := 0
  isReplied : Bool := false
  isRepliedAll : Bool := false
  isForwarded : Bool := false
  deriving DecidableEq, Repr

structure Mailbox where
  db : Database
  columns : LocalMessageId -> Columns
  metadata : MetadataId -> Option DraftMetadata

inductive Error where
  | noRecipients
  | scheduleSendMessageLimitExceeded
  | metadataNotFound (id : MetadataId)
  | localDraftWithoutMessage
  | messageMissing (id : LocalMessageId)
  | messageIsNotADraft (id : LocalMessageId)
  | messageHasNoRemoteId (id : LocalMessageId)
  | messageCanNotBeUndoSent (id : LocalMessageId)
  | remoteLabelDoesNotExist (rid : LabelId)
  | shouldBeSet
  | stash
  deriving DecidableEq, Repr

def okOr {α : Type} (e : Error) : Option α -> Except Error α
  | some a => Except.ok a
  | none => Except.error e

/-!
# The remote ids of labels
-/

def allDrafts : LabelId := "1"

def allSent : LabelId := "2"

def sent : LabelId := "7"

def drafts : LabelId := "8"

def outbox : LabelId := "9"

def allScheduled : LabelId := "12"

namespace Mailbox

variable (mb : Mailbox)

def label (rid : LabelId) : Except Error LocalLabelId :=
  okOr (Error.remoteLabelDoesNotExist rid)
    (mb.db.labels.remoteIdCounterpart rid)

/-- The label is among those that the message is loaded with. -/
def shows (id : LocalMessageId) (rid : LabelId) : Bool :=
  (mb.db.labels.remoteIdCounterpart rid).any (fun l =>
    ⟨l, id⟩ ∈ mb.db.messageLabels && !mb.db.isHidden l)

def isDraft (id : LocalMessageId) : Bool :=
  MessageFlags.isDraft (mb.columns id).flags &&
    (mb.shows id allDrafts || mb.shows id drafts)

def isSent (id : LocalMessageId) : Bool :=
  (mb.shows id allSent || mb.shows id sent) &&
    MessageFlags.isSent (mb.columns id).flags

end Mailbox

/-!
# Saving the message
-/

def setTime (time : Option Nat) (m : Message) : Message :=
  { m with time := time.getD m.time }

theorem setTime_keepsKeys (time : Option Nat) :
    Database.KeepsKeys (setTime time) :=
  ⟨fun _ => rfl, fun _ => rfl⟩

namespace Mailbox

def saveMessage (id : LocalMessageId) (flags : MessageFlags -> MessageFlags)
    (time : Option Nat) (mb : Mailbox) : Mailbox :=
  { mb with
    db := mb.db.saveMessages [id] (setTime time) (setTime_keepsKeys time)
    columns := Function.update mb.columns id
      { mb.columns id with flags := flags (mb.columns id).flags } }

/-- The calls that take labels off the message and put others on it. -/
def moveLabels (off on : List LocalLabelId) (id : LocalMessageId)
    (mb : Mailbox) : Except Error Mailbox := do
  let db <- okOr Error.stash (Message.moveLabels off on id mb.db)
  pure { mb with db := db }

end Mailbox

/-!
# Sending
-/

def maxScheduledSendCount : Nat := 100

structure Send where
  metadataId : MetadataId
  localMessageId : Option LocalMessageId := none
  recipients : List String
  deliveryTime : Option Nat := none
  deriving DecidableEq, Repr

namespace Send

variable (action : Send)

def isScheduled : Bool :=
  action.deliveryTime.isSome

def updateSentFlag (value : Bool) : MessageFlags -> MessageFlags :=
  if action.isScheduled then
    MessageFlags.set MessageFlags.scheduledSend value
  else
    MessageFlags.set MessageFlags.sent value

def applyLocal (actionId : ActionId) (mb : Mailbox) :
    Except Error (Send × Mailbox) := do
  if action.recipients = [] then
    Except.error Error.noRecipients
  else
    let localDraft <- mb.label drafts
    let localOutbox <- mb.label outbox
    let localAllDraft <- mb.label allDrafts
    let localAllScheduled <- mb.label allScheduled
    if action.isScheduled &&
        (mb.db.messageCounters localAllScheduled).any (fun counters =>
          maxScheduledSendCount ≤ counters.total) then
      Except.error Error.scheduleSendMessageLimitExceeded
    else
      let metadata <- okOr (Error.metadataNotFound action.metadataId)
        (mb.metadata action.metadataId)
      let id <- okOr Error.localDraftWithoutMessage metadata.localMessageId
      let _ <- okOr (Error.messageMissing id) (mb.db.message id)
      if mb.isDraft id then
        let mb := mb.saveMessage id (action.updateSentFlag true)
          action.deliveryTime
        let mb <- mb.moveLabels [localDraft, localAllDraft]
          [if action.isScheduled then localAllScheduled else localOutbox] id
        let metadata := { metadata with sendActionId := some actionId }
        pure ({ action with localMessageId := some id },
          { mb with
            metadata := Function.update mb.metadata action.metadataId
              (some metadata) })
      else
        Except.error (Error.messageIsNotADraft id)

def revertLocal (now : Nat) (mb : Mailbox) : Except Error Mailbox := do
  let id <- okOr Error.shouldBeSet action.localMessageId
  let localDraft <- mb.label drafts
  let localOutbox <- mb.label outbox
  let localAllDraft <- mb.label allDrafts
  let localAllScheduled <- mb.label allScheduled
  let _ <- okOr (Error.messageMissing id) (mb.db.message id)
  let mb := mb.saveMessage id (action.updateSentFlag false) (some now)
  mb.moveLabels [if action.isScheduled then localAllScheduled else localOutbox]
    [localDraft, localAllDraft] id

end Send

/-!
# Taking a sent message back
-/

structure UndoSend where
  id : LocalMessageId
  remoteId : Option MessageId := none
  deriving DecidableEq, Repr

namespace UndoSend

variable (action : UndoSend)

def applyLocal (mb : Mailbox) : Except Error (UndoSend × Mailbox) := do
  let _ <- okOr (Error.messageMissing action.id) (mb.db.message action.id)
  let remoteId <- okOr (Error.messageHasNoRemoteId action.id)
    (mb.columns action.id).remoteId
  if mb.isSent action.id then
    let localAllDraft <- mb.label allDrafts
    let localDraft <- mb.label drafts
    let localSent <- mb.label sent
    let localAllSent <- mb.label allSent
    let mb := mb.saveMessage action.id
      (MessageFlags.set MessageFlags.sent false) none
    let mb <- mb.moveLabels [localSent, localAllSent]
      [localDraft, localAllDraft] action.id
    pure ({ action with remoteId := some remoteId }, mb)
  else
    Except.error (Error.messageCanNotBeUndoSent action.id)

def revertLocal (now : Nat) (mb : Mailbox) : Except Error Mailbox :=
  match mb.db.message action.id with
  | none => Except.ok mb
  | some _ => do
      let localAllDraft <- mb.label allDrafts
      let localDraft <- mb.label drafts
      let localSent <- mb.label sent
      let mb := mb.saveMessage action.id
        (MessageFlags.set MessageFlags.sent true) (some now)
      mb.moveLabels [localDraft, localAllDraft] [localSent] action.id

end UndoSend

end Sending
end Drafts
end MailClient
