import MailClient.Drafts.Metadata

/-!
# Updates of drafts

What the events, the pages and the search results of the server do to a message
that is open as a draft.
-/

namespace MailClient
namespace Messages

open Drafts (DraftMetadata)

abbrev MessageFlags := BitVec 64

namespace MessageFlags

def received : MessageFlags := 1

def sent : MessageFlags := 1 <<< 1

def scheduledSend : MessageFlags := 1 <<< 20

def intersects (flags other : MessageFlags) : Bool :=
  flags &&& other ≠ 0

def set (other : MessageFlags) (value : Bool) (flags : MessageFlags) :
    MessageFlags :=
  if value then flags ||| other else flags &&& ~~~other

def isDraft (flags : MessageFlags) : Bool :=
  !intersects flags (sent ||| received)

def isSent (flags : MessageFlags) : Bool :=
  intersects flags sent

def isScheduleSend (flags : MessageFlags) : Bool :=
  intersects flags scheduledSend

end MessageFlags

inductive Action where
  | create
  | update
  | updateFlags
  deriving DecidableEq, Repr

inductive MessageSyncDecision where
  | apply
  | skip
  deriving DecidableEq, Repr

/-- `Message::sync_decision`; a draft that is being sent is left alone. -/
def syncDecision (draft : Option DraftMetadata) (flags : MessageFlags) :
    MessageSyncDecision :=
  match draft with
  | none => MessageSyncDecision.apply
  | some draft =>
      if (flags.isScheduleSend || flags.isSent) && draft.sendActionId.isNone then
        -- The draft was sent elsewhere, and updates of it have been skipped.
        MessageSyncDecision.apply
      else
        MessageSyncDecision.skip

/-- An update that is applied deletes the raw body, also that of a draft. -/
def deletesBody (draft : Option DraftMetadata) (action : Option Action) : Bool :=
  action == some Action.update || draft.isSome

end Messages
end MailClient
