import Mathlib.Data.Finset.Sort
import Mathlib.Data.Finset.Filter
import MailClient.Labels.Label
import MailClient.Messages.Ids

/-!
# Labels of messages and conversations

The tables behind the actions on messages and conversations: which labels a
message has, which a conversation has, and which messages are unread.  The
counters only count what these tables say and are left out.

Messages and conversations share their actions.  An action on a conversation
is one on all its messages, and keeps the labels of the conversation up to
date on its own.
-/

namespace MailClient
namespace Actions

open Labels (LabelTable LabelRow LabelType fromOptRid)

structure MessageRow where
  localId : LocalMessageId
  conversationId : LocalConversationId
  deriving DecidableEq, Repr

/--
The rows that no action here changes.  The three labels are those an action
looks up by their remote ids.
-/
structure Catalog where
  labels : LabelTable
  messages : List MessageRow
  trash : LocalLabelId
  spam : LocalLabelId
  almostAllMail : LocalLabelId
  ids_unique : (messages.map MessageRow.localId).Nodup
  trash_id : labels.remoteIdCounterpart "3" = some trash
  spam_id : labels.remoteIdCounterpart "4" = some spam
  almostAllMail_id : labels.remoteIdCounterpart "15" = some almostAllMail
  system_type : forall r, r ∈ labels.rows ->
    (fromOptRid r.remoteId).isSome -> r.labelType = LabelType.system

inductive MailKind where
  | message
  | conversation
  deriving DecidableEq, Repr

structure Mailbox where
  unread : Finset LocalMessageId
  messageLabels : Finset LabelPair
  conversationLabels : Finset (LocalConversationId × LocalLabelId)
  numUnread : LocalConversationId -> Nat

namespace Catalog

variable (cat : Catalog)

def conversationOf (id : LocalMessageId) : Option LocalConversationId :=
  (cat.messages.find? (fun row => row.localId = id)).map
    MessageRow.conversationId

def messagesOf (id : LocalConversationId) : List LocalMessageId :=
  (cat.messages.filter (fun row => row.conversationId = id)).map
    MessageRow.localId

/-- The messages that an action on an entity is about. -/
def members : MailKind -> Nat -> List LocalMessageId
  | MailKind.message, id => [id]
  | MailKind.conversation, id => cat.messagesOf id

/-- Loading a message skips labels that are marked as deleted. -/
def visible (l : LocalLabelId) : Bool :=
  cat.labels.rows.any (fun r => r.localId = l ∧ r.deleted = 0)

def labelRow (l : LocalLabelId) : Option LabelRow :=
  cat.labels.rows.find? (fun r => r.localId = l)

/-!
# Kinds of labels
-/

def nonRemovable (l : LocalLabelId) : Bool :=
  ["5", "2", "1", "13", "20", "21", "22", "23", "24", "25", "26"].any
    (fun rid => cat.labels.remoteIdCounterpart rid = some l)

/-- Custom folders, the four movable system folders, drafts and sent mail. -/
def isMovableOutOfFolder (r : LabelRow) : Bool :=
  r.labelType = LabelType.folder ∨
    ["0", "6", "4", "3", "8", "7"].any (fun rid => r.remoteId = some rid)

def isSnoozed (r : LabelRow) : Bool :=
  r.labelType = LabelType.system ∧ fromOptRid r.remoteId = some 16

def categoryLabels : List Nat := [24, 20, 21, 25, 26, 22]

def isCategory (l : LocalLabelId) : Bool :=
  ((fromOptRid (cat.labels.localIdCounterpart l)).map
    (fun n => decide (n ∈ categoryLabels))).getD false

def otherCategories (l : LocalLabelId) : List LocalLabelId :=
  (categoryLabels.filterMap (fun n =>
    cat.labels.remoteIdCounterpart (toString n))).filter (fun l' => l' ≠ l)

/-- The system labels that are exclusive locations, in the order of preference. -/
def exclusiveLocations : List Nat := [0, 3, 6, 4, 16, 12, 9, 8, 7]

/-- `ExclusiveLocation::new` gives the label a location. -/
def isExclusiveLocation (r : LabelRow) : Bool :=
  match r.labelType with
  | LabelType.label => false
  | LabelType.folder => true
  | LabelType.system =>
      ((fromOptRid r.remoteId).map (fun n =>
        decide (n ∈ exclusiveLocations))).getD false

def typeRank : LabelType -> Nat
  | LabelType.label => 1
  | LabelType.folder => 3
  | LabelType.system => 4

/-- The visible labels of a set, system labels first, by display order. -/
def visibleRows (has : LocalLabelId -> Bool) : List LabelRow :=
  (cat.labels.rows.filter (fun r => has r.localId ∧ r.deleted = 0)).insertionSort
    (fun r r' => typeRank r'.labelType < typeRank r.labelType ∨
      (r.labelType = r'.labelType ∧ r.displayOrder ≤ r'.displayOrder))

end Catalog

namespace Mailbox

variable (cat : Catalog) (db : Mailbox)

/-- The tables of conversations say the same as those of messages. -/
structure Agrees : Prop where
  conversationLabels : forall c l, (c, l) ∈ db.conversationLabels ↔
    exists m, m ∈ cat.messagesOf c ∧ ⟨l, m⟩ ∈ db.messageLabels
  numUnread : forall c, db.numUnread c =
    ((cat.messagesOf c).filter (fun m => m ∈ db.unread)).length

/-!
# Locations
-/

/-- A system location if there is one, or the only other location. -/
def messageLocation (id : LocalMessageId) : Option LocalLabelId :=
  let rows := cat.visibleRows (fun l => ⟨l, id⟩ ∈ db.messageLabels)
  let system := Catalog.exclusiveLocations.findSome? (fun n =>
    rows.find? (fun r => r.remoteId = some (toString n)))
  match system with
  | some r =>
      if Catalog.isExclusiveLocation r then some r.localId else none
  | none =>
      match rows.filter Catalog.isExclusiveLocation with
      | [r] => some r.localId
      | _ => none

def conversationLocations (id : LocalConversationId) : List LocalLabelId :=
  ((cat.visibleRows (fun l => (id, l) ∈ db.conversationLabels)).filter
    Catalog.isExclusiveLocation).map LabelRow.localId

def exclusiveLocations : MailKind -> Nat -> List LocalLabelId
  | MailKind.message, id => (db.messageLocation cat id).toList
  | MailKind.conversation, id => db.conversationLocations cat id

/-- The labels that `remove_all_removable_labels` groups by. -/
def labelsOf : MailKind -> Nat -> List LocalLabelId
  | MailKind.message, id =>
      ((db.messageLabels.filter (fun p => p.id = id)).image
        LabelPair.label).sort (fun a b => a ≤ b)
  | MailKind.conversation, id =>
      ((db.conversationLabels.filter (fun p => p.1 = id)).image
        Prod.snd).sort (fun a b => a ≤ b)

/-!
# Labelling
-/

def pairs (l : LocalLabelId) (ids : List LocalMessageId) : List LabelPair :=
  ids.map (fun m => ⟨l, m⟩)

theorem mem_pairs {l : LocalLabelId} {ids : List LocalMessageId}
    {x : LabelPair} : x ∈ pairs l ids ↔ x.label = l ∧ x.id ∈ ids := by
  unfold pairs
  rw [List.mem_map]
  constructor
  · rintro ⟨m, hm, rfl⟩
    exact ⟨rfl, hm⟩
  · rintro ⟨rfl, hid⟩
    exact ⟨x.id, hid, rfl⟩

/-- The messages that did not have the label yet, and the new tables. -/
def applyLabel (kind : MailKind) (l : LocalLabelId) (id : Nat) :
    List LocalMessageId × Mailbox :=
  let modified := (cat.members kind id).filter
    (fun m => ⟨l, m⟩ ∉ db.messageLabels)
  let conversation :=
    match kind with
    | MailKind.message => if modified = [] then none else cat.conversationOf id
    | MailKind.conversation => some id
  (modified,
    { db with
      messageLabels := db.messageLabels ∪ (pairs l (cat.members kind id)).toFinset
      conversationLabels :=
        match conversation with
        | some c => insert (c, l) db.conversationLabels
        | none => db.conversationLabels })

/--
The messages that had the label, and the new tables.  A conversation loses the
label of a message when no other message of it has the label.
-/
def removeLabel (kind : MailKind) (l : LocalLabelId) (id : Nat) :
    List LocalMessageId × Mailbox :=
  let modified := (cat.members kind id).filter
    (fun m => ⟨l, m⟩ ∈ db.messageLabels)
  let messageLabels :=
    db.messageLabels \ (pairs l (cat.members kind id)).toFinset
  let conversation :=
    match kind with
    | MailKind.message =>
        if modified = [] then none
        else (cat.conversationOf id).filter (fun c =>
          (cat.messagesOf c).all (fun m => ⟨l, m⟩ ∉ messageLabels))
    | MailKind.conversation => some id
  (modified,
    { db with
      messageLabels := messageLabels
      conversationLabels :=
        match conversation with
        | some c => db.conversationLabels.erase (c, l)
        | none => db.conversationLabels })

/-!
# Reading
-/

/-- Saving a message writes back the labels it was loaded with. -/
def saveMessages (ids : List LocalMessageId) : Mailbox :=
  { db with
    messageLabels := db.messageLabels.filter (fun p =>
      ¬ (p.id ∈ ids ∧ ¬ cat.visible p.label)) }

/-- A conversation without unread messages, by its own count, is skipped. -/
def newlyRead : MailKind -> Nat -> List LocalMessageId
  | MailKind.message, id => [id].filter (fun m => m ∈ db.unread)
  | MailKind.conversation, id =>
      if db.numUnread id = 0 then []
      else (cat.messagesOf id).filter (fun m => m ∈ db.unread)

def markRead (kind : MailKind) (id : Nat) : List LocalMessageId × Mailbox :=
  let read := db.newlyRead cat kind id
  (read,
    { db.saveMessages cat read with
      unread := db.unread \ read.toFinset
      numUnread := fun c =>
        match kind with
        | MailKind.message =>
            if cat.conversationOf id = some c then
              db.numUnread c - read.length
            else db.numUnread c
        | MailKind.conversation => if c = id then 0 else db.numUnread c })

/-- `mark_read_or_unread` with `mark_read` false. -/
def markUnread (ids : List LocalMessageId) : Mailbox :=
  let changed := ids.filter (fun m => m ∉ db.unread)
  { db.saveMessages cat changed with
    unread := db.unread ∪ changed.toFinset
    numUnread := fun c =>
      db.numUnread c +
        (changed.filter (fun m => cat.conversationOf m = some c)).length }

end Mailbox

end Actions
end MailClient
