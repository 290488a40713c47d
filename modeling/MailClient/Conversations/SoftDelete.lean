import Mathlib.Algebra.Ring.Nat
import MailClient.Conversations.Tables

/-!
# Marking messages as deleted

A deleted message keeps its row and its labels, and is taken out of the counters
and of the rows of its conversation.  Undeleting puts it back.
-/

namespace MailClient
namespace Conversations

open Labels (LabelRow)

/-!
# Statistics of a label
-/

structure MessageLabelStats where
  unreadCount : Nat
  count : Nat
  attachmentCount : Nat
  size : Nat
  deriving DecidableEq, Repr

namespace MessageLabelStats

/-- The entry of a label, if one of the messages has it. -/
def build (db : Database) (messages : List Message) (l : LocalLabelId) :
    Option MessageLabelStats :=
  let found := messages.filter (fun m => db.hasLabel l m)
  if found = [] then
    none
  else
    some
      { unreadCount := found.countP (fun m => m.unread)
        count := found.length
        attachmentCount := (found.map Message.numAttachments).sum
        size := (found.map Message.size).sum }

end MessageLabelStats

/-- The statistics of all labels that the messages have. -/
abbrev AllStats := LocalLabelId -> Option MessageLabelStats

namespace Database

def allMail (db : Database) : Option LocalLabelId :=
  db.labels.remoteIdCounterpart "5"

end Database

/-!
# Counters, rows and conversations
-/

namespace Counter

def afterSoftDelete (counter : Counter) (stats : MessageLabelStats) :
    Counter where
  total := counter.total - stats.count
  unread := counter.unread - stats.unreadCount

def afterSoftUndelete (counter : Counter) (stats : MessageLabelStats) :
    Counter where
  total := counter.total + stats.count
  unread := counter.unread + stats.unreadCount

/-- What a row that lost messages takes from the counter of conversations. -/
def afterDelete (counter : Counter) (old new : ConversationLabel) :
    Counter where
  total :=
    if old.contextNumMessages ≠ 0 ∧ new.contextNumMessages = 0 then
      counter.total - 1
    else counter.total
  unread :=
    if old.contextNumUnread ≠ 0 ∧ new.contextNumUnread = 0 then
      counter.unread - 1
    else counter.unread

def afterUndelete (counter : Counter) (old new : ConversationLabel) :
    Counter where
  total :=
    if old.contextNumMessages = 0 ∧ new.contextNumMessages ≠ 0 then
      counter.total + 1
    else counter.total
  unread :=
    if old.contextNumUnread = 0 ∧ new.contextNumUnread ≠ 0 then
      counter.unread + 1
    else counter.unread

end Counter

namespace ConversationLabel

def markDelete (row : ConversationLabel) (stats : MessageLabelStats) :
    ConversationLabel :=
  { row with
    contextNumMessages := row.contextNumMessages - stats.count
    contextNumUnread := row.contextNumUnread - stats.unreadCount
    contextNumAttachments := row.contextNumAttachments - stats.attachmentCount
    contextSize := row.contextSize - stats.size
    deleted := row.contextNumMessages - stats.count = 0 }

def markUndelete (row : ConversationLabel) (stats : MessageLabelStats) :
    ConversationLabel :=
  { row with
    contextNumMessages := row.contextNumMessages + stats.count
    contextNumUnread := row.contextNumUnread + stats.unreadCount
    contextNumAttachments := row.contextNumAttachments + stats.attachmentCount
    contextSize := row.contextSize + stats.size
    deleted := row.contextNumMessages + stats.count = 0 }

end ConversationLabel

namespace Conversation

/-- `remaining` tells whether a message of the conversation is not deleted. -/
def markDelete (remaining : Bool) (stats : Option MessageLabelStats)
    (conv : Conversation) : Conversation :=
  let conv := if remaining then conv else { conv with deleted := true }
  match stats with
  | none => conv
  | some stats =>
      { conv with
        numMessages := conv.numMessages - stats.count
        numUnread := conv.numUnread - stats.unreadCount
        numAttachments := conv.numAttachments - stats.attachmentCount
        size := conv.size - stats.size }

/-- Without statistics the conversation is not saved. -/
def markUndelete (stats : Option MessageLabelStats) (conv : Conversation) :
    Conversation :=
  match stats with
  | none => conv
  | some stats =>
      { conv with
        numMessages := conv.numMessages + stats.count
        numUnread := conv.numUnread + stats.unreadCount
        numAttachments := conv.numAttachments + stats.attachmentCount
        size := conv.size + stats.size
        deleted := false }

theorem markDelete_localId (remaining : Bool)
    (stats : Option MessageLabelStats) (conv : Conversation) :
    (conv.markDelete remaining stats).localId = conv.localId := by
  unfold markDelete
  cases remaining with
  | false =>
      cases stats with
      | none => rfl
      | some _ => rfl
  | true =>
      cases stats with
      | none => rfl
      | some _ => rfl

theorem markUndelete_localId (stats : Option MessageLabelStats)
    (conv : Conversation) :
    (conv.markUndelete stats).localId = conv.localId := by
  cases stats with
  | none => rfl
  | some _ => rfl

end Conversation

/-!
# The messages of one conversation
-/

namespace Message

variable (c : LocalConversationId) (stats : AllStats)

/-- The rows that a group of messages is found in. -/
def loadedRow (rows : LocalLabelId -> Option ConversationLabel)
    (l : LocalLabelId) : Option ConversationLabel :=
  (rows l).filter (fun row => !row.deleted && (stats l).isSome)

/-- A row without a counter for its label fails the call. -/
def lacksCounter (rows : LocalLabelId -> Option ConversationLabel)
    (db : Database) : Bool :=
  (db.labels.rows.map LabelRow.localId).any (fun l =>
    (rows l).isSome && (db.conversationCounters l).isNone)

/-- The rows as they are saved, with statistics taken off or put back. -/
def updatedRow
    (update : ConversationLabel -> MessageLabelStats -> ConversationLabel)
    (loaded rows : LocalLabelId -> Option ConversationLabel)
    (l : LocalLabelId) : Option ConversationLabel :=
  match loaded l, stats l with
  | some row, some stats => some (update row stats)
  | _, _ => rows l

def updatedCounter
    (update : ConversationLabel -> MessageLabelStats -> ConversationLabel)
    (adjust : Counter -> ConversationLabel -> ConversationLabel -> Counter)
    (loaded : LocalLabelId -> Option ConversationLabel) (l : LocalLabelId)
    (counter : Counter) : Counter :=
  match loaded l, stats l with
  | some row, some stats => adjust counter row (update row stats)
  | _, _ => counter

/-- The counter of messages of a label, with the statistics of the label. -/
def messageCounter (adjust : Counter -> MessageLabelStats -> Counter)
    (l : LocalLabelId) (counter : Counter) : Counter :=
  match stats l with
  | some stats => adjust counter stats
  | none => counter

/-- The loop body of `mark_deleted`. -/
def softDelete (messages : List Message) (db : Database) : Option Database :=
  let stats := MessageLabelStats.build db messages
  let db := db.saveCounters
    (fun l => (db.messageCounters l).map
      (messageCounter stats Counter.afterSoftDelete l))
    db.conversationCounters
  match db.conversation c with
  | none => some db
  | some conv =>
      if conv.deleted || !conv.isKnown then
        some db
      else
        let loaded := loadedRow stats (db.conversationLabels c)
        let remaining := db.messages.any (fun m =>
          m.conversationId = c ∧ ¬ m.deleted)
        if lacksCounter loaded db then
          none
        else
          let rows := updatedRow stats ConversationLabel.markDelete loaded
            (db.conversationLabels c)
          let counters := fun l => (db.conversationCounters l).map
            (updatedCounter stats ConversationLabel.markDelete
              Counter.afterDelete loaded l)
          some ((db.saveConversation c
            (Conversation.markDelete remaining (db.allMail.bind stats))
            (Conversation.markDelete_localId _ _) rows).saveCounters
              db.messageCounters counters)

/-- A conversation that had been emptied gets its row for a label back. -/
def isReadded (emptied : Bool)
    (rows : LocalLabelId -> Option ConversationLabel) (l : LocalLabelId) :
    Bool :=
  emptied && (stats l).isSome && (rows l).any ConversationLabel.deleted

/-- `add_conversation_to_label`, for all labels of the messages. -/
def readdedRow (emptied : Bool)
    (rows : LocalLabelId -> Option ConversationLabel) (l : LocalLabelId) :
    Option ConversationLabel :=
  if isReadded stats emptied rows l then
    (rows l).map (fun row => { row with deleted := false })
  else rows l

def readdedCounter (emptied : Bool)
    (rows : LocalLabelId -> Option ConversationLabel) (l : LocalLabelId)
    (counter : Counter) : Counter :=
  if isReadded stats emptied rows l then
    { total := counter.total + 1
      unread := counter.unread +
        ((stats l).any (fun s => 0 < s.unreadCount)).toNat }
  else counter

/-- The loop body of `mark_undeleted`. -/
def softUndelete (messages : List Message) (db : Database) :
    Option Database :=
  let stats := MessageLabelStats.build db messages
  let db := db.saveCounters
    (fun l => (db.messageCounters l).map
      (messageCounter stats Counter.afterSoftUndelete l))
    db.conversationCounters
  match db.conversation c with
  | none => some db
  | some conv =>
      let rows := db.conversationLabels c
      let added := readdedRow stats conv.deleted rows
      let counters := fun l => (db.conversationCounters l).map
        (readdedCounter stats conv.deleted rows l)
      let loaded := loadedRow stats added
      if lacksCounter loaded db then
        none
      else
        -- the conversation is saved with the rows it was loaded with
        let saved := if (db.allMail.bind stats).isSome then rows else added
        let rows := updatedRow stats ConversationLabel.markUndelete loaded
          saved
        let counters := fun l => (counters l).map
          (updatedCounter stats ConversationLabel.markUndelete
            Counter.afterUndelete loaded l)
        some ((db.saveConversation c
          (Conversation.markUndelete (db.allMail.bind stats))
          (Conversation.markUndelete_localId _) rows).saveCounters
            db.messageCounters counters)

/-!
# The whole calls
-/

theorem setDeleted_keepsKeys (deleted : Bool) :
    Database.KeepsKeys (fun m => { m with deleted := deleted }) :=
  ⟨fun _ => rfl, fun _ => rfl⟩

/-- The conversations of messages, each with its messages. -/
def grouped (messages : List Message) :
    List (LocalConversationId × List Message) :=
  (messages.map Message.conversationId).dedup.map (fun c =>
    (c, messages.filter (fun m => m.conversationId = c)))

def selected (deleted : Bool) (ids : List LocalMessageId) (db : Database) :
    List Message :=
  db.messages.filter (fun m => m.localId ∈ ids ∧ m.deleted = deleted)

def markDeleted (ids : List LocalMessageId) (db : Database) :
    Option Database :=
  let messages := selected false ids db
  let db := db.saveMessages (messages.map Message.localId)
    (fun m => { m with deleted := true }) (setDeleted_keepsKeys true)
  (grouped messages).foldlM (fun db g => softDelete g.1 g.2 db) db

def markUndeleted (ids : List LocalMessageId) (db : Database) :
    Option Database :=
  let messages := selected true ids db
  let db := db.saveMessages (messages.map Message.localId)
    (fun m => { m with deleted := false }) (setDeleted_keepsKeys false)
  (grouped messages).foldlM (fun db g => softUndelete g.1 g.2 db) db

end Message

end Conversations
end MailClient
