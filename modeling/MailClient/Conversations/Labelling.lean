import MailClient.Conversations.Tables

/-!
# Labelling messages and conversations

A label is put on messages one by one; then each conversation among them gets
its row for the label brought up to date, and the counters move by what was
added.  Taking a label off works from the messages that are left.
-/

namespace MailClient
namespace Conversations

variable (l : LocalLabelId)

/-!
# Adding to a row
-/

namespace Conversation

/-- The messages that `ConversationMessageLabelStats::with` sums up. -/
def batch (c : LocalConversationId) (ids : List LocalMessageId)
    (db : Database) : List Message :=
  (db.labelled l c).filter (fun m => m.localId ∈ ids)

/-- The row that `label_impl` saves. -/
def labelRow (had : Option ConversationLabel)
    (stats : ConversationMessageLabelStats) : ConversationLabel :=
  match had with
  | some row => row.addStats stats
  | none => ConversationLabel.ofStats stats

/-- What `label_impl` makes of the counter of conversations. -/
def labelCounter (had : Option ConversationLabel)
    (stats : ConversationMessageLabelStats) (counter : Counter) : Counter :=
  let isUnread := had.any (fun row => row.contextNumUnread ≠ 0)
  { total := counter.total + had.isNone.toNat
    unread := counter.unread + (!isUnread && stats.unread != 0).toNat }

def labelImpl (c : LocalConversationId) (ids : List LocalMessageId)
    (db : Database) : Option Database :=
  if ids = [] then
    some db
  else if batch l c ids db = [] then
    none
  else do
    let had := db.conversationLabels c l
    let stats := ConversationMessageLabelStats.fromMessages (batch l c ids db)
    let db <- db.saveRow c l (labelRow had stats)
    let convCounters <- db.conversationCounters l
    let msgCounters <- db.messageCounters l
    let db := db.saveConversationCounter l
      (labelCounter had stats convCounters)
    some (db.saveMessageCounter l
      { total := msgCounters.total + stats.count
        unread := msgCounters.unread + stats.unread })

end Conversation

/-!
# Messages
-/

namespace Message

/-- The loop that inserts the pairs, with the messages that were modified. -/
def insertPairs :
    List LocalMessageId -> Database -> Option (List LocalMessageId × Database)
  | [], db => some ([], db)
  | id :: rest, db =>
      if ⟨l, id⟩ ∈ db.messageLabels then
        insertPairs rest db
      else do
        let db <- db.insertPair l id
        let (modified, db) <- insertPairs rest db
        some (id :: modified, db)

/-- The conversation of each message, as the loop over the messages loads it. -/
def conversationOf (db : Database) (id : LocalMessageId) :
    Option LocalConversationId :=
  (db.message id).map Message.conversationId

/-- The entries of a `BTreeMap` of messages by their conversations. -/
def byConversation (db : Database) (ids : List LocalMessageId) :
    List (LocalConversationId × List LocalMessageId) :=
  ((ids.filterMap (conversationOf db)).dedup.insertionSort
    (fun a b => a ≤ b)).map
      (fun c => (c, ids.filter (fun id => conversationOf db id = some c)))

def applyLabel (ids : List LocalMessageId) (db : Database) :
    Option (List LocalMessageId × Database) := do
  let (modified, db) <- insertPairs l ids db
  let db <- (byConversation db modified).foldlM
    (fun db entry => Conversation.labelImpl l entry.1 entry.2 db) db
  some (modified, db)

/-- The loop that deletes the pairs and sums up what was asked for. -/
structure Removal where
  modified : List LocalMessageId
  unread : Nat
  db : Database

def deletePairs :
    List LocalMessageId -> Removal -> Option Removal
  | [], r => some r
  | id :: rest, r => do
      let m <- r.db.message id
      let r :=
        if ⟨l, id⟩ ∈ r.db.messageLabels then
          { r with
            modified := r.modified ++ [id]
            db := r.db.deletePair l id }
        else r
      deletePairs rest { r with unread := r.unread + m.unread.toNat }

/-- The conversations of messages that exist, each of them once. -/
def distinctConversations (db : Database) (ids : List LocalMessageId) :
    List LocalConversationId :=
  ((db.messages.filter (fun m => m.localId ∈ ids)).map
    Message.conversationId).dedup

/-- A conversation whose messages lost a label. -/
def relabel (unread : Nat) (c : LocalConversationId)
    (p : Counter × Database) : Option (Counter × Database) :=
  let left := p.2.labelled l c
  match p.2.conversationLabels c l with
  | none => some p
  | some row =>
      if left = [] then
        some ({ total := p.1.total - 1
                unread := if unread ≠ 0 then p.1.unread - 1 else p.1.unread },
          p.2.deleteRow c l)
      else do
        let stats := ConversationMessageLabelStats.fromMessages left
        let db <- p.2.saveRow c l
          { ConversationLabel.ofStats stats with deleted := row.deleted }
        some ({ p.1 with
          unread :=
            if unread ≠ 0 ∧ stats.unread = 0 then p.1.unread - 1
            else p.1.unread }, db)

def removeLabel (ids : List LocalMessageId) (db : Database) :
    Option (List LocalMessageId × Database) := do
  let conversations := distinctConversations db ids
  let r <- deletePairs l ids { modified := [], unread := 0, db := db }
  if r.modified = [] then
    some ([], r.db)
  else
    let msgCounters <- r.db.messageCounters l
    let db := r.db.saveMessageCounter l
      { total := msgCounters.total - r.modified.length
        unread := msgCounters.unread - r.unread }
    let convCounters <- db.conversationCounters l
    let (convCounters, db) <- conversations.foldlM
      (fun p c => relabel l r.unread c p) (convCounters, db)
    some (r.modified, db.saveConversationCounter l convCounters)

end Message

end Conversations
end MailClient
