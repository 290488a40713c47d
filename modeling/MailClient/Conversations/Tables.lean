import Mathlib.Data.Finset.Image
import Mathlib.Data.List.Sort
import MailClient.Conversations.Stats
import MailClient.Labels.Label

/-!
# The tables of messages, conversations and counters

The rows of messages and conversations, their labels, and the counters of each
label.  The keys of the tables and the foreign keys between them are part of a
database; what the counters and the rows of labels say is not.
-/

namespace MailClient
namespace Conversations

open Labels (LabelTable LabelRow)

structure Conversation where
  localId : LocalConversationId
  numMessages : Nat := 0
  numUnread : Nat := 0
  numAttachments : Nat := 0
  size : Nat := 0
  deleted : Bool := false
  isKnown : Bool := true
  displaySnoozeReminder : Bool := false
  deriving DecidableEq, Repr

/-- `MessageCounter` and `ConversationCounter`. -/
@[ext]
structure Counter where
  total : Nat
  unread : Nat
  deriving DecidableEq, Repr

abbrev LabelRows :=
  LocalConversationId -> LocalLabelId -> Option ConversationLabel

namespace LabelRows

variable {rows : LabelRows} {c c' : LocalConversationId} {l l' : LocalLabelId}
  {row : Option ConversationLabel}

def set (rows : LabelRows) (c : LocalConversationId) (l : LocalLabelId)
    (row : Option ConversationLabel) : LabelRows :=
  fun c' l' => if c' = c ∧ l' = l then row else rows c' l'

theorem set_self : rows.set c l row c l = row :=
  if_pos ⟨rfl, rfl⟩

theorem set_of_ne (h : ¬ (c' = c ∧ l' = l)) :
    rows.set c l row c' l' = rows c' l' :=
  if_neg h

end LabelRows

@[ext]
structure Database where
  labels : LabelTable
  messages : List Message
  conversations : List Conversation
  messageLabels : Finset LabelPair
  conversationLabels : LabelRows
  messageCounters : LocalLabelId -> Option Counter
  conversationCounters : LocalLabelId -> Option Counter
  messages_unique : (messages.map Message.localId).Nodup
  conversations_unique : (conversations.map Conversation.localId).Nodup
  conversation_known : forall m, m ∈ messages ->
    m.conversationId ∈ conversations.map Conversation.localId
  pair_known : forall p, p ∈ messageLabels ->
    p.id ∈ messages.map Message.localId
  row_known : forall c l, (conversationLabels c l).isSome ->
    c ∈ conversations.map Conversation.localId

namespace Database

variable (db : Database)

/-!
# Reading
-/

def message (id : LocalMessageId) : Option Message :=
  db.messages.find? (fun m => m.localId = id)

def conversation (c : LocalConversationId) : Option Conversation :=
  db.conversations.find? (fun conversation => conversation.localId = c)

def hasLabel (l : LocalLabelId) (m : Message) : Bool :=
  ⟨l, m.localId⟩ ∈ db.messageLabels

/-- The messages of a conversation that have a label. -/
def labelled (l : LocalLabelId) (c : LocalConversationId) : List Message :=
  db.messages.filter (fun m => m.conversationId = c ∧ db.hasLabel l m)

def conversationIds : Finset LocalConversationId :=
  (db.conversations.map Conversation.localId).toFinset

/-- Rows are only saved for labels that the server knows. -/
def hasRemoteId (l : LocalLabelId) : Bool :=
  (db.labels.localIdCounterpart l).isSome

/-- Loading a message skips labels that are marked as deleted. -/
def isHidden (l : LocalLabelId) : Bool :=
  db.labels.rows.any (fun r => r.localId = l ∧ r.deleted ≠ 0)

/-!
# Writing

A change that breaks a foreign key fails, and takes its transaction with it.
-/

/-- Inserts into `message_labels`. -/
def insertPair (l : LocalLabelId) (id : LocalMessageId) : Option Database :=
  if h : id ∈ db.messages.map Message.localId ∧
      l ∈ db.labels.rows.map LabelRow.localId then
    some { db with
      messageLabels := insert ⟨l, id⟩ db.messageLabels
      pair_known := by
        intro p hp
        rcases Finset.mem_insert.mp hp with hp | hp
        · rw [hp]
          exact h.left
        · exact db.pair_known p hp }
  else
    none

/-- Deletes from `message_labels`. -/
def deletePair (l : LocalLabelId) (id : LocalMessageId) : Database :=
  { db with
    messageLabels := db.messageLabels.erase ⟨l, id⟩
    pair_known := fun p hp => db.pair_known p (Finset.mem_of_mem_erase hp) }

def saveRow (c : LocalConversationId) (l : LocalLabelId)
    (row : ConversationLabel) : Option Database :=
  if h : db.hasRemoteId l ∧
      c ∈ db.conversations.map Conversation.localId then
    some { db with
      conversationLabels := db.conversationLabels.set c l (some row)
      row_known := by
        intro c' l' hrow
        by_cases hkey : c' = c ∧ l' = l
        · rw [hkey.left]
          exact h.right
        · rw [LabelRows.set_of_ne hkey] at hrow
          exact db.row_known c' l' hrow }
  else
    none

def deleteRow (c : LocalConversationId) (l : LocalLabelId) : Database :=
  { db with
    conversationLabels := db.conversationLabels.set c l none
    row_known := by
      intro c' l' hrow
      by_cases hkey : c' = c ∧ l' = l
      · rw [hkey.left, hkey.right, LabelRows.set_self] at hrow
        cases hrow
      · rw [LabelRows.set_of_ne hkey] at hrow
        exact db.row_known c' l' hrow }

def saveMessageCounter (l : LocalLabelId) (counter : Counter) : Database :=
  { db with messageCounters := Function.update db.messageCounters l counter }

def saveConversationCounter (l : LocalLabelId) (counter : Counter) : Database :=
  { db with
    conversationCounters :=
      Function.update db.conversationCounters l counter }

def saveCounters (messageCounters conversationCounters :
    LocalLabelId -> Option Counter) : Database :=
  { db with
    messageCounters := messageCounters
    conversationCounters := conversationCounters }

/-- A change of the columns of a message that are not keys. -/
structure KeepsKeys (f : Message -> Message) : Prop where
  localId : forall m, (f m).localId = m.localId
  conversationId : forall m, (f m).conversationId = m.conversationId

/-- Changes some messages and leaves the others as they are. -/
def changeOnly (ids : List LocalMessageId) (f : Message -> Message)
    (m : Message) : Message :=
  if m.localId ∈ ids then f m else m

theorem KeepsKeys.changeOnly {f : Message -> Message} (h : KeepsKeys f)
    (ids : List LocalMessageId) : KeepsKeys (changeOnly ids f) := by
  constructor
  · intro m
    unfold Database.changeOnly
    split
    · exact h.localId m
    · rfl
  · intro m
    unfold Database.changeOnly
    split
    · exact h.conversationId m
    · rfl

theorem KeepsKeys.map_localId {f : Message -> Message} (h : KeepsKeys f)
    (messages : List Message) :
    (messages.map f).map Message.localId = messages.map Message.localId := by
  rw [List.map_map]
  exact List.map_congr_left (fun m _ => h.localId m)

/--
Loads, changes and saves messages.  Saving a message writes back the labels it
was loaded with, which are those that are not hidden.
-/
def saveMessages (ids : List LocalMessageId) (f : Message -> Message)
    (h : KeepsKeys f) : Database :=
  { db with
    messages := db.messages.map (changeOnly ids f)
    messageLabels := db.messageLabels.filter (fun p =>
      ¬ (p.id ∈ ids ∧ db.isHidden p.label))
    messages_unique := by
      rw [(h.changeOnly ids).map_localId]
      exact db.messages_unique
    conversation_known := by
      intro m hm
      rcases List.mem_map.mp hm with ⟨m', hm', hchanged⟩
      rw [<- hchanged, (h.changeOnly ids).conversationId]
      exact db.conversation_known m' hm'
    pair_known := by
      intro p hp
      rw [(h.changeOnly ids).map_localId]
      exact db.pair_known p (Finset.mem_filter.mp hp).left }

/-- Saves a conversation that has been loaded, with its rows. -/
def saveConversation (c : LocalConversationId)
    (f : Conversation -> Conversation)
    (h : forall conv, (f conv).localId = conv.localId)
    (rows : LocalLabelId -> Option ConversationLabel) : Database :=
  have hids : (db.conversations.map (fun conv =>
      if conv.localId = c then f conv else conv)).map Conversation.localId =
      db.conversations.map Conversation.localId := by
    rw [List.map_map]
    refine List.map_congr_left ?_
    intro conv _
    rw [Function.comp_apply]
    split
    · exact h conv
    · rfl
  { db with
    conversations := db.conversations.map (fun conv =>
      if conv.localId = c then f conv else conv)
    conversationLabels := fun c' l =>
      if c' = c ∧ c ∈ db.conversations.map Conversation.localId then rows l
      else db.conversationLabels c' l
    conversations_unique := by
      rw [hids]
      exact db.conversations_unique
    conversation_known := by
      rw [hids]
      exact db.conversation_known
    row_known := by
      intro c' l hrow
      rw [hids]
      by_cases hc : c' = c ∧ c ∈ db.conversations.map Conversation.localId
      · rw [hc.left]
        exact hc.right
      · rw [if_neg hc] at hrow
        exact db.row_known c' l hrow }

/-!
# Tables as lists
-/

structure LabelRowEntry where
  conversation : LocalConversationId
  label : LocalLabelId
  row : ConversationLabel
  deriving DecidableEq, Repr

def rowsOf (rows : List LabelRowEntry) : LabelRows :=
  fun c l => (rows.find? (fun e => e.conversation = c ∧ e.label = l)).map
    LabelRowEntry.row

theorem mem_of_rowsOf {rows : List LabelRowEntry} {c : LocalConversationId}
    {l : LocalLabelId} {row : ConversationLabel}
    (h : rowsOf rows c l = some row) : ⟨c, l, row⟩ ∈ rows := by
  rcases Option.map_eq_some_iff.mp h with ⟨e, hfind, hrow⟩
  have hkey : e.conversation = c ∧ e.label = l := by
    simpa using List.find?_some hfind
  have hmem := List.mem_of_find?_eq_some hfind
  rw [<- hkey.left, <- hkey.right, <- hrow]
  exact hmem

def countersOf (counters : List (LocalLabelId × Counter)) :
    LocalLabelId -> Option Counter :=
  fun l => (counters.find? (fun e => e.1 = l)).map Prod.snd

theorem mem_of_countersOf {counters : List (LocalLabelId × Counter)}
    {l : LocalLabelId} {counter : Counter}
    (h : countersOf counters l = some counter) : (l, counter) ∈ counters := by
  rcases Option.map_eq_some_iff.mp h with ⟨e, hfind, hcounter⟩
  have hkey : e.1 = l := by
    simpa using List.find?_some hfind
  have hmem := List.mem_of_find?_eq_some hfind
  rw [<- hkey, <- hcounter]
  exact hmem

/-- A database whose keys can be checked row by row. -/
def ofLists (labels : LabelTable) (messages : List Message)
    (conversations : List Conversation) (pairs : List LabelPair)
    (rows : List LabelRowEntry)
    (messageCounters conversationCounters : List (LocalLabelId × Counter))
    (hmessages : (messages.map Message.localId).Nodup)
    (hconversations : (conversations.map Conversation.localId).Nodup)
    (hknown : forall m, m ∈ messages ->
      m.conversationId ∈ conversations.map Conversation.localId)
    (hpairs : forall p, p ∈ pairs -> p.id ∈ messages.map Message.localId)
    (hrows : forall e, e ∈ rows ->
      e.conversation ∈ conversations.map Conversation.localId) :
    Database where
  labels := labels
  messages := messages
  conversations := conversations
  messageLabels := pairs.toFinset
  conversationLabels := rowsOf rows
  messageCounters := countersOf messageCounters
  conversationCounters := countersOf conversationCounters
  messages_unique := hmessages
  conversations_unique := hconversations
  conversation_known := hknown
  pair_known := fun p hp => hpairs p (List.mem_toFinset.mp hp)
  row_known := by
    intro c l hrow
    rcases Option.isSome_iff_exists.mp hrow with ⟨row, hrow⟩
    exact hrows _ (mem_of_rowsOf hrow)

end Database

end Conversations
end MailClient
