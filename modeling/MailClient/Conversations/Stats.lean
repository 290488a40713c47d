import Mathlib.Algebra.BigOperators.Group.List.Basic
import Mathlib.Data.List.Perm.Basic
import MailClient.Messages.Ids

/-!
# Statistics of a conversation in a label

What a conversation shows in a label is summed up from its messages there: how
many there are, how many are unread, the latest time and the earliest time at
which one of them expires.
-/

namespace MailClient
namespace Conversations

/-- The columns that the statistics, the counters and the labels depend on. -/
structure Message where
  localId : LocalMessageId
  conversationId : LocalConversationId
  size : Nat := 0
  time : Nat := 0
  expirationTime : Nat := 0
  snoozeTime : Nat := 0
  numAttachments : Nat := 0
  unread : Bool := false
  deleted : Bool := false
  displaySnoozeReminder : Bool := false
  received : Bool := true
  deriving DecidableEq, Repr

/-!
# Expiration times

Zero stands for a conversation that does not expire.
-/

namespace ContextExpirationTime

def merge (self other : Nat) : Nat :=
  if self = 0 then other else min self other

/-- The same with another `ContextExpirationTime`, which can be zero. -/
def mergeSelf (self other : Nat) : Nat :=
  if self = 0 then other else min self other

/-- The earlier of two expiration times, where zero is none. -/
def earliest (a b : Nat) : Nat :=
  if a = 0 then b else if b = 0 then a else min a b

theorem earliest_zero (a : Nat) : earliest a 0 = a := by
  unfold earliest
  split
  · rename_i h
    exact h.symm
  · rfl

theorem zero_earliest (a : Nat) : earliest 0 a = a := rfl

theorem earliest_comm (a b : Nat) : earliest a b = earliest b a := by
  unfold earliest
  split
  · rename_i ha
    split
    · rename_i hb
      rw [ha, hb]
    · rfl
  · split
    · rfl
    · exact Nat.min_comm a b

theorem earliest_eq_zero {a b : Nat} :
    earliest a b = 0 ↔ a = 0 ∧ b = 0 := by
  unfold earliest
  split
  · rename_i ha
    simp [ha]
  · rename_i ha
    split
    · simp [ha]
    · omega

theorem earliest_assoc (a b c : Nat) :
    earliest (earliest a b) c = earliest a (earliest b c) := by
  by_cases ha : a = 0
  · rw [ha, zero_earliest, zero_earliest]
  by_cases hb : b = 0
  · rw [hb, earliest_zero, zero_earliest]
  by_cases hc : c = 0
  · rw [hc, earliest_zero, earliest_zero]
  have hab : min a b ≠ 0 := by omega
  have hbc : min b c ≠ 0 := by omega
  simp only [earliest, ha, hb, hc, hab, hbc, if_false]
  exact Nat.min_assoc a b c

theorem merge_eq_earliest {a b : Nat} (hb : b ≠ 0) :
    merge a b = earliest a b := by
  unfold merge earliest
  rw [if_neg hb]

theorem mergeSelf_eq_earliest {a b : Nat} :
    mergeSelf a b = earliest a b ↔ a = 0 ∨ b ≠ 0 := by
  unfold mergeSelf earliest
  by_cases ha : a = 0
  · simp [ha]
  by_cases hb : b = 0
  · simp [ha, hb, eq_comm]
  · simp [ha, hb]

end ContextExpirationTime

open ContextExpirationTime

/-!
# Statistics of messages
-/

@[ext]
structure ConversationMessageLabelStats where
  size : Nat
  time : Nat
  expirationTime : Nat
  count : Nat
  unread : Nat
  numAttachments : Nat
  snoozeTime : Nat
  deriving DecidableEq, Repr

namespace Message

/-- The message expires, by the check that the statistics make. -/
def expires (m : Message) : Bool :=
  0 < m.expirationTime ∧ m.expirationTime ≠ m.time

end Message

namespace ConversationMessageLabelStats

instance : Zero ConversationMessageLabelStats :=
  ⟨⟨0, 0, 0, 0, 0, 0, 0⟩⟩

/-- One round of the loop of `from_messages`. -/
def addMessage (stats : ConversationMessageLabelStats) (m : Message) :
    ConversationMessageLabelStats where
  size := stats.size + m.size
  time := max stats.time m.time
  expirationTime :=
    if m.expires then merge stats.expirationTime m.expirationTime
    else stats.expirationTime
  count := stats.count + 1
  unread := if m.unread then stats.unread + 1 else stats.unread
  numAttachments := stats.numAttachments + m.numAttachments
  snoozeTime := max stats.snoozeTime m.snoozeTime

/-- It is only called with messages. -/
def fromMessages (messages : List Message) : ConversationMessageLabelStats :=
  messages.foldl addMessage 0

/-!
# Statistics add up
-/

instance : Add ConversationMessageLabelStats :=
  ⟨fun a b =>
    { size := a.size + b.size
      time := max a.time b.time
      expirationTime := earliest a.expirationTime b.expirationTime
      count := a.count + b.count
      unread := a.unread + b.unread
      numAttachments := a.numAttachments + b.numAttachments
      snoozeTime := max a.snoozeTime b.snoozeTime }⟩

instance : AddCommMonoid ConversationMessageLabelStats where
  add_assoc a b c := by
    ext
    · exact Nat.add_assoc _ _ _
    · exact Nat.max_assoc _ _ _
    · exact earliest_assoc _ _ _
    · exact Nat.add_assoc _ _ _
    · exact Nat.add_assoc _ _ _
    · exact Nat.add_assoc _ _ _
    · exact Nat.max_assoc _ _ _
  zero_add a := by
    ext
    · exact Nat.zero_add _
    · exact Nat.zero_max _
    · exact zero_earliest _
    · exact Nat.zero_add _
    · exact Nat.zero_add _
    · exact Nat.zero_add _
    · exact Nat.zero_max _
  add_zero a := by
    ext
    · rfl
    · exact Nat.max_zero _
    · exact earliest_zero _
    · rfl
    · rfl
    · rfl
    · exact Nat.max_zero _
  add_comm a b := by
    ext
    · exact Nat.add_comm _ _
    · exact Nat.max_comm _ _
    · exact earliest_comm _ _
    · exact Nat.add_comm _ _
    · exact Nat.add_comm _ _
    · exact Nat.add_comm _ _
    · exact Nat.max_comm _ _
  nsmul := nsmulRec

/-- What one message contributes. -/
def ofMessage (m : Message) : ConversationMessageLabelStats where
  size := m.size
  time := m.time
  expirationTime := if m.expires then m.expirationTime else 0
  count := 1
  unread := m.unread.toNat
  numAttachments := m.numAttachments
  snoozeTime := m.snoozeTime

theorem addMessage_eq (stats : ConversationMessageLabelStats) (m : Message) :
    stats.addMessage m = stats + ofMessage m := by
  ext
  · rfl
  · rfl
  · change (if m.expires then merge stats.expirationTime m.expirationTime
      else stats.expirationTime) =
      earliest stats.expirationTime (if m.expires then m.expirationTime else 0)
    split
    · rename_i h
      have hpos : m.expirationTime ≠ 0 :=
        Nat.pos_iff_ne_zero.mp (of_decide_eq_true h).left
      exact merge_eq_earliest hpos
    · exact (earliest_zero _).symm
  · rfl
  · change (if m.unread then stats.unread + 1 else stats.unread) =
      stats.unread + m.unread.toNat
    cases m.unread with
    | false => rfl
    | true => rfl
  · rfl
  · rfl

theorem foldl_addMessage (stats : ConversationMessageLabelStats)
    (messages : List Message) :
    messages.foldl addMessage stats =
      stats + (messages.map ofMessage).sum := by
  induction messages generalizing stats with
  | nil => exact (add_zero stats).symm
  | cons m rest ih =>
      rw [List.foldl_cons, ih, addMessage_eq, List.map_cons, List.sum_cons,
        add_assoc]

theorem fromMessages_eq_sum (messages : List Message) :
    fromMessages messages = (messages.map ofMessage).sum := by
  unfold fromMessages
  rw [foldl_addMessage, zero_add]

theorem fromMessages_cons (m : Message) (messages : List Message) :
    fromMessages (m :: messages) = ofMessage m + fromMessages messages := by
  rw [fromMessages_eq_sum, fromMessages_eq_sum, List.map_cons, List.sum_cons]

theorem fromMessages_append (s t : List Message) :
    fromMessages (s ++ t) = fromMessages s + fromMessages t := by
  simp only [fromMessages_eq_sum, List.map_append, List.sum_append]

theorem fromMessages_perm {s t : List Message} (h : s.Perm t) :
    fromMessages s = fromMessages t := by
  rw [fromMessages_eq_sum, fromMessages_eq_sum]
  exact (h.map ofMessage).sum_eq

theorem fromMessages_count (messages : List Message) :
    (fromMessages messages).count = messages.length := by
  induction messages with
  | nil => rfl
  | cons m rest ih =>
      rw [fromMessages_cons, List.length_cons, <- ih]
      exact Nat.add_comm _ _

theorem fromMessages_unread (messages : List Message) :
    (fromMessages messages).unread =
      messages.countP (fun m => m.unread) := by
  induction messages with
  | nil => rfl
  | cons m rest ih =>
      rw [fromMessages_cons, List.countP_cons, <- ih]
      change m.unread.toNat + _ = _
      rw [Nat.add_comm]
      cases m.unread with
      | false => rfl
      | true => rfl

theorem ofMessage_expires {m : Message} :
    (ofMessage m).expirationTime = 0 ↔ m.expires = false := by
  change (if m.expires then m.expirationTime else 0) = 0 ↔ _
  by_cases h : m.expires = true
  · have hpos : 0 < m.expirationTime := (of_decide_eq_true h).left
    simp [h, Nat.pos_iff_ne_zero.mp hpos]
  · simp [h]

theorem fromMessages_expires {messages : List Message} :
    (fromMessages messages).expirationTime = 0 ↔
      forall m, m ∈ messages -> m.expires = false := by
  induction messages with
  | nil =>
      refine ⟨?_, fun _ => rfl⟩
      intro _ m hm
      cases hm
  | cons m rest ih =>
      rw [fromMessages_cons, List.forall_mem_cons, <- ih,
        <- ofMessage_expires]
      exact earliest_eq_zero

end ConversationMessageLabelStats

/-!
# The row of a conversation in a label
-/

/-- A row of `conversation_labels`, without its keys. -/
@[ext]
structure ConversationLabel where
  contextTime : Nat := 0
  contextSize : Nat := 0
  contextNumMessages : Nat := 0
  contextNumUnread : Nat := 0
  contextNumAttachments : Nat := 0
  contextExpirationTime : Nat := 0
  contextSnoozeTime : Nat := 0
  deleted : Bool := false
  deriving DecidableEq, Repr

namespace ConversationLabel

/-- The fields that the statistics fill. -/
def stats (label : ConversationLabel) : ConversationMessageLabelStats where
  size := label.contextSize
  time := label.contextTime
  expirationTime := label.contextExpirationTime
  count := label.contextNumMessages
  unread := label.contextNumUnread
  numAttachments := label.contextNumAttachments
  snoozeTime := label.contextSnoozeTime

def ofStats (stats : ConversationMessageLabelStats) : ConversationLabel where
  contextTime := stats.time
  contextSize := stats.size
  contextNumMessages := stats.count
  contextNumUnread := stats.unread
  contextNumAttachments := stats.numAttachments
  contextExpirationTime := stats.expirationTime
  contextSnoozeTime := stats.snoozeTime

/-- What `label_impl` does to a row that exists. -/
def addStats (label : ConversationLabel)
    (stats : ConversationMessageLabelStats) : ConversationLabel where
  contextTime := max label.contextTime stats.time
  contextSize := label.contextSize + stats.size
  contextNumMessages := label.contextNumMessages + stats.count
  contextNumUnread := label.contextNumUnread + stats.unread
  contextNumAttachments := label.contextNumAttachments + stats.numAttachments
  contextExpirationTime :=
    mergeSelf label.contextExpirationTime stats.expirationTime
  contextSnoozeTime := max label.contextSnoozeTime stats.snoozeTime
  deleted := label.deleted

theorem addStats_stats {label : ConversationLabel}
    {stats : ConversationMessageLabelStats} :
    (label.addStats stats).stats = label.stats + stats ↔
      label.contextExpirationTime = 0 ∨ stats.expirationTime ≠ 0 := by
  rw [<- mergeSelf_eq_earliest]
  constructor
  · intro h
    exact congrArg ConversationMessageLabelStats.expirationTime h
  · intro h
    ext
    · rfl
    · rfl
    · exact h
    · rfl
    · rfl
    · rfl
    · rfl

end ConversationLabel

end Conversations
end MailClient
