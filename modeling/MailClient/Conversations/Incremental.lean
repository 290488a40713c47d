import MailClient.Conversations.LabelSpec
import MailClient.Foundation.Transition

/-!
# Adding messages to a row

The row of a conversation in a label is not recomputed when messages get the
label: what they contribute is merged into it.  That is the same as adding up
all messages, but for expiration times: merged with messages that do not expire,
a row forgets when the conversation does.
-/

namespace MailClient
namespace Conversations

open Foundation Foundation.TransitionSystem
open Labels (LabelTable LabelRow LabelType)
open ConversationMessageLabelStats (fromMessages fromMessages_append fromMessages_perm fromMessages_count fromMessages_expires)

variable {l : LocalLabelId} {c : LocalConversationId} {db db' : Database}
  {ids modified : List LocalMessageId}

/-!
# Rows of messages
-/

/-- The row sums up the messages, and there is none for no messages. -/
def SumsUp (messages : List Message) (row : Option ConversationLabel) : Prop :=
  row.map ConversationLabel.stats =
    if messages = [] then none else some (fromMessages messages)

/-- When adding messages to a row is the same as summing up all messages. -/
def AddsUp (had : Option ConversationLabel) (old added : List Message) : Prop :=
  match had with
  | none => old = []
  | some _ => (forall m, m ∈ old -> m.expires = false) ∨
      exists m, m ∈ added ∧ m.expires = true

theorem labelRow_stats {had : Option ConversationLabel}
    {old added : List Message}
    (hold : forall row, had = some row -> row.stats = fromMessages old) :
    (Conversation.labelRow had (fromMessages added)).stats =
      fromMessages (old ++ added) ↔ AddsUp had old added := by
  rw [fromMessages_append]
  cases had with
  | none =>
      change fromMessages added = _ ↔ old = []
      constructor
      · intro h
        have hcount := congrArg ConversationMessageLabelStats.count h
        change (fromMessages added).count =
          (fromMessages old).count + (fromMessages added).count at hcount
        rw [fromMessages_count, fromMessages_count] at hcount
        exact List.length_eq_zero_iff.mp (by omega)
      · intro h
        rw [h]
        exact (zero_add _).symm
  | some row =>
      have hstats := hold row rfl
      have hexpires : row.contextExpirationTime = 0 ↔
          forall m, m ∈ old -> m.expires = false := by
        rw [<- fromMessages_expires, <- hstats]
        rfl
      change (row.addStats (fromMessages added)).stats = _ ↔ _
      rw [<- hstats, ConversationLabel.addStats_stats, hexpires, Ne,
        fromMessages_expires]
      unfold AddsUp
      simp

theorem sumsUp_labelRow {had : Option ConversationLabel}
    {old added : List Message} (hadded : added ≠ [])
    (hold : SumsUp old had) :
    SumsUp (old ++ added)
      (some (Conversation.labelRow had (fromMessages added))) ↔
      (forall m, m ∈ old -> m.expires = false) ∨
        exists m, m ∈ added ∧ m.expires = true := by
  unfold SumsUp at hold ⊢
  rw [if_neg (by simp [hadded]), Option.map_some, Option.some.injEq]
  cases had with
  | none =>
      have hnil : old = [] := by
        by_contra hne
        rw [if_neg hne] at hold
        cases hold
      rw [labelRow_stats (by simp), hnil]
      simp [AddsUp]
  | some row =>
      have hne : old ≠ [] := by
        intro hnil
        rw [if_pos hnil] at hold
        cases hold
      rw [if_neg hne] at hold
      refine labelRow_stats ?_
      intro row' hrow
      cases hrow
      exact Option.some.inj hold

theorem SumsUp.perm {s t : List Message} {row : Option ConversationLabel}
    (h : s.Perm t) : SumsUp s row ↔ SumsUp t row := by
  have hnil : s = [] ↔ t = [] := by
    rw [<- List.length_eq_zero_iff, h.length_eq, List.length_eq_zero_iff]
  unfold SumsUp
  rw [fromMessages_perm h]
  simp only [hnil]

/-!
# One call
-/

/-- The messages that had the label before those of the call. -/
def labelledBefore (l : LocalLabelId) (c : LocalConversationId)
    (ids : List LocalMessageId) (db : Database) : List Message :=
  (db.labelled l c).filter (fun m => m.localId ∉ ids)

theorem labelImpl_sumsUp (h : Conversation.labelImpl l c ids db = some db')
    (hold : SumsUp (labelledBefore l c ids db) (db.conversationLabels c l)) :
    SumsUp (db'.labelled l c) (db'.conversationLabels c l) ↔
      ids = [] ∨ (forall m, m ∈ labelledBefore l c ids db ->
        m.expires = false) ∨
      exists m, m ∈ Conversation.batch l c ids db ∧ m.expires = true := by
  by_cases hids : ids = []
  · have hsame : db' = db := by
      unfold Conversation.labelImpl at h
      rw [if_pos hids] at h
      exact (Option.some.inj h).symm
    have hall : labelledBefore l c ids db = db.labelled l c := by
      unfold labelledBefore
      rw [hids]
      simp
    rw [hall] at hold
    rw [hsame]
    exact ⟨fun _ => Or.inl hids, fun _ => hold⟩
  · rcases Conversation.labelImpl_spec h hids with ⟨hbatch, hlabelled⟩
    have hperm : (db'.labelled l c).Perm
        (labelledBefore l c ids db ++ Conversation.batch l c ids db) := by
      rw [Conversation.labelled_congr hlabelled.toSameMessages
        hlabelled.messageLabels]
      have hsplit := List.filter_append_perm (fun m => m.localId ∈ ids)
        (db.labelled l c)
      refine hsplit.symm.trans (List.perm_append_comm.trans ?_)
      refine List.Perm.append ?_ (List.Perm.refl _)
      unfold labelledBefore
      simp
    rw [SumsUp.perm hperm, hlabelled.row, sumsUp_labelRow hbatch hold]
    simp [hids]

/-!
# Messages labelled in any order
-/

namespace Message

theorem Applied.labelled_perm (h : Applied l ids db db')
    (c : LocalConversationId) :
    (db'.labelled l c).Perm
      (db.labelled l c ++ newlyLabelledIn l ids db c) := by
  have hnodup : db.messages.Nodup := List.Nodup.of_map _ db.messages_unique
  have hmem : forall m, m ∈ db'.labelled l c ↔ m ∈ db.messages ∧
      m.conversationId = c ∧
        (⟨l, m.localId⟩ ∈ db.messageLabels ∨ m.localId ∈ ids) := by
    intro m
    unfold Database.labelled Database.hasLabel
    rw [h.messages, List.mem_filter]
    simp [h.pairs]
  have hold : forall m, m ∈ db.labelled l c ↔ m ∈ db.messages ∧
      m.conversationId = c ∧ ⟨l, m.localId⟩ ∈ db.messageLabels := by
    intro m
    unfold Database.labelled Database.hasLabel
    rw [List.mem_filter]
    simp
  refine (List.perm_ext_iff_of_nodup ?_ ?_).mpr ?_
  · unfold Database.labelled
    rw [h.messages]
    exact hnodup.filter _
  · refine List.Nodup.append (hnodup.filter _)
      ((hnodup.filter _).filter _) ?_
    refine List.disjoint_left.mpr ?_
    intro m hm hm'
    exact (mem_newlyLabelledIn.mp hm').right.right.left
      ((hold m).mp hm).right.right
  · intro m
    rw [List.mem_append, hmem, hold, mem_newlyLabelledIn]
    tauto

/-- The messages merge into their rows without losing when they expire. -/
def Merges (l : LocalLabelId) (ids : List LocalMessageId) (db : Database) :
    Prop :=
  forall c, newlyLabelledIn l ids db c = [] ∨
    (forall m, m ∈ db.labelled l c -> m.expires = false) ∨
    exists m, m ∈ newlyLabelledIn l ids db c ∧ m.expires = true

theorem Applied.sumsUp (h : Applied l ids db db')
    (hold : forall c, SumsUp (db.labelled l c) (db.conversationLabels c l)) :
    (forall c, SumsUp (db'.labelled l c) (db'.conversationLabels c l)) ↔
      Merges l ids db := by
  refine forall_congr' ?_
  intro c
  rw [SumsUp.perm (h.labelled_perm c), h.rows]
  split
  · rename_i hnone
    rw [hnone, List.append_nil]
    exact ⟨fun _ => Or.inl rfl, fun _ => hold c⟩
  · rename_i hsome
    rw [sumsUp_labelRow hsome (hold c)]
    simp [hsome]

/-- A label is put on messages, one by one or a few at a time. -/
def labelling (l : LocalLabelId) (db : Database) :
    TransitionSystem Database (List LocalMessageId) where
  init := fun s => s = db
  step := fun s ids s' => exists modified,
    applyLabel l ids s = some (modified, s')

theorem sumsUp_of_reachable
    (hold : forall c, SumsUp (db.labelled l c) (db.conversationLabels c l))
    {s : Database}
    (hreach : ReachableWhen (labelling l db)
      (fun s ids => Merges l ids s) s) :
    forall c, SumsUp (s.labelled l c) (s.conversationLabels c l) := by
  induction hreach with
  | start hinit =>
      cases hinit
      exact hold
  | next _ hmerges hstep ih =>
      rcases hstep with ⟨modified, happly⟩
      exact ((applyLabel_spec happly).sumsUp ih).mpr hmerges

end Message

/-- A row is the sum of its messages in every order, as long as it merges. -/
theorem rows_add_up (l : LocalLabelId) :
    (forall c ids db db', Conversation.labelImpl l c ids db = some db' ->
      SumsUp (labelledBefore l c ids db) (db.conversationLabels c l) ->
      (SumsUp (db'.labelled l c) (db'.conversationLabels c l) ↔
        ids = [] ∨ (forall m, m ∈ labelledBefore l c ids db ->
          m.expires = false) ∨
        exists m, m ∈ Conversation.batch l c ids db ∧ m.expires = true)) ∧
    (forall db s,
      (forall c, SumsUp (db.labelled l c) (db.conversationLabels c l)) ->
      ReachableWhen (Message.labelling l db)
        (fun s ids => Message.Merges l ids s) s ->
      forall c, SumsUp (s.labelled l c) (s.conversationLabels c l)) :=
  ⟨fun _ _ _ _ h hold => labelImpl_sumsUp h hold,
    fun _ _ hold hreach => Message.sumsUp_of_reachable hold hreach⟩

/-!
# An expiring message and one that does not expire
-/

def inboxRow : LabelRow where
  localId := 1
  remoteId := some "0"
  labelType := LabelType.system

def inboxOnly : LabelTable :=
  LabelTable.ofRows [inboxRow] 2 (by decide) (by decide) (by decide)

def expiring : Message where
  localId := 1
  conversationId := 1
  size := 10
  time := 5
  expirationTime := 100

def lasting : Message where
  localId := 2
  conversationId := 1
  size := 20
  time := 7

/-- The row sums up the first message; the second has just got the label. -/
def secondLabelled (first second : Message)
    (hkeys : [first.localId, second.localId].Nodup)
    (hone : first.conversationId = 1 ∧ second.conversationId = 1) : Database :=
  Database.ofLists inboxOnly [first, second] [{ localId := 1 }]
    [⟨1, first.localId⟩, ⟨1, second.localId⟩]
    [⟨1, 1, ConversationLabel.ofStats (fromMessages [first])⟩]
    [(1, ⟨1, first.unread.toNat⟩)] [(1, ⟨1, first.unread.toNat⟩)]
    hkeys (by simp) (by simp [hone]) (by simp) (by simp)

instance (messages : List Message) :
    DecidablePred (SumsUp messages) :=
  fun _ => inferInstanceAs (Decidable (_ = _))

/-- Neither message has the label yet. -/
def unlabelled : Database :=
  Database.ofLists inboxOnly [expiring, lasting] [{ localId := 1 }] [] []
    [(1, ⟨0, 0⟩)] [(1, ⟨0, 0⟩)] (by decide) (by decide) (by decide) (by decide)
    (by decide)

theorem unlabelled_sumsUp (c : LocalConversationId) :
    SumsUp (unlabelled.labelled 1 c) (unlabelled.conversationLabels c 1) := by
  have hnone : unlabelled.labelled 1 c = [] := by
    unfold Database.labelled
    refine List.filter_eq_nil_iff.mpr ?_
    intro m _
    simp [Database.hasLabel, unlabelled, Database.ofLists]
  rw [hnone]
  rfl

theorem rows_add_up_inbox :
    SumsUp ((secondLabelled lasting expiring (by decide)
        (by decide)).labelled 1 1)
      (some (ConversationLabel.ofStats (fromMessages [lasting, expiring]))) ∧
    exists s, Reachable (Message.labelling 1 unlabelled) s ∧
      forall c, SumsUp (s.labelled 1 c) (s.conversationLabels c 1) := by
  have hstep := (rows_add_up 1).left 1 [1]
    (secondLabelled lasting expiring (by decide) (by decide)) _ rfl
    (by decide +kernel)
  refine ⟨hstep.mpr (by decide +kernel), ?_⟩
  have hreach : ReachableWhen (Message.labelling 1 unlabelled)
      (fun s ids => Message.Merges 1 ids s) _ :=
    ReachableWhen.next (l := [1, 2]) (ReachableWhen.start rfl) ?_ ⟨_, rfl⟩
  · exact ⟨_, hreach.reachable,
      (rows_add_up 1).right unlabelled _ unlabelled_sumsUp hreach⟩
  · intro c
    refine Or.inr (Or.inl ?_)
    intro m hm
    simp [Database.labelled, Database.hasLabel, unlabelled,
      Database.ofLists] at hm

/-- With the second message the conversation no longer expires. -/
theorem expiration_forgotten :
    SumsUp (labelledBefore 1 1 [2]
        (secondLabelled expiring lasting (by decide) (by decide)))
      ((secondLabelled expiring lasting (by decide)
        (by decide)).conversationLabels 1 1) ∧
    exists db', Conversation.labelImpl 1 1 [2]
        (secondLabelled expiring lasting (by decide) (by decide)) = some db' ∧
      ¬ SumsUp (db'.labelled 1 1) (db'.conversationLabels 1 1) := by
  refine ⟨by decide +kernel, _, rfl, ?_⟩
  decide +kernel

end Conversations
end MailClient
