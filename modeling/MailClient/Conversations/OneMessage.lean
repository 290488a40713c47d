import MailClient.Conversations.UnlabelSpec

/-!
# One message at one label

What labelling one message does at the label, in terms of the other messages
there.  Nothing changes at any other label.
-/

namespace MailClient
namespace Conversations

open ConversationMessageLabelStats (fromMessages)

variable {l : LocalLabelId} {c : LocalConversationId} {m : Message}
  {db db' db'' : Database} {modified : List LocalMessageId}

/-- The other messages of the conversation that carry the label. -/
def Database.others (db : Database) (l : LocalLabelId) (m : Message) :
    List Message :=
  (db.labelled l m.conversationId).filter (fun m' => m'.localId ≠ m.localId)

/-- What the tables say about a label. -/
@[ext]
structure LabelView where
  ids : Set LocalMessageId
  rows : LocalConversationId -> Option ConversationLabel
  messageCounter : Option Counter
  conversationCounter : Option Counter

def Database.view (db : Database) (l : LocalLabelId) : LabelView where
  ids := { id | ⟨l, id⟩ ∈ db.messageLabels }
  rows := fun c => db.conversationLabels c l
  messageCounter := db.messageCounters l
  conversationCounter := db.conversationCounters l

namespace LabelView

/-- The message gets the label. -/
def put (m : Message) (v : LabelView) : LabelView where
  ids := insert m.localId v.ids
  rows := Function.update v.rows m.conversationId
    (some (Conversation.labelRow (v.rows m.conversationId) (fromMessages [m])))
  messageCounter := v.messageCounter.map (fun k =>
    { total := k.total + 1, unread := k.unread + m.unread.toNat })
  conversationCounter := v.conversationCounter.map
    (Conversation.labelCounter (v.rows m.conversationId) (fromMessages [m]))

/-- A row without the message, if there are others. -/
def rowOfOthers (others : List Message) (row : ConversationLabel) :
    Option ConversationLabel :=
  if others = [] then none
  else some { ConversationLabel.ofStats (fromMessages others) with
    deleted := row.deleted }

/-- The message loses the label, and `others` are left there. -/
def take (m : Message) (others : List Message) (v : LabelView) :
    LabelView where
  ids := v.ids \ {m.localId}
  rows := Function.update v.rows m.conversationId
    ((v.rows m.conversationId).bind (rowOfOthers others))
  messageCounter := v.messageCounter.map (fun k =>
    { total := k.total - 1, unread := k.unread - m.unread.toNat })
  conversationCounter := v.conversationCounter.map (fun k =>
    { total := k.total -
        ((v.rows m.conversationId).isSome && others.isEmpty).toNat
      unread := k.unread - ((v.rows m.conversationId).isSome && m.unread &&
        (fromMessages others).unread == 0).toNat })

end LabelView

theorem mem_view {id : LocalMessageId} :
    id ∈ (db.view l).ids ↔ ⟨l, id⟩ ∈ db.messageLabels :=
  Iff.rfl

theorem view_pairs (h : db'.view l = db.view l) (id : LocalMessageId) :
    ⟨l, id⟩ ∈ db'.messageLabels ↔ ⟨l, id⟩ ∈ db.messageLabels :=
  Set.ext_iff.mp (congrArg LabelView.ids h) id

/-!
# Putting the label on
-/

section Calls

theorem filter_localId (hm : m ∈ db.messages) :
    db.messages.filter (fun m' => m'.localId = m.localId) = [m] := by
  have hnodup := List.Nodup.of_map _ db.messages_unique
  refine (List.perm_singleton.mp ?_)
  rw [List.perm_ext_iff_of_nodup (hnodup.filter _) (List.nodup_singleton m)]
  intro m'
  rw [List.mem_filter, List.mem_singleton, decide_eq_true_eq]
  constructor
  · rintro ⟨hm', hid⟩
    exact List.inj_on_of_nodup_map db.messages_unique hm' hm hid
  · rintro rfl
    exact ⟨hm, rfl⟩

theorem byConversation_one (hm : m ∈ db.messages) :
    Message.byConversation db [m.localId] =
      [(m.conversationId, [m.localId])] := by
  unfold Message.byConversation
  simp [Message.conversationOf_of_mem hm, List.filterMap]

theorem applyLabel_one (hm : m ∈ db.messages)
    (hnew : ⟨l, m.localId⟩ ∉ db.messageLabels) :
    Message.applyLabel l [m.localId] db =
      (db.insertPair l m.localId).bind (fun db' =>
        (Conversation.labelImpl l m.conversationId [m.localId] db').map
          (fun db'' => ([m.localId], db''))) := by
  unfold Message.applyLabel Message.insertPairs
  rw [if_neg hnew]
  cases hinsert : db.insertPair l m.localId with
  | none => rfl
  | some db' =>
      have hm' : m ∈ db'.messages := by
        rw [(Message.insertPair_spec hinsert).left.messages]
        exact hm
      simp only [Option.bind_eq_bind, Option.bind_some, Message.insertPairs,
        byConversation_one hm', List.foldlM_cons, List.foldlM_nil]
      cases Conversation.labelImpl l m.conversationId [m.localId] db' with
      | none => rfl
      | some db'' => rfl

theorem batch_one (hm : m ∈ db.messages)
    (hlabel : ⟨l, m.localId⟩ ∈ db.messageLabels) :
    Conversation.batch l m.conversationId [m.localId] db = [m] := by
  unfold Conversation.batch Database.labelled
  rw [List.filter_comm]
  simp only [List.mem_singleton]
  rw [filter_localId hm, List.filter_cons_of_pos]
  · rfl
  · simpa [Database.hasLabel] using hlabel

theorem applyLabel_put (hm : m ∈ db.messages)
    (hnew : ⟨l, m.localId⟩ ∉ db.messageLabels)
    (h : Message.applyLabel l [m.localId] db = some (modified, db')) :
    db'.view l = (db.view l).put m := by
  rw [applyLabel_one hm hnew] at h
  rcases Option.bind_eq_some_iff.mp h with ⟨db₁, hinsert, h⟩
  rcases Option.map_eq_some_iff.mp h with ⟨db₂, himpl, h⟩
  cases h
  rcases Message.insertPair_spec hinsert with
    ⟨hsame, hrows, hmsgs, hconvs, hpairs⟩
  have hlabel : ⟨l, m.localId⟩ ∈ db₁.messageLabels := by
    rw [hpairs]
    exact Finset.mem_insert_self _ _
  have hlabelled := (Conversation.labelImpl_spec himpl (by simp)).right
  rw [batch_one (hsame.messages ▸ hm) hlabel] at hlabelled
  refine LabelView.ext (Set.ext (fun id => ?_)) (funext (fun c => ?_)) ?_ ?_
  · rw [mem_view, hlabelled.messageLabels, hpairs, Finset.mem_insert]
    simp [Database.view, LabelView.put]
  · show db'.conversationLabels c l = ((db.view l).put m).rows c
    unfold LabelView.put
    dsimp only
    by_cases hc : c = m.conversationId
    · rw [hc, Function.update_self, hlabelled.row, hrows]
      rfl
    · rw [Function.update_of_ne hc, hlabelled.otherRows c l (Or.inl hc), hrows]
      rfl
  · rcases hlabelled.messageCounter with ⟨k, hk, hafter⟩
    rw [hmsgs] at hk
    show db'.messageCounters l = (db.messageCounters l).map _
    rw [hafter, hk, ConversationMessageLabelStats.fromMessages_unread,
      ConversationMessageLabelStats.fromMessages_count]
    cases hunread : m.unread <;> simp [hunread]
  · rcases hlabelled.conversationCounter with ⟨k, hk, hafter⟩
    rw [hconvs] at hk
    rw [hrows] at hafter
    show db'.conversationCounters l = (db.conversationCounters l).map _
    rw [hafter, hk]
    rfl

theorem applyLabel_elsewhere {l' : LocalLabelId} {ids : List LocalMessageId}
    (h : Message.applyLabel l ids db = some (modified, db'))
    (hl : l' ≠ l) : db'.view l' = db.view l' := by
  have happlied := Message.applyLabel_spec h
  refine LabelView.ext (Set.ext (fun id => ?_))
    (funext (fun c => happlied.otherRows c l' hl))
    (happlied.otherCounters l' hl).left (happlied.otherCounters l' hl).right
  rw [mem_view, mem_view, happlied.pairs]
  simp [hl]

/-- The row and the counters of the label can be saved. -/
structure Saves (l : LocalLabelId) (db : Database) : Prop where
  known : l ∈ db.labels.rows.map Labels.LabelRow.localId
  remote : db.hasRemoteId l = true
  messages : (db.messageCounters l).isSome = true
  conversations : (db.conversationCounters l).isSome = true

theorem Saves.congr (h : Saves l db) (hlabels : db'.labels = db.labels)
    (hmessages : (db'.messageCounters l).isSome = true)
    (hconversations : (db'.conversationCounters l).isSome = true) :
    Saves l db' where
  known := by
    rw [hlabels]
    exact h.known
  remote := by
    unfold Database.hasRemoteId
    rw [hlabels]
    exact h.remote
  messages := hmessages
  conversations := hconversations

theorem saveRow_succeeds (hremote : db.hasRemoteId l = true)
    (hm : m ∈ db.messages) (row : ConversationLabel) :
    exists db', db.saveRow m.conversationId l row = some db' := by
  unfold Database.saveRow
  rw [dif_pos ⟨hremote, db.conversation_known m hm⟩]
  exact ⟨_, rfl⟩

theorem applyLabel_succeeds (hm : m ∈ db.messages)
    (hnew : ⟨l, m.localId⟩ ∉ db.messageLabels) (hsaves : Saves l db) :
    exists db', Message.applyLabel l [m.localId] db =
      some ([m.localId], db') := by
  rw [applyLabel_one hm hnew]
  have hinsert : exists db₁, db.insertPair l m.localId = some db₁ := by
    unfold Database.insertPair
    rw [dif_pos ⟨List.mem_map_of_mem hm, hsaves.known⟩]
    exact ⟨_, rfl⟩
  rcases hinsert with ⟨db₁, hinsert⟩
  rcases Message.insertPair_spec hinsert with
    ⟨hsame, hrows, hmsgs, hconvs, hpairs⟩
  have hlabel : ⟨l, m.localId⟩ ∈ db₁.messageLabels := by
    rw [hpairs]
    exact Finset.mem_insert_self _ _
  have hm₁ : m ∈ db₁.messages := hsame.messages ▸ hm
  have hsaves₁ : Saves l db₁ := hsaves.congr hsame.labels
    (by rw [hmsgs]; exact hsaves.messages)
    (by rw [hconvs]; exact hsaves.conversations)
  rcases saveRow_succeeds hsaves₁.remote hm₁ (Conversation.labelRow
    (db₁.conversationLabels m.conversationId l) (fromMessages [m])) with
    ⟨db₂, hsave⟩
  rcases Conversation.saveRow_spec hsave with ⟨_, _, hmsgs₂, hconvs₂, _, _⟩
  rcases Option.isSome_iff_exists.mp hsaves₁.messages with ⟨k, hk⟩
  rcases Option.isSome_iff_exists.mp hsaves₁.conversations with ⟨k', hk'⟩
  rw [<- hmsgs₂] at hk
  rw [<- hconvs₂] at hk'
  rw [hinsert, Option.bind_some]
  unfold Conversation.labelImpl
  rw [if_neg (by simp), batch_one hm₁ hlabel, if_neg (by simp)]
  simp only [hsave, Option.bind_eq_bind, Option.bind_some, hk, hk',
    Option.map_some]
  exact ⟨_, rfl⟩

/-!
# Taking the label off
-/

theorem distinctConversations_one (hm : m ∈ db.messages) :
    Message.distinctConversations db [m.localId] = [m.conversationId] := by
  unfold Message.distinctConversations
  simp only [List.mem_singleton]
  rw [filter_localId hm]
  rfl

theorem removeLabel_one (hm : m ∈ db.messages)
    (hlabel : ⟨l, m.localId⟩ ∈ db.messageLabels) :
    Message.removeLabel l [m.localId] db =
      (db.messageCounters l).bind (fun msg =>
        (db.conversationCounters l).bind (fun conv =>
          (Message.relabel l m.unread.toNat m.conversationId
            (conv, (db.deletePair l m.localId).saveMessageCounter l
              { total := msg.total - 1
                unread := msg.unread - m.unread.toNat })).map
            (fun p => ([m.localId], p.2.saveConversationCounter l p.1)))) := by
  unfold Message.removeLabel
  rw [distinctConversations_one hm]
  simp only [Message.deletePairs, Message.message_of_mem hm, hlabel, if_true,
    Option.bind_eq_bind, Option.bind_some, List.nil_append,
    List.foldlM_cons, List.foldlM_nil, List.length_singleton, Nat.zero_add,
    List.cons_ne_nil, if_false]
  show (db.messageCounters l).bind _ = _
  congr 1
  funext msg
  show (db.conversationCounters l).bind _ = _
  congr 1
  funext conv
  cases Message.relabel l m.unread.toNat m.conversationId
      (conv, (db.deletePair l m.localId).saveMessageCounter l
        { total := msg.total - 1, unread := msg.unread - m.unread.toNat }) with
  | none => rfl
  | some p => rfl

theorem deletePair_others (l : LocalLabelId) (m : Message) (db : Database) :
    (db.deletePair l m.localId).labelled l m.conversationId =
      db.others l m := by
  unfold Database.others Database.labelled
  rw [List.filter_filter]
  refine List.filter_congr (fun m' _ => ?_)
  unfold Database.hasLabel Database.deletePair
  simp only [Finset.mem_erase, ne_eq, LabelPair.mk.injEq, true_and]
  by_cases hid : m'.localId = m.localId
  · simp [hid]
  · simp [hid]

theorem toNat_eq_ite (b : Bool) : b.toNat = if b = true then 1 else 0 := by
  cases b with
  | false => rfl
  | true => rfl

theorem toNat_ne_zero (b : Bool) : (b.toNat != 0) = b := by
  cases b with
  | false => rfl
  | true => rfl

theorem removeLabel_take (hm : m ∈ db.messages)
    (hlabel : ⟨l, m.localId⟩ ∈ db.messageLabels)
    (h : Message.removeLabel l [m.localId] db = some (modified, db')) :
    SameMessages db db' ∧ db'.view l = (db.view l).take m (db.others l m) ∧
      forall l', l' ≠ l -> db'.view l' = db.view l' := by
  rw [removeLabel_one hm hlabel] at h
  rcases Option.bind_eq_some_iff.mp h with ⟨msg, hmsg, h⟩
  rcases Option.bind_eq_some_iff.mp h with ⟨conv, hconv, h⟩
  rcases Option.map_eq_some_iff.mp h with ⟨p, hrelabel, h⟩
  cases h
  have hrelabelled := Message.relabel_spec hrelabel
  have hothers := deletePair_others l m db
  have hpairs : p.2.messageLabels = db.messageLabels.erase ⟨l, m.localId⟩ :=
    hrelabelled.messageLabels
  refine ⟨⟨hrelabelled.labels, hrelabelled.messages,
    hrelabelled.conversations⟩, LabelView.ext (Set.ext (fun id => ?_))
      (funext (fun c => ?_)) ?_ ?_, fun l' hl => LabelView.ext
        (Set.ext (fun id => ?_))
        (funext (fun c => hrelabelled.otherRows c l' hl)) ?_ ?_⟩
  · show _ ∈ p.2.messageLabels ↔ _ ∈ _ \ _
    rw [hpairs, Finset.mem_erase, Set.mem_sdiff, mem_view, and_comm]
    simp
  · show p.2.conversationLabels c l =
      ((db.view l).take m (db.others l m)).rows c
    unfold LabelView.take
    dsimp only
    rw [hrelabelled.rows]
    by_cases hc : c = m.conversationId
    · rw [hc, if_pos (List.mem_singleton_self _), Function.update_self]
      show (db.conversationLabels m.conversationId l).bind
        (LabelView.rowOfOthers ((db.deletePair l m.localId).labelled l
          m.conversationId)) = _
      rw [hothers]
      rfl
    · rw [if_neg (by simpa using hc), Function.update_of_ne hc]
      rfl
  · show p.2.messageCounters l = (db.messageCounters l).map _
    rw [hrelabelled.messageCounters, hmsg]
    exact Function.update_self l _ _
  · show Function.update p.2.conversationCounters l _ l =
      (db.conversationCounters l).map _
    rw [Function.update_self, hrelabelled.counter, hconv]
    simp only [List.countP_singleton, Message.isLost, Message.isRead]
    show some (Counter.mk (conv.total - if ((db.conversationLabels
        m.conversationId l).isSome && ((db.deletePair l m.localId).labelled l
          m.conversationId).isEmpty) = true then 1 else 0)
      (conv.unread - if ((db.conversationLabels m.conversationId l).isSome &&
        m.unread.toNat != 0 && (fromMessages ((db.deletePair l
          m.localId).labelled l m.conversationId)).unread == 0) = true
        then 1 else 0)) = _
    rw [hothers, toNat_ne_zero, <- toNat_eq_ite, <- toNat_eq_ite]
    rfl
  · show _ ∈ p.2.messageLabels ↔ _
    rw [hpairs, Finset.mem_erase, mem_view]
    simp [hl]
  · show p.2.messageCounters l' = _
    rw [hrelabelled.messageCounters]
    exact Function.update_of_ne hl _ _
  · show Function.update p.2.conversationCounters l _ l' = _
    rw [Function.update_of_ne hl, hrelabelled.conversationCounters]
    rfl

theorem removeLabel_succeeds (hm : m ∈ db.messages)
    (hlabel : ⟨l, m.localId⟩ ∈ db.messageLabels) (hsaves : Saves l db) :
    exists db', Message.removeLabel l [m.localId] db =
      some ([m.localId], db') := by
  rw [removeLabel_one hm hlabel]
  rcases Option.isSome_iff_exists.mp hsaves.messages with ⟨k, hk⟩
  rcases Option.isSome_iff_exists.mp hsaves.conversations with ⟨k', hk'⟩
  rw [hk, hk', Option.bind_some, Option.bind_some]
  unfold Message.relabel
  dsimp only
  split
  · exact ⟨_, rfl⟩
  · split
    · exact ⟨_, rfl⟩
    · have hremote : ((db.deletePair l m.localId).saveMessageCounter l
          { total := k.total - 1,
            unread := k.unread - m.unread.toNat }).hasRemoteId l = true :=
        hsaves.remote
      rcases saveRow_succeeds hremote hm _ with ⟨db₁, hsave⟩
      rw [hsave]
      exact ⟨_, rfl⟩

end Calls

/-!
# Several labels, one after another
-/

theorem others_eq (hsame : SameMessages db db') (h : db'.view l = db.view l) :
    db'.others l m = db.others l m := by
  unfold Database.others Database.labelled Database.hasLabel
  simp only [hsame.messages, view_pairs h]

/--
A call that changes one message at one label.  It acts where `acts` says so, and
`change` tells what becomes of the label.
-/
structure LabelStep (m : Message)
    (step : Database -> LocalLabelId -> Option Database)
    (acts : LocalLabelId -> Database -> Prop)
    (change : LocalLabelId -> Database -> LabelView) : Prop where
  idle : forall {db db' l}, step db l = some db' -> ¬ acts l db -> db' = db
  acted : forall {db db' l}, m ∈ db.messages -> step db l = some db' ->
    acts l db -> SameMessages db db' ∧ db'.view l = change l db ∧
      ¬ acts l db' ∧ forall l', l' ≠ l -> db'.view l' = db.view l'
  congr : forall {db db' l}, SameMessages db db' -> db'.view l = db.view l ->
    (acts l db' ↔ acts l db) ∧ change l db' = change l db
  succeeds : forall {db l}, m ∈ db.messages -> Saves l db ->
    exists db', step db l = some db'
  counters : forall {db l}, Saves l db ->
    (change l db).messageCounter.isSome = true ∧
      (change l db).conversationCounter.isSome = true

namespace LabelStep

variable {step : Database -> LocalLabelId -> Option Database}
  {acts : LocalLabelId -> Database -> Prop}
  {change : LocalLabelId -> Database -> LabelView} {ls : List LocalLabelId}

theorem one (h : LabelStep m step acts change) (hm : m ∈ db.messages)
    {l' : LocalLabelId} (hstep : step db l' = some db') :
    SameMessages db db' ∧ forall l,
      (l ≠ l' ∨ ¬ acts l db -> db'.view l = db.view l) ∧
      (l = l' -> acts l db -> db'.view l = change l db ∧ ¬ acts l db') := by
  by_cases hacts : acts l' db
  · rcases h.acted hm hstep hacts with ⟨hsame, hchange, hdone, helse⟩
    refine ⟨hsame, fun l => ⟨fun hidle => ?_, ?_⟩⟩
    · refine helse l (fun hl => hidle.elim (fun hne => hne hl) ?_)
      rw [hl]
      exact fun hidle => hidle hacts
    · rintro rfl _
      exact ⟨hchange, hdone⟩
  · rw [h.idle hstep hacts]
    refine ⟨SameMessages.refl db, fun l => ⟨fun _ => rfl, ?_⟩⟩
    rintro rfl hl
    exact absurd hl hacts

theorem run (h : LabelStep m step acts change) (hm : m ∈ db.messages)
    (hrun : ls.foldlM step db = some db') :
    SameMessages db db' ∧ forall l,
      (l ∉ ls ∨ ¬ acts l db -> db'.view l = db.view l) ∧
      (l ∈ ls -> acts l db -> db'.view l = change l db) := by
  induction ls generalizing db with
  | nil =>
      cases hrun
      refine ⟨SameMessages.refl _, fun l => ⟨fun _ => rfl, ?_⟩⟩
      intro hl
      cases hl
  | cons l' rest ih =>
      rw [List.foldlM_cons] at hrun
      rcases Option.bind_eq_some_iff.mp hrun with ⟨db₁, hstep, hrest⟩
      rcases h.one hm hstep with ⟨hsame, hone⟩
      rcases ih (hsame.messages ▸ hm) hrest with ⟨hsame', hrest⟩
      refine ⟨hsame.trans hsame', fun l => ?_⟩
      rcases hone l with ⟨hidle, hchange⟩
      rcases hrest l with ⟨hidle', hchange'⟩
      rw [List.mem_cons, not_or]
      constructor
      · intro hnot
        have hview := hidle (hnot.imp_left And.left)
        refine (hidle' ?_).trans hview
        rw [(h.congr hsame hview).left]
        exact hnot.imp_left And.right
      · intro hl hacts
        by_cases hne : l = l'
        · rcases hchange hne hacts with ⟨hdone, hidle⟩
          exact (hidle' (Or.inr hidle)).trans hdone
        · have hview := hidle (Or.inl hne)
          rcases h.congr hsame hview with ⟨hsameActs, hsameChange⟩
          rw [hchange' (hl.resolve_left hne) (hsameActs.mpr hacts),
            hsameChange]

theorem saves (h : LabelStep m step acts change) (hm : m ∈ db.messages)
    {l' : LocalLabelId} (hstep : step db l' = some db')
    (hsaves : Saves l db) : Saves l db' := by
  rcases h.one hm hstep with ⟨hsame, hone⟩
  have hcounters : (db'.view l).messageCounter.isSome = true ∧
      (db'.view l).conversationCounter.isSome = true := by
    by_cases hacts : l = l' ∧ acts l db
    · rw [((hone l).right hacts.left hacts.right).left]
      exact h.counters hsaves
    · rw [(hone l).left (Decidable.not_and_iff_not_or_not.mp hacts)]
      exact ⟨hsaves.messages, hsaves.conversations⟩
  exact hsaves.congr hsame.labels hcounters.left hcounters.right

theorem run_saves (h : LabelStep m step acts change) (hm : m ∈ db.messages)
    (hrun : ls.foldlM step db = some db') (hsaves : Saves l db) :
    Saves l db' := by
  induction ls generalizing db with
  | nil =>
      cases hrun
      exact hsaves
  | cons l' rest ih =>
      rw [List.foldlM_cons] at hrun
      rcases Option.bind_eq_some_iff.mp hrun with ⟨db₁, hstep, hrest⟩
      exact ih ((h.one hm hstep).left.messages ▸ hm) hrest
        (h.saves hm hstep hsaves)

theorem run_succeeds (h : LabelStep m step acts change)
    (hm : m ∈ db.messages) (hsaves : forall l, l ∈ ls -> Saves l db) :
    exists db', ls.foldlM step db = some db' := by
  induction ls generalizing db with
  | nil => exact ⟨db, rfl⟩
  | cons l' rest ih =>
      rcases h.succeeds hm (hsaves l' List.mem_cons_self) with ⟨db₁, hstep⟩
      rw [List.foldlM_cons, hstep]
      exact ih ((h.one hm hstep).left.messages ▸ hm)
        (fun l hl => h.saves hm hstep (hsaves l (List.mem_cons_of_mem l' hl)))

end LabelStep

namespace Message

/-- `remove_label` of one message. -/
def removeFrom (id : LocalMessageId) (db : Database) (l : LocalLabelId) :
    Option Database :=
  (removeLabel l [id] db).map Prod.snd

/-- `apply_label` of one message. -/
def applyTo (id : LocalMessageId) (db : Database) (l : LocalLabelId) :
    Option Database :=
  (applyLabel l [id] db).map Prod.snd

theorem removeLabel_idle (h : ⟨l, m.localId⟩ ∉ db.messageLabels)
    (hremove : removeLabel l [m.localId] db = some (modified, db')) :
    db' = db := by
  unfold removeLabel at hremove
  simp only [deletePairs, h, if_false, Option.bind_eq_bind] at hremove
  cases hfind : db.message m.localId with
  | none =>
      rw [hfind] at hremove
      cases hremove
  | some m' =>
      rw [hfind] at hremove
      cases hremove
      rfl

theorem removeFrom_step (m : Message) :
    LabelStep m (removeFrom m.localId)
      (fun l db => ⟨l, m.localId⟩ ∈ db.messageLabels)
      (fun l db => (db.view l).take m (db.others l m)) where
  idle := by
    intro db db' l h hlabel
    rcases Option.map_eq_some_iff.mp h with ⟨p, hcall, rfl⟩
    exact removeLabel_idle hlabel hcall
  acted := by
    intro db db' l hm h hlabel
    rcases Option.map_eq_some_iff.mp h with ⟨p, hcall, rfl⟩
    rcases removeLabel_take hm hlabel hcall with ⟨hsame, htake, helse⟩
    refine ⟨hsame, htake, fun hcarried => ?_, helse⟩
    rw [<- mem_view, htake] at hcarried
    exact hcarried.right rfl
  congr := fun hsame h =>
    ⟨view_pairs h _, by rw [h, others_eq hsame h]⟩
  succeeds := by
    intro db l hm hsaves
    by_cases hlabel : ⟨l, m.localId⟩ ∈ db.messageLabels
    · rcases removeLabel_succeeds hm hlabel hsaves with ⟨db', h⟩
      exact ⟨db', by rw [removeFrom, h]; rfl⟩
    · refine ⟨db, ?_⟩
      unfold removeFrom removeLabel
      simp only [deletePairs, message_of_mem hm, hlabel, if_false]
      rfl
  counters := fun hsaves => ⟨Option.isSome_map.trans hsaves.messages,
    Option.isSome_map.trans hsaves.conversations⟩

theorem applyLabel_idle (h : ⟨l, m.localId⟩ ∈ db.messageLabels) :
    applyLabel l [m.localId] db = some ([], db) := by
  unfold applyLabel insertPairs
  rw [if_pos h]
  rfl

theorem applyTo_step (m : Message) :
    LabelStep m (applyTo m.localId)
      (fun l db => ⟨l, m.localId⟩ ∉ db.messageLabels)
      (fun l db => (db.view l).put m) where
  idle := by
    intro db db' l h hlabel
    rw [applyTo, applyLabel_idle (not_not.mp hlabel)] at h
    cases h
    rfl
  acted := by
    intro db db' l hm h hlabel
    rcases Option.map_eq_some_iff.mp h with ⟨p, hcall, rfl⟩
    have hput := applyLabel_put hm hlabel hcall
    refine ⟨(applyLabel_spec hcall).toSameMessages, hput, ?_,
      fun l' hl => applyLabel_elsewhere hcall hl⟩
    rw [not_not, <- mem_view, hput]
    exact Set.mem_insert _ _
  congr := fun _ h => ⟨not_congr (view_pairs h _), by rw [h]⟩
  succeeds := by
    intro db l hm hsaves
    by_cases hlabel : ⟨l, m.localId⟩ ∈ db.messageLabels
    · exact ⟨db, by rw [applyTo, applyLabel_idle hlabel]; rfl⟩
    · rcases applyLabel_succeeds hm hlabel hsaves with ⟨db', h⟩
      exact ⟨db', by rw [applyTo, h]; rfl⟩
  counters := fun hsaves => ⟨Option.isSome_map.trans hsaves.messages,
    Option.isSome_map.trans hsaves.conversations⟩

/-- Moves a message, out of labels one by one and then into others. -/
def moveLabels (off on : List LocalLabelId) (id : LocalMessageId)
    (db : Database) : Option Database := do
  let db <- off.foldlM (removeFrom id) db
  on.foldlM (applyTo id) db

/-- What a move does at each label. -/
structure Moved (off on : List LocalLabelId) (m : Message)
    (db db' : Database) : Prop extends SameMessages db db' where
  same : forall l, l ∉ off ∨ ⟨l, m.localId⟩ ∉ db.messageLabels ->
    l ∉ on ∨ ⟨l, m.localId⟩ ∈ db.messageLabels -> db'.view l = db.view l
  taken : forall l, l ∈ off -> ⟨l, m.localId⟩ ∈ db.messageLabels ->
    l ∉ on -> db'.view l = (db.view l).take m (db.others l m)
  put : forall l, l ∉ off -> l ∈ on -> ⟨l, m.localId⟩ ∉ db.messageLabels ->
    db'.view l = (db.view l).put m

theorem moveLabels_moved {off on : List LocalLabelId} (hm : m ∈ db.messages)
    (h : moveLabels off on m.localId db = some db') :
    Moved off on m db db' := by
  rcases Option.bind_eq_some_iff.mp h with ⟨db₁, hoff, hon⟩
  rcases (removeFrom_step m).run hm hoff with ⟨hsame, hoff⟩
  rcases (applyTo_step m).run (hsame.messages ▸ hm) hon with ⟨hsame', hon⟩
  refine ⟨hsame.trans hsame', fun l hleft hput => ?_,
    fun l hl hcarried hnot => ?_, fun l hl hl' hnew => ?_⟩
  · have hview := (hoff l).left hleft
    refine ((hon l).left ?_).trans hview
    rw [view_pairs hview, not_not]
    exact hput
  · exact ((hon l).left (Or.inl hnot)).trans ((hoff l).right hl hcarried)
  · have hview := (hoff l).left (Or.inl hl)
    rw [(hon l).right hl' (by rw [view_pairs hview]; exact hnew), hview]

theorem moveLabels_saves {off on : List LocalLabelId} (hm : m ∈ db.messages)
    (h : moveLabels off on m.localId db = some db') (hsaves : Saves l db) :
    Saves l db' := by
  rcases Option.bind_eq_some_iff.mp h with ⟨db₁, hoff, hon⟩
  have hsame := ((removeFrom_step m).run hm hoff).left
  exact (applyTo_step m).run_saves (hsame.messages ▸ hm) hon
    ((removeFrom_step m).run_saves hm hoff hsaves)

theorem moveLabels_succeeds {off on : List LocalLabelId}
    (hm : m ∈ db.messages) (hoff : forall l, l ∈ off -> Saves l db)
    (hon : forall l, l ∈ on -> Saves l db) :
    exists db', moveLabels off on m.localId db = some db' := by
  rcases (removeFrom_step m).run_succeeds hm hoff with ⟨db₁, hrun⟩
  have hsame := ((removeFrom_step m).run hm hrun).left
  rcases (applyTo_step m).run_succeeds (hsame.messages ▸ hm)
    (fun l hl => (removeFrom_step m).run_saves hm hrun (hon l hl)) with
    ⟨db', hrun'⟩
  refine ⟨db', ?_⟩
  unfold moveLabels
  rw [hrun]
  exact hrun'

end Message

end Conversations
end MailClient
