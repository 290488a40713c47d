import MailClient.Conversations.Balance
import MailClient.Drafts.Sending
import MailClient.Foundation.Transition
import MailClient.Labels.Update

/-!
# A failed action puts the message back

A label that the message was given is left as it was before.  A label that the
message gets back shows it at the time of the failure; its row differs in that time,
and in when it expires if the message does not and another one does.
-/

namespace MailClient
namespace Drafts
namespace Sending

open ActionQueue (ActionId)
open Conversations
open Messages (MessageFlags)
open ConversationMessageLabelStats (fromMessages ofMessage)
open Foundation
open Labels (LabelRow)

variable {l : LocalLabelId} {m : Message} {db db' db'' : Database}

/-- The label has a row for each conversation with messages there. -/
structure Consistent (l : LocalLabelId) (db : Database) : Prop
    extends Balanced l db where
  shown : forall c, db.conversationLabels c l = none -> db.labelled l c = []
  filled : forall c row, db.conversationLabels c l = some row ->
    db.labelled l c ≠ [] ∧ row.deleted = false

/-- The message expires at either time, or no message there expires. -/
def ExpiresAlike (l : LocalLabelId) (m : Message) (now : Nat)
    (db : Database) : Prop :=
  (setTime (some now) m).expires = m.expires ∧
    (m.expires = false ->
      forall m', m' ∈ db.others l m -> m'.expires = false)

/-- The message has the label back, at another time. -/
def PutBack (l : LocalLabelId) (m : Message) (now : Nat)
    (db db' : Database) : Prop :=
  exists row expirationTime,
    db.conversationLabels m.conversationId l = some row ∧
      (ExpiresAlike l m now db -> expirationTime = row.contextExpirationTime) ∧
      db'.view l = { db.view l with
        rows := Function.update (db.view l).rows m.conversationId (some
          { row with
            contextTime := max (fromMessages (db.others l m)).time now
            contextExpirationTime := expirationTime }) }

/-!
# There and back
-/

theorem others_of_not_mem (h : ⟨l, m.localId⟩ ∉ db.messageLabels) :
    db.others l m = db.labelled l m.conversationId := by
  refine List.filter_eq_self.mpr (fun m' hm' => decide_eq_true ?_)
  intro hid
  have hlabel := (of_decide_eq_true (List.mem_filter.mp hm').right).right
  unfold Database.hasLabel at hlabel
  rw [hid, decide_eq_true_eq] at hlabel
  exact h hlabel

theorem labelled_perm (hm : m ∈ db.messages)
    (h : ⟨l, m.localId⟩ ∈ db.messageLabels) :
    (db.labelled l m.conversationId).Perm (m :: db.others l m) := by
  have hbatch := batch_one hm h
  have hperm := List.filter_append_perm (fun m' => decide
    (m'.localId ∈ [m.localId])) (db.labelled l m.conversationId)
  unfold Conversation.batch at hbatch
  rw [hbatch] at hperm
  have hothers : (db.labelled l m.conversationId).filter
      (fun m' => !decide (m'.localId ∈ [m.localId])) = db.others l m := by
    refine List.filter_congr (fun m' _ => ?_)
    simp
  rw [hothers] at hperm
  exact hperm.symm

theorem map_back {f g : Counter -> Counter} (h : forall k, g (f k) = k)
    (counter : Option Counter) : (counter.map f).map g = counter := by
  cases counter with
  | none => rfl
  | some k => exact congrArg some (h k)

theorem fromMessages_one (m : Message) : fromMessages [m] = ofMessage m := by
  rw [ConversationMessageLabelStats.fromMessages_cons]
  exact add_zero _

theorem take_put (h : Consistent l db)
    (hnew : ⟨l, m.localId⟩ ∉ db.messageLabels) :
    ((db.view l).put m).take m (db.others l m) = db.view l := by
  have hothers := others_of_not_mem hnew
  unfold LabelView.put LabelView.take
  rw [hothers]
  refine LabelView.ext (Set.insert_sdiff_self_of_notMem hnew) ?_
    (map_back (fun k => Counter.ext (Nat.add_sub_cancel _ _)
      (Nat.add_sub_cancel _ _)) _) (map_back (fun k => ?_) _)
  · dsimp only
    rw [Function.update_idem, Function.update_self, Option.bind_some]
    refine Function.update_eq_self_iff.mpr ?_
    unfold LabelView.rowOfOthers
    show _ = db.conversationLabels m.conversationId l
    cases hrow : db.conversationLabels m.conversationId l with
    | none => rw [if_pos (h.shown _ hrow)]
    | some row =>
        rw [if_neg (h.filled _ row hrow).left, <- h.rows _ row hrow]
        rw [show (db.view l).rows m.conversationId = some row from hrow]
        rfl
  · unfold Conversation.labelCounter
    dsimp only
    rw [fromMessages_one, Function.update_self]
    show Counter.mk (k.total +
        (db.conversationLabels m.conversationId l).isNone.toNat -
          (true && (db.labelled l m.conversationId).isEmpty).toNat)
      (k.unread + (!(db.conversationLabels m.conversationId l).any (fun row =>
          row.contextNumUnread ≠ 0) && m.unread.toNat != 0).toNat -
        (true && m.unread &&
          (fromMessages (db.labelled l m.conversationId)).unread == 0).toNat) =
      k
    rw [toNat_ne_zero]
    cases hrow : db.conversationLabels m.conversationId l with
    | none =>
        rw [h.shown _ hrow]
        refine Counter.ext (Nat.add_sub_cancel _ 1) ?_
        show k.unread + m.unread.toNat - (m.unread && true).toNat = k.unread
        rw [Bool.and_true]
        exact Nat.add_sub_cancel _ _
    | some row =>
        have hrows := congrArg ConversationMessageLabelStats.unread
          (h.rows _ row hrow)
        rw [<- hrows, List.isEmpty_eq_false_iff.mpr (h.filled _ row hrow).left]
        refine Counter.ext rfl ?_
        show k.unread + (!decide (row.contextNumUnread ≠ 0) &&
          m.unread).toNat - (m.unread && row.contextNumUnread == 0).toNat =
            k.unread
        by_cases hzero : row.contextNumUnread = 0
        · simp [hzero]
        · simp [beq_eq_false_iff_ne.mpr hzero, hzero]

theorem row_stats (h : Consistent l db) (hm : m ∈ db.messages)
    (hlabel : ⟨l, m.localId⟩ ∈ db.messageLabels) :
    exists row, db.conversationLabels m.conversationId l = some row ∧
      row.stats = ofMessage m + fromMessages (db.others l m) := by
  have hperm := labelled_perm hm hlabel
  cases hrow : db.conversationLabels m.conversationId l with
  | none =>
      rw [h.shown _ hrow] at hperm
      exact absurd hperm.symm List.not_perm_cons_nil
  | some row =>
      refine ⟨row, rfl, (h.rows _ row hrow).trans ?_⟩
      rw [ConversationMessageLabelStats.fromMessages_perm hperm,
        ConversationMessageLabelStats.fromMessages_cons]

theorem messageCount_pos (hm : m ∈ db.messages) (hlive : m.deleted = false)
    (hlabel : ⟨l, m.localId⟩ ∈ db.messageLabels) :
    1 ≤ (messageCount db l).total ∧
      m.unread.toNat ≤ (messageCount db l).unread := by
  have hhas : db.hasLabel l m = true := decide_eq_true hlabel
  constructor
  · refine List.countP_pos_iff.mpr ⟨m, hm, ?_⟩
    rw [hhas, hlive]
    rfl
  · cases hunread : m.unread with
    | false => exact Nat.zero_le _
    | true =>
        refine List.countP_pos_iff.mpr ⟨m, hm, ?_⟩
        rw [hhas, hlive, hunread]
        rfl

theorem rowCount_pos (hm : m ∈ db.messages) {row : ConversationLabel}
    (hrow : db.conversationLabels m.conversationId l = some row) :
    1 ≤ (Conversation.rowCount db l).total ∧
      (row.contextNumUnread ≠ 0 ->
        1 ≤ (Conversation.rowCount db l).unread) := by
  have hknown : m.conversationId ∈ db.conversationIds :=
    List.mem_toFinset.mpr (db.conversation_known m hm)
  constructor
  · have hmem : m.conversationId ∈ db.conversationIds.filter
        (fun c => (db.conversationLabels c l).isSome) := by
      rw [Finset.mem_filter, hrow]
      exact ⟨hknown, rfl⟩
    exact Finset.card_pos.mpr ⟨_, hmem⟩
  · intro hunread
    have hmem : m.conversationId ∈ db.conversationIds.filter
        (fun c => (db.conversationLabels c l).any
          (fun row => row.contextNumUnread ≠ 0)) := by
      rw [Finset.mem_filter, hrow]
      exact ⟨hknown, decide_eq_true hunread⟩
    exact Finset.card_pos.mpr ⟨_, hmem⟩

theorem labelRow_rowOfOthers {row : ConversationLabel} {others : List Message}
    {stats : ConversationMessageLabelStats}
    (hstats : row.stats = stats + fromMessages others)
    (hkept : row.deleted = false) (now expirationTime : Nat) :
    exists e, Conversation.labelRow (LabelView.rowOfOthers others row)
        { stats with time := now, expirationTime := expirationTime } =
      { row with
        contextTime := max (fromMessages others).time now
        contextExpirationTime := e } ∧
      (expirationTime = stats.expirationTime ->
        (stats.expirationTime = 0 ->
          (fromMessages others).expirationTime = 0) ->
        e = row.contextExpirationTime) := by
  have hsize := congrArg ConversationMessageLabelStats.size hstats
  have hcount := congrArg ConversationMessageLabelStats.count hstats
  have hunread := congrArg ConversationMessageLabelStats.unread hstats
  have hattachments :=
    congrArg ConversationMessageLabelStats.numAttachments hstats
  have hsnooze := congrArg ConversationMessageLabelStats.snoozeTime hstats
  have hexpires : row.contextExpirationTime =
      ContextExpirationTime.earliest stats.expirationTime
        (fromMessages others).expirationTime :=
    congrArg ConversationMessageLabelStats.expirationTime hstats
  unfold LabelView.rowOfOthers
  split
  · rename_i hnone
    subst hnone
    refine ⟨expirationTime, ConversationLabel.ext ?_ ?_ ?_ ?_ ?_ ?_ ?_ ?_,
      fun hsame _ => ?_⟩
    · exact (Nat.zero_max now).symm
    · exact hsize.symm
    · exact hcount.symm
    · exact hunread.symm
    · exact hattachments.symm
    · rfl
    · exact ((Nat.max_zero _).symm.trans hsnooze.symm)
    · exact hkept.symm
    · rw [hexpires, hsame]
      exact (ContextExpirationTime.earliest_zero _).symm
  · refine ⟨_, ConversationLabel.ext rfl ?_ ?_ ?_ ?_ rfl ?_ rfl,
      fun hsame hnone => ?_⟩
    · exact (Nat.add_comm _ _).trans hsize.symm
    · exact (Nat.add_comm _ _).trans hcount.symm
    · exact (Nat.add_comm _ _).trans hunread.symm
    · exact (Nat.add_comm _ _).trans hattachments.symm
    · exact (Nat.max_comm _ _).trans hsnooze.symm
    · rw [hexpires, hsame, ContextExpirationTime.earliest_comm]
      refine ContextExpirationTime.mergeSelf_eq_earliest.mpr ?_
      exact (Decidable.em (stats.expirationTime = 0)).imp_left hnone

theorem put_take {now : Nat} (h : Consistent l db) (hm : m ∈ db.messages)
    (hlive : m.deleted = false) (hlabel : ⟨l, m.localId⟩ ∈ db.messageLabels)
    (hview : db'.view l = ((db.view l).take m (db.others l m)).put
      (setTime (some now) m)) :
    PutBack l m now db db' := by
  rcases row_stats h hm hlabel with ⟨row, hrow, hstats⟩
  rcases labelRow_rowOfOthers hstats (h.filled _ row hrow).right now
    (ofMessage (setTime (some now) m)).expirationTime with
    ⟨e, hback, hexpires⟩
  have hpos := rowCount_pos hm hrow
  have hcount := messageCount_pos hm hlive hlabel
  have hunread := congrArg ConversationMessageLabelStats.unread hstats
  have hrow' : (db.view l).rows m.conversationId = some row := hrow
  refine ⟨row, e, hrow, fun halike => hexpires ?_ (fun hnone => ?_),
    hview.trans (LabelView.ext ?_ ?_ ?_ ?_)⟩
  · unfold ofMessage
    dsimp only
    rw [halike.left]
    rfl
  · refine ConversationMessageLabelStats.fromMessages_expires.mpr ?_
    exact halike.right
      (ConversationMessageLabelStats.ofMessage_expires.mp hnone)
  · show insert m.localId ((db.view l).ids \ {m.localId}) = _
    rw [Set.insert_sdiff_singleton]
    exact Set.insert_eq_of_mem hlabel
  · unfold LabelView.put LabelView.take
    rw [fromMessages_one, hrow', Option.bind_some]
    show Function.update (Function.update (db.view l).rows m.conversationId _)
      m.conversationId (some (Conversation.labelRow (Function.update
        (db.view l).rows m.conversationId _ m.conversationId) _)) = _
    rw [Function.update_idem, Function.update_self]
    exact congrArg (fun r => Function.update (db.view l).rows m.conversationId
      (some r)) hback
  · show ((db.messageCounters l).map _).map _ = db.messageCounters l
    rw [h.messages]
    exact congrArg some (Counter.ext (Nat.sub_add_cancel hcount.left)
      (Nat.sub_add_cancel hcount.right))
  · unfold LabelView.put LabelView.take
    rw [fromMessages_one, hrow', Option.bind_some]
    show ((db.conversationCounters l).map _).map (Conversation.labelCounter
      (Function.update (db.view l).rows m.conversationId _ m.conversationId)
        _) = db.conversationCounters l
    rw [h.conversations, Function.update_self]
    refine congrArg some (Counter.ext ?_ ?_)
    · show (Conversation.rowCount db l).total - (true &&
        (db.others l m).isEmpty).toNat + (LabelView.rowOfOthers
          (db.others l m) row).isNone.toNat = _
      unfold LabelView.rowOfOthers
      by_cases hnone : db.others l m = []
      · rw [hnone]
        exact Nat.sub_add_cancel hpos.left
      · rw [List.isEmpty_eq_false_iff.mpr hnone, if_neg hnone]
        rfl
    · show (Conversation.rowCount db l).unread - (true && m.unread &&
        (fromMessages (db.others l m)).unread == 0).toNat +
          (!(LabelView.rowOfOthers (db.others l m) row).any (fun row =>
            row.contextNumUnread ≠ 0) && m.unread.toNat != 0).toNat = _
      have hothers : (LabelView.rowOfOthers (db.others l m) row).any
          (fun row => row.contextNumUnread ≠ 0) =
          !((fromMessages (db.others l m)).unread == 0) := by
        unfold LabelView.rowOfOthers
        by_cases hnone : db.others l m = []
        · rw [hnone]
          rfl
        · rw [if_neg hnone]
          show decide ((fromMessages (db.others l m)).unread ≠ 0) = _
          simp [Bool.beq_eq_decide_eq]
      rw [hothers, Bool.not_not, toNat_ne_zero, Bool.true_and, Bool.and_comm]
      by_cases hlast : ((fromMessages (db.others l m)).unread == 0 &&
          m.unread) = true
      · rw [hlast]
        refine Nat.sub_add_cancel (hpos.right ?_)
        have hone : m.unread = true := (Bool.and_eq_true_iff.mp hlast).right
        have hsum : row.contextNumUnread =
            m.unread.toNat + (fromMessages (db.others l m)).unread := hunread
        rw [hsum, hone]
        exact fun hzero => Nat.one_ne_zero (Nat.add_eq_zero_iff.mp hzero).left
      · rw [Bool.not_eq_true] at hlast
        rw [hlast]
        rfl

/-!
# Saving the message with another time
-/

def retimed (id : LocalMessageId) (time : Option Nat) (db : Database) :
    Database :=
  db.saveMessages [id] (setTime time) (setTime_keepsKeys time)

theorem retimed_view (id : LocalMessageId) (time : Option Nat)
    (hshown : db.isHidden l = false) :
    (retimed id time db).view l = db.view l := by
  refine LabelView.ext (Set.ext (fun id' => ?_)) rfl rfl rfl
  show _ ∈ db.messageLabels.filter _ ↔ _
  rw [Finset.mem_filter, mem_view, and_iff_left]
  rw [hshown]
  simp

theorem retimed_mem (time : Option Nat) (hm : m ∈ db.messages) :
    setTime time m ∈ (retimed m.localId time db).messages := by
  refine List.mem_map.mpr ⟨m, hm, ?_⟩
  unfold Database.changeOnly
  rw [if_pos (List.mem_singleton_self _)]

theorem retimed_saves (id : LocalMessageId) (time : Option Nat)
    (h : Saves l db) : Saves l (retimed id time db) :=
  h.congr rfl h.messages h.conversations

theorem retimed_retimed {id : LocalMessageId} (before : Option Nat) (now : Nat)
    (messages : List Message) :
    (messages.map (Database.changeOnly [id] (setTime before))).map
        (Database.changeOnly [id] (setTime (some now))) =
      messages.map (Database.changeOnly [id] (setTime (some now))) := by
  rw [List.map_map]
  refine List.map_congr_left (fun m _ => ?_)
  rw [Function.comp_apply]
  unfold Database.changeOnly
  by_cases hid : m.localId ∈ [id]
  · rw [if_pos hid, if_pos hid]
    exact if_pos hid
  · rw [if_neg hid, if_neg hid]

theorem changeOnly_other {f : Message -> Message}
    (m' : Message) (hid : m'.localId ≠ m.localId) :
    Database.changeOnly [m.localId] f m' = m' :=
  if_neg (by simpa using hid)

theorem filter_without {g : Message -> Message}
    (hothers : forall m', m'.localId ≠ m.localId -> g m' = m')
    {p p' : Message -> Bool}
    (h : forall m', p' (g m') = (decide (m'.localId ≠ m.localId) && p m'))
    (messages : List Message) : (messages.map g).filter p' =
      (messages.filter p).filter (fun m' => m'.localId ≠ m.localId) := by
  rw [List.filter_map, show p' ∘ g = _ from funext h,
    <- List.filter_filter]
  refine (List.map_congr_left (fun m' hm' => ?_)).trans (List.map_id _)
  exact hothers m' (of_decide_eq_true (List.mem_filter.mp hm').right)

theorem others_congr {time : Option Nat}
    (hmessages : db'.messages =
      db.messages.map (Database.changeOnly [m.localId] (setTime time)))
    (hpairs : forall id, id ≠ m.localId ->
      (⟨l, id⟩ ∈ db'.messageLabels ↔ ⟨l, id⟩ ∈ db.messageLabels)) :
    db'.others l m = db.others l m := by
  have hkeys := (setTime_keepsKeys time).changeOnly [m.localId]
  unfold Database.others Database.labelled
  rw [hmessages, List.filter_filter]
  refine filter_without changeOnly_other (fun m' => ?_) _
  simp only [Database.hasLabel, hkeys.localId, hkeys.conversationId]
  by_cases hid : m'.localId = m.localId
  · simp [hid]
  · simp [hid, hpairs _ hid]

/-!
# The message is moved and moved back
-/

/--
What is left of moving a message from `off` to `on`, once it has been taken from
there and put into `back`.
-/
structure Restored (off on back : List LocalLabelId) (now : Nat) (m : Message)
    (db db' : Database) : Prop where
  messages : db'.messages =
    db.messages.map (Database.changeOnly [m.localId] (setTime (some now)))
  same : forall l, db.isHidden l = false ->
    (l ∈ off -> l ∉ back ∧ ⟨l, m.localId⟩ ∉ db.messageLabels) ->
    (l ∈ on -> ⟨l, m.localId⟩ ∉ db.messageLabels) -> db'.view l = db.view l
  putBack : forall l, db.isHidden l = false -> m.deleted = false ->
    l ∈ back -> ⟨l, m.localId⟩ ∈ db.messageLabels -> PutBack l m now db db'

section Moves

variable {off on back : List LocalLabelId} {before : Option Nat} {now : Nat}

theorem moved_back (hm : m ∈ db.messages)
    (hmove : Message.Moved off on (setTime before m)
      (retimed m.localId before db) db')
    (hback : Message.Moved on back (setTime (some now) m)
      (retimed m.localId (some now) db') db'')
    (hsub : forall l, l ∈ back -> l ∈ off)
    (hdisjoint : forall l, l ∈ on -> l ∉ off)
    (hcons : forall l, l ∈ off ++ on -> Consistent l db) :
    Restored off on back now m db db'' := by
  have hmessages : (retimed m.localId (some now) db').messages =
      db.messages.map (Database.changeOnly [m.localId] (setTime (some now))) := by
    show db'.messages.map _ = _
    rw [hmove.messages]
    exact retimed_retimed before now db.messages
  have hthere : forall l, db.isHidden l = false ->
      (retimed m.localId before db).view l = db.view l :=
    fun l hl => retimed_view m.localId before hl
  have hsaved : forall l, db.isHidden l = false ->
      (retimed m.localId (some now) db').view l = db'.view l := by
    intro l hl
    refine retimed_view m.localId (some now) ?_
    unfold Database.isHidden
    rw [hmove.labels]
    exact hl
  refine ⟨hback.messages.trans hmessages, fun l hshown hoff hon => ?_,
    fun l hshown hlive hl hlabel => ?_⟩
  · have hnotBack : l ∉ back := fun hl => (hoff (hsub l hl)).left hl
    have hpair := view_pairs (hthere l hshown) m.localId
    by_cases hgiven : l ∈ on
    · have hnew := hon hgiven
      have hput := hmove.put l (hdisjoint l hgiven) hgiven
        (fun h => hnew (hpair.mp h))
      rw [<- hsaved l hshown, hthere l hshown] at hput
      have hids : forall id, id ∈ ((retimed m.localId (some now)
          db').view l).ids ↔ id = m.localId ∨ id ∈ (db.view l).ids := by
        intro id
        rw [hput]
        exact Set.mem_insert_iff
      have htaken := hback.taken l hgiven ((hids _).mpr (Or.inl rfl)) hnotBack
      have hothers : (retimed m.localId (some now) db').others l
          (setTime (some now) m) = db.others l m :=
        others_congr hmessages (fun id hid =>
          (hids id).trans (or_iff_right hid))
      rw [hothers, hput] at htaken
      exact htaken.trans (take_put (m := setTime before m)
        (hcons l (List.mem_append_right off hgiven)) hnew)
    · have hkept : l ∉ off ∨ ⟨l, m.localId⟩ ∉ db.messageLabels :=
        (Decidable.em (l ∈ off)).symm.imp_right (fun hl => (hoff hl).right)
      have hview := hmove.same l
        (hkept.imp_right (fun hnew h => hnew (hpair.mp h))) (Or.inl hgiven)
      rw [hback.same l (Or.inl hgiven) (Or.inl hnotBack), hsaved l hshown,
        hview, hthere l hshown]
  · have hnotOn : l ∉ on := fun hgiven => hdisjoint l hgiven (hsub l hl)
    have htaken := hmove.taken l (hsub l hl)
      ((view_pairs (hthere l hshown) _).mpr hlabel) hnotOn
    have hothers : (retimed m.localId before db).others l (setTime before m) =
        db.others l m :=
      others_congr rfl (fun id _ => view_pairs (hthere l hshown) id)
    rw [hothers, hthere l hshown, <- hsaved l hshown] at htaken
    have hput := hback.put l hnotOn hl (fun h => by
      rw [<- mem_view, htaken] at h
      exact h.right rfl)
    rw [htaken] at hput
    exact put_take (hcons l (List.mem_append_left on (hsub l hl))) hm hlive
      hlabel hput

end Moves

/-!
# Flags
-/

theorem set_undone {flags other : MessageFlags}
    (h : MessageFlags.intersects flags other = false) :
    MessageFlags.set other false (MessageFlags.set other true flags) =
      flags := by
  have hnone : flags &&& other = 0 := by simpa [MessageFlags.intersects] using h
  show (flags ||| other) &&& ~~~other = flags
  ext i hi
  have hbit : (flags &&& other).getLsbD i = false := by
    rw [hnone]
    simp
  simp only [BitVec.getLsbD_and] at hbit
  simp only [BitVec.getElem_and, BitVec.getElem_or, BitVec.getElem_not]
  rw [BitVec.getLsbD_eq_getElem hi, BitVec.getLsbD_eq_getElem hi] at hbit
  cases hflag : flags[i] with
  | false => simp
  | true => simpa [hflag] using hbit

theorem sent_bit : forall i (hi : i < 64),
    MessageFlags.sent[i] = decide (i = 1) := by
  decide

theorem and_sent {flags : MessageFlags}
    (h : MessageFlags.isSent flags = true) :
    flags &&& MessageFlags.sent = MessageFlags.sent := by
  have hsome : flags &&& MessageFlags.sent ≠ 0 := of_decide_eq_true h
  have hflag : flags[1] = true := by
    rw [<- Bool.not_eq_false]
    intro hnone
    refine hsome (BitVec.eq_of_getElem_eq (fun i hi => ?_))
    rw [BitVec.getElem_and, sent_bit i hi]
    by_cases hone : i = 1
    · subst hone
      simp [hnone]
    · simp [hone]
  refine BitVec.eq_of_getElem_eq (fun i hi => ?_)
  rw [BitVec.getElem_and, sent_bit i hi]
  by_cases hone : i = 1
  · subst hone
    simp [hflag]
  · simp [hone]

theorem sent_redone {flags : MessageFlags}
    (h : MessageFlags.isSent flags = true) :
    MessageFlags.set MessageFlags.sent true
      (MessageFlags.set MessageFlags.sent false flags) = flags := by
  have hand := and_sent h
  show (flags &&& ~~~MessageFlags.sent) ||| MessageFlags.sent = flags
  refine BitVec.eq_of_getElem_eq (fun i hi => ?_)
  have hbit := congrArg (fun b : MessageFlags => b[i]) hand
  simp only [BitVec.getElem_and, BitVec.getElem_or, BitVec.getElem_not]
    at hbit ⊢
  cases hflag : flags[i] with
  | true => simp
  | false =>
      rw [hflag, Bool.false_and] at hbit
      rw [<- hbit]
      rfl

/-!
# Local parts
-/

theorem okOr_eq_ok {α : Type} {e : Error} {o : Option α} {a : α} :
    okOr e o = Except.ok a ↔ o = some a := by
  cases o with
  | none => simp [okOr]
  | some b => simp [okOr]

theorem moveLabels_eq_ok {off on : List LocalLabelId} {id : LocalMessageId}
    {mb mb' : Mailbox} (h : mb.moveLabels off on id = Except.ok mb') :
    Message.moveLabels off on id mb.db = some mb'.db ∧
      mb'.columns = mb.columns := by
  rcases bind_eq_ok h with ⟨db, hmove, hmb⟩
  cases hmb
  exact ⟨okOr_eq_ok.mp hmove, rfl⟩

theorem message_eq_some {id : LocalMessageId} (h : db.message id = some m) :
    m ∈ db.messages ∧ m.localId = id :=
  ⟨List.mem_of_find?_eq_some h, by simpa using List.find?_some h⟩

theorem label_inj {t : Labels.LabelTable} {rid rid' : LabelId}
    (h : t.remoteIdCounterpart rid = some l)
    (h' : t.remoteIdCounterpart rid' = some l) : rid = rid' := by
  rcases Labels.LabelTable.remoteIdCounterpart_iff.mp h with
    ⟨r, hr, hrid, hlocal⟩
  rcases Labels.LabelTable.remoteIdCounterpart_iff.mp h' with
    ⟨r', hr', hrid', hlocal'⟩
  have hsame := List.inj_on_of_nodup_map t.ids_unique hr hr'
    (hlocal.trans hlocal'.symm)
  rw [hsame, hrid'] at hrid
  exact (Option.some.inj hrid).symm

section Locals

variable {mb mb' : Mailbox} {rids rids' : List LabelId}

/-- The folders between which the two actions move a message. -/
def folders : List LabelId :=
  [drafts, allDrafts, outbox, allScheduled, sent, allSent]

/-- The labels with remote ids. -/
def Mailbox.locals (mb : Mailbox) (rids : List LabelId) : List LocalLabelId :=
  rids.filterMap mb.db.labels.remoteIdCounterpart

theorem locals_disjoint (h : forall rid, rid ∈ rids -> rid ∉ rids')
    (hl : l ∈ mb.locals rids) : l ∉ mb.locals rids' := by
  intro hl'
  rcases List.mem_filterMap.mp hl with ⟨rid, hrid, hlabel⟩
  rcases List.mem_filterMap.mp hl' with ⟨rid', hrid', hlabel'⟩
  rw [label_inj hlabel hlabel'] at hrid
  exact h rid' hrid hrid'

theorem locals_known (hl : l ∈ mb.locals rids) :
    l ∈ mb.db.labels.rows.map LabelRow.localId := by
  rcases List.mem_filterMap.mp hl with ⟨rid, _, hlabel⟩
  rcases Labels.LabelTable.remoteIdCounterpart_iff.mp hlabel with
    ⟨r, hr, _, hlocal⟩
  exact List.mem_map.mpr ⟨r, hr, hlocal⟩

theorem locals_saves (hcons : Consistent l mb.db) (hl : l ∈ mb.locals rids) :
    Saves l mb.db where
  known := locals_known hl
  remote := by
    rcases List.mem_filterMap.mp hl with ⟨rid, _, hlabel⟩
    rcases Labels.LabelTable.remoteIdCounterpart_iff.mp hlabel with
      ⟨r, hr, hrid, hlocal⟩
    unfold Database.hasRemoteId Labels.LabelTable.localIdCounterpart
    cases hfind : mb.db.labels.rows.find? (fun r => r.localId = l) with
    | none =>
        exact absurd (decide_eq_true hlocal)
          (List.find?_eq_none.mp hfind r hr)
    | some r' =>
        have hlocal' : r'.localId = l := by simpa using List.find?_some hfind
        have hsame := List.inj_on_of_nodup_map mb.db.labels.ids_unique
          (List.mem_of_find?_eq_some hfind) hr (hlocal'.trans hlocal.symm)
        rw [Option.bind_some, hsame, hrid]
        rfl
  messages := by
    rw [hcons.messages]
    rfl
  conversations := by
    rw [hcons.conversations]
    rfl

theorem locals_cons {rid : LabelId} (h : mb.label rid = Except.ok l) :
    mb.locals (rid :: rids) = l :: mb.locals rids := by
  unfold Mailbox.locals
  rw [List.filterMap_cons, okOr_eq_ok.mp h]

theorem locals_two {rid rid' : LabelId} {l' : LocalLabelId}
    (h : mb.label rid = Except.ok l) (h' : mb.label rid' = Except.ok l') :
    mb.locals [rid, rid'] = [l, l'] := by
  rw [locals_cons h, locals_cons h']
  rfl

theorem locals_target {b : Bool} {rid rid' : LabelId} {l' : LocalLabelId}
    (h : mb.label rid = Except.ok l) (h' : mb.label rid' = Except.ok l') :
    mb.locals [if b then rid' else rid] = [if b then l' else l] := by
  cases b with
  | false => exact locals_cons h
  | true => exact locals_cons h'

theorem label_congr (h : mb'.db.labels = mb.db.labels) (rid : LabelId) :
    mb'.label rid = mb.label rid := by
  unfold Mailbox.label
  rw [h]

theorem locals_congr (h : mb'.db.labels = mb.db.labels) :
    mb'.locals rids = mb.locals rids := by
  unfold Mailbox.locals
  rw [h]

end Locals

section Actions

variable {mb mb' : Mailbox}

theorem Send.applyLocal_cases {action action' : Send} {actionId : ActionId}
    (h : action.applyLocal actionId mb = Except.ok (action', mb')) :
    exists m metadata, m ∈ mb.db.messages ∧
      (forall rid, rid ∈ [drafts, outbox, allDrafts, allScheduled] ->
        exists l, mb.label rid = Except.ok l) ∧
      mb.isDraft m.localId = true ∧
      mb.metadata action.metadataId = some metadata ∧
      metadata.localMessageId = some m.localId ∧
      action' = { action with localMessageId := some m.localId } ∧
      Message.moveLabels (mb.locals [drafts, allDrafts])
        (mb.locals [if action.isScheduled then allScheduled else outbox])
        m.localId (retimed m.localId action.deliveryTime mb.db) =
          some mb'.db ∧
      mb'.columns = (mb.saveMessage m.localId (action.updateSentFlag true)
        action.deliveryTime).columns := by
  unfold Send.applyLocal at h
  split at h
  · cases h
  rcases bind_eq_ok h with ⟨draft, hdraft, h⟩
  rcases bind_eq_ok h with ⟨outbox', houtbox, h⟩
  rcases bind_eq_ok h with ⟨allDraft, hallDraft, h⟩
  rcases bind_eq_ok h with ⟨allScheduled', hallScheduled, h⟩
  split at h
  · cases h
  rcases bind_eq_ok h with ⟨metadata, hmetadata, h⟩
  rcases bind_eq_ok h with ⟨id, hid, h⟩
  rcases bind_eq_ok h with ⟨m, hm, h⟩
  split at h
  · rename_i hisDraft
    rcases bind_eq_ok h with ⟨mb₁, hmove, h⟩
    cases h
    rcases moveLabels_eq_ok hmove with ⟨hmove, hcolumns⟩
    rcases message_eq_some (okOr_eq_ok.mp hm) with ⟨hmem, rfl⟩
    refine ⟨m, metadata, hmem, ?_, hisDraft, okOr_eq_ok.mp hmetadata,
      okOr_eq_ok.mp hid, rfl, ?_, hcolumns⟩
    · simp [hdraft, houtbox, hallDraft, hallScheduled]
    · rw [locals_two hdraft hallDraft, locals_target houtbox hallScheduled]
      exact hmove
  · cases h

theorem UndoSend.applyLocal_cases {action action' : UndoSend}
    (h : action.applyLocal mb = Except.ok (action', mb')) :
    exists m, m ∈ mb.db.messages ∧
      (forall rid, rid ∈ [drafts, allDrafts, sent] ->
        exists l, mb.label rid = Except.ok l) ∧
      m.localId = action.id ∧ action'.id = action.id ∧
      mb.isSent m.localId = true ∧
      Message.moveLabels (mb.locals [sent, allSent])
        (mb.locals [drafts, allDrafts]) m.localId
        (retimed m.localId none mb.db) = some mb'.db ∧
      mb'.columns = (mb.saveMessage m.localId
        (MessageFlags.set MessageFlags.sent false) none).columns := by
  rcases bind_eq_ok h with ⟨m, hm, h⟩
  rcases bind_eq_ok h with ⟨remoteId, _, h⟩
  split at h
  · rename_i hisSent
    rcases bind_eq_ok h with ⟨allDraft, hallDraft, h⟩
    rcases bind_eq_ok h with ⟨draft, hdraft, h⟩
    rcases bind_eq_ok h with ⟨sent', hsent, h⟩
    rcases bind_eq_ok h with ⟨allSent', hallSent, h⟩
    rcases bind_eq_ok h with ⟨mb₁, hmove, h⟩
    cases h
    rcases moveLabels_eq_ok hmove with ⟨hmove, hcolumns⟩
    rcases message_eq_some (okOr_eq_ok.mp hm) with ⟨hmem, hid⟩
    rw [<- hid] at hisSent hmove hcolumns
    refine ⟨m, hmem, ?_, hid, rfl, hisSent, ?_, hcolumns⟩
    · simp [hdraft, hallDraft, hsent]
    · rw [locals_two hsent hallSent, locals_two hdraft hallDraft]
      exact hmove
  · cases h

theorem Send.revertLocal_ok {action : Send} {now : Nat}
    (hid : action.localMessageId = some m.localId)
    (hm : m ∈ mb.db.messages)
    (hknown : forall rid, rid ∈ [drafts, outbox, allDrafts, allScheduled] ->
      exists l, mb.label rid = Except.ok l)
    (hmove : Message.moveLabels
      (mb.locals [if action.isScheduled then allScheduled else outbox])
      (mb.locals [drafts, allDrafts]) m.localId
      (retimed m.localId (some now) mb.db) = some db') :
    action.revertLocal now mb = Except.ok
      { mb.saveMessage m.localId (action.updateSentFlag false) (some now) with
        db := db' } := by
  rcases hknown drafts (by decide) with ⟨draft, hdraft⟩
  rcases hknown outbox (by decide) with ⟨outbox', houtbox⟩
  rcases hknown allDrafts (by decide) with ⟨allDraft, hallDraft⟩
  rcases hknown allScheduled (by decide) with ⟨allScheduled', hallScheduled⟩
  rw [locals_two hdraft hallDraft, locals_target houtbox hallScheduled]
    at hmove
  unfold Send.revertLocal
  rw [hid, hdraft, houtbox, hallDraft, hallScheduled]
  show (do
    let _ <- okOr (Error.messageMissing m.localId) (mb.db.message m.localId)
    Mailbox.moveLabels _ _ _ _) = _
  rw [Message.message_of_mem hm]
  show (do
    let db <- okOr Error.stash (Message.moveLabels _ _ m.localId
      (retimed m.localId (some now) mb.db))
    _) = _
  rw [hmove]
  rfl

theorem UndoSend.revertLocal_ok {action : UndoSend} {now : Nat}
    (hid : m.localId = action.id) (hm : m ∈ mb.db.messages)
    (hknown : forall rid, rid ∈ [drafts, allDrafts, sent] ->
      exists l, mb.label rid = Except.ok l)
    (hmove : Message.moveLabels (mb.locals [drafts, allDrafts])
      (mb.locals [sent]) m.localId (retimed m.localId (some now) mb.db) =
        some db') :
    action.revertLocal now mb = Except.ok
      { mb.saveMessage m.localId (MessageFlags.set MessageFlags.sent true)
          (some now) with
        db := db' } := by
  rcases hknown drafts (by decide) with ⟨draft, hdraft⟩
  rcases hknown allDrafts (by decide) with ⟨allDraft, hallDraft⟩
  rcases hknown sent (by decide) with ⟨sent', hsent⟩
  rw [locals_two hdraft hallDraft,
    show mb.locals [sent] = [sent'] from locals_cons hsent] at hmove
  unfold UndoSend.revertLocal
  rw [<- hid, Message.message_of_mem hm]
  dsimp only
  rw [hdraft, hallDraft, hsent]
  show (do
    let db <- okOr Error.stash (Message.moveLabels [draft, allDraft] [sent']
      m.localId (retimed m.localId (some now) mb.db))
    _) = _
  rw [hmove]
  rfl

/-!
# The action fails
-/

theorem columns_restored {id : LocalMessageId}
    {f f' : MessageFlags -> MessageFlags} {before : Option Nat}
    (now : Option Nat)
    (hflags : f' (f (mb.columns id).flags) = (mb.columns id).flags)
    (hcolumns : mb'.columns = (mb.saveMessage id f before).columns) :
    (mb'.saveMessage id f' now).columns = mb.columns := by
  funext id'
  unfold Mailbox.saveMessage at hcolumns ⊢
  dsimp only at hcolumns ⊢
  rw [hcolumns, Function.update_idem, Function.update_self]
  by_cases hid : id' = id
  · subst hid
    rw [Function.update_self, hflags]
  · exact Function.update_of_ne hid _ _

theorem moves_back {off on back : List LabelId} {before : Option Nat}
    (now : Nat)
    (hcons : forall l, l ∈ mb.locals folders -> Consistent l mb.db)
    (hoff : off ⊆ folders) (hon : on ⊆ folders)
    (hm : m ∈ mb.db.messages)
    (hmove : Message.moveLabels (mb.locals off) (mb.locals on) m.localId
      (retimed m.localId before mb.db) = some db')
    (hsub : back ⊆ off) (hdisjoint : forall rid, rid ∈ on -> rid ∉ off) :
    db'.labels = mb.db.labels ∧ setTime before m ∈ db'.messages ∧
      exists db'', Message.moveLabels (mb.locals on) (mb.locals back)
          m.localId (retimed m.localId (some now) db') = some db'' ∧
        Restored (mb.locals off) (mb.locals on) (mb.locals back) now m mb.db
          db'' := by
  have hmem := retimed_mem before hm
  have hmoved := Message.moveLabels_moved hmem hmove
  have hmem' : setTime before m ∈ db'.messages := hmoved.messages ▸ hmem
  have hback := retimed_mem (some now) hmem'
  have hfolder : forall {l rids}, rids ⊆ folders -> l ∈ mb.locals rids ->
      Consistent l mb.db :=
    fun hrids hl => hcons _ (List.filterMap_subset _ hrids hl)
  have hsaved : forall {l rids}, rids ⊆ folders -> l ∈ mb.locals rids ->
      Saves l (retimed m.localId (some now) db') := by
    intro l rids hrids hl
    exact retimed_saves _ _ (Message.moveLabels_saves hmem hmove
      (retimed_saves m.localId before (locals_saves (hfolder hrids hl) hl)))
  rcases Message.moveLabels_succeeds hback (fun l hl => hsaved hon hl)
    (fun l hl => hsaved (List.Subset.trans hsub hoff) hl) with ⟨db'', hrun⟩
  refine ⟨hmoved.labels, hmem', db'', hrun, moved_back hm hmoved
    (Message.moveLabels_moved hback hrun)
    (List.filterMap_subset _ hsub) (fun l hl => locals_disjoint hdisjoint hl)
    (fun l hl => ?_)⟩
  rcases List.mem_append.mp hl with hl | hl
  · exact hfolder hoff hl
  · exact hfolder hon hl

theorem not_sent_of_isDraft {flags : MessageFlags}
    (h : MessageFlags.isDraft flags = true) :
    MessageFlags.intersects flags MessageFlags.sent = false := by
  have hnone : flags &&& (MessageFlags.sent ||| MessageFlags.received) = 0 := by
    simpa [MessageFlags.isDraft, MessageFlags.intersects] using h
  have hsent : flags &&& MessageFlags.sent = 0 := by
    refine BitVec.eq_of_getElem_eq (fun i hi => ?_)
    have hbit := congrArg (fun b : MessageFlags => b[i]) hnone
    simp only [BitVec.getElem_and, BitVec.getElem_or] at hbit ⊢
    cases hflag : flags[i] with
    | false => simp
    | true =>
        rw [hflag, Bool.true_and] at hbit
        have hzero : (0 : MessageFlags)[i] = false := by simp
        rw [hzero] at hbit
        rw [Bool.true_and, hzero]
        exact (Bool.or_eq_false_iff.mp hbit).left
  unfold MessageFlags.intersects
  rw [hsent]
  rfl

end Actions

/-!
# Both actions
-/

/-- A failed action puts the message back. -/
theorem failed_actions_put_back (mb : Mailbox)
    (hcons : forall l, l ∈ mb.locals folders -> Consistent l mb.db)
    (now : Nat) :
    (forall actionId (action action' : Send) mb',
      action.applyLocal actionId mb = Except.ok (action', mb') ->
      exists m mb'', m ∈ mb.db.messages ∧
        action'.localMessageId = some m.localId ∧
        action'.revertLocal now mb' = Except.ok mb'' ∧
        Restored (mb.locals [drafts, allDrafts])
          (mb.locals [if action.isScheduled then allScheduled else outbox])
          (mb.locals [drafts, allDrafts]) now m mb.db mb''.db ∧
        ((action.isScheduled = true -> MessageFlags.intersects
            (mb.columns m.localId).flags MessageFlags.scheduledSend =
              false) ->
          mb''.columns = mb.columns)) ∧
    (forall (action action' : UndoSend) mb',
      action.applyLocal mb = Except.ok (action', mb') ->
      exists m mb'', m ∈ mb.db.messages ∧ m.localId = action.id ∧
        action'.revertLocal now mb' = Except.ok mb'' ∧
        Restored (mb.locals [sent, allSent]) (mb.locals [drafts, allDrafts])
          (mb.locals [sent]) now m mb.db mb''.db ∧
        mb''.columns = mb.columns) := by
  constructor
  · intro actionId action action' mb' h
    rcases Send.applyLocal_cases h with ⟨m, _, hm, hknown, hisDraft, _, _, rfl,
      hmove, hcolumns⟩
    rcases moves_back now hcons (by decide)
      (by cases action.isScheduled <;> decide) hm hmove (List.Subset.refl _)
      (by cases action.isScheduled <;> decide) with
      ⟨hsame, hmem, db'', hback, hrestored⟩
    simp only [<- locals_congr hsame] at hback
    refine ⟨m, _, hm, rfl, Send.revertLocal_ok
      (m := setTime action.deliveryTime m) rfl hmem (fun rid hrid => ?_) hback,
      hrestored, fun hflag => ?_⟩
    · rw [label_congr hsame]
      exact hknown rid hrid
    refine columns_restored (some now) ?_ hcolumns
    show action.updateSentFlag false (action.updateSentFlag true _) = _
    unfold Send.updateSentFlag
    cases hscheduled : action.isScheduled with
    | false =>
        exact set_undone (not_sent_of_isDraft
          (Bool.and_eq_true_iff.mp hisDraft).left)
    | true => exact set_undone (hflag hscheduled)
  · intro action action' mb' h
    rcases UndoSend.applyLocal_cases h with ⟨m, hm, hknown, hid, hid', hisSent,
      hmove, hcolumns⟩
    rcases moves_back now hcons (by decide) (by decide) hm hmove
      (List.cons_subset_cons sent (List.nil_subset _)) (by decide) with
      ⟨hsame, hmem, db'', hback, hrestored⟩
    simp only [<- locals_congr hsame] at hback
    refine ⟨m, _, hm, hid, UndoSend.revertLocal_ok (m := setTime none m)
      (hid.trans hid'.symm) hmem (fun rid hrid => ?_) hback, hrestored, ?_⟩
    · rw [label_congr hsame]
      exact hknown rid hrid
    refine columns_restored (some now) ?_ hcolumns
    exact sent_redone (Bool.and_eq_true_iff.mp hisSent).right

/-!
# A draft and a sent message
-/

def systemRow (localId : LocalLabelId) (rid : LabelId) : LabelRow where
  localId := localId
  remoteId := some rid
  labelType := Labels.LabelType.system

def sixFolders : Labels.LabelTable :=
  Labels.LabelTable.ofRows
    [systemRow 1 drafts, systemRow 2 allDrafts, systemRow 3 outbox,
      systemRow 4 allScheduled, systemRow 5 sent, systemRow 6 allSent] 7
    (by decide) (by decide) (by decide)

def writtenAt (id : LocalMessageId) (c : LocalConversationId) (time : Nat) :
    Message where
  localId := id
  conversationId := c
  time := time
  received := false

def rowAt (time : Nat) : ConversationLabel :=
  ConversationLabel.ofStats (fromMessages [writtenAt 0 0 time])

def folderRows : List Database.LabelRowEntry :=
  [⟨1, 1, rowAt 5⟩, ⟨1, 2, rowAt 5⟩, ⟨2, 5, rowAt 6⟩, ⟨2, 6, rowAt 6⟩]

def folderCounters : List (LocalLabelId × Counter) :=
  [(1, ⟨1, 0⟩), (2, ⟨1, 0⟩), (3, ⟨0, 0⟩), (4, ⟨0, 0⟩), (5, ⟨1, 0⟩),
    (6, ⟨1, 0⟩)]

/-- The first message is a draft, and the second one has been sent. -/
def twoMessages : Mailbox where
  db := Database.ofLists sixFolders [writtenAt 1 1 5, writtenAt 2 2 6]
    [{ localId := 1 }, { localId := 2 }] [⟨1, 1⟩, ⟨2, 1⟩, ⟨5, 2⟩, ⟨6, 2⟩]
    folderRows folderCounters folderCounters (by decide) (by decide)
    (by decide) (by decide) (by decide)
  columns := fun id =>
    if id = 2 then { remoteId := some "sent", flags := MessageFlags.sent }
    else { remoteId := some "draft" }
  metadata := fun _ => some { localMessageId := some 1 }

theorem twoMessages_consistent : forall l, l ∈ twoMessages.locals folders ->
    Consistent l twoMessages.db := by
  intro l hl
  have hl := locals_known hl
  have hrows : forall e, e ∈ folderRows -> e.row.stats =
        fromMessages (twoMessages.db.labelled e.label e.conversation) ∧
      twoMessages.db.labelled e.label e.conversation ≠ [] ∧
      e.row.deleted = false := by
    decide +kernel
  have hcounters : forall l,
      l ∈ twoMessages.db.labels.rows.map LabelRow.localId ->
      twoMessages.db.messageCounters l =
          some (messageCount twoMessages.db l) ∧
        twoMessages.db.conversationCounters l =
          some (Conversation.rowCount twoMessages.db l) := by
    decide +kernel
  have hshown : forall l,
      l ∈ twoMessages.db.labels.rows.map LabelRow.localId ->
      forall m, m ∈ twoMessages.db.messages ->
        twoMessages.db.hasLabel l m = true ->
        twoMessages.db.conversationLabels m.conversationId l ≠ none := by
    decide +kernel
  refine ⟨⟨(hcounters l hl).left, (hcounters l hl).right,
    fun c row hrow => ?_⟩, fun c hrow => ?_, fun c row hrow => ?_⟩
  · exact (hrows _ (Database.mem_of_rowsOf hrow)).left
  · refine List.filter_eq_nil_iff.mpr (fun m hm hlabelled => ?_)
    have hin := of_decide_eq_true hlabelled
    rw [<- hin.left] at hrow
    exact hshown l hl m hm hin.right hrow
  · exact (hrows _ (Database.mem_of_rowsOf hrow)).right

def sendDraft : Send where
  metadataId := 1
  recipients := ["b@example.org"]

/-- The draft and the sent message get the time of the failure. -/
theorem not_put_back :
    (forall l, l ∈ twoMessages.locals folders ->
      Consistent l twoMessages.db) ∧
    (exists action' mb' mb'',
      sendDraft.applyLocal 3 twoMessages = Except.ok (action', mb') ∧
      action'.revertLocal 9 mb' = Except.ok mb'' ∧
      mb''.db.conversationLabels 1 1 ≠
        twoMessages.db.conversationLabels 1 1) ∧
    (exists action' mb' mb'',
      UndoSend.applyLocal { id := 2 } twoMessages =
        Except.ok (action', mb') ∧
      action'.revertLocal 9 mb' = Except.ok mb'' ∧
      mb''.db.conversationLabels 2 5 ≠
        twoMessages.db.conversationLabels 2 5) := by
  refine ⟨twoMessages_consistent, ⟨_, _, _, rfl, rfl, ?_⟩,
    _, _, _, rfl, rfl, ?_⟩
  · decide +kernel
  · decide +kernel

/-- The draft is found under the time of the failure. -/
theorem draft_put_back :
    exists action' mb' m mb'',
      sendDraft.applyLocal 3 twoMessages = Except.ok (action', mb') ∧
      action'.revertLocal 9 mb' = Except.ok mb'' ∧
      Restored [1, 2] [3] [1, 2] 9 m twoMessages.db mb''.db := by
  have hsent : exists p, sendDraft.applyLocal 3 twoMessages = Except.ok p :=
    ⟨_, rfl⟩
  rcases hsent with ⟨p, hsent⟩
  rcases (failed_actions_put_back twoMessages twoMessages_consistent 9).left 3
    sendDraft p.1 p.2 hsent with ⟨m, mb'', _, _, hrevert, hrestored, _⟩
  exact ⟨p.1, p.2, m, mb'', hsent, hrevert, hrestored⟩

end Sending
end Drafts
end MailClient
