import Mathlib.Algebra.Order.BigOperators.Group.List
import Mathlib.Algebra.Order.Ring.Nat
import MailClient.Conversations.LabelSpec

/-!
# What taking a label off messages does

The pairs of the messages are deleted.  Each of their conversations that has a
row for the label gets it summed up anew, or loses it with its last message.
The counters move by how many pairs were deleted, by how many unread messages
were asked for, and by one for each row that is lost.
-/

namespace MailClient
namespace Conversations

open Foundation
open ConversationMessageLabelStats (fromMessages)

variable {l : LocalLabelId} {c : LocalConversationId} {db db' : Database}

namespace Message

/-!
# Deleting pairs
-/

/-- The unread messages that were asked for, counted as often as asked. -/
def askedUnread (db : Database) (ids : List LocalMessageId) : Nat :=
  (ids.map (fun id =>
    ((db.message id).map (fun m => m.unread.toNat)).getD 0)).sum

structure PairsDeleted (l : LocalLabelId) (ids : List LocalMessageId)
    (r r' : Removal) : Prop extends SameMessages r.db r'.db where
  rows : r'.db.conversationLabels = r.db.conversationLabels
  messageCounters : r'.db.messageCounters = r.db.messageCounters
  conversationCounters : r'.db.conversationCounters = r.db.conversationCounters
  pairs : forall p, p ∈ r'.db.messageLabels ↔
    p ∈ r.db.messageLabels ∧ ¬ (p.label = l ∧ p.id ∈ ids)
  unread : r'.unread = r.unread + askedUnread r.db ids
  modified : exists deleted, r'.modified = r.modified ++ deleted ∧
    deleted.Nodup ∧ deleted.Sublist ids ∧
    forall id, id ∈ deleted ↔ id ∈ ids ∧ ⟨l, id⟩ ∈ r.db.messageLabels

theorem deletePairs_spec {ids : List LocalMessageId} {r r' : Removal}
    (h : deletePairs l ids r = some r') : PairsDeleted l ids r r' := by
  induction ids generalizing r with
  | nil =>
      cases h
      refine ⟨SameMessages.refl _, rfl, rfl, rfl, by simp, rfl, [], ?_⟩
      simp
  | cons id rest ih =>
      rcases Option.bind_eq_some_iff.mp h with ⟨m, hm, h⟩
      have hasked : askedUnread r.db (id :: rest) =
          m.unread.toNat + askedUnread r.db rest := by
        unfold askedUnread
        rw [List.map_cons, List.sum_cons, hm]
        rfl
      by_cases hhas : ⟨l, id⟩ ∈ r.db.messageLabels
      · rw [if_pos hhas] at h
        have hrest := ih h
        have hpairs : forall p, p ∈ r'.db.messageLabels ↔
            (p ≠ ⟨l, id⟩ ∧ p ∈ r.db.messageLabels) ∧
              ¬ (p.label = l ∧ p.id ∈ rest) := by
          intro p
          rw [hrest.pairs]
          exact and_congr_left' Finset.mem_erase
        rcases hrest.modified with ⟨deleted, hmodified, hnodup, hsub, hmem⟩
        have hdeleted : forall id', id' ∈ deleted ↔
            id' ∈ rest ∧ id' ≠ id ∧ ⟨l, id'⟩ ∈ r.db.messageLabels := by
          intro id'
          rw [hmem]
          refine and_congr_right' (Finset.mem_erase.trans ?_)
          simp
        refine ⟨⟨hrest.labels, hrest.messages, hrest.conversations⟩,
          hrest.rows, hrest.messageCounters, hrest.conversationCounters, ?_,
          ?_, id :: deleted, ?_, ?_, hsub.cons_cons id, ?_⟩
        · intro p
          rw [hpairs, List.mem_cons]
          cases p
          simp only [LabelPair.mk.injEq, ne_eq]
          tauto
        · rw [hrest.unread, hasked, <- Nat.add_assoc]
          rfl
        · rw [hmodified, List.append_assoc]
          rfl
        · refine List.nodup_cons.mpr ⟨?_, hnodup⟩
          intro hin
          exact ((hdeleted id).mp hin).right.left rfl
        · intro id'
          rw [List.mem_cons, hdeleted, List.mem_cons]
          by_cases hid : id' = id
          · rw [hid]
            simp [hhas]
          · simp [hid]
      · rw [if_neg hhas] at h
        have hrest := ih h
        rcases hrest.modified with ⟨deleted, hmodified, hnodup, hsub, hmem⟩
        refine ⟨⟨hrest.labels, hrest.messages, hrest.conversations⟩,
          hrest.rows, hrest.messageCounters, hrest.conversationCounters, ?_,
          ?_, deleted, hmodified, hnodup, hsub.cons id, ?_⟩
        · intro p
          rw [hrest.pairs, List.mem_cons]
          change p ∈ r.db.messageLabels ∧ _ ↔ _
          constructor
          · intro hp
            refine ⟨hp.left, ?_⟩
            intro hgone
            rcases hgone.right with hid | hid
            · have hpair : p = ⟨l, id⟩ := by
                cases p
                simp only at hgone hid
                rw [hgone.left, hid]
              exact hhas (hpair ▸ hp.left)
            · exact hp.right ⟨hgone.left, hid⟩
          · intro hp
            exact ⟨hp.left, fun hgone =>
              hp.right ⟨hgone.left, Or.inr hgone.right⟩⟩
        · rw [hrest.unread, hasked, <- Nat.add_assoc]
        · intro id'
          rw [hmem, List.mem_cons]
          change id' ∈ rest ∧ ⟨l, id'⟩ ∈ r.db.messageLabels ↔ _
          by_cases hid : id' = id
          · rw [hid]
            simp [hhas]
          · simp [hid]

/-!
# Rows of the messages that are left
-/

/-- The row of a conversation, summed up from the messages that are left. -/
def leftRow (l : LocalLabelId) (db : Database) (c : LocalConversationId) :
    Option ConversationLabel :=
  (db.conversationLabels c l).bind (fun row =>
    if db.labelled l c = [] then none
    else some { ConversationLabel.ofStats (fromMessages (db.labelled l c)) with
      deleted := row.deleted })

/-- The row is lost. -/
def isLost (l : LocalLabelId) (db : Database) (c : LocalConversationId) :
    Bool :=
  (db.conversationLabels c l).isSome && (db.labelled l c).isEmpty

/-- The counter of unread conversations goes down. -/
def isRead (l : LocalLabelId) (unread : Nat) (db : Database)
    (c : LocalConversationId) : Bool :=
  (db.conversationLabels c l).isSome && unread != 0 &&
    (fromMessages (db.labelled l c)).unread == 0

structure Relabelled (l : LocalLabelId) (unread : Nat)
    (cs : List LocalConversationId) (p p' : Counter × Database) :
    Prop extends SameMessages p.2 p'.2 where
  messageLabels : p'.2.messageLabels = p.2.messageLabels
  messageCounters : p'.2.messageCounters = p.2.messageCounters
  conversationCounters :
    p'.2.conversationCounters = p.2.conversationCounters
  rows : forall c, p'.2.conversationLabels c l =
    if c ∈ cs then leftRow l p.2 c else p.2.conversationLabels c l
  otherRows : forall c l', l' ≠ l ->
    p'.2.conversationLabels c l' = p.2.conversationLabels c l'
  counter : p'.1 =
    { total := p.1.total - cs.countP (isLost l p.2)
      unread := p.1.unread - cs.countP (isRead l unread p.2) }

theorem set_leftRow {row : Option ConversationLabel}
    (hrow : row = leftRow l db c) (c' : LocalConversationId) :
    db.conversationLabels.set c l row c' l =
      if c' ∈ [c] then leftRow l db c' else db.conversationLabels c' l := by
  by_cases hc : c' = c
  · rw [hc, LabelRows.set_self, if_pos (List.mem_singleton_self c), hrow]
  · rw [LabelRows.set_of_ne (fun hkey => hc hkey.left),
      if_neg (fun hmem => hc (List.mem_singleton.mp hmem))]

theorem relabel_spec {unread : Nat} {p p' : Counter × Database}
    (h : relabel l unread c p = some p') :
    Relabelled l unread [c] p p' := by
  unfold relabel at h
  split at h
  · rename_i hnone
    cases h
    refine ⟨SameMessages.refl _, rfl, rfl, rfl, ?_, fun _ _ _ => rfl, ?_⟩
    · intro c'
      split
      · rename_i hc
        rw [List.mem_singleton.mp hc, hnone]
        simp [leftRow, hnone]
      · rfl
    · simp [isLost, isRead, hnone]
  · rename_i row hrow
    dsimp only at h
    split at h
    · rename_i hleft
      cases h
      refine ⟨⟨rfl, rfl, rfl⟩, rfl, rfl, rfl, ?_, ?_, ?_⟩
      · exact set_leftRow (by simp [leftRow, hrow, hleft])
      · intro c' l' hl
        exact LabelRows.set_of_ne (fun hkey => hl hkey.right)
      · have hzero : (fromMessages []).unread = 0 := rfl
        by_cases hunread : unread = 0
        · simp [isLost, isRead, hrow, hleft, hunread]
        · simp [isLost, isRead, hrow, hleft, hunread, hzero]
    · rename_i hleft
      rcases Option.bind_eq_some_iff.mp h with ⟨db₁, hsave, h⟩
      cases h
      rcases Conversation.saveRow_spec hsave with
        ⟨hsame, hpairs, hmsgs, hconvs, _, hrows⟩
      refine ⟨hsame, hpairs, hmsgs, hconvs, ?_, ?_, ?_⟩
      · dsimp only
        rw [hrows]
        exact set_leftRow (by simp [leftRow, hrow, hleft])
      · intro c' l' hl
        dsimp only
        rw [hrows]
        exact LabelRows.set_of_ne (fun hkey => hl hkey.right)
      · by_cases hunread : unread = 0
        · simp [isLost, isRead, hrow, hleft, hunread]
        · by_cases hread : (fromMessages (p.2.labelled l c)).unread = 0
          · simp [isLost, isRead, hrow, hleft, hunread, hread]
          · simp [isLost, isRead, hrow, hleft, hread]

theorem foldlM_relabel_spec {unread : Nat} {cs : List LocalConversationId}
    {p p' : Counter × Database} (hnodup : cs.Nodup)
    (h : cs.foldlM (fun p c => relabel l unread c p) p = some p') :
    Relabelled l unread cs p p' := by
  induction cs generalizing p with
  | nil =>
      cases h
      exact ⟨SameMessages.refl _, rfl, rfl, rfl, fun _ => by simp,
        fun _ _ _ => rfl, by simp⟩
  | cons c rest ih =>
      rcases Option.bind_eq_some_iff.mp h with ⟨p₁, hfirst, hrest⟩
      rw [List.nodup_cons] at hnodup
      have hone := relabel_spec hfirst
      have hmore := ih hnodup.right hrest
      have hlabelled : forall c', p₁.2.labelled l c' = p.2.labelled l c' :=
        Conversation.labelled_congr hone.toSameMessages hone.messageLabels l
      have hother : forall c', c' ∈ rest ->
          p₁.2.conversationLabels c' l = p.2.conversationLabels c' l := by
        intro c' hc'
        rw [hone.rows, if_neg]
        intro hmem
        rw [List.mem_singleton.mp hmem] at hc'
        exact hnodup.left hc'
      have hlost : rest.countP (isLost l p₁.2) = rest.countP (isLost l p.2) := by
        refine List.countP_congr ?_
        intro c' hc'
        unfold isLost
        rw [hother c' hc', hlabelled]
      have hread : rest.countP (isRead l unread p₁.2) =
          rest.countP (isRead l unread p.2) := by
        refine List.countP_congr ?_
        intro c' hc'
        unfold isRead
        rw [hother c' hc', hlabelled]
      refine ⟨hone.toSameMessages.trans hmore.toSameMessages,
        hmore.messageLabels.trans hone.messageLabels,
        hmore.messageCounters.trans hone.messageCounters,
        hmore.conversationCounters.trans hone.conversationCounters, ?_, ?_,
        ?_⟩
      · intro c'
        rw [hmore.rows]
        by_cases hin : c' ∈ rest
        · rw [if_pos hin, if_pos (List.mem_cons_of_mem _ hin)]
          unfold leftRow
          rw [hother c' hin, hlabelled]
        · rw [if_neg hin, hone.rows]
          simp [hin]
      · intro c' l' hl
        rw [hmore.otherRows c' l' hl, hone.otherRows c' l' hl]
      · rw [hmore.counter, hone.counter, hlost, hread]
        simp only [List.countP_cons, List.countP_nil, Nat.zero_add,
          Nat.sub_sub, Nat.add_comm]

/-!
# How many rows are lost
-/

/-- An unread conversation that has no unread messages left. -/
def isDropped (l : LocalLabelId) (db : Database) (c : LocalConversationId) :
    Bool :=
  (db.conversationLabels c l).any (fun row => row.contextNumUnread ≠ 0) &&
    (fromMessages (db.labelled l c)).unread == 0

section Counts

variable {unread : Nat} {cs : List LocalConversationId}
  {p p' : Counter × Database}

theorem Relabelled.conversationIds (h : Relabelled l unread cs p p') :
    p'.2.conversationIds = p.2.conversationIds := by
  unfold Database.conversationIds
  rw [h.conversations]

theorem Relabelled.rowCount_total (h : Relabelled l unread cs p p')
    (hnodup : cs.Nodup) (hknown : forall c, c ∈ cs ->
      c ∈ p.2.conversationIds) :
    (Conversation.rowCount p.2 l).total =
      (Conversation.rowCount p'.2 l).total + cs.countP (isLost l p.2) := by
  unfold Conversation.rowCount
  rw [h.conversationIds, <- card_filter_eq_countP hnodup hknown
    (q := fun c => (p.2.conversationLabels c l).isSome &&
      !(p'.2.conversationLabels c l).isSome)]
  · dsimp only
    refine card_filter_split
      (p := fun c => (p.2.conversationLabels c l).isSome)
      (q := fun c => (p'.2.conversationLabels c l).isSome) ?_
    intro c _ hsome
    rw [h.rows] at hsome
    split at hsome
    · unfold leftRow at hsome
      cases hrow : p.2.conversationLabels c l with
      | none =>
          rw [hrow] at hsome
          cases hsome
      | some row => rfl
    · exact hsome
  · intro c _
    rw [h.rows]
    unfold isLost leftRow
    by_cases hin : c ∈ cs
    · cases hrow : p.2.conversationLabels c l with
      | none => simp
      | some row =>
          by_cases hleft : p.2.labelled l c = []
          · simp [hin, hleft]
          · simp [hin, hleft]
    · cases hrow : p.2.conversationLabels c l with
      | none => simp [hin]
      | some row => simp [hin]

theorem Relabelled.rowCount_unread (h : Relabelled l unread cs p p')
    (hnodup : cs.Nodup) (hknown : forall c, c ∈ cs ->
      c ∈ p.2.conversationIds)
    (hless : forall c row, p.2.conversationLabels c l = some row ->
      (fromMessages (p.2.labelled l c)).unread ≤ row.contextNumUnread) :
    (Conversation.rowCount p.2 l).unread =
      (Conversation.rowCount p'.2 l).unread + cs.countP (isDropped l p.2) := by
  unfold Conversation.rowCount
  rw [h.conversationIds, <- card_filter_eq_countP hnodup hknown
    (q := fun c => (p.2.conversationLabels c l).any
        (fun row => row.contextNumUnread ≠ 0) &&
      !(p'.2.conversationLabels c l).any
        (fun row => row.contextNumUnread ≠ 0))]
  · dsimp only
    refine card_filter_split
      (p := fun c => (p.2.conversationLabels c l).any
        (fun row => row.contextNumUnread ≠ 0))
      (q := fun c => (p'.2.conversationLabels c l).any
        (fun row => row.contextNumUnread ≠ 0)) ?_
    intro c _ hany
    rw [h.rows] at hany
    split at hany
    · unfold leftRow at hany
      cases hrow : p.2.conversationLabels c l with
      | none =>
          rw [hrow] at hany
          cases hany
      | some row =>
          have hle := hless c row hrow
          rw [hrow] at hany
          by_cases hleft : p.2.labelled l c = []
          · simp [hleft] at hany
          · simp [hleft, ConversationLabel.ofStats] at hany
            simp
            omega
    · exact hany
  · intro c _
    rw [h.rows]
    unfold isDropped leftRow
    by_cases hin : c ∈ cs
    · cases hrow : p.2.conversationLabels c l with
      | none => simp
      | some row =>
          by_cases hleft : p.2.labelled l c = []
          · have hzero : (fromMessages []).unread = 0 := rfl
            simp [hin, hleft, hzero]
          · simp [hin, hleft, ConversationLabel.ofStats]
    · simp [hin]

end Counts

/-!
# The whole call
-/

section Whole

variable {ids modified : List LocalMessageId} {r : Removal}

/-- The messages that lose the label. -/
def losing (l : LocalLabelId) (ids : List LocalMessageId) (db : Database) :
    List Message :=
  db.messages.filter (fun m => m.localId ∈ ids ∧ db.hasLabel l m)

theorem losing_eq_nil : losing l ids db = [] ↔
    forall id, id ∈ ids -> ⟨l, id⟩ ∉ db.messageLabels := by
  unfold losing
  rw [List.filter_eq_nil_iff]
  simp only [Database.hasLabel, decide_eq_true_eq]
  constructor
  · intro hnone id hid hpair
    rcases List.mem_map.mp (db.pair_known _ hpair) with ⟨m, hm, hmid⟩
    exact hnone m hm ⟨hmid ▸ hid, hmid ▸ hpair⟩
  · intro hnone m _ hm
    exact hnone _ hm.left hm.right

theorem PairsDeleted.losing_perm {r₀ : Removal}
    (h : PairsDeleted l ids r₀ r) (hstart : r₀.modified = []) :
    r.modified.Perm ((losing l ids r₀.db).map Message.localId) := by
  rcases h.modified with ⟨deleted, hmodified, hnodup, _, hmem⟩
  rw [hmodified, hstart, List.nil_append]
  refine (List.perm_ext_iff_of_nodup hnodup ?_).mpr ?_
  · exact r₀.db.messages_unique.sublist (List.filter_sublist.map _)
  · intro id
    rw [hmem, List.mem_map]
    constructor
    · intro hid
      rcases List.mem_map.mp (r₀.db.pair_known _ hid.right) with ⟨m, hm, hmid⟩
      have hmid : m.localId = id := hmid
      refine ⟨m, List.mem_filter.mpr ⟨hm, ?_⟩, hmid⟩
      rw [hmid]
      simpa [Database.hasLabel, hmid] using hid
    · intro hex
      rcases hex with ⟨m, hm, hmid⟩
      have hin := (List.mem_filter.mp hm).right
      rw [hmid] at hin
      simpa [Database.hasLabel, hmid] using hin

theorem sum_unread (messages : List Message) :
    (messages.map (fun m => m.unread.toNat)).sum =
      messages.countP (fun m => m.unread) := by
  induction messages with
  | nil => rfl
  | cons m rest ih =>
      rw [List.map_cons, List.sum_cons, List.countP_cons, ih, Nat.add_comm]
      cases m.unread with
      | false => rfl
      | true => rfl

theorem PairsDeleted.losing_unread {r₀ : Removal}
    (h : PairsDeleted l ids r₀ r) (hstart : r₀.modified = []) :
    (losing l ids r₀.db).countP (fun m => m.unread) ≤
      askedUnread r₀.db ids := by
  have hperm := h.losing_perm hstart
  rcases h.modified with ⟨deleted, hmodified, _, hsub, _⟩
  rw [hmodified, hstart, List.nil_append] at hperm
  have hsum : (losing l ids r₀.db).countP (fun m => m.unread) =
      askedUnread r₀.db deleted := by
    unfold askedUnread
    rw [(hperm.map _).sum_eq, List.map_map, <- sum_unread]
    refine congrArg List.sum (List.map_congr_left ?_)
    intro m hm
    rw [Function.comp_apply, message_of_mem (List.mem_of_mem_filter hm)]
    rfl
  rw [hsum]
  exact (hsub.map _).sum_le_sum (fun _ _ => Nat.zero_le _)

/-- The messages of a conversation that keep the label. -/
def keeping (l : LocalLabelId) (ids : List LocalMessageId) (db : Database)
    (c : LocalConversationId) : List Message :=
  (db.labelled l c).filter (fun m => m.localId ∉ ids)

theorem PairsDeleted.labelled {r₀ : Removal} (h : PairsDeleted l ids r₀ r)
    (c : LocalConversationId) :
    r.db.labelled l c = keeping l ids r₀.db c := by
  unfold keeping Database.labelled
  rw [h.messages, List.filter_filter]
  refine List.filter_congr ?_
  intro m _
  have hpair := h.pairs ⟨l, m.localId⟩
  rw [Bool.eq_iff_iff]
  simp only [Database.hasLabel, hpair]
  simp
  tauto

theorem PairsDeleted.countP {r₀ : Removal} (h : PairsDeleted l ids r₀ r)
    (q : Message -> Bool) :
    r₀.db.messages.countP (fun m => r₀.db.hasLabel l m && q m) =
      r.db.messages.countP (fun m => r.db.hasLabel l m && q m) +
        (losing l ids r₀.db).countP q := by
  unfold losing
  rw [h.messages, List.countP_filter, <- countP_or_of_disjoint]
  · refine List.countP_congr ?_
    intro m _
    have hpair := h.pairs ⟨l, m.localId⟩
    simp only [Database.hasLabel, hpair]
    simp
    tauto
  · intro m _ hq
    have hpair := h.pairs ⟨l, m.localId⟩
    simp only [Database.hasLabel, hpair] at hq
    simp at hq
    simp [hq.left.right]

theorem mem_distinctConversations {ids : List LocalMessageId} :
    c ∈ distinctConversations db ids ↔
      exists m, m ∈ db.messages ∧ m.localId ∈ ids ∧ m.conversationId = c := by
  unfold distinctConversations
  rw [List.mem_dedup, List.mem_map]
  simp [and_assoc]

theorem removeLabel_cases (h : removeLabel l ids db = some (modified, db')) :
    exists r, PairsDeleted l ids { modified := [], unread := 0, db := db } r ∧
      ((losing l ids db = [] ∧ db' = db) ∨
        exists msg conv p', losing l ids db ≠ [] ∧
          db.messageCounters l = some msg ∧
          db.conversationCounters l = some conv ∧
          Relabelled l (askedUnread db ids) (distinctConversations db ids)
            (conv, r.db.saveMessageCounter l
              { total := msg.total - (losing l ids db).length
                unread := msg.unread - askedUnread db ids }) p' ∧
          db' = p'.2.saveConversationCounter l p'.1) := by
  rcases Option.bind_eq_some_iff.mp h with ⟨r, hdelete, h⟩
  have hdeleted := deletePairs_spec hdelete
  have hperm := hdeleted.losing_perm rfl
  have hlength : r.modified.length = (losing l ids db).length := by
    rw [hperm.length_eq, List.length_map]
  refine ⟨r, hdeleted, ?_⟩
  split at h
  · rename_i hnone
    cases h
    have hlosing : losing l ids db = [] := by
      rw [<- List.length_eq_zero_iff, <- hlength, hnone]
      rfl
    refine Or.inl ⟨hlosing, ?_⟩
    have hpairs : r.db.messageLabels = db.messageLabels := by
      ext p
      rw [hdeleted.pairs]
      refine ⟨fun hp => hp.left, fun hp => ⟨hp, ?_⟩⟩
      intro hgone
      cases p
      cases hgone.left
      exact losing_eq_nil.mp hlosing _ hgone.right hp
    exact Database.ext hdeleted.labels hdeleted.messages
      hdeleted.conversations hpairs hdeleted.rows hdeleted.messageCounters
      hdeleted.conversationCounters
  · rename_i hsome
    rcases Option.bind_eq_some_iff.mp h with ⟨msg, hmsg, h⟩
    rcases Option.bind_eq_some_iff.mp h with ⟨conv, hconv, h⟩
    rcases Option.bind_eq_some_iff.mp h with ⟨p', hfold, h⟩
    cases h
    have hunread : r.unread = askedUnread db ids := by
      rw [hdeleted.unread, Nat.zero_add]
    refine Or.inr ⟨msg, conv, p', ?_, ?_, ?_, ?_, rfl⟩
    · intro hnil
      rw [hnil] at hlength
      exact hsome (List.length_eq_zero_iff.mp hlength)
    · rw [<- hmsg, hdeleted.messageCounters]
    · rw [<- hconv]
      change _ = r.db.conversationCounters l
      rw [hdeleted.conversationCounters]
    · rw [hunread, hlength] at hfold
      exact foldlM_relabel_spec (List.nodup_dedup _) hfold

end Whole

end Message

end Conversations
end MailClient
