import MailClient.Conversations.Incremental
import MailClient.Conversations.UnlabelSpec

/-!
# Counters that agree with the tables

The counter of a label counts its messages that are not deleted and, for
conversations, its rows.  Labelling moves the counters by what was changed, or
by what was asked for, and these are not always the same.
-/

namespace MailClient
namespace Conversations

open Foundation
open ConversationMessageLabelStats (fromMessages)

variable {l : LocalLabelId} {c : LocalConversationId} {db db' : Database}
  {ids modified : List LocalMessageId}

/-- What the counter of messages is meant to say. -/
def messageCount (db : Database) (l : LocalLabelId) : Counter where
  total := db.messages.countP (fun m => db.hasLabel l m && !m.deleted)
  unread := db.messages.countP
    (fun m => db.hasLabel l m && !m.deleted && m.unread)

/-- Counters and rows of a label agree with the messages. -/
structure Balanced (l : LocalLabelId) (db : Database) : Prop where
  messages : db.messageCounters l = some (messageCount db l)
  conversations : Conversation.CountsRows l db
  rows : forall c row, db.conversationLabels c l = some row ->
    row.stats = fromMessages (db.labelled l c)

/-!
# Putting a label on messages
-/

namespace Message

/-- When labelling messages keeps the counters in agreement. -/
structure AppliesExactly (l : LocalLabelId) (ids : List LocalMessageId)
    (db : Database) : Prop where
  kept : forall m, m ∈ newlyLabelled l ids db -> m.deleted = false
  rows : forall c, newlyLabelledIn l ids db c = [] ∨
    AddsUp (db.conversationLabels c l) (db.labelled l c)
      (newlyLabelledIn l ids db c)

theorem Applied.countP (h : Applied l ids db db') (p : Message -> Bool) :
    db'.messages.countP (fun m => db'.hasLabel l m && p m) =
      db.messages.countP (fun m => db.hasLabel l m && p m) +
        (newlyLabelled l ids db).countP p := by
  unfold newlyLabelled
  rw [h.messages, List.countP_filter, <- countP_or_of_disjoint]
  · refine List.countP_congr ?_
    intro m _
    have hpair : db'.hasLabel l m = true ↔
        db.hasLabel l m = true ∨ m.localId ∈ ids := by
      unfold Database.hasLabel
      rw [decide_eq_true_eq, decide_eq_true_eq, h.pairs]
      simp
    simp only [Bool.and_eq_true, Bool.or_eq_true, hpair, decide_eq_true_eq]
    tauto
  · intro m _ hp
    simp only [Bool.and_eq_true] at hp
    simp [hp.left]

theorem Applied.messageCount_iff (h : Applied l ids db db')
    (hb : Balanced l db) :
    db'.messageCounters l = some (messageCount db' l) ↔
      forall m, m ∈ newlyLabelled l ids db -> m.deleted = false := by
  have htotal := h.countP (fun m => !m.deleted)
  have hunread := h.countP (fun m => !m.deleted && m.unread)
  simp only [<- Bool.and_assoc] at hunread
  rw [h.messageCounter _ hb.messages, Option.some.injEq, Counter.ext_iff]
  simp only [messageCount, htotal, hunread, Nat.add_left_cancel_iff]
  constructor
  · intro hcounts m hm
    have hall := List.countP_eq_length.mp hcounts.left.symm m hm
    simpa using hall
  · intro hkept
    refine ⟨(List.countP_eq_length.mpr ?_).symm, List.countP_congr ?_⟩
    · intro m hm
      simp [hkept m hm]
    · intro m hm
      simp [hkept m hm]

theorem Applied.rows_iff (h : Applied l ids db db') (hb : Balanced l db)
    (c : LocalConversationId) :
    (forall row, db'.conversationLabels c l = some row ->
      row.stats = fromMessages (db'.labelled l c)) ↔
      newlyLabelledIn l ids db c = [] ∨
        AddsUp (db.conversationLabels c l) (db.labelled l c)
          (newlyLabelledIn l ids db c) := by
  rw [ConversationMessageLabelStats.fromMessages_perm (h.labelled_perm c),
    h.rows c]
  split
  · rename_i hnone
    rw [hnone, List.append_nil]
    exact ⟨fun _ => Or.inl rfl, fun _ => hb.rows c⟩
  · rename_i hsome
    rw [<- labelRow_stats (hb.rows c)]
    simp [hsome]

theorem Applied.balanced_iff (h : Applied l ids db db')
    (hb : Balanced l db) :
    Balanced l db' ↔ AppliesExactly l ids db := by
  constructor
  · intro hb'
    exact ⟨(h.messageCount_iff hb).mp hb'.messages,
      fun c => (h.rows_iff hb c).mp (hb'.rows c)⟩
  · intro hexact
    exact ⟨(h.messageCount_iff hb).mpr hexact.kept,
      h.countsRows hb.conversations,
      fun c => (h.rows_iff hb c).mpr (hexact.rows c)⟩

/-!
# Taking a label off messages
-/

/-- When taking a label off messages keeps the counters in agreement. -/
structure RemovesExactly (l : LocalLabelId) (ids : List LocalMessageId)
    (db : Database) : Prop where
  total : (forall m, m ∈ losing l ids db -> m.deleted = false) ∨
    forall m, m ∈ db.messages -> db.hasLabel l m = true ->
      m.deleted = false -> m.localId ∈ ids
  unread : askedUnread db ids =
      (losing l ids db).countP (fun m => !m.deleted && m.unread) ∨
    forall m, m ∈ db.messages -> db.hasLabel l m = true ->
      m.deleted = false -> m.unread = true -> m.localId ∈ ids
  conversations : askedUnread db ids = 0 ∨
    (forall c, c ∈ distinctConversations db ids -> forall row,
      db.conversationLabels c l = some row -> row.contextNumUnread ≠ 0) ∨
    forall c row, db.conversationLabels c l = some row ->
      row.contextNumUnread ≠ 0 -> forall m, m ∈ db.labelled l c ->
        m.unread = true -> m.localId ∈ ids

theorem sub_eq_iff {total left lost counted : Nat} (h : total = left + lost)
    (hle : lost ≤ counted) :
    total - counted = left ↔ counted = lost ∨ left = 0 := by
  omega

section Removal

variable {r : Removal}

theorem PairsDeleted.left_eq_zero {r₀ : Removal}
    (h : PairsDeleted l ids r₀ r) (q : Message -> Bool) :
    r.db.messages.countP (fun m => r.db.hasLabel l m && q m) = 0 ↔
      forall m, m ∈ r₀.db.messages -> r₀.db.hasLabel l m = true ->
        q m = true -> m.localId ∈ ids := by
  rw [List.countP_eq_zero, h.messages]
  refine forall_congr' ?_
  intro m
  refine imp_congr_right ?_
  intro _
  have hpair := h.pairs ⟨l, m.localId⟩
  simp only [Database.hasLabel, hpair]
  cases q m with
  | false => simp
  | true => simp

theorem countP_kept_eq {xs : List Message} :
    xs.length = xs.countP (fun m => !m.deleted) ↔
      forall m, m ∈ xs -> m.deleted = false := by
  rw [eq_comm, List.countP_eq_length]
  simp

theorem keeping_eq_labelled
    (hc : c ∉ distinctConversations db ids) :
    keeping l ids db c = db.labelled l c := by
  unfold keeping
  refine List.filter_eq_self.mpr ?_
  intro m hm
  refine decide_eq_true ?_
  intro hid
  have hm := List.mem_filter.mp hm
  have hmc := of_decide_eq_true hm.right
  exact hc (mem_distinctConversations.mpr
    ⟨m, hm.left, hid, hmc.left⟩)

theorem keeping_unread_le (l : LocalLabelId) (ids : List LocalMessageId)
    (db : Database) (c : LocalConversationId) :
    (fromMessages (keeping l ids db c)).unread ≤
      (fromMessages (db.labelled l c)).unread := by
  rw [ConversationMessageLabelStats.fromMessages_unread,
    ConversationMessageLabelStats.fromMessages_unread]
  exact List.filter_sublist.countP_le

theorem keeping_unread_eq_zero :
    (fromMessages (keeping l ids db c)).unread = 0 ↔
      forall m, m ∈ db.labelled l c -> m.unread = true -> m.localId ∈ ids := by
  rw [ConversationMessageLabelStats.fromMessages_unread, List.countP_eq_zero]
  unfold keeping
  simp only [List.mem_filter, decide_eq_true_eq, and_imp]
  refine forall_congr' ?_
  intro m
  refine imp_congr_right ?_
  intro _
  tauto

theorem messageCount_removed
    (h : PairsDeleted l ids { modified := [], unread := 0, db := db } r) :
    (⟨(messageCount db l).total - (losing l ids db).length,
        (messageCount db l).unread - askedUnread db ids⟩ : Counter) =
      messageCount r.db l ↔
    ((forall m, m ∈ losing l ids db -> m.deleted = false) ∨
      forall m, m ∈ db.messages -> db.hasLabel l m = true ->
        m.deleted = false -> m.localId ∈ ids) ∧
    (askedUnread db ids =
        (losing l ids db).countP (fun m => !m.deleted && m.unread) ∨
      forall m, m ∈ db.messages -> db.hasLabel l m = true ->
        m.deleted = false -> m.unread = true -> m.localId ∈ ids) := by
  have htotal := h.countP (fun m => !m.deleted)
  have hunread := h.countP (fun m => !m.deleted && m.unread)
  have hasked : (losing l ids db).countP (fun m => !m.deleted && m.unread) ≤
      askedUnread db ids := by
    refine (List.countP_mono_left ?_).trans (h.losing_unread rfl)
    intro m _ hm
    simp only [Bool.and_eq_true] at hm
    exact hm.right
  have hnone := h.left_eq_zero (fun m => !m.deleted)
  have hnoneUnread := h.left_eq_zero (fun m => !m.deleted && m.unread)
  simp only [<- Bool.and_assoc] at hunread hnoneUnread
  simp only [Bool.and_assoc, Bool.and_eq_true, Bool.not_eq_true', and_imp]
    at hnone hnoneUnread
  rw [Counter.ext_iff]
  refine and_congr ?_ ?_
  · rw [<- countP_kept_eq, <- hnone]
    exact sub_eq_iff htotal List.countP_le_length
  · rw [<- hnoneUnread]
    simp only [messageCount, Bool.and_assoc] at hunread ⊢
    exact sub_eq_iff hunread hasked

theorem askedUnread_ne_zero {m : Message} (hm : m ∈ db.messages)
    (hid : m.localId ∈ ids) (hunread : m.unread = true) :
    askedUnread db ids ≠ 0 := by
  intro hzero
  have hnone := List.sum_eq_zero_iff_forall_eq_nat.mp hzero 1
  rw [List.mem_map] at hnone
  refine absurd (hnone ⟨m.localId, hid, ?_⟩) (by decide)
  rw [message_of_mem hm, Option.map_some, Option.getD_some, hunread]
  rfl

section Stages

variable {counter : Counter} {counters : Counter} {p' : Counter × Database}

theorem rows_removed (hb : Balanced l db)
    (h : PairsDeleted l ids { modified := [], unread := 0, db := db } r)
    (hrelabelled : Relabelled l (askedUnread db ids)
      (distinctConversations db ids)
      (counter, r.db.saveMessageCounter l counters) p')
    (c : LocalConversationId) (row : ConversationLabel)
    (hrow : p'.2.conversationLabels c l = some row) :
    row.stats = fromMessages (p'.2.labelled l c) := by
  have hlabelled : p'.2.labelled l c = keeping l ids db c :=
    (Conversation.labelled_congr hrelabelled.toSameMessages
      hrelabelled.messageLabels l c).trans (h.labelled c)
  rw [hlabelled]
  rw [hrelabelled.rows] at hrow
  split at hrow
  · rcases Option.bind_eq_some_iff.mp hrow with ⟨old, _, hleft⟩
    split at hleft
    · cases hleft
    · cases hleft
      change fromMessages (r.db.labelled l c) = _
      rw [h.labelled c]
  · rename_i hout
    change r.db.conversationLabels c l = some row at hrow
    rw [h.rows] at hrow
    rw [keeping_eq_labelled hout]
    exact hb.rows c row hrow

theorem isDropped_iff
    (h : PairsDeleted l ids { modified := [], unread := 0, db := db } r) :
    isDropped l (r.db.saveMessageCounter l counters) c = true ↔
      exists row, db.conversationLabels c l = some row ∧
        row.contextNumUnread ≠ 0 ∧
        forall m, m ∈ db.labelled l c -> m.unread = true ->
          m.localId ∈ ids := by
  have hrow : (r.db.saveMessageCounter l counters).conversationLabels c l =
      db.conversationLabels c l := congrFun (congrFun h.rows c) l
  have hkeep : (r.db.saveMessageCounter l counters).labelled l c =
      keeping l ids db c := h.labelled c
  rw [<- keeping_unread_eq_zero]
  unfold isDropped
  rw [hrow, hkeep]
  cases db.conversationLabels c l with
  | none => simp
  | some row => simp

theorem isRead_iff
    (h : PairsDeleted l ids { modified := [], unread := 0, db := db } r)
    (hasked : askedUnread db ids ≠ 0) :
    isRead l (askedUnread db ids) (r.db.saveMessageCounter l counters) c =
        true ↔
      exists row, db.conversationLabels c l = some row ∧
        forall m, m ∈ db.labelled l c -> m.unread = true ->
          m.localId ∈ ids := by
  have hrow : (r.db.saveMessageCounter l counters).conversationLabels c l =
      db.conversationLabels c l := congrFun (congrFun h.rows c) l
  have hkeep : (r.db.saveMessageCounter l counters).labelled l c =
      keeping l ids db c := h.labelled c
  rw [<- keeping_unread_eq_zero]
  unfold isRead
  rw [hrow, hkeep]
  cases db.conversationLabels c l with
  | none => simp
  | some row => simp [hasked]

theorem exists_unread (hb : Balanced l db) {row : ConversationLabel}
    (hrow : db.conversationLabels c l = some row)
    (hunread : row.contextNumUnread ≠ 0) :
    exists m, m ∈ db.labelled l c ∧ m.unread = true := by
  have hstats := congrArg ConversationMessageLabelStats.unread
    (hb.rows c row hrow)
  rw [ConversationMessageLabelStats.fromMessages_unread] at hstats
  refine List.countP_pos_iff.mp ?_
  rw [<- hstats]
  exact Nat.pos_of_ne_zero hunread

theorem countP_isDropped_eq_zero (hb : Balanced l db)
    (h : PairsDeleted l ids { modified := [], unread := 0, db := db } r)
    (hasked : askedUnread db ids = 0) :
    (distinctConversations db ids).countP
      (isDropped l (r.db.saveMessageCounter l counters)) = 0 := by
  refine List.countP_eq_zero.mpr ?_
  intro c _ hdropped
  rcases (isDropped_iff h).mp hdropped with ⟨row, hrow, hunread, hall⟩
  rcases exists_unread hb hrow hunread with ⟨m, hm, hmunread⟩
  exact askedUnread_ne_zero (List.mem_of_mem_filter hm) (hall m hm hmunread)
    hmunread hasked

theorem countP_isRead_eq (hb : Balanced l db)
    (h : PairsDeleted l ids { modified := [], unread := 0, db := db } r)
    (hasked : askedUnread db ids ≠ 0) :
    (distinctConversations db ids).countP (isRead l (askedUnread db ids)
        (r.db.saveMessageCounter l counters)) =
      (distinctConversations db ids).countP
        (isDropped l (r.db.saveMessageCounter l counters)) ↔
    forall c, c ∈ distinctConversations db ids -> forall row,
      db.conversationLabels c l = some row -> row.contextNumUnread ≠ 0 := by
  have hsplit := @countP_or_of_disjoint _ (distinctConversations db ids)
    (isDropped l (r.db.saveMessageCounter l counters))
    (fun c => isRead l (askedUnread db ids)
        (r.db.saveMessageCounter l counters) c &&
      !isDropped l (r.db.saveMessageCounter l counters) c)
    (fun c _ hdropped => by simp [hdropped])
  have hread : (distinctConversations db ids).countP
      (isRead l (askedUnread db ids) (r.db.saveMessageCounter l counters)) =
      (distinctConversations db ids).countP (fun c =>
        isDropped l (r.db.saveMessageCounter l counters) c ||
          (isRead l (askedUnread db ids)
            (r.db.saveMessageCounter l counters) c &&
          !isDropped l (r.db.saveMessageCounter l counters) c)) := by
    refine List.countP_congr ?_
    intro c _
    have himp : isDropped l (r.db.saveMessageCounter l counters) c = true ->
        isRead l (askedUnread db ids)
          (r.db.saveMessageCounter l counters) c = true := by
      rw [isDropped_iff h, isRead_iff h hasked]
      intro hex
      rcases hex with ⟨row, hrow, _, hall⟩
      exact ⟨row, hrow, hall⟩
    simp only [Bool.or_eq_true, Bool.and_eq_true, Bool.not_eq_true']
    rw [<- Bool.not_eq_true]
    tauto
  rw [hread, hsplit, Nat.add_eq_left, List.countP_eq_zero]
  refine forall_congr' ?_
  intro c
  refine imp_congr_right ?_
  intro _
  rw [Bool.and_eq_true, isRead_iff h hasked, Bool.not_eq_true',
    <- Bool.not_eq_true, isDropped_iff h]
  constructor
  · intro hnone row hrow hzero
    refine hnone ⟨⟨row, hrow, ?_⟩, ?_⟩
    · intro m hm hunread
      have hstats := congrArg ConversationMessageLabelStats.unread
        (hb.rows c row hrow)
      rw [ConversationMessageLabelStats.fromMessages_unread] at hstats
      have hpos : 0 < (db.labelled l c).countP (fun m => m.unread) :=
        List.countP_pos_iff.mpr ⟨m, hm, hunread⟩
      change row.contextNumUnread = _ at hstats
      omega
    · intro hex
      rcases hex with ⟨row', hrow', hunread, _⟩
      cases Option.some.inj (hrow.symm.trans hrow')
      exact hunread hzero
  · intro hall hboth
    rcases hboth with ⟨⟨row, hrow, hids⟩, hnot⟩
    exact hnot ⟨row, hrow, hall row hrow, hids⟩

theorem rowCount_unread_eq_zero (hb : Balanced l db)
    (h : PairsDeleted l ids { modified := [], unread := 0, db := db } r)
    (hrelabelled : Relabelled l (askedUnread db ids)
      (distinctConversations db ids)
      (counter, r.db.saveMessageCounter l counters) p') :
    (Conversation.rowCount p'.2 l).unread = 0 ↔
      forall c row, db.conversationLabels c l = some row ->
        row.contextNumUnread ≠ 0 -> forall m, m ∈ db.labelled l c ->
          m.unread = true -> m.localId ∈ ids := by
  have hrows : forall c, p'.2.conversationLabels c l =
      if c ∈ distinctConversations db ids then
        leftRow l (r.db.saveMessageCounter l counters) c
      else db.conversationLabels c l := by
    intro c
    rw [hrelabelled.rows]
    congr 1
    exact congrFun (congrFun h.rows c) l
  have hrow : forall c,
      (r.db.saveMessageCounter l counters).conversationLabels c l =
        db.conversationLabels c l := fun c => congrFun (congrFun h.rows c) l
  have hkeep : forall c,
      (r.db.saveMessageCounter l counters).labelled l c =
        keeping l ids db c := fun c => h.labelled c
  have hids : p'.2.conversationIds = db.conversationIds := by
    rw [hrelabelled.conversationIds]
    unfold Database.conversationIds
    exact congrArg (fun cs => (cs.map Conversation.localId).toFinset)
      h.conversations
  unfold Conversation.rowCount
  dsimp only
  rw [Finset.card_eq_zero, Finset.filter_eq_empty_iff, hids]
  constructor
  · intro hnone c row hc hunread
    rw [<- keeping_unread_eq_zero]
    have hknown : c ∈ db.conversationIds :=
      List.mem_toFinset.mpr (db.row_known c l (by rw [hc]; rfl))
    have hread := hnone hknown
    rw [hrows] at hread
    split at hread
    · unfold leftRow at hread
      rw [hrow, hc, hkeep] at hread
      by_cases hnil : keeping l ids db c = []
      · rw [hnil]
        rfl
      · simpa [hnil, ConversationLabel.ofStats] using hread
    · simp [hc, hunread] at hread
  · intro hall c _ hunread
    rw [hrows] at hunread
    split at hunread
    · unfold leftRow at hunread
      rw [hrow, hkeep] at hunread
      cases hc : db.conversationLabels c l with
      | none =>
          rw [hc] at hunread
          cases hunread
      | some row =>
          rw [hc] at hunread
          by_cases hnil : keeping l ids db c = []
          · simp [hnil] at hunread
          · simp [hnil, ConversationLabel.ofStats] at hunread
            have hstats := congrArg ConversationMessageLabelStats.unread
              (hb.rows c row hc)
            have hle := keeping_unread_le l ids db c
            change row.contextNumUnread = _ at hstats
            refine hunread (keeping_unread_eq_zero.mpr (hall c row hc ?_))
            omega
    · rename_i hout
      cases hc : db.conversationLabels c l with
      | none =>
          rw [hc] at hunread
          cases hunread
      | some row =>
          have hne : row.contextNumUnread ≠ 0 := by
            rw [hc] at hunread
            exact of_decide_eq_true hunread
          rcases exists_unread hb hc hne with ⟨m, hm, hmunread⟩
          have hmem := List.mem_filter.mp hm
          exact hout (mem_distinctConversations.mpr ⟨m, hmem.left,
            hall c row hc hne m hm hmunread,
            (of_decide_eq_true hmem.right).left⟩)

theorem rowCount_deleted
    (h : PairsDeleted l ids { modified := [], unread := 0, db := db } r) :
    Conversation.rowCount (r.db.saveMessageCounter l counters) l =
      Conversation.rowCount db l := by
  change Conversation.rowCount r.db l = _
  unfold Conversation.rowCount Database.conversationIds
  rw [h.rows, h.conversations]

theorem unread_le_row (hb : Balanced l db)
    (h : PairsDeleted l ids { modified := [], unread := 0, db := db } r)
    (c : LocalConversationId) (row : ConversationLabel)
    (hrow : (r.db.saveMessageCounter l counters).conversationLabels c l =
      some row) :
    (fromMessages
      ((r.db.saveMessageCounter l counters).labelled l c)).unread ≤
        row.contextNumUnread := by
  change r.db.conversationLabels c l = some row at hrow
  change (fromMessages (r.db.labelled l c)).unread ≤ _
  rw [h.rows] at hrow
  have hstats := congrArg ConversationMessageLabelStats.unread
    (hb.rows c row hrow)
  change row.contextNumUnread = _ at hstats
  rw [h.labelled c, hstats]
  exact keeping_unread_le l ids db c

theorem distinctConversations_known
    (h : PairsDeleted l ids { modified := [], unread := 0, db := db } r)
    (c : LocalConversationId) (hc : c ∈ distinctConversations db ids) :
    c ∈ (r.db.saveMessageCounter l counters).conversationIds := by
  rcases mem_distinctConversations.mp hc with ⟨m, hm, _, hmc⟩
  refine List.mem_toFinset.mpr ?_
  change c ∈ r.db.conversations.map Conversation.localId
  rw [h.conversations, <- hmc]
  exact db.conversation_known m hm

theorem countsRows_removed
    (h : PairsDeleted l ids { modified := [], unread := 0, db := db } r)
    (hrelabelled : Relabelled l (askedUnread db ids)
      (distinctConversations db ids) (Conversation.rowCount db l,
        r.db.saveMessageCounter l counters) p') :
    Conversation.CountsRows l (p'.2.saveConversationCounter l p'.1) ↔
      (Conversation.rowCount db l).unread -
          (distinctConversations db ids).countP (isRead l
            (askedUnread db ids) (r.db.saveMessageCounter l counters)) =
        (Conversation.rowCount p'.2 l).unread := by
  have htotal := hrelabelled.rowCount_total (List.nodup_dedup _)
    (distinctConversations_known h)
  dsimp only at htotal
  have hsaved : (p'.2.saveConversationCounter l p'.1).conversationCounters l =
      some p'.1 := Function.update_self l _ _
  have hcount : Conversation.rowCount (p'.2.saveConversationCounter l p'.1) l =
      Conversation.rowCount p'.2 l := rfl
  rw [rowCount_deleted h] at htotal
  unfold Conversation.CountsRows
  rw [hsaved, hcount, Option.some.injEq, hrelabelled.counter,
    Counter.ext_iff]
  constructor
  · intro hboth
    exact hboth.right
  · intro hunread
    refine ⟨?_, hunread⟩
    dsimp only
    omega

theorem unread_removed (hb : Balanced l db)
    (h : PairsDeleted l ids { modified := [], unread := 0, db := db } r)
    (hrelabelled : Relabelled l (askedUnread db ids)
      (distinctConversations db ids)
      (counter, r.db.saveMessageCounter l counters) p') :
    (Conversation.rowCount db l).unread -
        (distinctConversations db ids).countP (isRead l (askedUnread db ids)
          (r.db.saveMessageCounter l counters)) =
      (Conversation.rowCount p'.2 l).unread ↔
    askedUnread db ids = 0 ∨
      (forall c, c ∈ distinctConversations db ids -> forall row,
        db.conversationLabels c l = some row -> row.contextNumUnread ≠ 0) ∨
      forall c row, db.conversationLabels c l = some row ->
        row.contextNumUnread ≠ 0 -> forall m, m ∈ db.labelled l c ->
          m.unread = true -> m.localId ∈ ids := by
  have hcount : (Conversation.rowCount db l).unread =
      (Conversation.rowCount p'.2 l).unread +
        (distinctConversations db ids).countP
          (isDropped l (r.db.saveMessageCounter l counters)) := by
    rw [<- rowCount_deleted h]
    exact hrelabelled.rowCount_unread (List.nodup_dedup _)
      (distinctConversations_known h) (unread_le_row hb h)
  by_cases hasked : askedUnread db ids = 0
  · have hread : (distinctConversations db ids).countP
        (isRead l (askedUnread db ids)
          (r.db.saveMessageCounter l counters)) = 0 := by
      refine List.countP_eq_zero.mpr ?_
      intro c _
      simp [isRead, hasked]
    rw [hread, hcount, countP_isDropped_eq_zero hb h hasked]
    simp [hasked]
  · have hle : (distinctConversations db ids).countP
        (isDropped l (r.db.saveMessageCounter l counters)) ≤
        (distinctConversations db ids).countP (isRead l (askedUnread db ids)
          (r.db.saveMessageCounter l counters)) := by
      refine List.countP_mono_left ?_
      intro c _
      rw [isDropped_iff h, isRead_iff h hasked]
      intro hex
      rcases hex with ⟨row, hrow, _, hall⟩
      exact ⟨row, hrow, hall⟩
    rw [sub_eq_iff hcount hle, countP_isRead_eq hb h hasked,
      rowCount_unread_eq_zero hb h hrelabelled]
    simp [hasked]

end Stages

end Removal

theorem removeLabel_balanced_iff (hb : Balanced l db)
    (h : removeLabel l ids db = some (modified, db')) :
    Balanced l db' ↔ losing l ids db = [] ∨ RemovesExactly l ids db := by
  rcases removeLabel_cases h with ⟨r, hdeleted, hcases⟩
  rcases hcases with ⟨hnone, hsame⟩ | ⟨msg, conv, p', hsome, hmsg, hconv,
    hrelabelled, hdb⟩
  · rw [hsame]
    exact ⟨fun _ => Or.inl hnone, fun _ => hb⟩
  · cases Option.some.inj (hmsg.symm.trans hb.messages)
    cases Option.some.inj (hconv.symm.trans hb.conversations)
    have hmessages : db'.messageCounters l = some (messageCount db' l) ↔
        (⟨(messageCount db l).total - (losing l ids db).length,
          (messageCount db l).unread - askedUnread db ids⟩ : Counter) =
          messageCount r.db l := by
      have hcount : messageCount db' l = messageCount r.db l := by
        rw [hdb]
        change messageCount p'.2 l = _
        unfold messageCount Database.hasLabel
        rw [hrelabelled.messages, hrelabelled.messageLabels]
        rfl
      have hcounter : db'.messageCounters l =
          some ⟨(messageCount db l).total - (losing l ids db).length,
            (messageCount db l).unread - askedUnread db ids⟩ := by
        rw [hdb]
        change p'.2.messageCounters l = _
        rw [hrelabelled.messageCounters]
        exact Function.update_self l _ _
      rw [hcount, hcounter, Option.some.injEq]
    have hconversations := countsRows_removed hdeleted hrelabelled
    rw [<- hdb] at hconversations
    have hrows : forall c row, db'.conversationLabels c l = some row ->
        row.stats = fromMessages (db'.labelled l c) := by
      rw [hdb]
      exact rows_removed hb hdeleted hrelabelled
    rw [messageCount_removed hdeleted] at hmessages
    rw [unread_removed hb hdeleted hrelabelled] at hconversations
    constructor
    · intro hb'
      have hmessages := hmessages.mp hb'.messages
      exact Or.inr ⟨hmessages.left, hmessages.right,
        hconversations.mp hb'.conversations⟩
    · intro hexact
      rcases hexact with hnone | hexact
      · exact absurd hnone hsome
      · exact ⟨hmessages.mpr ⟨hexact.total, hexact.unread⟩,
          hconversations.mpr hexact.conversations, hrows⟩

end Message

/-- Labelling messages keeps the counters exact under these conditions only. -/
theorem labelling_balanced (l : LocalLabelId) (ids : List LocalMessageId)
    (db : Database) (hb : Balanced l db) :
    (forall modified db', Message.applyLabel l ids db = some (modified, db') ->
      (Balanced l db' ↔ Message.AppliesExactly l ids db)) ∧
    (forall modified db', Message.removeLabel l ids db = some (modified, db') ->
      (Balanced l db' ↔ Message.losing l ids db = [] ∨
        Message.RemovesExactly l ids db)) :=
  ⟨fun _ _ h => (Message.applyLabel_spec h).balanced_iff hb,
    fun _ _ h => Message.removeLabel_balanced_iff hb h⟩

/-!
# Three conversations in the inbox
-/

def inConversation (id : LocalMessageId) (c : LocalConversationId)
    (unread deleted : Bool) : Message where
  localId := id
  conversationId := c
  unread := unread
  deleted := deleted

def oneOf (unread : Bool) : ConversationLabel :=
  ConversationLabel.ofStats (fromMessages [inConversation 0 0 unread false])

/-- The second and the third are unread; a deleted message is not in the inbox. -/
def threeConversations : Database :=
  Database.ofLists inboxOnly
    [inConversation 1 1 false false, inConversation 2 2 true false,
      inConversation 3 3 true false, inConversation 4 3 false true]
    [{ localId := 1 }, { localId := 2 }, { localId := 3 }]
    [⟨1, 1⟩, ⟨1, 2⟩, ⟨1, 3⟩]
    [⟨1, 1, oneOf false⟩, ⟨2, 1, oneOf true⟩, ⟨3, 1, oneOf true⟩]
    [(1, ⟨3, 2⟩)] [(1, ⟨3, 2⟩)] (by decide) (by decide) (by decide)
    (by decide) (by decide)

theorem threeConversations_balanced : Balanced 1 threeConversations := by
  refine ⟨by decide +kernel, by unfold Conversation.CountsRows; decide +kernel,
    ?_⟩
  intro c row hrow
  have hmem := Database.mem_of_rowsOf hrow
  have hall : forall e, e ∈ [(⟨1, 1, oneOf false⟩ : Database.LabelRowEntry),
      ⟨2, 1, oneOf true⟩, ⟨3, 1, oneOf true⟩] ->
      e.row.stats =
        fromMessages (threeConversations.labelled 1 e.conversation) := by
    decide +kernel
  exact hall _ hmem

theorem unread_removed_exactly :
    exists modified db',
      Message.removeLabel 1 [2] threeConversations = some (modified, db') ∧
      Balanced 1 db' := by
  refine ⟨_, _, rfl, ((labelling_balanced 1 [2] threeConversations
    threeConversations_balanced).right _ _ rfl).mpr (Or.inr ?_)⟩
  refine ⟨Or.inl (by decide +kernel), Or.inl (by decide +kernel),
    Or.inr (Or.inl ?_)⟩
  intro c hc row hrow
  have hcs : Message.distinctConversations threeConversations [2] = [2] := by
    decide +kernel
  rw [hcs] at hc
  rw [List.mem_singleton.mp hc] at hrow
  have hsame : oneOf true = row := Option.some.inj hrow
  rw [<- hsame]
  decide

/-- Removed with a read one, an unread conversation counts twice. -/
theorem labelling_unbalanced :
    Balanced 1 threeConversations ∧
    (exists modified db',
      Message.removeLabel 1 [1, 2] threeConversations = some (modified, db') ∧
      ¬ Balanced 1 db') ∧
    (exists modified db',
      Message.applyLabel 1 [4] threeConversations = some (modified, db') ∧
      ¬ Balanced 1 db') := by
  refine ⟨threeConversations_balanced, ⟨_, _, rfl, ?_⟩, _, _, rfl, ?_⟩
  · intro hb
    have hconversations := hb.conversations
    unfold Conversation.CountsRows at hconversations
    revert hconversations
    decide +kernel
  · intro hb
    have hmessages := hb.messages
    revert hmessages
    decide +kernel

end Conversations
end MailClient
