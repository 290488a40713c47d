import MailClient.Conversations.Labelling
import MailClient.Foundation.Counting

/-!
# What labelling messages does

The tables after a label has been put on messages, in terms of the messages
that did not have it: their pairs are added, each of their conversations gets
them added to its row, and the counters move by them.
-/

namespace MailClient
namespace Conversations

open Foundation
open ConversationMessageLabelStats (fromMessages)

variable {l : LocalLabelId} {c : LocalConversationId} {db db' : Database}

/-- The tables that labelling does not write to. -/
structure SameMessages (db db' : Database) : Prop where
  labels : db'.labels = db.labels
  messages : db'.messages = db.messages
  conversations : db'.conversations = db.conversations

theorem SameMessages.refl (db : Database) : SameMessages db db :=
  ⟨rfl, rfl, rfl⟩

theorem SameMessages.trans {db'' : Database} (h : SameMessages db db')
    (h' : SameMessages db' db'') : SameMessages db db'' :=
  ⟨h'.labels.trans h.labels, h'.messages.trans h.messages,
    h'.conversations.trans h.conversations⟩

/-!
# Inserting pairs
-/

namespace Message

structure PairsInserted (l : LocalLabelId) (ids : List LocalMessageId)
    (db : Database) (modified : List LocalMessageId) (db' : Database) :
    Prop extends SameMessages db db' where
  rows : db'.conversationLabels = db.conversationLabels
  messageCounters : db'.messageCounters = db.messageCounters
  conversationCounters : db'.conversationCounters = db.conversationCounters
  pairs : forall p, p ∈ db'.messageLabels ↔
    p ∈ db.messageLabels ∨ (p.label = l ∧ p.id ∈ ids)
  mem_modified : forall id, id ∈ modified ↔
    id ∈ ids ∧ ⟨l, id⟩ ∉ db.messageLabels
  nodup : modified.Nodup

theorem insertPair_spec {id : LocalMessageId}
    (h : db.insertPair l id = some db') :
    SameMessages db db' ∧
      db'.conversationLabels = db.conversationLabels ∧
      db'.messageCounters = db.messageCounters ∧
      db'.conversationCounters = db.conversationCounters ∧
      db'.messageLabels = insert ⟨l, id⟩ db.messageLabels := by
  unfold Database.insertPair at h
  split at h
  · cases h
    exact ⟨⟨rfl, rfl, rfl⟩, rfl, rfl, rfl, rfl⟩
  · cases h

theorem insertPairs_spec {ids modified : List LocalMessageId}
    (h : insertPairs l ids db = some (modified, db')) :
    PairsInserted l ids db modified db' := by
  induction ids generalizing db modified with
  | nil =>
      cases h
      exact ⟨SameMessages.refl _, rfl, rfl, rfl, by simp, by simp,
        List.nodup_nil⟩
  | cons id rest ih =>
      unfold insertPairs at h
      split at h
      · rename_i hhad
        have hrest := ih h
        refine ⟨hrest.toSameMessages, hrest.rows, hrest.messageCounters,
          hrest.conversationCounters, ?_, ?_, hrest.nodup⟩
        · intro p
          rw [hrest.pairs, List.mem_cons]
          constructor
          · intro hp
            tauto
          · intro hp
            rcases hp with hp | ⟨hlabel, hid | hid⟩
            · exact Or.inl hp
            · cases p
              cases hlabel
              cases hid
              exact Or.inl hhad
            · exact Or.inr ⟨hlabel, hid⟩
        · intro id'
          rw [hrest.mem_modified, List.mem_cons]
          constructor
          · intro hid
            exact ⟨Or.inr hid.left, hid.right⟩
          · intro hid
            rcases hid with ⟨hid | hid, hnew⟩
            · cases hid
              exact absurd hhad hnew
            · exact ⟨hid, hnew⟩
      · rename_i hnew
        rcases Option.bind_eq_some_iff.mp h with ⟨db₁, hinsert, h⟩
        rcases Option.bind_eq_some_iff.mp h with ⟨⟨m, db₂⟩, hpairs, h⟩
        cases h
        rcases insertPair_spec hinsert with
          ⟨hsame, hrows, hmsg, hconv, hlabels⟩
        have hrest := ih hpairs
        have hmodified : forall id', id' ∈ m ↔ id' ∈ rest ∧ id' ≠ id ∧
            ⟨l, id'⟩ ∉ db.messageLabels := by
          intro id'
          rw [hrest.mem_modified, hlabels, Finset.mem_insert]
          simp
        refine ⟨hsame.trans hrest.toSameMessages, hrest.rows.trans hrows,
          hrest.messageCounters.trans hmsg,
          hrest.conversationCounters.trans hconv, ?_, ?_, ?_⟩
        · intro p
          rw [hrest.pairs, hlabels, Finset.mem_insert, List.mem_cons]
          constructor
          · intro hp
            rcases hp with (hp | hp) | hp
            · rw [hp]
              exact Or.inr ⟨rfl, Or.inl rfl⟩
            · exact Or.inl hp
            · exact Or.inr ⟨hp.left, Or.inr hp.right⟩
          · intro hp
            rcases hp with hp | ⟨hlabel, hid | hid⟩
            · exact Or.inl (Or.inr hp)
            · cases p
              cases hlabel
              cases hid
              exact Or.inl (Or.inl rfl)
            · exact Or.inr ⟨hlabel, hid⟩
        · intro id'
          rw [List.mem_cons, hmodified, List.mem_cons]
          by_cases hid : id' = id
          · rw [hid]
            simp [hnew]
          · simp [hid]
        · refine List.nodup_cons.mpr ⟨?_, hrest.nodup⟩
          intro hin
          exact ((hmodified id).mp hin).right.left rfl

end Message

/-!
# One conversation
-/

namespace Conversation

theorem saveRow_spec {row : ConversationLabel}
    (h : db.saveRow c l row = some db') :
    SameMessages db db' ∧ db'.messageLabels = db.messageLabels ∧
      db'.messageCounters = db.messageCounters ∧
      db'.conversationCounters = db.conversationCounters ∧
      c ∈ db.conversationIds ∧
      db'.conversationLabels =
        db.conversationLabels.set c l (some row) := by
  unfold Database.saveRow at h
  split at h
  · rename_i hknown
    cases h
    exact ⟨⟨rfl, rfl, rfl⟩, rfl, rfl, rfl, List.mem_toFinset.mpr hknown.right,
      rfl⟩
  · cases h

/-- The conversation has got the messages added to its row. -/
structure Labelled (l : LocalLabelId) (c : LocalConversationId)
    (added : List Message) (db db' : Database) : Prop
    extends SameMessages db db' where
  messageLabels : db'.messageLabels = db.messageLabels
  known : c ∈ db.conversationIds
  row : db'.conversationLabels c l = some
    (labelRow (db.conversationLabels c l) (fromMessages added))
  otherRows : forall c' l', (c' ≠ c ∨ l' ≠ l) ->
    db'.conversationLabels c' l' = db.conversationLabels c' l'
  messageCounter : exists counter, db.messageCounters l = some counter ∧
    db'.messageCounters l = some
      { total := counter.total + (fromMessages added).count
        unread := counter.unread + (fromMessages added).unread }
  conversationCounter : exists counter,
    db.conversationCounters l = some counter ∧
    db'.conversationCounters l = some
      (labelCounter (db.conversationLabels c l) (fromMessages added) counter)
  otherCounters : forall l', l' ≠ l ->
    db'.messageCounters l' = db.messageCounters l' ∧
      db'.conversationCounters l' = db.conversationCounters l'

theorem labelImpl_spec {ids : List LocalMessageId}
    (h : labelImpl l c ids db = some db') (hids : ids ≠ []) :
    batch l c ids db ≠ [] ∧ Labelled l c (batch l c ids db) db db' := by
  unfold labelImpl at h
  rw [if_neg hids] at h
  split at h
  · cases h
  · rename_i hbatch
    refine ⟨hbatch, ?_⟩
    rcases Option.bind_eq_some_iff.mp h with ⟨db₁, hsave, h⟩
    rcases Option.bind_eq_some_iff.mp h with ⟨conv, hconv, h⟩
    rcases Option.bind_eq_some_iff.mp h with ⟨msg, hmsg, h⟩
    cases h
    rcases saveRow_spec hsave with
      ⟨hsame, hpairs, hmsgs, hconvs, hknown, hrows⟩
    refine ⟨⟨hsame.labels, hsame.messages, hsame.conversations⟩, hpairs,
      hknown, ?_, ?_, ⟨msg, ?_, ?_⟩, ⟨conv, ?_, ?_⟩, ?_⟩
    · change db₁.conversationLabels c l = _
      rw [hrows, LabelRows.set_self]
    · intro c' l' hother
      change db₁.conversationLabels c' l' = _
      rw [hrows, LabelRows.set_of_ne]
      intro hkey
      rcases hother with hc | hl
      · exact hc hkey.left
      · exact hl hkey.right
    · rw [<- hmsgs]
      exact hmsg
    · change Function.update db₁.messageCounters l _ l = _
      rw [Function.update_self]
    · rw [<- hconvs]
      exact hconv
    · change Function.update db₁.conversationCounters l _ l = _
      rw [Function.update_self]
    · intro l' hl
      refine ⟨?_, ?_⟩
      · change Function.update db₁.messageCounters l _ l' = _
        rw [Function.update_of_ne hl, hmsgs]
      · change Function.update db₁.conversationCounters l _ l' = _
        rw [Function.update_of_ne hl, hconvs]

/-!
# Rows and their counter
-/

/-- What the counter of conversations is meant to say. -/
def rowCount (db : Database) (l : LocalLabelId) : Counter where
  total := (db.conversationIds.filter
    (fun c => (db.conversationLabels c l).isSome)).card
  unread := (db.conversationIds.filter
    (fun c => (db.conversationLabels c l).any
      (fun row => row.contextNumUnread ≠ 0))).card

def CountsRows (l : LocalLabelId) (db : Database) : Prop :=
  db.conversationCounters l = some (rowCount db l)

theorem labelRow_unread (had : Option ConversationLabel)
    (stats : ConversationMessageLabelStats) :
    (labelRow had stats).contextNumUnread =
      (had.map ConversationLabel.contextNumUnread).getD 0 + stats.unread := by
  cases had with
  | none => exact (Nat.zero_add _).symm
  | some row => rfl

theorem Labelled.countsRows {added : List Message}
    (h : Labelled l c added db db') (hcounts : CountsRows l db) :
    CountsRows l db' := by
  have hids : db'.conversationIds = db.conversationIds := by
    unfold Database.conversationIds
    rw [h.conversations]
  have htotal := card_filter_agree h.known
    (p := fun c => (db.conversationLabels c l).isSome)
    (q := fun c => (db'.conversationLabels c l).isSome)
    (fun x hx => by rw [h.otherRows x l (Or.inl hx)])
  have hunread := card_filter_agree h.known
    (p := fun c => (db.conversationLabels c l).any
      (fun row => row.contextNumUnread ≠ 0))
    (q := fun c => (db'.conversationLabels c l).any
      (fun row => row.contextNumUnread ≠ 0))
    (fun x hx => by rw [h.otherRows x l (Or.inl hx)])
  rcases h.conversationCounter with ⟨counter, hcounter, hafter⟩
  cases Option.some.inj (hcounter.symm.trans hcounts)
  unfold CountsRows
  rw [hafter, Option.some.injEq]
  unfold rowCount labelCounter
  rw [hids]
  simp only [h.row, Option.isSome_some, Option.any_some] at htotal hunread
  rw [labelRow_unread] at hunread
  ext
  · dsimp only
    cases hrow : db.conversationLabels c l with
    | none =>
        rw [hrow] at htotal
        simp only [Option.isNone_none, Option.isSome_none, Bool.toNat_true,
          Bool.toNat_false] at htotal ⊢
        omega
    | some row =>
        rw [hrow] at htotal
        simp only [Option.isNone_some, Option.isSome_some, Bool.toNat_true,
          Bool.toNat_false] at htotal ⊢
        omega
  · dsimp only
    have hadded : (fromMessages added).unread = 0 ∨
        ((fromMessages added).unread ≠ 0 ∧
          ((fromMessages added).unread != 0) = true) := by
      by_cases hzero : (fromMessages added).unread = 0
      · exact Or.inl hzero
      · exact Or.inr ⟨hzero, bne_iff_ne.mpr hzero⟩
    cases hrow : db.conversationLabels c l with
    | none =>
        rw [hrow] at hunread
        rcases hadded with hzero | ⟨hpos, hbne⟩
        · simp [hzero] at hunread ⊢
          omega
        · simp [hpos, hbne] at hunread ⊢
          omega
    | some row =>
        rw [hrow] at hunread
        by_cases hread : row.contextNumUnread = 0
        · rcases hadded with hzero | ⟨hpos, hbne⟩
          · simp [hzero, hread] at hunread ⊢
            omega
          · simp [hpos, hbne, hread] at hunread ⊢
            omega
        · simp [hread] at hunread ⊢
          omega

/-!
# All conversations of the messages
-/

theorem labelled_congr (h : SameMessages db db')
    (hpairs : db'.messageLabels = db.messageLabels) (l : LocalLabelId)
    (c : LocalConversationId) : db'.labelled l c = db.labelled l c := by
  unfold Database.labelled Database.hasLabel
  rw [h.messages, hpairs]

theorem batch_congr (h : SameMessages db db')
    (hpairs : db'.messageLabels = db.messageLabels) (l : LocalLabelId)
    (c : LocalConversationId) (ids : List LocalMessageId) :
    batch l c ids db' = batch l c ids db := by
  unfold batch
  rw [labelled_congr h hpairs]

abbrev Group := LocalConversationId × List LocalMessageId

/-- The conversations of the groups have got their messages added. -/
structure AllLabelled (l : LocalLabelId) (groups : List Group)
    (db db' : Database) : Prop extends SameMessages db db' where
  messageLabels : db'.messageLabels = db.messageLabels
  rows : forall g, g ∈ groups -> batch l g.1 g.2 db ≠ [] ∧
    db'.conversationLabels g.1 l = some (labelRow (db.conversationLabels g.1 l)
      (fromMessages (batch l g.1 g.2 db)))
  otherRows : forall c' l', (c' ∉ groups.map Prod.fst ∨ l' ≠ l) ->
    db'.conversationLabels c' l' = db.conversationLabels c' l'
  messageCounter : forall counter, db.messageCounters l = some counter ->
    db'.messageCounters l = some
      { total := counter.total +
          (groups.flatMap (fun g => batch l g.1 g.2 db)).length
        unread := counter.unread +
          (groups.flatMap (fun g => batch l g.1 g.2 db)).countP
            (fun m => m.unread) }
  countsRows : CountsRows l db -> CountsRows l db'
  otherCounters : forall l', l' ≠ l ->
    db'.messageCounters l' = db.messageCounters l' ∧
      db'.conversationCounters l' = db.conversationCounters l'

theorem foldlM_labelImpl_spec {groups : List Group}
    (h : groups.foldlM (fun db g => labelImpl l g.1 g.2 db) db = some db')
    (hkeys : (groups.map Prod.fst).Nodup)
    (hids : forall g, g ∈ groups -> g.2 ≠ []) :
    AllLabelled l groups db db' := by
  induction groups generalizing db with
  | nil =>
      cases h
      refine ⟨SameMessages.refl _, rfl, ?_, fun _ _ _ => rfl, ?_,
        fun hcounts => hcounts, fun _ _ => ⟨rfl, rfl⟩⟩
      · intro g hg
        cases hg
      · intro counter hcounter
        exact hcounter
  | cons g rest ih =>
      rcases Option.bind_eq_some_iff.mp h with ⟨db₁, hfirst, hrest⟩
      rw [List.map_cons, List.nodup_cons] at hkeys
      rcases labelImpl_spec hfirst (hids g List.mem_cons_self) with
        ⟨hne, hone⟩
      have hmore := ih hrest hkeys.right
        (fun g' hg' => hids g' (List.mem_cons_of_mem _ hg'))
      have hbatch : forall g' : Group,
          batch l g'.1 g'.2 db₁ = batch l g'.1 g'.2 db := fun g' =>
        batch_congr hone.toSameMessages hone.messageLabels l g'.1 g'.2
      refine ⟨hone.toSameMessages.trans hmore.toSameMessages,
        hmore.messageLabels.trans hone.messageLabels, ?_, ?_, ?_, ?_, ?_⟩
      · intro g' hg'
        rcases List.mem_cons.mp hg' with hg' | hg'
        · rw [hg', hmore.otherRows g.1 l (Or.inl hkeys.left)]
          exact ⟨hne, hone.row⟩
        · have hother : g'.1 ≠ g.1 := fun heq =>
            hkeys.left (heq ▸ List.mem_map_of_mem hg')
          have hrow := hmore.rows g' hg'
          rw [hbatch, hone.otherRows g'.1 l (Or.inl hother)] at hrow
          exact hrow
      · intro c' l' hother
        have hrest' : c' ∉ rest.map Prod.fst ∨ l' ≠ l := by
          rcases hother with hc | hl
          · exact Or.inl (fun hin => hc (List.mem_cons_of_mem _ hin))
          · exact Or.inr hl
        have hfirst' : c' ≠ g.1 ∨ l' ≠ l := by
          rcases hother with hc | hl
          · exact Or.inl (fun heq => hc (heq ▸ List.mem_cons_self))
          · exact Or.inr hl
        rw [hmore.otherRows c' l' hrest', hone.otherRows c' l' hfirst']
      · intro counter hcounter
        rcases hone.messageCounter with ⟨counter', hbefore, hafter⟩
        cases Option.some.inj (hbefore.symm.trans hcounter)
        rw [hmore.messageCounter _ hafter]
        simp only [hbatch, List.flatMap_cons, List.length_append,
          List.countP_append, ConversationMessageLabelStats.fromMessages_count,
          ConversationMessageLabelStats.fromMessages_unread, Nat.add_assoc]
      · intro hcounts
        exact hmore.countsRows (hone.countsRows hcounts)
      · intro l' hl
        rcases hmore.otherCounters l' hl with ⟨hmsg, hconv⟩
        rcases hone.otherCounters l' hl with ⟨hmsg', hconv'⟩
        exact ⟨hmsg.trans hmsg', hconv.trans hconv'⟩

end Conversation

/-!
# All messages
-/

namespace Message

theorem message_of_mem {m : Message} (hm : m ∈ db.messages) :
    db.message m.localId = some m := by
  unfold Database.message
  cases hfind : db.messages.find? (fun m' => m'.localId = m.localId) with
  | none =>
      have hnone := List.find?_eq_none.mp hfind m hm
      simp at hnone
  | some m' =>
      have hid : m'.localId = m.localId := by
        simpa using List.find?_some hfind
      rw [List.inj_on_of_nodup_map db.messages_unique
        (List.mem_of_find?_eq_some hfind) hm hid]

theorem conversationOf_of_mem {m : Message} (hm : m ∈ db.messages) :
    conversationOf db m.localId = some m.conversationId := by
  unfold conversationOf
  rw [message_of_mem hm]
  rfl

theorem mem_of_conversationOf {id : LocalMessageId}
    (h : conversationOf db id = some c) :
    exists m, m ∈ db.messages ∧ m.localId = id ∧ m.conversationId = c := by
  rcases Option.map_eq_some_iff.mp h with ⟨m, hfind, hc⟩
  refine ⟨m, List.mem_of_find?_eq_some hfind, ?_, hc⟩
  simpa using List.find?_some hfind

/-- The messages that get a label they did not have. -/
def newlyLabelled (l : LocalLabelId) (ids : List LocalMessageId)
    (db : Database) : List Message :=
  db.messages.filter (fun m => m.localId ∈ ids ∧ ¬ db.hasLabel l m)

def newlyLabelledIn (l : LocalLabelId) (ids : List LocalMessageId)
    (db : Database) (c : LocalConversationId) : List Message :=
  (newlyLabelled l ids db).filter (fun m => m.conversationId = c)

/-!
# The groups by conversations
-/

theorem byConversation_keys (db : Database) (ids : List LocalMessageId) :
    (byConversation db ids).map Prod.fst =
      (ids.filterMap (conversationOf db)).dedup.insertionSort
        (fun a b => a ≤ b) := by
  unfold byConversation
  rw [List.map_map]
  exact List.map_id' _

theorem byConversation_nodup (db : Database) (ids : List LocalMessageId) :
    ((byConversation db ids).map Prod.fst).Nodup := by
  rw [byConversation_keys]
  exact (List.perm_insertionSort _ _).nodup_iff.mpr (List.nodup_dedup _)

theorem mem_byConversation_keys {ids : List LocalMessageId} :
    c ∈ (byConversation db ids).map Prod.fst ↔
      exists id, id ∈ ids ∧ conversationOf db id = some c := by
  rw [byConversation_keys, List.mem_insertionSort, List.mem_dedup,
    List.mem_filterMap]

theorem mem_byConversation {ids : List LocalMessageId}
    {g : Conversation.Group} (hg : g ∈ byConversation db ids) :
    g.2 = ids.filter (fun id => conversationOf db id = some g.1) := by
  rcases List.mem_map.mp hg with ⟨c, _, hc⟩
  rw [<- hc]

theorem byConversation_ne_nil {ids : List LocalMessageId}
    {g : Conversation.Group} (hg : g ∈ byConversation db ids) :
    g.2 ≠ [] := by
  rcases mem_byConversation_keys.mp (List.mem_map_of_mem hg) with
    ⟨id, hid, hc⟩
  rw [mem_byConversation hg]
  refine List.ne_nil_of_mem (List.mem_filter.mpr ⟨hid, ?_⟩)
  exact decide_eq_true hc

variable {ids modified : List LocalMessageId}

theorem batch_byConversation (h : PairsInserted l ids db modified db')
    {g : Conversation.Group} (hg : g ∈ byConversation db' modified) :
    Conversation.batch l g.1 g.2 db' = newlyLabelledIn l ids db g.1 := by
  unfold Conversation.batch Database.labelled newlyLabelledIn newlyLabelled
  rw [List.filter_filter, List.filter_filter, h.messages]
  refine List.filter_congr ?_
  intro m hm
  have hm' : m ∈ db'.messages := by
    rw [h.messages]
    exact hm
  have hnew : m.localId ∈ g.2 ↔
      (m.localId ∈ ids ∧ ⟨l, m.localId⟩ ∉ db.messageLabels) ∧
        m.conversationId = g.1 := by
    rw [mem_byConversation hg, List.mem_filter, h.mem_modified,
      conversationOf_of_mem hm', decide_eq_true_eq, Option.some.injEq]
  have hpair : ⟨l, m.localId⟩ ∈ db'.messageLabels ↔
      ⟨l, m.localId⟩ ∈ db.messageLabels ∨ m.localId ∈ ids := by
    rw [h.pairs]
    simp
  rw [Bool.eq_iff_iff]
  simp only [Database.hasLabel, Bool.and_eq_true, decide_eq_true_eq, hnew,
    hpair]
  tauto

theorem mem_newlyLabelledIn {m : Message} :
    m ∈ newlyLabelledIn l ids db c ↔ m ∈ db.messages ∧ m.localId ∈ ids ∧
      ⟨l, m.localId⟩ ∉ db.messageLabels ∧ m.conversationId = c := by
  unfold newlyLabelledIn newlyLabelled
  rw [List.mem_filter, List.mem_filter]
  simp [Database.hasLabel, and_assoc]

theorem newlyLabelledIn_eq_nil (h : PairsInserted l ids db modified db')
    (c : LocalConversationId) :
    newlyLabelledIn l ids db c = [] ↔
      c ∉ (byConversation db' modified).map Prod.fst := by
  rw [mem_byConversation_keys, List.eq_nil_iff_forall_not_mem]
  constructor
  · intro hnone hex
    rcases hex with ⟨id, hid, hc⟩
    rcases mem_of_conversationOf hc with ⟨m, hm, hmid, hmc⟩
    rw [h.messages] at hm
    rw [h.mem_modified, <- hmid] at hid
    exact hnone m (mem_newlyLabelledIn.mpr ⟨hm, hid.left, hid.right, hmc⟩)
  · intro hnone m hm
    rcases mem_newlyLabelledIn.mp hm with ⟨hm, hid, hnew, hc⟩
    have hm' : m ∈ db'.messages := by
      rw [h.messages]
      exact hm
    refine hnone ⟨m.localId, (h.mem_modified _).mpr ⟨hid, hnew⟩, ?_⟩
    rw [conversationOf_of_mem hm', hc]

theorem batches_perm (h : PairsInserted l ids db modified db') :
    ((byConversation db' modified).flatMap
      (fun g => Conversation.batch l g.1 g.2 db')).Perm
      (newlyLabelled l ids db) := by
  have hnodup : db.messages.Nodup := List.Nodup.of_map _ db.messages_unique
  refine (List.perm_ext_iff_of_nodup ?_ (hnodup.filter _)).mpr ?_
  · refine List.nodup_flatMap.mpr ⟨?_, ?_⟩
    · intro g hg
      rw [batch_byConversation h hg]
      exact (hnodup.filter _).filter _
    · refine (List.pairwise_map.mp (byConversation_nodup db' modified)).imp_of_mem
        ?_
      intro g g' hg hg' hne
      refine List.disjoint_left.mpr ?_
      intro m hm hm'
      dsimp only at hm hm'
      rw [batch_byConversation h hg] at hm
      rw [batch_byConversation h hg'] at hm'
      have hc := (mem_newlyLabelledIn.mp hm).right.right.right
      have hc' := (mem_newlyLabelledIn.mp hm').right.right.right
      exact hne (hc.symm.trans hc')
  · intro m
    rw [List.mem_flatMap]
    constructor
    · intro hex
      rcases hex with ⟨g, hg, hm⟩
      rw [batch_byConversation h hg] at hm
      exact List.mem_of_mem_filter hm
    · intro hm
      have hin : m ∈ newlyLabelledIn l ids db m.conversationId :=
        List.mem_filter.mpr ⟨hm, decide_eq_true rfl⟩
      have hkey : m.conversationId ∈
          (byConversation db' modified).map Prod.fst := by
        by_contra hout
        rw [(newlyLabelledIn_eq_nil h _).mpr hout] at hin
        cases hin
      rcases List.mem_map.mp hkey with ⟨g, hg, hc⟩
      refine ⟨g, hg, ?_⟩
      rw [batch_byConversation h hg, hc]
      exact hin

/-!
# The result
-/

/-- The tables after a label has been put on messages. -/
structure Applied (l : LocalLabelId) (ids : List LocalMessageId)
    (db db' : Database) : Prop extends SameMessages db db' where
  pairs : forall p, p ∈ db'.messageLabels ↔
    p ∈ db.messageLabels ∨ (p.label = l ∧ p.id ∈ ids)
  rows : forall c, db'.conversationLabels c l =
    if newlyLabelledIn l ids db c = [] then db.conversationLabels c l
    else some (Conversation.labelRow (db.conversationLabels c l)
      (fromMessages (newlyLabelledIn l ids db c)))
  otherRows : forall c l', l' ≠ l ->
    db'.conversationLabels c l' = db.conversationLabels c l'
  messageCounter : forall counter, db.messageCounters l = some counter ->
    db'.messageCounters l = some
      { total := counter.total + (newlyLabelled l ids db).length
        unread := counter.unread +
          (newlyLabelled l ids db).countP (fun m => m.unread) }
  countsRows : Conversation.CountsRows l db -> Conversation.CountsRows l db'
  otherCounters : forall l', l' ≠ l ->
    db'.messageCounters l' = db.messageCounters l' ∧
      db'.conversationCounters l' = db.conversationCounters l'

theorem applyLabel_spec (h : applyLabel l ids db = some (modified, db')) :
    Applied l ids db db' := by
  rcases Option.bind_eq_some_iff.mp h with ⟨⟨ids', db₁⟩, hpairs, h⟩
  rcases Option.bind_eq_some_iff.mp h with ⟨db₂, hgroups, h⟩
  cases h
  have hinserted := insertPairs_spec hpairs
  have hall := Conversation.foldlM_labelImpl_spec hgroups
    (byConversation_nodup db₁ modified)
    (fun g hg => byConversation_ne_nil hg)
  have hperm := batches_perm hinserted
  refine ⟨hinserted.toSameMessages.trans hall.toSameMessages, ?_, ?_, ?_, ?_,
    ?_, ?_⟩
  · intro p
    rw [hall.messageLabels]
    exact hinserted.pairs p
  · intro c
    split
    · rename_i hnone
      rw [hall.otherRows c l
        (Or.inl ((newlyLabelledIn_eq_nil hinserted c).mp hnone)),
        hinserted.rows]
    · rename_i hsome
      have hkey : c ∈ (byConversation db₁ modified).map Prod.fst := by
        by_contra hout
        exact hsome ((newlyLabelledIn_eq_nil hinserted c).mpr hout)
      rcases List.mem_map.mp hkey with ⟨g, hg, hc⟩
      have hrow := (hall.rows g hg).right
      rw [batch_byConversation hinserted hg, hinserted.rows, hc] at hrow
      exact hrow
  · intro c l' hl
    rw [hall.otherRows c l' (Or.inr hl), hinserted.rows]
  · intro counter hcounter
    rw [<- hinserted.messageCounters] at hcounter
    rw [hall.messageCounter counter hcounter, hperm.length_eq,
      hperm.countP_eq]
  · intro hcounts
    refine hall.countsRows ?_
    unfold Conversation.CountsRows Conversation.rowCount
      Database.conversationIds
    rw [hinserted.conversationCounters, hinserted.rows,
      hinserted.conversations]
    exact hcounts
  · intro l' hl
    rw [<- hinserted.messageCounters, <- hinserted.conversationCounters]
    exact hall.otherCounters l' hl

end Message

end Conversations
end MailClient
