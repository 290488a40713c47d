import MailClient.Conversations.Undelete

/-!
# When a deletion is undone

Undeleting restores what deleting changed, but for conversations and rows that
the deletion emptied and for conversations that only undeleting looks at.
-/

namespace MailClient
namespace Conversations

open Foundation
open Labels (LabelTable)

variable {db db' : Database} {ids failed : List LocalMessageId}
  {c : LocalConversationId} {l : LocalLabelId}

theorem Conversation.markDelete_deleted {conv : Conversation}
    {stats : Option MessageLabelStats} (hlive : conv.deleted = false)
    (remaining : Bool) :
    (conv.markDelete remaining stats).deleted = !remaining := by
  unfold Conversation.markDelete
  cases remaining with
  | false =>
      cases stats with
      | none => rfl
      | some s => rfl
  | true =>
      cases stats with
      | none => exact hlive
      | some s => exact hlive

namespace Database

theorem conversation_of_mem {conv : Conversation}
    (h : conv ∈ db.conversations) :
    db.conversation conv.localId = some conv := by
  unfold conversation
  cases hfind : db.conversations.find? (fun other =>
      other.localId = conv.localId) with
  | none =>
      have hnone := List.find?_eq_none.mp hfind conv h
      simp at hnone
  | some other =>
      have hid : other.localId = conv.localId := by
        simpa using List.find?_some hfind
      rw [List.inj_on_of_nodup_map db.conversations_unique
        (List.mem_of_find?_eq_some hfind) h hid]

end Database

namespace Message

/-!
# Both calls in a row
-/

/-- A message of the conversation stays. -/
def remains (ids : List LocalMessageId) (db : Database)
    (c : LocalConversationId) : Bool :=
  isRemaining c (deletedMessages ids db)

/-- Deleting empties the conversation. -/
def empties (ids : List LocalMessageId) (db : Database)
    (c : LocalConversationId) : Bool :=
  isUpdated c db && !remains ids db c

def rowsAfter (ids : List LocalMessageId) (db : Database)
    (c : LocalConversationId) : LocalLabelId -> Option ConversationLabel :=
  if isUpdated c db then
    deletedRows (statsOf ids db c) (db.conversationLabels c)
  else db.conversationLabels c

def takenBy (ids : List LocalMessageId) (db : Database) (l : LocalLabelId)
    (c : LocalConversationId) : Counter :=
  if isUpdated c db then taken (statsOf ids db c) (db.conversationLabels c) l
  else 0

def givenBackBy (ids : List LocalMessageId) (db : Database) (l : LocalLabelId)
    (c : LocalConversationId) : Counter :=
  givenBack (statsOf ids db c) (empties ids db c) (rowsAfter ids db c) l

/-- What is left of deleting and undeleting. -/
structure RoundTrip (ids : List LocalMessageId) (db db' : Database) :
    Prop where
  messages : db'.messages = db.messages
  conversations : db'.conversations = db.conversations.map (fun conv =>
    if conv.localId ∈ conversationsOf false ids db then
      (if isUpdated conv.localId db then
          conv.markDelete (remains ids db conv.localId)
            (db.allMail.bind (statsOf ids db conv.localId))
        else conv).markUndelete
          (db.allMail.bind (statsOf ids db conv.localId))
    else conv)
  rows : forall c l, db'.conversationLabels c l =
    if c ∈ conversationsOf false ids db then
      undeletedRows (statsOf ids db c) (empties ids db c)
        (db.allMail.bind (statsOf ids db c)).isSome (rowsAfter ids db c) l
    else db.conversationLabels c l
  messageCounters : forall l, db'.messageCounters l =
    (db.messageCounters l).map (fun k =>
      (k.less (Counter.sum (fun c => takenMessages (statsOf ids db c) l)
        (conversationsOf false ids db))).more
        (Counter.sum (fun c => takenMessages (statsOf ids db c) l)
          (conversationsOf false ids db)))
  conversationCounters : forall l, db'.conversationCounters l =
    (db.conversationCounters l).map (fun k =>
      (k.less (Counter.sum (takenBy ids db l)
        (conversationsOf false ids db))).more
        (Counter.sum (givenBackBy ids db l) (conversationsOf false ids db)))

theorem Consistent.live_of_mem (h : Consistent db)
    (hc : c ∈ conversationsOf false ids db) {conv : Conversation}
    (hconv : conv ∈ db.conversations) (hid : conv.localId = c) :
    conv.deleted = false := by
  rcases mem_conversationsOf.mp hc with ⟨m, hm, _, hlive, hm'⟩
  exact h.liveConversation m conv hm hlive hconv (hid.trans hm'.symm)

def conversationAfter (ids : List LocalMessageId) (db : Database)
    (conv : Conversation) : Conversation :=
  if isUpdated conv.localId db then
    conv.markDelete (remains ids db conv.localId)
      (db.allMail.bind (statsOf ids db conv.localId))
  else conv

/-- What deleting leaves. -/
structure Deleted (ids : List LocalMessageId) (db db' : Database) : Prop
    extends SameStore (deletedMessages ids db) db' where
  conversations : db'.conversations = db.conversations.map (fun conv =>
    if conv.localId ∈ conversationsOf false ids db then
      conversationAfter ids db conv
    else conv)
  rows : forall c l, db'.conversationLabels c l =
    if c ∈ conversationsOf false ids db then rowsAfter ids db c l
    else db.conversationLabels c l
  messageCounters : forall l, db'.messageCounters l =
    (db.messageCounters l).map (fun k =>
      k.less (Counter.sum (fun c => takenMessages (statsOf ids db c) l)
        (conversationsOf false ids db)))
  conversationCounters : forall l, db'.conversationCounters l =
    (db.conversationCounters l).map (fun k =>
      k.less (Counter.sum (takenBy ids db l) (conversationsOf false ids db)))

theorem conversationAfter_localId (conv : Conversation) :
    (conversationAfter ids db conv).localId = conv.localId := by
  unfold conversationAfter
  split
  · exact Conversation.markDelete_localId _ _ _
  · rfl

theorem markDeleted_run (ids : List LocalMessageId) (h : HasCounters db) :
    exists db', markDeleted ids db = some db' ∧ HasCounters db' ∧
      Deleted ids db db' := by
  rcases markDeleted_spec ids h with ⟨db', hrun, hcounters, hdeleted⟩
  refine ⟨db', hrun, hcounters, hdeleted.toSameStore, ?_, ?_, ?_, ?_⟩
  · exact hdeleted.touched
  · intro c l
    rw [hdeleted.rows]
    refine if_congr Iff.rfl ?_ rfl
    change (if isUpdated c db then _ else _) = _
    unfold rowsAfter
    split
    · rfl
    · rfl
  · intro l
    rw [hdeleted.messageCounters]
    refine congrArg (fun f => (db.messageCounters l).map f) ?_
    funext k
    rw [<- Counter.foldl_less]
    refine List.foldl_ext _ _ _ ?_
    intro k c _
    exact messageCounter_less k
  · intro l
    rw [hdeleted.conversationCounters]
    refine congrArg (fun f => (db.conversationCounters l).map f) ?_
    funext k
    rw [<- Counter.foldl_less]
    refine List.foldl_ext _ _ _ ?_
    intro k c _
    change (if isUpdated c db then _ else k) = k.less (if _ then _ else _)
    split
    · exact updatedCounter_less k
    · rfl

theorem isEmptied_eq (h : Consistent db)
    (hc : c ∈ conversationsOf false ids db) (hdeleted : Deleted ids db db') :
    isEmptied c (undeletedMessages failed db') = empties ids db c := by
  rcases List.mem_map.mp (known_of_mem false ids db c hc) with
    ⟨conv, hconv, hid⟩
  have hlive := h.live_of_mem hc hconv hid
  have hmem : conversationAfter ids db conv ∈ db'.conversations := by
    rw [hdeleted.conversations]
    refine List.mem_map.mpr ⟨conv, hconv, ?_⟩
    rw [hid, if_pos hc]
  have hfound := Database.conversation_of_mem hmem
  rw [conversationAfter_localId, hid] at hfound
  change (db'.conversation c).any Conversation.deleted = _
  rw [hfound, Option.any_some]
  unfold conversationAfter empties
  rw [hid]
  cases isUpdated c db with
  | false => exact hlive
  | true => exact Conversation.markDelete_deleted hlive _

/-- What undeleting some of the messages gives to the counter. -/
def returnedBy (ids failed : List LocalMessageId) (db : Database)
    (l : LocalLabelId) (c : LocalConversationId) : Counter :=
  givenBack (statsOf failed db c) (empties ids db c) (rowsAfter ids db c) l

/-- What is left of deleting messages and undeleting some of them. -/
structure PartialTrip (ids failed : List LocalMessageId)
    (db db' : Database) : Prop where
  labels : db'.labels = db.labels
  messages : db'.messages = (deletedMessages (others ids failed) db).messages
  messageLabels : db'.messageLabels = (deletedMessages ids db).messageLabels
  conversations : db'.conversations = db.conversations.map (fun conv =>
    if conv.localId ∈ conversationsOf false failed db then
      (conversationAfter ids db conv).markUndelete
        (db.allMail.bind (statsOf failed db conv.localId))
    else if conv.localId ∈ conversationsOf false ids db then
      conversationAfter ids db conv
    else conv)
  rows : forall c l, db'.conversationLabels c l =
    if c ∈ conversationsOf false failed db then
      undeletedRows (statsOf failed db c) (empties ids db c)
        (db.allMail.bind (statsOf failed db c)).isSome (rowsAfter ids db c) l
    else if c ∈ conversationsOf false ids db then rowsAfter ids db c l
    else db.conversationLabels c l
  messageCounters : forall l, db'.messageCounters l =
    (db.messageCounters l).map (fun k =>
      (k.less (Counter.sum (fun c => takenMessages (statsOf ids db c) l)
        (conversationsOf false ids db))).more
        (Counter.sum (fun c => takenMessages (statsOf failed db c) l)
          (conversationsOf false failed db)))
  conversationCounters : forall l, db'.conversationCounters l =
    (db.conversationCounters l).map (fun k =>
      (k.less (Counter.sum (takenBy ids db l)
        (conversationsOf false ids db))).more
        (Counter.sum (returnedBy ids failed db l)
          (conversationsOf false failed db)))

theorem conversationsOf_sub (hsub : forall id, id ∈ failed -> id ∈ ids)
    (hc : c ∈ conversationsOf false failed db) :
    c ∈ conversationsOf false ids db := by
  rcases mem_conversationsOf.mp hc with ⟨m, hm, hid, hlive, hmc⟩
  exact mem_conversationsOf.mpr ⟨m, hm, hsub _ hid, hlive, hmc⟩

theorem partialTrip (h : Consistent db)
    (hsub : forall id, id ∈ failed -> id ∈ ids)
    (hlive : forall m, m ∈ db.messages -> m.localId ∈ failed ->
      m.deleted = false) :
    exists db', (markDeleted ids db).bind (markUndeleted failed) = some db' ∧
      PartialTrip ids failed db db' := by
  rcases markDeleted_run ids h.hasCounters with
    ⟨db₁, hdelete, hcounters, hdeleted⟩
  rcases markUndeleted_spec failed hcounters with
    ⟨db₂, hundelete, _, hundeleted⟩
  rw [conversationsOf_true hsub hlive hdeleted.messages] at hundeleted
  have heffect : forall c, c ∈ conversationsOf false failed db ->
      undeleteEffect c (groupOf true failed db₁ c)
          (undeletedMessages failed db₁) =
        { conversation := Conversation.markUndelete
            (db.allMail.bind (statsOf failed db c))
          rows := undeletedRows (statsOf failed db c) (empties ids db c)
            (db.allMail.bind (statsOf failed db c)).isSome
            (rowsAfter ids db c)
          messageCounters := messageCounter (statsOf failed db c)
            Counter.afterSoftUndelete
          conversationCounters := fun l k =>
            updatedCounter (statsOf failed db c)
              ConversationLabel.markUndelete Counter.afterUndelete
              (loadedRow (statsOf failed db c)
                (readdedRow (statsOf failed db c) (empties ids db c)
                  (rowsAfter ids db c))) l
              (readdedCounter (statsOf failed db c) (empties ids db c)
                (rowsAfter ids db c) l k) } := by
    intro c hc
    have hallMail : (undeletedMessages failed db₁).allMail = db.allMail := by
      unfold Database.allMail
      exact congrArg (fun labels => labels.remoteIdCounterpart "5")
        hdeleted.labels
    have hrows : (undeletedMessages failed db₁).conversationLabels c =
        rowsAfter ids db c := by
      funext l
      refine (hdeleted.rows c l).trans ?_
      rw [if_pos (conversationsOf_sub hsub hc)]
    unfold undeleteEffect
    rw [build_undeleted hsub hlive hdeleted.toSameStore, hrows, hallMail,
      isEmptied_eq h (conversationsOf_sub hsub hc) hdeleted]
    rfl
  refine ⟨db₂, ?_, ?_, ?_, ?_, ?_, ?_, ?_, ?_⟩
  · rw [hdelete]
    exact hundelete
  · rw [hundeleted.labels]
    exact hdeleted.labels
  · rw [hundeleted.messages]
    exact undeletedMessages_messages hsub hlive hdeleted.messages
  · rw [hundeleted.messageLabels]
    exact undeletedMessages_labels hsub hlive hdeleted.toSameStore
  · rw [hundeleted.touched]
    change db₁.conversations.map _ = _
    rw [hdeleted.conversations, List.map_map]
    refine List.map_congr_left ?_
    intro conv _
    rw [Function.comp_apply]
    by_cases hc : conv.localId ∈ conversationsOf false failed db
    · have hcall := conversationsOf_sub hsub hc
      simp only [if_pos hcall, conversationAfter_localId, if_pos hc]
      rw [heffect conv.localId hc]
    · by_cases hcall : conv.localId ∈ conversationsOf false ids db
      · simp only [if_pos hcall, conversationAfter_localId, if_neg hc]
      · simp only [if_neg hcall, if_neg hc]
  · intro c l
    rw [hundeleted.rows]
    change (if _ then _ else db₁.conversationLabels c l) = _
    rw [hdeleted.rows]
    by_cases hc : c ∈ conversationsOf false failed db
    · rw [if_pos hc, if_pos hc, heffect c hc]
    · rw [if_neg hc, if_neg hc]
  · intro l
    rw [hundeleted.messageCounters]
    change (db₁.messageCounters l).map _ = _
    rw [hdeleted.messageCounters, Option.map_map]
    refine congrArg (fun f => (db.messageCounters l).map f) ?_
    funext k
    rw [Function.comp_apply, <- Counter.foldl_more]
    refine List.foldl_ext _ _ _ ?_
    intro k c hc
    rw [heffect c hc]
    exact messageCounter_more k
  · intro l
    rw [hundeleted.conversationCounters]
    change (db₁.conversationCounters l).map _ = _
    rw [hdeleted.conversationCounters, Option.map_map]
    refine congrArg (fun f => (db.conversationCounters l).map f) ?_
    funext k
    rw [Function.comp_apply, <- Counter.foldl_more]
    refine List.foldl_ext _ _ _ ?_
    intro k c hc
    rw [heffect c hc]
    exact updatedCounter_more k

theorem deletedMessages_nil (ids : List LocalMessageId) (db : Database) :
    (deletedMessages (others ids ids) db).messages = db.messages := by
  rw [deletedMessages_messages]
  refine (List.map_congr_left ?_).trans (List.map_id _)
  intro m _
  exact if_neg (fun hmem =>
    (mem_others.mp hmem).right (mem_others.mp hmem).left)

theorem roundTrip (h : Consistent db)
    (hids : forall m, m ∈ db.messages -> m.localId ∈ ids ->
      m.deleted = false) :
    exists db', (markDeleted ids db).bind (markUndeleted ids) = some db' ∧
      RoundTrip ids db db' := by
  rcases partialTrip h (fun _ hid => hid) hids with ⟨db', hrun, htrip⟩
  refine ⟨db', hrun, ?_, ?_, ?_, htrip.messageCounters,
    htrip.conversationCounters⟩
  · rw [htrip.messages, deletedMessages_nil]
  · rw [htrip.conversations]
    refine List.map_congr_left ?_
    intro conv _
    split
    · rfl
    · rfl
  · intro c l
    rw [htrip.rows]
    split
    · rfl
    · rfl

/-!
# Counters have enough
-/

theorem Consistent.takenMessages_le (h : Consistent db) {k : Counter}
    (hk : db.messageCounters l = some k) (ids : List LocalMessageId) :
    Counter.sum (fun c => takenMessages (statsOf ids db c) l)
      (conversationsOf false ids db) ≤ k := by
  have hcount : forall c, takenMessages (statsOf ids db c) l =
      ⟨(deletedWith ids db c l).length,
        (deletedWith ids db c l).countP (fun m => m.unread)⟩ := by
    intro c
    unfold takenMessages
    rw [statsOf_eq]
    split
    · rename_i s hs
      split at hs
      · cases hs
      · cases hs
        rfl
    · rename_i hs
      split at hs
      · rename_i hnil
        rw [hnil]
        rfl
      · cases hs
  have hshown : forall (p : Message -> Bool) (c : LocalConversationId),
      (deletedWith ids db c l).countP p =
        ((selected false ids db).filter (fun m =>
          m.conversationId = c)).countP (fun m =>
            p m && (db.hasLabel l m && !db.isHidden l)) := by
    intro p c
    unfold deletedWith
    rw [List.countP_filter, List.countP_filter]
    refine List.countP_congr ?_
    intro m _
    simp only [Bool.and_eq_true, decide_eq_true_eq, Bool.not_eq_true,
      Bool.not_eq_true']
    tauto
  have hsum : forall p : Message -> Bool,
      ((conversationsOf false ids db).map (fun c =>
        (deletedWith ids db c l).countP p)).sum ≤
        db.messages.countP (fun m => db.hasLabel l m && !m.deleted && p m) := by
    intro p
    simp only [hshown]
    refine (sum_countP_filter_le (List.nodup_dedup _) _ _ _).trans ?_
    unfold selected
    rw [List.countP_filter]
    refine List.countP_mono_left ?_
    intro m _ hm
    simp only [Bool.and_eq_true, decide_eq_true_eq, Bool.not_eq_true'] at hm ⊢
    tauto
  have hmeant := h.messages l k hk
  constructor
  · have htotal := hsum (fun _ => true)
    simp only [List.countP_true, Bool.and_true] at htotal
    unfold Counter.sum
    simp only [hcount]
    exact htotal.trans hmeant.left
  · unfold Counter.sum
    simp only [hcount]
    exact (hsum (fun m => m.unread)).trans hmeant.right

theorem Consistent.takenBy_le (h : Consistent db) {k : Counter}
    (hk : db.conversationCounters l = some k) (ids : List LocalMessageId) :
    Counter.sum (takenBy ids db l) (conversationsOf false ids db) ≤ k := by
  have hrow : forall c, takenBy ids db l c = 0 ∨ exists row new,
      db.conversationLabels c l = some row ∧ row.deleted = false ∧
        takenBy ids db l c = Counter.emptied row new := by
    intro c
    unfold takenBy
    split
    · unfold taken
      split
      · rename_i row s hloaded _
        unfold loadedRow at hloaded
        rcases Option.filter_eq_some_iff.mp hloaded with ⟨hrow, hlive⟩
        rw [Bool.and_eq_true, Bool.not_eq_true'] at hlive
        exact Or.inr ⟨row, _, hrow, hlive.left, rfl⟩
      · exact Or.inl rfl
    · exact Or.inl rfl
  have hsub := known_of_mem false ids db
  have hmeant := h.conversationCounters l k hk
  constructor
  · refine (sum_map_le_countP ?_).trans
      ((countP_le_of_subset (List.nodup_dedup _)
        (fun c hc _ => hsub c hc)).trans hmeant.left)
    intro c _
    rcases hrow c with hzero | ⟨row, new, hrow, hlive, heq⟩
    · rw [hzero]
      exact Nat.zero_le _
    · rw [heq, hrow, Option.any_some, hlive]
      unfold Counter.emptied
      dsimp only
      split
      · rename_i hgone
        simp [hgone.left]
      · exact Nat.zero_le _
  · refine (sum_map_le_countP ?_).trans
      ((countP_le_of_subset (List.nodup_dedup _)
        (fun c hc _ => hsub c hc)).trans hmeant.right)
    intro c _
    rcases hrow c with hzero | ⟨row, new, hrow, hlive, heq⟩
    · rw [hzero]
      exact Nat.zero_le _
    · rw [heq, hrow, Option.any_some, hlive]
      unfold Counter.emptied
      dsimp only
      split
      · rename_i hgone
        simp [hgone.left]
      · exact Nat.zero_le _

/-!
# The condition
-/

/-- The tables that deleting changes. -/
structure Restored (db db' : Database) : Prop where
  messages : db'.messages = db.messages
  conversations : db'.conversations = db.conversations
  conversationLabels : db'.conversationLabels = db.conversationLabels
  messageCounters : db'.messageCounters = db.messageCounters
  conversationCounters : db'.conversationCounters = db.conversationCounters

/--
A conversation that is known keeps messages in all its labels, and one at all
unless all mail shows a deleted one.  Of a conversation that is not known only
messages are deleted that no row and not all mail counts.
-/
def UndoableIn (ids : List LocalMessageId) (db : Database)
    (conv : Conversation) : Prop :=
  if conv.isKnown then
    ((exists m, m ∈ db.messages ∧ m.conversationId = conv.localId ∧
        m.deleted = false ∧ m.localId ∉ ids) ∨
      exists l, db.allMail = some l ∧
        deletedWith ids db conv.localId l ≠ []) ∧
    forall l row, db.conversationLabels conv.localId l = some row ->
      deletedWith ids db conv.localId l ≠ [] ->
      row.contextNumMessages ≠ (deletedWith ids db conv.localId l).length
  else
    forall l, deletedWith ids db conv.localId l ≠ [] ->
      db.allMail ≠ some l ∧ db.conversationLabels conv.localId l = none

def Undoable (ids : List LocalMessageId) (db : Database) : Prop :=
  forall conv, conv ∈ db.conversations ->
    conv.localId ∈ conversationsOf false ids db -> UndoableIn ids db conv

theorem statsOf_eq_none :
    statsOf ids db c l = none ↔ deletedWith ids db c l = [] := by
  rw [statsOf_eq]
  split
  · rename_i h
    simp [h]
  · rename_i h
    simp [h]

theorem allMail_stats_isSome :
    (db.allMail.bind (statsOf ids db c)).isSome = true ↔
      exists l, db.allMail = some l ∧ deletedWith ids db c l ≠ [] := by
  cases db.allMail with
  | none => simp
  | some l =>
      rw [Option.bind_some, Option.isSome_iff_ne_none, Ne, statsOf_eq_none]
      simp

theorem keeps_iff (rows : LocalLabelId -> Option ConversationLabel) :
    Keeps (statsOf ids db c) rows l ↔ forall row, rows l = some row ->
      deletedWith ids db c l ≠ [] ->
      row.contextNumMessages ≠ (deletedWith ids db c l).length := by
  unfold Keeps
  rw [statsOf_eq]
  constructor
  · intro h row hrow hne
    exact h row _ hrow (if_neg hne)
  · intro h row s hrow hs
    split at hs
    · cases hs
    · rename_i hne
      cases hs
      exact h row hrow hne

theorem remains_iff : remains ids db c = true ↔ exists m, m ∈ db.messages ∧
      m.conversationId = c ∧ m.deleted = false ∧ m.localId ∉ ids := by
  unfold remains isRemaining
  rw [deletedMessages_messages, List.any_map, List.any_eq_true]
  simp only [Function.comp_apply, decide_eq_true_eq]
  constructor
  · intro h
    rcases h with ⟨m, hm, hstays⟩
    by_cases hid : m.localId ∈ ids
    · rw [if_pos hid] at hstays
      exact absurd rfl hstays.right
    · rw [if_neg hid] at hstays
      exact ⟨m, hm, hstays.left, Bool.eq_false_iff.mpr hstays.right, hid⟩
  · intro h
    rcases h with ⟨m, hm, hc, hlive, hid⟩
    refine ⟨m, hm, ?_⟩
    rw [if_neg hid]
    exact ⟨hc, by simp [hlive]⟩

/-!
# One conversation
-/

section Undone

variable (h : Consistent db) {conv : Conversation} (hconv : conv ∈ db.conversations)
  (hc : conv.localId ∈ conversationsOf false ids db)

include h hconv hc in
theorem Consistent.isUpdated_eq :
    isUpdated conv.localId db = conv.isKnown := by
  unfold isUpdated
  rw [Database.conversation_of_mem hconv, Option.any_some,
    h.live_of_mem hc hconv rfl, Bool.false_or, Bool.not_not]

include h hconv in
theorem Consistent.allMail_fits : forall s,
    db.allMail.bind (statsOf ids db conv.localId) = some s ->
      s ≤ conv.counted := by
  intro s hs
  rcases Option.bind_eq_some_iff.mp hs with ⟨l, hall, hs⟩
  rw [statsOf_eq] at hs
  split at hs
  · cases hs
  · cases hs
    exact MessageLabelStats.le_trans
      (MessageLabelStats.ofMessages_le (deletedWith_sublist _ l))
      (h.conversations conv l hconv hall)

/-- What is left of a conversation. -/
def conversationBack (ids : List LocalMessageId) (db : Database)
    (conv : Conversation) : Conversation :=
  (if isUpdated conv.localId db then
      conv.markDelete (remains ids db conv.localId)
        (db.allMail.bind (statsOf ids db conv.localId))
    else conv).markUndelete
      (db.allMail.bind (statsOf ids db conv.localId))

def rowsBack (ids : List LocalMessageId) (db : Database)
    (c : LocalConversationId) : LocalLabelId -> Option ConversationLabel :=
  undeletedRows (statsOf ids db c) (empties ids db c)
    (db.allMail.bind (statsOf ids db c)).isSome (rowsAfter ids db c)

include h hconv hc in
theorem undoableIn_of_back (hback : conversationBack ids db conv = conv)
    (hrows : forall l, rowsBack ids db conv.localId l =
      db.conversationLabels conv.localId l) :
    (forall l, takenBy ids db l conv.localId ≤
        givenBackBy ids db l conv.localId) ∧
      ((forall l, takenBy ids db l conv.localId =
        givenBackBy ids db l conv.localId) -> UndoableIn ids db conv) := by
  have hfits := h.fits ids conv.localId
  have hlive := h.live_of_mem hc hconv rfl
  have hupdated := h.isUpdated_eq hconv hc
  unfold conversationBack at hback
  unfold rowsBack rowsAfter at hrows
  unfold takenBy givenBackBy rowsAfter UndoableIn
  rw [hupdated] at hback hrows ⊢
  cases hknown : conv.isKnown with
  | false =>
      rw [hknown] at hback hrows
      refine ⟨fun l => ⟨Nat.zero_le _, Nat.zero_le _⟩, ?_⟩
      intro _
      change forall l, _
      intro l hne
      have hnone := (Conversation.markUndelete_eq_self
        (fun s hs => by
          rcases Option.bind_eq_some_iff.mp hs with ⟨l, _, hs⟩
          exact hfits.counted l s hs)).mp hback
      constructor
      · intro hall
        rw [hall, Option.bind_some, statsOf_eq_none] at hnone
        exact hne hnone
      · have hl := hrows l
        unfold empties at hl
        rw [hupdated, hknown] at hl
        have hmissing := (undeletedRows_unknown hfits).mp hl
        cases hmissing with
        | inl hs => exact absurd (statsOf_eq_none.mp hs) hne
        | inr hrow => exact hrow
  | true =>
      rw [hknown] at hback hrows
      have hkeeps := fun l => keeps_of_undeleted hfits (hrows l)
      refine ⟨fun l => (hkeeps l).left, ?_⟩
      intro hequal
      change (_ ∨ _) ∧ forall l, _
      rw [<- remains_iff, <- allMail_stats_isSome]
      constructor
      · exact (Conversation.markUndelete_markDelete hlive
          (h.allMail_fits hconv) _).mp hback
      · intro l
        exact (keeps_iff _).mp ((hkeeps l).right (hequal l))

include h hconv hc in
theorem back_of_undoableIn (hundo : UndoableIn ids db conv) :
    conversationBack ids db conv = conv ∧
      (forall l, rowsBack ids db conv.localId l =
        db.conversationLabels conv.localId l) ∧
      forall l, takenBy ids db l conv.localId =
        givenBackBy ids db l conv.localId := by
  have hfits := h.fits ids conv.localId
  have hlive := h.live_of_mem hc hconv rfl
  have hupdated := h.isUpdated_eq hconv hc
  unfold UndoableIn at hundo
  unfold conversationBack rowsBack takenBy givenBackBy rowsAfter
  rw [hupdated]
  cases hknown : conv.isKnown with
  | false =>
      rw [hknown] at hundo
      change forall l, _ at hundo
      have hmissing : forall l, statsOf ids db conv.localId l = none ∨
          db.conversationLabels conv.localId l = none := by
        intro l
        by_cases hnil : deletedWith ids db conv.localId l = []
        · exact Or.inl (statsOf_eq_none.mpr hnil)
        · exact Or.inr (hundo l hnil).right
      refine ⟨?_, ?_, ?_⟩
      · refine (Conversation.markUndelete_eq_self ?_).mpr ?_
        · intro s hs
          rcases Option.bind_eq_some_iff.mp hs with ⟨l, _, hs⟩
          exact hfits.counted l s hs
        · cases hall : db.allMail with
          | none => rfl
          | some l =>
              rw [Option.bind_some, statsOf_eq_none]
              by_contra hne
              exact (hundo l hne).left hall
      · intro l
        exact (undeletedRows_missing _ _ (hmissing l)).left
      · intro l
        exact (undeletedRows_missing _ true (hmissing l)).right.symm
  | true =>
      rw [hknown] at hundo
      change (_ ∨ _) ∧ forall l, _ at hundo
      rw [<- remains_iff, <- allMail_stats_isSome] at hundo
      have hkeeps := fun l => (keeps_iff
        (db.conversationLabels conv.localId)).mpr (hundo.right l)
      refine ⟨?_, ?_, ?_⟩
      · exact (Conversation.markUndelete_markDelete hlive
          (h.allMail_fits hconv) _).mpr hundo.left
      · intro l
        exact (undeleted_of_keeps hfits _ _ (hkeeps l)).left
      · intro l
        exact (undeleted_of_keeps hfits _ true (hkeeps l)).right.symm

end Undone

/-!
# All conversations
-/

theorem deletion_undone (h : Consistent db)
    (hids : forall m, m ∈ db.messages -> m.localId ∈ ids ->
      m.deleted = false) :
    (exists db', (markDeleted ids db).bind (markUndeleted ids) = some db' ∧
      Restored db db') ↔ Undoable ids db := by
  rcases roundTrip h hids with ⟨db₂, hrun, htrip⟩
  have hmember : forall c, c ∈ conversationsOf false ids db ->
      exists conv, conv ∈ db.conversations ∧ conv.localId = c :=
    fun c hc => List.mem_map.mp (known_of_mem false ids db c hc)
  constructor
  · intro hrestored conv hconv hc
    rcases hrestored with ⟨db', hrun', hrestored⟩
    rw [hrun, Option.some.injEq] at hrun'
    rw [<- hrun'] at hrestored
    have hback : forall conv, conv ∈ db.conversations ->
        conv.localId ∈ conversationsOf false ids db ->
        conversationBack ids db conv = conv := by
      intro conv hconv hc
      have hall := hrestored.conversations
      rw [htrip.conversations] at hall
      have hone := List.map_inj_left.mp (hall.trans (List.map_id _).symm)
        conv hconv
      rw [if_pos hc] at hone
      exact hone
    have hrows : forall c, c ∈ conversationsOf false ids db -> forall l,
        rowsBack ids db c l = db.conversationLabels c l := by
      intro c hc l
      have hall := congrFun (congrFun hrestored.conversationLabels c) l
      rw [htrip.rows, if_pos hc] at hall
      exact hall
    have hundoable := fun conv hconv hc => undoableIn_of_back h hconv hc
      (hback conv hconv hc) (hrows conv.localId hc)
    refine (hundoable conv hconv hc).right ?_
    intro l
    cases hk : db.conversationCounters l with
    | none =>
        -- without a counter there are no rows of the label
        have hnone : forall c, db.conversationLabels c l = none := by
          intro c
          cases hrow : db.conversationLabels c l with
          | none => rfl
          | some row =>
              have hsome := h.hasCounters c l (by rw [hrow]; rfl)
              rw [hk] at hsome
              cases hsome
        have hmissing : statsOf ids db conv.localId l = none ∨
            db.conversationLabels conv.localId l = none :=
          Or.inr (hnone conv.localId)
        unfold takenBy givenBackBy rowsAfter
        rcases deletedRows_missing hmissing with ⟨hdeleted, htaken⟩
        split
        · rw [htaken]
          rw [<- hdeleted] at hmissing
          exact (undeletedRows_missing _ true hmissing).right.symm
        · exact (undeletedRows_missing _ true hmissing).right.symm
    | some k =>
        have hsame := congrFun hrestored.conversationCounters l
        rw [htrip.conversationCounters, hk, Option.map_some,
          Option.some.injEq, Counter.less_more_eq_self (h.takenBy_le hk ids),
          Counter.sum_eq_sum_iff] at hsame
        · exact hsame conv.localId hc
        · intro c hc
          rcases hmember c hc with ⟨conv, hconv, hid⟩
          rw [<- hid] at hc ⊢
          exact (hundoable conv hconv hc).left l
  · intro hundo
    refine ⟨db₂, hrun, htrip.messages, ?_, ?_, ?_, ?_⟩
    · rw [htrip.conversations]
      refine (List.map_congr_left ?_).trans (List.map_id _)
      intro conv hconv
      split
      · rename_i hc
        exact (back_of_undoableIn h hconv hc (hundo conv hconv hc)).left
      · rfl
    · funext c l
      rw [htrip.rows]
      split
      · rename_i hc
        rcases hmember c hc with ⟨conv, hconv, hid⟩
        rw [<- hid] at hc ⊢
        exact (back_of_undoableIn h hconv hc
          (hundo conv hconv hc)).right.left l
      · rfl
    · funext l
      rw [htrip.messageCounters]
      cases hk : db.messageCounters l with
      | none => rfl
      | some k =>
          rw [Option.map_some, (Counter.less_more_eq_self
            (h.takenMessages_le hk ids)).mpr rfl]
    · funext l
      rw [htrip.conversationCounters]
      cases hk : db.conversationCounters l with
      | none => rfl
      | some k =>
          have hequal : forall c, c ∈ conversationsOf false ids db ->
              takenBy ids db l c = givenBackBy ids db l c := by
            intro c hc
            rcases hmember c hc with ⟨conv, hconv, hid⟩
            rw [<- hid] at hc ⊢
            exact (back_of_undoableIn h hconv hc
              (hundo conv hconv hc)).right.right l
          rw [Option.map_some, (Counter.less_more_eq_self
            (h.takenBy_le hk ids)).mpr]
          refine (Counter.sum_eq_sum_iff ?_).mpr hequal
          intro c hc
          rw [hequal c hc]
          exact ⟨Nat.le_refl _, Nat.le_refl _⟩

/-!
# Two messages that all mail shows
-/

def allMailOnly : LabelTable :=
  LabelTable.ofRows [{ inboxRow with remoteId := some "5" }] 2 (by decide)
    (by decide) (by decide)

/-- The second message is unread. -/
def twoMessages : Database :=
  Database.ofLists allMailOnly
    [inConversation 1 1 false false, inConversation 2 1 true false]
    [{ localId := 1, numMessages := 2, numUnread := 1 }] [⟨1, 1⟩, ⟨1, 2⟩]
    [⟨1, 1, { contextNumMessages := 2, contextNumUnread := 1 }⟩]
    [(1, ⟨2, 1⟩)] [(1, ⟨1, 1⟩)] (by decide) (by decide) (by decide) (by decide)
    (by decide)

theorem twoMessages_consistent : Consistent twoMessages := by
  have hrows : forall c l row, twoMessages.conversationLabels c l = some row ->
      c = 1 ∧ l = 1 ∧ row = { contextNumMessages := 2, contextNumUnread := 1 } := by
    intro c l row hrow
    have hmem := List.mem_singleton.mp (Database.mem_of_rowsOf hrow)
    rw [Database.LabelRowEntry.mk.injEq] at hmem
    exact hmem
  constructor
  · intro c l hsome
    rcases Option.isSome_iff_exists.mp hsome with ⟨row, hrow⟩
    rw [(hrows c l row hrow).right.left]
    rfl
  · intro l k hk
    have hmem := List.mem_singleton.mp (Database.mem_of_countersOf hk)
    rw [Prod.mk.injEq] at hmem
    rw [hmem.left, hmem.right]
    decide +kernel
  · intro l k hk
    have hmem := List.mem_singleton.mp (Database.mem_of_countersOf hk)
    rw [Prod.mk.injEq] at hmem
    rw [hmem.left, hmem.right]
    decide +kernel
  · intro c l row hrow
    rcases hrows c l row hrow with ⟨hc, hl, hrow⟩
    rw [hc, hl, hrow]
    decide +kernel
  · intro conv l hconv hall
    rw [List.mem_singleton.mp hconv, <- Option.some.inj hall]
    decide +kernel
  · intro m l row _ _ _ hrow
    rw [(hrows _ l row hrow).right.right]
  · intro m conv _ _ hconv _
    rw [List.mem_singleton.mp hconv]

theorem unread_deletion_undone :
    exists db', (markDeleted [2] twoMessages).bind (markUndeleted [2]) =
        some db' ∧ Restored twoMessages db' := by
  refine (deletion_undone twoMessages_consistent (by decide +kernel)).mpr ?_
  intro conv hconv _
  rw [List.mem_singleton.mp hconv]
  refine ⟨Or.inl ⟨inConversation 1 1 false false, by decide +kernel⟩, ?_⟩
  intro l row hrow hne
  have hmem := List.mem_singleton.mp (Database.mem_of_rowsOf hrow)
  rw [Database.LabelRowEntry.mk.injEq] at hmem
  rw [hmem.right.left, hmem.right.right]
  decide +kernel

/-- The conversation is counted twice after both messages were deleted. -/
theorem deletion_not_undone :
    Consistent twoMessages ∧
    (forall m, m ∈ twoMessages.messages -> m.deleted = false) ∧
    ¬ exists db', (markDeleted [1, 2] twoMessages).bind (markUndeleted [1, 2]) =
        some db' ∧ Restored twoMessages db' := by
  refine ⟨twoMessages_consistent, by decide +kernel, ?_⟩
  intro h
  rcases h with ⟨db', hrun, hrestored⟩
  have hcounter : ((markDeleted [1, 2] twoMessages).bind
      (markUndeleted [1, 2])).map (fun db => db.conversationCounters 1) =
        some (some ⟨2, 2⟩) := by
    decide +kernel
  rw [hrun, Option.map_some, hrestored.conversationCounters] at hcounter
  revert hcounter
  decide +kernel

end Message

end Conversations
end MailClient
