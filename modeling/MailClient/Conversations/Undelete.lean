import MailClient.Conversations.RowsUndone

/-!
# Undeleting what has been deleted

Both calls select messages by their flag, so undeleting finds what deleting has
marked and groups it alike.  Conversations are then put together from what
happens to each of them.
-/

namespace MailClient
namespace Conversations

open Foundation

variable {db db' : Database} {ids : List LocalMessageId}
  {c : LocalConversationId} {l : LocalLabelId} {m : Message}

namespace Message

/-!
# Selected messages
-/

def deletedMessages (ids : List LocalMessageId) (db : Database) : Database :=
  db.saveMessages ((selected false ids db).map Message.localId)
    (fun m => { m with deleted := true }) (setDeleted_keepsKeys true)

def undeletedMessages (ids : List LocalMessageId) (db : Database) : Database :=
  db.saveMessages ((selected true ids db).map Message.localId)
    (fun m => { m with deleted := false }) (setDeleted_keepsKeys false)

def conversationsOf (deleted : Bool) (ids : List LocalMessageId)
    (db : Database) : List LocalConversationId :=
  ((selected deleted ids db).map Message.conversationId).dedup

def groupOf (deleted : Bool) (ids : List LocalMessageId) (db : Database)
    (c : LocalConversationId) : List Message :=
  (selected deleted ids db).filter (fun m => m.conversationId = c)

/-- The ids of a call without some of them. -/
def others (ids failed : List LocalMessageId) : List LocalMessageId :=
  ids.filter (fun id => id ∉ failed)

theorem mem_others {ids failed : List LocalMessageId} {id : LocalMessageId} :
    id ∈ others ids failed ↔ id ∈ ids ∧ id ∉ failed := by
  unfold others
  rw [List.mem_filter, decide_eq_true_eq]

/-- The messages of the call that show a label in a conversation. -/
def deletedWith (ids : List LocalMessageId) (db : Database)
    (c : LocalConversationId) (l : LocalLabelId) : List Message :=
  (selected false ids db).filter (fun m =>
    m.conversationId = c ∧ db.hasLabel l m ∧ ¬ db.isHidden l)

def statsOf (ids : List LocalMessageId) (db : Database)
    (c : LocalConversationId) : AllStats :=
  MessageLabelStats.build (deletedMessages ids db) (groupOf false ids db c)

theorem mem_conversationsOf {deleted : Bool} :
    c ∈ conversationsOf deleted ids db ↔ exists m, m ∈ db.messages ∧
      m.localId ∈ ids ∧ m.deleted = deleted ∧ m.conversationId = c := by
  unfold conversationsOf selected
  simp only [List.mem_dedup, List.mem_map, List.mem_filter,
    decide_eq_true_eq]
  constructor
  · intro h
    rcases h with ⟨m, ⟨hm, hid, hdeleted⟩, hc⟩
    exact ⟨m, hm, hid, hdeleted, hc⟩
  · intro h
    rcases h with ⟨m, hm, hid, hdeleted, hc⟩
    exact ⟨m, ⟨hm, hid, hdeleted⟩, hc⟩

theorem known_of_mem (deleted : Bool) (ids : List LocalMessageId)
    (db : Database) (c : LocalConversationId)
    (h : c ∈ conversationsOf deleted ids db) :
    c ∈ db.conversations.map Conversation.localId := by
  rcases mem_conversationsOf.mp h with ⟨m, hm, _, _, hc⟩
  rw [<- hc]
  exact db.conversation_known m hm

theorem markDeleted_spec (ids : List LocalMessageId) (h : HasCounters db) :
    exists db', markDeleted ids db = some db' ∧ HasCounters db' ∧
      Touched (fun c => deleteEffect c (groupOf false ids db c)
          (deletedMessages ids db))
        (conversationsOf false ids db) (deletedMessages ids db) db' :=
  GroupLoop.run deleteLoop_lawful (List.nodup_dedup _)
    (known_of_mem false ids db) h

theorem markUndeleted_spec (ids : List LocalMessageId) (h : HasCounters db) :
    exists db', markUndeleted ids db = some db' ∧ HasCounters db' ∧
      Touched (fun c => undeleteEffect c (groupOf true ids db c)
          (undeletedMessages ids db))
        (conversationsOf true ids db) (undeletedMessages ids db) db' :=
  GroupLoop.run undeleteLoop_lawful (List.nodup_dedup _)
    (known_of_mem true ids db) h

/-!
# The messages are back

None of the messages that are undeleted is deleted before.
-/

theorem mem_selected_iff (hm : m ∈ db.messages) :
    m.localId ∈ (selected false ids db).map Message.localId ↔
      m.localId ∈ ids ∧ m.deleted = false := by
  unfold selected
  rw [List.mem_map]
  simp only [List.mem_filter, decide_eq_true_eq]
  constructor
  · intro h
    rcases h with ⟨m', hm', hid⟩
    rw [<- List.inj_on_of_nodup_map db.messages_unique hm'.left hm hid]
    exact hm'.right
  · intro h
    exact ⟨m, ⟨hm, h⟩, rfl⟩

theorem deletedMessages_messages (ids : List LocalMessageId) (db : Database) :
    (deletedMessages ids db).messages = db.messages.map (fun m =>
      if m.localId ∈ ids then { m with deleted := true } else m) := by
  refine List.map_congr_left ?_
  intro m hm
  unfold Database.changeOnly
  rw [if_congr (mem_selected_iff hm) rfl rfl]
  by_cases hid : m.localId ∈ ids
  · cases hdeleted : m.deleted with
    | false => rw [if_pos ⟨hid, rfl⟩, if_pos hid]
    | true =>
        rw [if_neg (fun h => Bool.noConfusion h.right), if_pos hid]
        rw [<- hdeleted]
  · rw [if_neg (fun h => hid h.left), if_neg hid]

section Live

variable {failed : List LocalMessageId}
  (hsub : forall id, id ∈ failed -> id ∈ ids)
  (hlive : forall m, m ∈ db.messages -> m.localId ∈ failed ->
    m.deleted = false)

include hsub hlive in
theorem selected_true
    (h : db'.messages = (deletedMessages ids db).messages) :
    selected true failed db' = (selected false failed db).map (fun m =>
      { m with deleted := true }) := by
  unfold selected
  rw [h, deletedMessages_messages, List.filter_map]
  have hfilter : db.messages.filter ((fun m : Message =>
      decide (m.localId ∈ failed ∧ m.deleted = true)) ∘ fun m =>
        if m.localId ∈ ids then { m with deleted := true } else m) =
      db.messages.filter (fun m =>
        m.localId ∈ failed ∧ m.deleted = false) := by
    refine List.filter_congr ?_
    intro m hm
    rw [Function.comp_apply]
    by_cases hid : m.localId ∈ failed
    · simp [hid, hsub _ hid, hlive m hm hid]
    · split
      · simp [hid]
      · simp [hid]
  rw [hfilter]
  refine List.map_congr_left ?_
  intro m hm
  have hid := of_decide_eq_true (List.mem_filter.mp hm).right
  rw [if_pos (hsub _ hid.left)]

include hsub hlive in
theorem selected_true_ids
    (h : db'.messages = (deletedMessages ids db).messages) :
    (selected true failed db').map Message.localId =
      (selected false failed db).map Message.localId := by
  rw [selected_true hsub hlive h, List.map_map]
  rfl

include hsub hlive in
theorem conversationsOf_true
    (h : db'.messages = (deletedMessages ids db).messages) :
    conversationsOf true failed db' = conversationsOf false failed db := by
  unfold conversationsOf
  rw [selected_true hsub hlive h, List.map_map]
  rfl

include hsub hlive in
theorem groupOf_true
    (h : db'.messages = (deletedMessages ids db).messages) :
    groupOf true failed db' c = (groupOf false failed db c).map (fun m =>
      { m with deleted := true }) := by
  unfold groupOf
  rw [selected_true hsub hlive h, List.filter_map]
  rfl

include hsub hlive in
theorem undeletedMessages_messages
    (h : db'.messages = (deletedMessages ids db).messages) :
    (undeletedMessages failed db').messages =
      (deletedMessages (others ids failed) db).messages := by
  change db'.messages.map (Database.changeOnly
    ((selected true failed db').map Message.localId) _) = _
  rw [selected_true_ids hsub hlive h, h, deletedMessages_messages,
    deletedMessages_messages, List.map_map]
  refine List.map_congr_left ?_
  intro m hm
  rw [Function.comp_apply]
  unfold Database.changeOnly
  have hselected := @mem_selected_iff db failed m hm
  simp only [mem_others]
  by_cases hid : m.localId ∈ failed
  · have hback := hselected.mpr ⟨hid, hlive m hm hid⟩
    rw [if_pos (hsub _ hid), if_pos hback,
      if_neg (fun hrest => hrest.right hid)]
    change { m with deleted := false } = m
    rw [<- hlive m hm hid]
  · have hout := fun hmem => hid (hselected.mp hmem).left
    by_cases hdeleted : m.localId ∈ ids
    · rw [if_pos hdeleted]
      exact (if_neg hout).trans (if_pos ⟨hdeleted, hid⟩).symm
    · rw [if_neg hdeleted]
      exact (if_neg hout).trans
        (if_neg (fun hrest => hdeleted hrest.left)).symm

include hsub hlive in
theorem undeletedMessages_labels (h : SameStore (deletedMessages ids db) db') :
    (undeletedMessages failed db').messageLabels =
      (deletedMessages ids db).messageLabels := by
  have hhidden : forall l, db'.isHidden l = db.isHidden l := by
    intro l
    unfold Database.isHidden
    rw [h.labels]
    rfl
  change db'.messageLabels.filter _ = _
  rw [selected_true_ids hsub hlive h.messages, h.messageLabels]
  change (db.messageLabels.filter _).filter _ = db.messageLabels.filter _
  rw [Finset.filter_filter]
  refine Finset.filter_congr ?_
  intro p _
  rw [hhidden]
  constructor
  · exact fun hboth => hboth.left
  · intro hshown
    refine ⟨hshown, ?_⟩
    intro hboth
    refine hshown ⟨?_, hboth.right⟩
    rcases List.mem_map.mp hboth.left with ⟨m, hm, hid⟩
    rcases List.mem_filter.mp hm with ⟨hm, hfailed⟩
    have hfailed := of_decide_eq_true hfailed
    rw [<- hid]
    exact (mem_selected_iff hm).mpr ⟨hsub _ hfailed.left, hfailed.right⟩

/-!
# Statistics of the call
-/

theorem build_map {f : Message -> Message} {messages : List Message}
    (hid : forall m, (f m).localId = m.localId)
    (hunread : forall m, (f m).unread = m.unread)
    (hattachments : forall m, (f m).numAttachments = m.numAttachments)
    (hsize : forall m, (f m).size = m.size) :
    MessageLabelStats.build db (messages.map f) =
      MessageLabelStats.build db messages := by
  funext l
  have hlabel : (fun m => db.hasLabel l m) ∘ f = fun m => db.hasLabel l m := by
    funext m
    rw [Function.comp_apply]
    unfold Database.hasLabel
    rw [hid]
  unfold MessageLabelStats.build
  dsimp only
  rw [List.filter_map, hlabel]
  simp only [List.map_eq_nil_iff, List.length_map, List.map_map, List.countP_map,
    Function.comp_def, hunread, hattachments, hsize]

theorem build_of_hasLabel {messages : List Message}
    (h : forall m, m ∈ messages -> forall l,
      db'.hasLabel l m = db.hasLabel l m) :
    MessageLabelStats.build db' messages =
      MessageLabelStats.build db messages := by
  funext l
  unfold MessageLabelStats.build
  dsimp only
  rw [List.filter_congr (fun m hm => h m hm l)]

theorem hasLabel_deleted (hm : m ∈ selected false ids db)
    (h : db'.messageLabels = (deletedMessages ids db).messageLabels) :
    db'.hasLabel l m = decide (db.hasLabel l m ∧ ¬ db.isHidden l) := by
  have hid : m.localId ∈ (selected false ids db).map Message.localId :=
    List.mem_map_of_mem hm
  unfold Database.hasLabel
  rw [h]
  change decide (_ ∈ db.messageLabels.filter _) = _
  refine decide_eq_decide.mpr ?_
  rw [Finset.mem_filter]
  simp [hid]

include hsub hlive in
theorem build_undeleted (h : SameStore (deletedMessages ids db) db') :
    MessageLabelStats.build (undeletedMessages failed db')
      (groupOf true failed db' c) = statsOf failed db c := by
  have hstats : MessageLabelStats.build (undeletedMessages failed db')
      (groupOf false failed db c) = statsOf failed db c := by
    refine build_of_hasLabel ?_
    intro m hm l
    have hfailed := (List.mem_filter.mp hm).left
    have hdeleted : m ∈ selected false ids db := by
      rcases List.mem_filter.mp hfailed with ⟨hm, hselected⟩
      have hselected := of_decide_eq_true hselected
      exact List.mem_filter.mpr ⟨hm,
        decide_eq_true ⟨hsub _ hselected.left, hselected.right⟩⟩
    rw [hasLabel_deleted hdeleted (undeletedMessages_labels hsub hlive h),
      hasLabel_deleted hfailed rfl]
  rw [groupOf_true hsub hlive h.messages, <- hstats]
  exact build_map (fun _ => rfl) (fun _ => rfl) (fun _ => rfl) (fun _ => rfl)

end Live

theorem statsOf_eq (c : LocalConversationId) (l : LocalLabelId) :
    statsOf ids db c l =
      if deletedWith ids db c l = [] then none
      else some (MessageLabelStats.ofMessages (deletedWith ids db c l)) := by
  have hfound : (groupOf false ids db c).filter
      (fun m => (deletedMessages ids db).hasLabel l m) =
        deletedWith ids db c l := by
    unfold groupOf deletedWith
    rw [List.filter_filter]
    refine List.filter_congr ?_
    intro m hm
    rw [hasLabel_deleted hm rfl]
    simp only [Bool.decide_and, decide_not, Bool.decide_eq_true]
    exact Bool.and_comm _ _
  unfold statsOf MessageLabelStats.build
  dsimp only
  rw [hfound]
  rfl

/-!
# Consistent databases
-/

def live (db : Database) (l : LocalLabelId) (c : LocalConversationId) :
    List Message :=
  (db.labelled l c).filter (fun m => !m.deleted)

/-- What the counter of conversations is meant to say. -/
def liveRows (db : Database) (l : LocalLabelId) : Counter where
  total := (db.conversations.map Conversation.localId).countP (fun c =>
    (db.conversationLabels c l).any
      (fun row => !row.deleted && row.contextNumMessages ≠ 0))
  unread := (db.conversations.map Conversation.localId).countP (fun c =>
    (db.conversationLabels c l).any
      (fun row => !row.deleted && row.contextNumUnread ≠ 0))

/--
Counters and rows count the messages that are stored, and can count others too.
What has a message that is not deleted is not deleted itself.
-/
structure Consistent (db : Database) : Prop where
  hasCounters : HasCounters db
  messages : forall l k, db.messageCounters l = some k -> messageCount db l ≤ k
  conversationCounters : forall l k, db.conversationCounters l = some k ->
    liveRows db l ≤ k
  rows : forall c l row, db.conversationLabels c l = some row ->
    MessageLabelStats.ofMessages (live db l c) ≤ row.counted
  conversations : forall conv l, conv ∈ db.conversations ->
    db.allMail = some l ->
    MessageLabelStats.ofMessages (live db l conv.localId) ≤ conv.counted
  liveRow : forall m l row, m ∈ db.messages -> m.deleted = false ->
    db.hasLabel l m -> db.conversationLabels m.conversationId l = some row ->
    row.deleted = false
  liveConversation : forall m conv, m ∈ db.messages -> m.deleted = false ->
    conv ∈ db.conversations -> conv.localId = m.conversationId ->
    conv.deleted = false

theorem deletedWith_sublist (c : LocalConversationId) (l : LocalLabelId) :
    (deletedWith ids db c l).Sublist (live db l c) := by
  unfold deletedWith selected live Database.labelled
  rw [List.filter_filter, List.filter_filter]
  refine List.monotone_filter_right _ ?_
  intro m hm
  simp only [Bool.and_eq_true, decide_eq_true_eq, Bool.not_eq_true'] at hm ⊢
  exact ⟨hm.right.right, hm.left.left, hm.left.right.left⟩

theorem mem_deletedWith : m ∈ deletedWith ids db c l ↔
    m ∈ db.messages ∧ m.localId ∈ ids ∧ m.deleted = false ∧
      m.conversationId = c ∧ db.hasLabel l m ∧ db.isHidden l = false := by
  unfold deletedWith selected
  simp only [List.mem_filter, decide_eq_true_eq, Bool.not_eq_true]
  tauto

theorem Consistent.fits (h : Consistent db) (ids : List LocalMessageId)
    (c : LocalConversationId) :
    Fits (statsOf ids db c) (db.conversationLabels c) := by
  have hsome : forall l s, statsOf ids db c l = some s ->
      deletedWith ids db c l ≠ [] ∧
        s = MessageLabelStats.ofMessages (deletedWith ids db c l) := by
    intro l s hs
    rw [statsOf_eq] at hs
    split at hs
    · cases hs
    · rename_i hne
      exact ⟨hne, (Option.some.inj hs).symm⟩
  constructor
  · intro l s hs
    rcases hsome l s hs with ⟨hne, hstats⟩
    rw [hstats]
    exact List.length_pos_iff.mpr hne
  · intro l row s hrow hs
    rcases hsome l s hs with ⟨hne, hstats⟩
    rcases List.exists_mem_of_ne_nil _ hne with ⟨m, hm⟩
    rcases mem_deletedWith.mp hm with ⟨hm, _, hlive, hc, hlabel, _⟩
    constructor
    · exact h.liveRow m l row hm hlive hlabel (by rw [hc]; exact hrow)
    · rw [hstats]
      exact MessageLabelStats.le_trans
        (MessageLabelStats.ofMessages_le (deletedWith_sublist c l))
        (h.rows c l row hrow)

end Message

end Conversations
end MailClient
