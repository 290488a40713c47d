import MailClient.Drafts.SendReverted

/-!
# A draft that has been sent

The answer of the server replaces the message and its labels.  Only then is the
label of the outbox taken off, and the parent message is not saved.
-/

namespace MailClient
namespace Drafts
namespace Sending

open ActionQueue (ActionId)
open Conversations
open Foundation
open Labels (LabelRow)

variable {l : LocalLabelId} {m : Message} {db db' : Database}

/-!
# The answer of the server
-/

/-- The message and its conversation; both keep their local ids. -/
structure SendResponse where
  conversation : Conversation
  conversationLabels : List (LabelId × ConversationLabel)
  message : Message
  columns : Columns
  labelIds : List LabelId

def Columns.isMarked (columns : Columns) : ReplyMode -> Bool
  | ReplyMode.sender => columns.isReplied
  | ReplyMode.all => columns.isRepliedAll
  | ReplyMode.forward => columns.isForwarded

/-- The hook `after_save` of a message. -/
def savePairs (id : LocalMessageId) (labels : List LocalLabelId)
    (db : Database) : Database :=
  { db with
    messageLabels := db.messageLabels.filter (fun p => p.id ≠ id) ∪
      if id ∈ db.messages.map Message.localId then
        (labels.map (fun l => ⟨l, id⟩)).toFinset
      else ∅
    pair_known := by
      intro p hp
      rcases Finset.mem_union.mp hp with hp | hp
      · exact db.pair_known p (Finset.mem_filter.mp hp).left
      · split at hp
        · rename_i hid
          rcases List.mem_map.mp (List.mem_toFinset.mp hp) with ⟨l, _, rfl⟩
          exact hid
        · cases hp }

def sentMessage (r : SendResponse) (m : Message) : Message :=
  { r.message with
    localId := m.localId
    conversationId := m.conversationId
    deleted := false }

theorem sentMessage_keepsKeys (r : SendResponse) :
    Database.KeepsKeys (sentMessage r) :=
  ⟨fun _ => rfl, fun _ => rfl⟩

def saveSent (r : SendResponse) (m : Message) (db : Database) : Database :=
  let db := db.saveConversation m.conversationId
    (fun c => { r.conversation with localId := c.localId }) (fun _ => rfl)
    (fun l => (db.labels.localIdCounterpart l).bind
      (fun rid => r.conversationLabels.lookup rid))
  savePairs m.localId (r.labelIds.filterMap db.labels.remoteIdCounterpart)
    (db.saveMessages [m.localId] (sentMessage r) (sentMessage_keepsKeys r))

/-- The rest of the action, once the server has taken the message. -/
def Send.applyRemote (r : SendResponse) (action : Send) (mb : Mailbox) :
    Except Error Mailbox := do
  let id <- okOr Error.shouldBeSet action.localMessageId
  let localOutbox <- mb.label outbox
  let _ <- okOr (Error.metadataNotFound action.metadataId)
    (mb.metadata action.metadataId)
  let m <- okOr (Error.messageMissing id) (mb.db.message id)
  let _ <- okOr (Error.messageHasNoRemoteId id) (mb.columns id).remoteId
  let metadata := Function.update mb.metadata action.metadataId none
  if mb.isSent id then
    -- it was sent from another session, and the server is not asked
    pure { mb with metadata := metadata }
  else
    -- the parent message is loaded and marked, and not saved
    let db <- okOr Error.stash
      (Message.removeFrom id (saveSent r m mb.db) localOutbox)
    pure
      { db := db
        columns := Function.update mb.columns id r.columns
        metadata := metadata }

/-!
# No trace of the draft
-/

/-- The messages that the counters of a label are about. -/
def live (l : LocalLabelId) (db : Database) : List Message :=
  db.messages.filter (fun m => db.hasLabel l m && !m.deleted)

def conversationCount (messages : List Message) : Nat :=
  (messages.map Message.conversationId).dedup.length

structure Agrees (l : LocalLabelId) (db : Database) : Prop where
  messages : db.messageCounters l = some
    { total := (live l db).length
      unread := (live l db).countP Message.unread }
  conversations : db.conversationCounters l = some
    { total := conversationCount (live l db)
      unread := conversationCount ((live l db).filter Message.unread) }

/-- What a sent draft is meant to leave behind. -/
structure LeavesNoTrace (action : Send) (metadata : DraftMetadata) (m : Message)
    (mb mb' : Mailbox) : Prop where
  labels : forall l, l ∈ mb.locals [drafts, allDrafts, outbox] ->
    ⟨l, m.localId⟩ ∉ mb'.db.messageLabels
  gone : mb'.metadata action.metadataId = none
  counters : forall l, l ∈ mb.locals [outbox] -> Agrees l mb'.db
  parent : forall p mode, metadata.localParentId = some p ->
    metadata.replyMode = some mode ->
    p ∈ mb'.db.messages.map Message.localId ->
    (mb'.columns p).isMarked mode = true
  others : forall m', m'.localId ≠ m.localId ->
    metadata.localParentId ≠ some m'.localId ->
    (m' ∈ mb'.db.messages ↔ m' ∈ mb.db.messages) ∧
    (forall l, ⟨l, m'.localId⟩ ∈ mb'.db.messageLabels ↔
      ⟨l, m'.localId⟩ ∈ mb.db.messageLabels) ∧
    mb'.columns m'.localId = mb.columns m'.localId

/--
The message never gets the label of the outbox, and its parent shows that it has
been answered.
-/
structure Unnoticed (r : SendResponse) (action : Send)
    (metadata : DraftMetadata) (m : Message) (mb : Mailbox) : Prop where
  labels : forall rid, rid ∈ [drafts, allDrafts] -> rid ∉ r.labelIds
  notPut : action.isScheduled = true ∨ mb.shows m.localId outbox = true
  deleted : forall l, l ∈ mb.locals [outbox] ->
    ⟨l, m.localId⟩ ∈ mb.db.messageLabels -> m.deleted = true
  parent : forall p mode, metadata.localParentId = some p ->
    metadata.replyMode = some mode ->
    p ∈ mb.db.messages.map Message.localId ->
    (if p = m.localId then r.columns else mb.columns p).isMarked mode = true

/-!
# The tables afterwards
-/

theorem Moved.other_pairs {off on : List LocalLabelId}
    (h : Message.Moved off on m db db')
    (hdisjoint : forall l, l ∈ on -> l ∉ off) {id : LocalMessageId}
    (hid : id ≠ m.localId) :
    ⟨l, id⟩ ∈ db'.messageLabels ↔ ⟨l, id⟩ ∈ db.messageLabels := by
  by_cases hlabel : ⟨l, m.localId⟩ ∈ db.messageLabels
  · by_cases hoff : l ∈ off
    · rw [<- mem_view,
        h.taken l hoff hlabel (fun hon => hdisjoint l hon hoff)]
      exact and_iff_left hid
    · exact view_pairs (h.same l (Or.inl hoff) (Or.inr hlabel)) id
  · by_cases hon : l ∈ on
    · rw [<- mem_view, h.put l (hdisjoint l hon) hon hlabel]
      exact or_iff_right hid
    · exact view_pairs (h.same l (Or.inr hlabel) (Or.inl hon)) id

theorem retimed_other_pairs {id id' : LocalMessageId} {time : Option Nat}
    (hid : id' ≠ id) : ⟨l, id'⟩ ∈ (retimed id time db).messageLabels ↔
      ⟨l, id'⟩ ∈ db.messageLabels := by
  show _ ∈ db.messageLabels.filter _ ↔ _
  rw [Finset.mem_filter, and_iff_left]
  simp [hid]

theorem saveSent_pairs {r : SendResponse} (hm : m ∈ db.messages)
    (id : LocalMessageId) : ⟨l, id⟩ ∈ (saveSent r m db).messageLabels ↔
      (⟨l, id⟩ ∈ db.messageLabels ∧ id ≠ m.localId) ∨
        (id = m.localId ∧
          l ∈ r.labelIds.filterMap db.labels.remoteIdCounterpart) := by
  have hknown : m.localId ∈ (db.messages.map (Database.changeOnly [m.localId]
      (sentMessage r))).map Message.localId := by
    rw [((sentMessage_keepsKeys r).changeOnly _).map_localId]
    exact List.mem_map_of_mem hm
  show _ ∈ (db.messageLabels.filter _).filter _ ∪ (if m.localId ∈ (db.messages.map
    (Database.changeOnly [m.localId] (sentMessage r))).map Message.localId
      then _ else ∅) ↔ _
  rw [if_pos hknown, Finset.mem_union, Finset.mem_filter, Finset.mem_filter,
    List.mem_toFinset, List.mem_map]
  by_cases hid : id = m.localId
  · subst hid
    simp
    rfl
  · simp [hid, Ne.symm hid]

theorem live_without {g : Message -> Message} (hkeys : Database.KeepsKeys g)
    (hmessages : db'.messages = db.messages.map g)
    (hothers : forall m', m'.localId ≠ m.localId -> g m' = m')
    (hpairs : forall id, ⟨l, id⟩ ∈ db'.messageLabels ↔
      ⟨l, id⟩ ∈ db.messageLabels ∧ id ≠ m.localId) :
    live l db' = (live l db).filter (fun m' => m'.localId ≠ m.localId) := by
  unfold live
  rw [hmessages]
  refine filter_without hothers (fun m' => ?_) _
  simp only [Database.hasLabel, hkeys.localId, hpairs]
  by_cases hid : m'.localId = m.localId
  · simp [hid]
  · simp [hid, hothers m' hid]

theorem Send.applyRemote_cases {r : SendResponse} {action : Send}
    {mb mb' : Mailbox} (h : action.applyRemote r mb = Except.ok mb')
    (hid : action.localMessageId = some m.localId) (hm : m ∈ mb.db.messages)
    (hcalled : mb.isSent m.localId = false)
    (houtbox : mb.label outbox = Except.ok l) :
    Message.removeFrom m.localId (saveSent r m mb.db) l = some mb'.db ∧
      mb'.columns = Function.update mb.columns m.localId r.columns ∧
      mb'.metadata action.metadataId = none := by
  unfold Send.applyRemote at h
  rw [hid, houtbox] at h
  rcases bind_eq_ok h with ⟨id, hid, h⟩
  rcases bind_eq_ok h with ⟨l', hl, h⟩
  rcases bind_eq_ok h with ⟨_, _, h⟩
  rcases bind_eq_ok h with ⟨m', hm', h⟩
  rcases bind_eq_ok h with ⟨_, _, h⟩
  cases okOr_eq_ok.mp hid
  cases hl
  rw [Message.message_of_mem hm] at hm'
  cases okOr_eq_ok.mp hm'
  rw [if_neg (by rw [hcalled]; exact Bool.false_ne_true)] at h
  rcases bind_eq_ok h with ⟨db, hdb, h⟩
  cases h
  exact ⟨okOr_eq_ok.mp hdb, rfl, Function.update_self _ _ _⟩

/-!
# When nothing is left
-/

section Sent

variable {mb mb' mb'' : Mailbox} {action action' : Send}
  {metadata : DraftMetadata} {r : SendResponse}

theorem outbox_counters (houtbox : mb.label outbox = Except.ok l)
    (hmoved : Message.Moved (mb.locals [drafts, allDrafts])
      (mb.locals [if action.isScheduled then allScheduled else outbox])
      (setTime action.deliveryTime m)
      (retimed m.localId action.deliveryTime mb.db) db') :
    (action.isScheduled = true ∨ mb.shows m.localId outbox = true ->
      db'.messageCounters l = mb.db.messageCounters l ∧
        db'.conversationCounters l = mb.db.conversationCounters l) ∧
    (¬ (action.isScheduled = true ∨ mb.shows m.localId outbox = true) ->
      db'.messageCounters l = (mb.db.messageCounters l).map (fun k =>
        { total := k.total + 1, unread := k.unread + m.unread.toNat })) := by
  have hin : l ∈ mb.locals [outbox] := by
    rw [locals_cons houtbox]
    exact List.mem_cons_self
  have hoff : l ∉ mb.locals [drafts, allDrafts] :=
    locals_disjoint (by decide) hin
  have hshows : mb.shows m.localId outbox = true ↔
      ⟨l, m.localId⟩ ∈ (retimed m.localId action.deliveryTime
        mb.db).messageLabels := by
    unfold Mailbox.shows
    rw [okOr_eq_ok.mp houtbox]
    show _ ↔ _ ∈ mb.db.messageLabels.filter _
    rw [Finset.mem_filter]
    simp
  rw [hshows]
  constructor
  · intro hquiet
    have hview := hmoved.same l (Or.inl hoff) (hquiet.imp_left (fun hs => by
      rw [hs]
      exact locals_disjoint (by decide) hin))
    exact ⟨congrArg LabelView.messageCounter hview,
      congrArg LabelView.conversationCounter hview⟩
  · intro hput
    rw [not_or, Bool.not_eq_true] at hput
    have hview := hmoved.put l hoff (by rw [hput.left]; exact hin) hput.right
    exact congrArg LabelView.messageCounter hview

/-- The tables once the answer is saved. -/
structure SentTables (l : LocalLabelId) (r : SendResponse) (m : Message)
    (mb mb' mb'' : Mailbox) : Prop where
  pairs : forall l' id, ⟨l', id⟩ ∈ mb''.db.messageLabels ↔
    (⟨l', id⟩ ∈ mb.db.messageLabels ∧ id ≠ m.localId) ∨
      (id = m.localId ∧ l' ∈ mb.locals r.labelIds)
  others : forall m', m'.localId ≠ m.localId ->
    (m' ∈ mb''.db.messages ↔ m' ∈ mb.db.messages)
  ids : mb''.db.messages.map Message.localId =
    mb.db.messages.map Message.localId
  live : live l mb''.db =
    (live l mb.db).filter (fun m' => m'.localId ≠ m.localId)
  messageCounters : mb''.db.messageCounters = mb'.db.messageCounters
  conversationCounters :
    mb''.db.conversationCounters = mb'.db.conversationCounters

theorem sentTables (houtbox : mb.label outbox = Except.ok l)
    (hserver : outbox ∉ r.labelIds) (hm : m ∈ mb.db.messages)
    (hmoved : Message.Moved (mb.locals [drafts, allDrafts])
      (mb.locals [if action.isScheduled then allScheduled else outbox])
      (setTime action.deliveryTime m)
      (retimed m.localId action.deliveryTime mb.db) mb'.db)
    (hdb : Message.removeFrom m.localId
      (saveSent r (setTime action.deliveryTime m) mb'.db) l = some mb''.db) :
    SentTables l r m mb mb' mb'' := by
  have hmem : setTime action.deliveryTime m ∈ mb'.db.messages :=
    hmoved.messages ▸ retimed_mem _ hm
  have hin : l ∈ mb.locals [outbox] := by
    rw [locals_cons houtbox]
    exact List.mem_cons_self
  have hnone : l ∉ mb.locals r.labelIds :=
    locals_disjoint (by simpa using hserver) hin
  have hsaved : forall l' id, ⟨l', id⟩ ∈ (saveSent r
      (setTime action.deliveryTime m) mb'.db).messageLabels ↔
        (⟨l', id⟩ ∈ mb.db.messageLabels ∧ id ≠ m.localId) ∨
          (id = m.localId ∧ l' ∈ mb.locals r.labelIds) := by
    intro l' id
    rw [saveSent_pairs hmem, show mb'.db.labels = _ from hmoved.labels]
    refine or_congr_left (and_congr_left (fun hid => ?_))
    exact (Moved.other_pairs hmoved (fun l hl => locals_disjoint (by
      cases action.isScheduled <;> decide) hl) hid).trans
        (retimed_other_pairs hid)
  have hidle : mb''.db = saveSent r (setTime action.deliveryTime m) mb'.db :=
    (Message.removeFrom_step m).idle hdb (fun h =>
      ((hsaved l m.localId).mp h).elim (fun h => h.right rfl)
        (fun h => hnone h.right))
  rw [<- hidle] at hsaved
  let g := Database.changeOnly [m.localId] (sentMessage r) ∘
    Database.changeOnly [m.localId] (setTime action.deliveryTime)
  have hmessages : mb''.db.messages = mb.db.messages.map g := by
    rw [hidle]
    show mb'.db.messages.map _ = _
    rw [hmoved.messages]
    exact List.map_map
  have hkeys : Database.KeepsKeys g := by
    have h := (sentMessage_keepsKeys r).changeOnly [m.localId]
    have h' := (setTime_keepsKeys action.deliveryTime).changeOnly [m.localId]
    exact ⟨fun _ => (h.localId _).trans (h'.localId _),
      fun _ => (h.conversationId _).trans (h'.conversationId _)⟩
  have hothers : forall m', m'.localId ≠ m.localId -> g m' = m' := by
    intro m' hid
    show Database.changeOnly _ _ (Database.changeOnly _ _ m') = m'
    rw [changeOnly_other m' hid, changeOnly_other m' hid]
  have hlive : live l mb''.db =
      (live l mb.db).filter (fun m' => m'.localId ≠ m.localId) :=
    live_without hkeys hmessages hothers (fun id => (hsaved l id).trans
      (or_iff_left (fun h => hnone h.right)))
  refine ⟨hsaved, fun m' hid => ?_, ?_, hlive, by rw [hidle]; rfl,
    by rw [hidle]; rfl⟩
  · rw [hmessages, List.mem_map]
    constructor
    · rintro ⟨m'', hm'', rfl⟩
      rw [hothers m'' ((hkeys.localId m'').symm.trans_ne hid)]
      exact hm''
    · intro hm'
      exact ⟨m', hm', hothers m' hid⟩
  · rw [hmessages, hkeys.map_localId]

theorem agrees_iff (hcons : Agrees l mb.db) (hm : m ∈ mb.db.messages)
    (htables : SentTables l r m mb mb' mb'') {quiet : Prop}
    (hcounters : (quiet ->
        mb'.db.messageCounters l = mb.db.messageCounters l ∧
          mb'.db.conversationCounters l = mb.db.conversationCounters l) ∧
      (¬ quiet -> mb'.db.messageCounters l =
        (mb.db.messageCounters l).map (fun k =>
          { total := k.total + 1, unread := k.unread + m.unread.toNat }))) :
    Agrees l mb''.db ↔
      quiet ∧ (⟨l, m.localId⟩ ∈ mb.db.messageLabels -> m.deleted = true) := by
  have hlive := htables.live
  have hkept : (⟨l, m.localId⟩ ∈ mb.db.messageLabels -> m.deleted = true) ↔
      (live l mb.db).filter (fun m' => m'.localId ≠ m.localId) =
        live l mb.db := by
    rw [List.filter_eq_self]
    constructor
    · intro hdeleted m' hm'
      have hm' := List.mem_filter.mp hm'
      refine decide_eq_true (fun hid => ?_)
      rw [List.inj_on_of_nodup_map mb.db.messages_unique hm'.left hm hid,
        Bool.and_eq_true_iff] at hm'
      rw [hdeleted (of_decide_eq_true hm'.right.left)] at hm'
      exact Bool.false_ne_true hm'.right.right
    · intro hall hlabel
      by_contra hlive
      refine of_decide_eq_true (hall m (List.mem_filter.mpr ⟨hm, ?_⟩)) rfl
      rw [Bool.not_eq_true] at hlive
      rw [hlive, Bool.and_eq_true_iff]
      exact ⟨decide_eq_true hlabel, rfl⟩
  rw [hkept]
  constructor
  · intro hagrees
    have hmessages := hagrees.messages
    rw [htables.messageCounters, hlive] at hmessages
    have hle := List.length_filter_le
      (fun m' : Message => decide (m'.localId ≠ m.localId)) (live l mb.db)
    have hquiet : quiet := by
      by_contra hput
      have hput := hcounters.right hput
      rw [hmessages, hcons.messages] at hput
      have htotal := congrArg Counter.total (Option.some.inj hput)
      dsimp only at htotal
      omega
    rw [(hcounters.left hquiet).left, hcons.messages] at hmessages
    exact ⟨hquiet, List.filter_sublist.eq_of_length
      (congrArg Counter.total (Option.some.inj hmessages)).symm⟩
  · rintro ⟨hquiet, hsame⟩
    have hcounters := hcounters.left hquiet
    constructor
    · rw [htables.messageCounters, hcounters.left, hlive, hsame]
      exact hcons.messages
    · rw [htables.conversationCounters, hcounters.right, hlive, hsame]
      exact hcons.conversations

theorem leavesNoTrace_iff {metadata : DraftMetadata}
    (htables : SentTables l r m mb mb' mb'')
    (hcounters : Agrees l mb''.db ↔
      (action.isScheduled = true ∨ mb.shows m.localId outbox = true) ∧
        (⟨l, m.localId⟩ ∈ mb.db.messageLabels -> m.deleted = true))
    (houtbox : mb.locals [outbox] = [l]) (hserver : outbox ∉ r.labelIds)
    (hknown : forall rid, rid ∈ [drafts, allDrafts] ->
      exists l', mb.label rid = Except.ok l')
    (hcolumns : forall p, mb''.columns p =
      if p = m.localId then r.columns else mb.columns p)
    (hgone : mb''.metadata action.metadataId = none) :
    LeavesNoTrace action metadata m mb mb'' ↔
      Unnoticed r action metadata m mb := by
  have hpair : forall {l'}, ⟨l', m.localId⟩ ∈ mb''.db.messageLabels ↔
      l' ∈ mb.locals r.labelIds := by
    intro l'
    rw [htables.pairs]
    simp
  have hone : forall {l'}, l' ∈ mb.locals [outbox] -> l' = l := by
    intro l' hl'
    rwa [houtbox, List.mem_singleton] at hl'
  constructor
  · intro h
    have hquiet := hcounters.mp
      (h.counters l (houtbox ▸ List.mem_singleton_self l))
    refine ⟨fun rid hrid hin => ?_, hquiet.left, fun l' hl' => ?_,
      fun p mode hp hmode hmem => ?_⟩
    · rcases hknown rid hrid with ⟨l', hl'⟩
      have hlabel := okOr_eq_ok.mp hl'
      refine h.labels l' (List.mem_filterMap.mpr ⟨rid, ?_, hlabel⟩)
        (hpair.mpr (List.mem_filterMap.mpr ⟨rid, hin, hlabel⟩))
      exact List.mem_append_left [outbox] hrid
    · rw [hone hl']
      exact hquiet.right
    · rw [<- hcolumns]
      exact h.parent p mode hp hmode (htables.ids ▸ hmem)
  · intro h
    refine ⟨fun l' hl' hlabel => ?_, hgone, fun l' hl' => ?_,
      fun p mode hp hmode hmem => ?_, fun m' hid _ => ⟨htables.others m' hid,
      fun l' => ?_, (hcolumns m'.localId).trans (if_neg hid)⟩⟩
    · refine locals_disjoint (fun rid hrid hin => ?_) hl' (hpair.mp hlabel)
      rcases List.mem_append.mp (show rid ∈ [drafts, allDrafts] ++ [outbox]
        from hrid) with hrid | hrid
      · exact h.labels rid hrid hin
      · exact hserver (List.mem_singleton.mp hrid ▸ hin)
    · rw [hone hl']
      exact hcounters.mpr ⟨h.notPut, h.deleted l
        (houtbox ▸ List.mem_singleton_self l)⟩
    · rw [hcolumns]
      exact h.parent p mode hp hmode (htables.ids ▸ hmem)
    · rw [htables.pairs]
      simp [hid]

/-- Sending a draft leaves a trace, unless the outbox is not involved. -/
theorem sent_without_trace_iff {actionId : ActionId}
    (hcons : forall l, l ∈ mb.locals [outbox] -> Agrees l mb.db)
    (hserver : outbox ∉ r.labelIds)
    (hlocal : action.applyLocal actionId mb = Except.ok (action', mb'))
    (hcalled : forall id, action'.localMessageId = some id ->
      mb'.isSent id = false)
    (hremote : action'.applyRemote r mb' = Except.ok mb'') :
    exists m metadata, m ∈ mb.db.messages ∧
      mb.metadata action.metadataId = some metadata ∧
      metadata.localMessageId = some m.localId ∧
      (LeavesNoTrace action metadata m mb mb'' ↔
        Unnoticed r action metadata m mb) := by
  rcases Send.applyLocal_cases hlocal with ⟨m, metadata, hm, hknown, _,
    hmetadata, hid, rfl, hmove, hcolumns⟩
  rcases hknown outbox (by decide) with ⟨l, houtbox⟩
  have hmem := retimed_mem action.deliveryTime hm
  have hmoved := Message.moveLabels_moved hmem hmove
  have hin : mb.locals [outbox] = [l] := locals_cons houtbox
  rcases Send.applyRemote_cases (m := setTime action.deliveryTime m) hremote
    rfl (hmoved.messages ▸ hmem) (hcalled _ rfl)
    ((label_congr hmoved.labels _).trans houtbox) with
    ⟨hdb, hcolumns', hgone⟩
  have hcons := hcons l (hin ▸ List.mem_singleton_self l)
  have htables := sentTables houtbox hserver hm hmoved hdb
  refine ⟨m, metadata, hm, hmetadata, hid, leavesNoTrace_iff htables
    (agrees_iff hcons hm htables (outbox_counters houtbox hmoved)) hin hserver
    (fun rid hrid => hknown rid ?_) (fun p => ?_) hgone⟩
  · exact List.cons_subset_cons drafts (by simp) hrid
  · rw [hcolumns', hcolumns]
    by_cases hp : p = m.localId
    · rw [if_pos hp, hp]
      exact Function.update_self _ _ _
    · rw [if_neg hp]
      exact (Function.update_of_ne hp _ _).trans (Function.update_of_ne hp _ _)

end Sent

/-!
# The draft is sent
-/

def answer (labelIds : List LabelId) : SendResponse where
  conversation := { localId := 1 }
  conversationLabels := []
  message := writtenAt 1 1 9
  columns := {}
  labelIds := labelIds

theorem outbox_agrees (l : LocalLabelId) (hl : l ∈ twoMessages.locals [outbox]) :
    Agrees l twoMessages.db := by
  cases List.mem_singleton.mp hl
  exact ⟨by decide +kernel, by decide +kernel⟩

theorem scheduled_leaves_nothing :
    exists m metadata mb'',
      LeavesNoTrace { sendDraft with deliveryTime := some 20 } metadata m
        twoMessages mb'' := by
  have hsent : exists p q, Send.applyLocal
        { sendDraft with deliveryTime := some 20 } 3 twoMessages =
          Except.ok p ∧
      (forall id, p.1.localMessageId = some id -> p.2.isSent id = false) ∧
      p.1.applyRemote (answer [allScheduled]) p.2 = Except.ok q := by
    refine ⟨_, _, rfl, ?_, rfl⟩
    rintro id hid
    cases hid
    decide +kernel
  rcases hsent with ⟨p, q, hlocal, hcalled, hremote⟩
  rcases sent_without_trace_iff outbox_agrees (by decide) hlocal hcalled
    hremote with ⟨m, metadata, hm, hmetadata, _, hiff⟩
  cases hmetadata
  refine ⟨m, _, q, hiff.mpr ⟨by decide, Or.inl rfl, fun l hl h => ?_,
    fun p mode hp => nomatch hp⟩⟩
  have hnone : forall m, m ∈ twoMessages.db.messages ->
      ⟨3, m.localId⟩ ∉ twoMessages.db.messageLabels := by
    decide +kernel
  cases List.mem_singleton.mp hl
  exact absurd h (hnone m hm)

/-- The outbox counts a message that has left it. -/
theorem outbox_counts_sent :
    (forall l, l ∈ twoMessages.locals [outbox] -> Agrees l twoMessages.db) ∧
    exists action' mb' mb'',
      sendDraft.applyLocal 3 twoMessages = Except.ok (action', mb') ∧
      action'.applyRemote (answer [sent, allSent]) mb' = Except.ok mb'' ∧
      forall m metadata,
        ¬ LeavesNoTrace sendDraft metadata m twoMessages mb'' := by
  refine ⟨outbox_agrees, _, _, _, rfl, rfl, fun m metadata h => ?_⟩
  have hmessages := (h.counters 3 (by decide)).messages
  revert hmessages
  decide +kernel

end Sending
end Drafts
end MailClient
