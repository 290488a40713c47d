import MailClient.Actions.Mailbox
import MailClient.Labels.Update

/-!
# Labels without a remote id

A label that is created offline has a row and a local id, but no remote id until
the server has answered.  The hooks of messages and conversations represent
labels by their remote ids.  An operation can fail with an error or with a
panic, and either rolls its transaction back.
-/

namespace MailClient
namespace Actions

open Labels (LabelTable LabelRow LabelType Label)

inductive Failure where
  | panic
  | error (message : String)
  deriving DecidableEq, Repr

/-- The tables that hold labels; of the counters only which labels have them. -/
structure MailDb where
  labels : LabelTable
  messages : List MessageRow
  conversations : List LocalConversationId
  messageLabels : Finset LabelPair
  conversationLabels : Finset (LocalConversationId × LocalLabelId)
  messageCounters : Finset LocalLabelId
  conversationCounters : Finset LocalLabelId

structure CreateLabel where
  localParentId : Option LocalLabelId
  color : String
  labelType : LabelType
  name : String
  notify : Bool

/-- `CreateHandler::apply_local`, with the local id of the new label. -/
def CreateLabel.applyLocal (action : CreateLabel) (t : LabelTable) :
    LabelTable × Option LocalLabelId :=
  let (t', label) := t.save
    { localId := none
      localParentId := action.localParentId
      color := action.color
      displayOrder := t.maxDescendantsDisplayOrder action.localParentId + 1
      labelType := action.labelType
      name := action.name
      notify := action.notify }
  (t', label.localId)

namespace MailDb

variable (db : MailDb)

def isStored (m : LocalMessageId) : Bool :=
  db.messages.any (fun row => row.localId = m)

def messagesOf (c : LocalConversationId) : List LocalMessageId :=
  (db.messages.filter (fun row => row.conversationId = c)).map
    MessageRow.localId

def conversationsOf (ids : List LocalMessageId) : List LocalConversationId :=
  ((db.messages.filter (fun row => row.localId ∈ ids)).map
    MessageRow.conversationId).dedup

/-- `all_message_labels`: labels that are marked as deleted are left out. -/
def labelsOf (m : LocalMessageId) : List LabelRow :=
  db.labels.rows.filter (fun r =>
    (⟨r.localId, m⟩ : LabelPair) ∈ db.messageLabels ∧ r.deleted = 0)

/-- `labels.iter().map(|l| l.remote_id.clone().unwrap())`. -/
def unwrapRemoteIds : List LabelRow -> Except Failure (List LabelId)
  | [] => Except.ok []
  | r :: rest =>
      match r.remoteId with
      | none => Except.error Failure.panic
      | some rid => do
          let rids <- unwrapRemoteIds rest
          Except.ok (rid :: rids)

/-- A message with its hook `after_load`. -/
def loadMessage (m : LocalMessageId) :
    Except Failure (Option (MessageRow × List LabelId)) :=
  match db.messages.find? (fun row => row.localId = m) with
  | none => Except.ok none
  | some row => do
      let rids <- unwrapRemoteIds (db.labelsOf m)
      Except.ok (some (row, rids))

def loadMessages : List LocalMessageId -> Except Failure Unit
  | [] => Except.ok ()
  | m :: rest => do
      let _ <- db.loadMessage m
      loadMessages rest

/-- `ConversationLabel::save_sync`, with its hook `before_save`. -/
def saveConversationLabel (c : LocalConversationId)
    (remoteLabelId : Option LabelId) : Except Failure MailDb :=
  match remoteLabelId with
  | none => Except.error (Failure.error "Missing remote label id")
  | some rid =>
      match db.labels.remoteIdCounterpart rid with
      | none => Except.error (Failure.error "Can't find label with the remote id")
      | some l =>
          if c ∈ db.conversations then
            Except.ok { db with
              conversationLabels := insert (c, l) db.conversationLabels }
          else Except.error (Failure.error "FOREIGN KEY constraint failed")

/-- The messages are loaded for their statistics. -/
def labelImpl (l : LocalLabelId) (c : LocalConversationId)
    (ids : List LocalMessageId) : Except Failure MailDb :=
  if ids = [] then Except.ok db
  else do
    let labelled := (db.messagesOf c).filter (fun m =>
      m ∈ ids ∧ (⟨l, m⟩ : LabelPair) ∈ db.messageLabels)
    db.loadMessages labelled
    if labelled = [] then
      Except.error (Failure.error "QueryReturnedNoRows")
    else do
      let db <- db.saveConversationLabel c (db.labels.localIdCounterpart l)
      if l ∈ db.conversationCounters ∧ l ∈ db.messageCounters then
        Except.ok db
      else Except.error (Failure.error "QueryReturnedNoRows")

/-!
# Labelling
-/

def labelMessage (l : LocalLabelId)
    (acc : MailDb × List (LocalConversationId × LocalMessageId))
    (m : LocalMessageId) :
    Except Failure (MailDb × List (LocalConversationId × LocalMessageId)) :=
  if (⟨l, m⟩ : LabelPair) ∈ acc.1.messageLabels then Except.ok acc
  else if !acc.1.isStored m then
    Except.error (Failure.error "FOREIGN KEY constraint failed")
  else do
    let db := { acc.1 with
      messageLabels := insert (⟨l, m⟩ : LabelPair) acc.1.messageLabels }
    match <- db.loadMessage m with
    | none => Except.ok (db, acc.2)
    | some (row, _) => Except.ok (db, acc.2 ++ [(row.conversationId, m)])

/-- `Message::apply_label`. -/
def applyToMessages (l : LocalLabelId) (ids : List LocalMessageId) :
    Except Failure MailDb := do
  let (db, modified) <- ids.foldlM (labelMessage l) (db, [])
  let conversations := (modified.map Prod.fst).dedup.insertionSort (fun a b => a ≤ b)
  conversations.foldlM (fun db c =>
    db.labelImpl l c ((modified.filter (fun p => p.1 = c)).map Prod.snd)) db

def labelConversation (l : LocalLabelId) (db : MailDb)
    (c : LocalConversationId) : Except Failure MailDb :=
  let fresh := (db.messagesOf c).filter (fun m =>
    (⟨l, m⟩ : LabelPair) ∉ db.messageLabels)
  let db' := { db with
    messageLabels := db.messageLabels ∪ (Mailbox.pairs l (db.messagesOf c)).toFinset }
  if fresh ≠ [] then db'.labelImpl l c fresh
  else if (c, l) ∈ db'.conversationLabels then Except.ok db'
  else
    match db'.labels.rows.find? (fun r => r.localId = l) with
    | none => Except.error (Failure.error "QueryReturnedNoRows")
    | some r => do
        let db'' <- db'.saveConversationLabel c r.remoteId
        if l ∈ db''.conversationCounters then Except.ok db''
        else Except.error (Failure.error "QueryReturnedNoRows")

/-- `Conversation::apply_label`. -/
def applyToConversations (l : LocalLabelId) (ids : List LocalConversationId) :
    Except Failure MailDb :=
  ids.foldlM (labelConversation l) db

/-!
# Removing a label
-/

/-- A conversation keeps the label while one of its messages has it. -/
def unlabelConversationOf (l : LocalLabelId) (db : MailDb)
    (c : LocalConversationId) : Except Failure MailDb := do
  let left := (db.messagesOf c).filter (fun m =>
    (⟨l, m⟩ : LabelPair) ∈ db.messageLabels)
  db.loadMessages left
  if left ≠ [] ∧ (c, l) ∈ db.conversationLabels then
    db.saveConversationLabel c (db.labels.localIdCounterpart l)
  else
    Except.ok { db with conversationLabels := db.conversationLabels.erase (c, l) }

/-- `Message::remove_label`. -/
def removeFromMessages (l : LocalLabelId) (ids : List LocalMessageId) :
    Except Failure MailDb :=
  if !ids.all db.isStored then
    Except.error (Failure.error "QueryReturnedNoRows")
  else if ids.all (fun m => (⟨l, m⟩ : LabelPair) ∉ db.messageLabels) then
    Except.ok db
  else if l ∉ db.messageCounters then
    Except.error (Failure.error "No message counter for label")
  else if l ∉ db.conversationCounters then
    Except.error (Failure.error "No conversation counter for label")
  else
    (db.conversationsOf ids).foldlM (unlabelConversationOf l)
      { db with
        messageLabels := db.messageLabels \ (Mailbox.pairs l ids).toFinset }

def unlabelConversation (l : LocalLabelId) (db : MailDb)
    (c : LocalConversationId) : Except Failure MailDb := do
  let removed := (db.messagesOf c).filter (fun m =>
    (⟨l, m⟩ : LabelPair) ∈ db.messageLabels)
  let db := { db with
    messageLabels := db.messageLabels \ (Mailbox.pairs l removed).toFinset }
  db.loadMessages removed
  Except.ok { db with conversationLabels := db.conversationLabels.erase (c, l) }

/-- `Conversation::remove_label`. -/
def removeFromConversations (l : LocalLabelId)
    (ids : List LocalConversationId) : Except Failure MailDb :=
  if ids = [] then Except.ok db
  else if l ∉ db.conversationCounters then
    Except.error (Failure.error "QueryReturnedNoRows")
  else ids.foldlM (unlabelConversation l) db

/-!
# Saving
-/

def labelsWithRemoteIds (rids : List LabelId) : List LocalLabelId :=
  (db.labels.rows.filter (fun r => r.remoteId ∈ rids.map some)).map
    LabelRow.localId

/--
A message that is stored, with the labels it has in memory.  `before_save` loads
the stored message, and `after_save` makes its labels those of the list.  New
messages are not saved here.
-/
def saveMessage (m : LocalMessageId) (labelIds : List LabelId) :
    Except Failure MailDb := do
  match <- db.loadMessage m with
  | none => Except.error (Failure.error "QueryReturnedNoRows")
  | some _ =>
      Except.ok { db with
        messageLabels := db.messageLabels.filter (fun p => p.id ≠ m) ∪
          ((db.labelsWithRemoteIds labelIds).map
            (fun l => (⟨l, m⟩ : LabelPair))).toFinset }

/-- Labels without a remote id are not compared with the list. -/
def saveConversation (c : LocalConversationId) (labelIds : List LabelId) :
    Except Failure MailDb :=
  let kept := db.conversationLabels.filter (fun p => p.1 ≠ c ∨
    (labelIds ≠ [] ∧ (p.2 ∈ db.labelsWithRemoteIds labelIds ∨
      db.labels.localIdCounterpart p.2 = none)))
  labelIds.foldlM (fun db rid => db.saveConversationLabel c (some rid))
    { db with conversationLabels := kept }

end MailDb

/-!
# Operations
-/

inductive Operation where
  | applyLabel (kind : MailKind) (ids : List Nat)
  | removeLabel (kind : MailKind) (ids : List Nat)
  | load (kind : MailKind) (id : Nat)
  | save (kind : MailKind) (id : Nat) (labelIds : List LabelId)
  deriving DecidableEq, Repr

namespace MailDb

/-- Loading a conversation takes its labels as they are. -/
def perform (l : LocalLabelId) (db : MailDb) :
    Operation -> Except Failure MailDb
  | Operation.applyLabel MailKind.message ids => db.applyToMessages l ids
  | Operation.applyLabel MailKind.conversation ids => db.applyToConversations l ids
  | Operation.removeLabel MailKind.message ids => db.removeFromMessages l ids
  | Operation.removeLabel MailKind.conversation ids =>
      db.removeFromConversations l ids
  | Operation.load MailKind.message m => do
      let _ <- db.loadMessage m
      Except.ok db
  | Operation.load MailKind.conversation _ => Except.ok db
  | Operation.save MailKind.message m labelIds => db.saveMessage m labelIds
  | Operation.save MailKind.conversation c labelIds => db.saveConversation c labelIds

/-- What the database promises between transactions. -/
structure Consistent (db : MailDb) : Prop where
  message_label : forall p, p ∈ db.messageLabels ->
    p.label < db.labels.nextId
  conversation_label : forall p, p ∈ db.conversationLabels ->
    p.2 < db.labels.nextId
  conversation : forall row, row ∈ db.messages ->
    row.conversationId ∈ db.conversations
  loadable : forall m r, r ∈ db.labelsOf m -> r.remoteId ≠ none

/-- The messages and conversations that are to have the label. -/
structure Expected where
  messages : Finset LocalMessageId := ∅
  conversations : Finset LocalConversationId := ∅

/-- What is applied to what is stored is expected until it is removed. -/
def Expected.after (db : MailDb) (e : Expected) : Operation -> Expected
  | Operation.applyLabel MailKind.message ids =>
      { e with messages := e.messages ∪ (ids.filter db.isStored).toFinset }
  | Operation.applyLabel MailKind.conversation ids =>
      let stored := ids.filter (fun c => c ∈ db.conversations)
      { messages := e.messages ∪ (stored.flatMap db.messagesOf).toFinset
        conversations := e.conversations ∪ stored.toFinset }
  | Operation.removeLabel MailKind.message ids =>
      { messages := e.messages \ ids.toFinset
        conversations := e.conversations \ (db.conversationsOf ids).toFinset }
  | Operation.removeLabel MailKind.conversation ids =>
      { messages := e.messages \ (ids.flatMap db.messagesOf).toFinset
        conversations := e.conversations \ ids.toFinset }
  | Operation.load _ _ => e
  | Operation.save _ _ _ => e

def Attached (db : MailDb) (l : LocalLabelId) (e : Expected) : Prop :=
  (forall m, m ∈ e.messages -> (⟨l, m⟩ : LabelPair) ∈ db.messageLabels) ∧
    forall c, c ∈ e.conversations -> (c, l) ∈ db.conversationLabels

/--
No operation panics, and after each of them the label is attached to everything
that is expected to have it.  An operation that fails changes nothing.
-/
def Usable (l : LocalLabelId) : MailDb -> Expected -> List Operation -> Prop
  | _, _, [] => True
  | db, e, op :: rest =>
      match db.perform l op with
      | Except.error Failure.panic => False
      | Except.error (Failure.error _) =>
          db.Attached l (e.after db op) ∧ Usable l db (e.after db op) rest
      | Except.ok db' =>
          db'.Attached l (e.after db op) ∧ Usable l db' (e.after db op) rest

/-- The operation applies the label to something that is stored. -/
def AppliesToStored (db : MailDb) : Operation -> Prop
  | Operation.applyLabel MailKind.message ids =>
      exists m, m ∈ ids ∧ db.isStored m = true
  | Operation.applyLabel MailKind.conversation ids =>
      exists c, c ∈ ids ∧ c ∈ db.conversations
  | _ => False

def create (db : MailDb) (action : CreateLabel) : MailDb × Option LocalLabelId :=
  let (labels, l) := action.applyLocal db.labels
  ({ db with labels := labels }, l)

/-!
# The label has no remote id
-/

/-- Nothing has the label, and everything can be loaded. -/
structure Unused (db : MailDb) (l : LocalLabelId) : Prop where
  row : exists r, db.labels.rows.find? (fun r => r.localId = l) = some r ∧
    r ∈ db.labels.rows ∧ r.localId = l ∧ r.remoteId = none ∧ r.deleted = 0
  messages : forall m, (⟨l, m⟩ : LabelPair) ∉ db.messageLabels
  conversations : forall c, (c, l) ∉ db.conversationLabels
  conversation : forall row, row ∈ db.messages ->
    row.conversationId ∈ db.conversations
  loadable : forall m r, r ∈ db.labelsOf m -> r.remoteId ≠ none

theorem unwrapRemoteIds_of_some {rows : List LabelRow}
    (h : forall r, r ∈ rows -> r.remoteId ≠ none) :
    exists rids, unwrapRemoteIds rows = Except.ok rids := by
  induction rows with
  | nil => exact ⟨[], rfl⟩
  | cons r rest ih =>
      rcases ih (fun r' hr' => h r' (List.mem_cons_of_mem r hr')) with ⟨rids, hrest⟩
      rcases Option.ne_none_iff_exists'.mp (h r List.mem_cons_self) with ⟨rid, hrid⟩
      refine ⟨rid :: rids, ?_⟩
      unfold unwrapRemoteIds
      rw [hrid, hrest]
      rfl

theorem unwrapRemoteIds_of_none {rows : List LabelRow} {r : LabelRow}
    (hr : r ∈ rows) (hnone : r.remoteId = none) :
    unwrapRemoteIds rows = Except.error Failure.panic := by
  induction rows with
  | nil => cases hr
  | cons r' rest ih =>
      unfold unwrapRemoteIds
      cases hrid : r'.remoteId with
      | none => rfl
      | some rid =>
          rcases List.mem_cons.mp hr with heq | hrest
          · rw [heq, hrid] at hnone
            cases hnone
          · simp only [ih hrest]
            rfl

variable {db : MailDb} {l : LocalLabelId}

theorem loadMessage_panics {m : LocalMessageId} {r : LabelRow}
    (hr : r ∈ db.labels.rows) (hl : r.localId = l) (hnone : r.remoteId = none)
    (hvisible : r.deleted = 0) (hstored : db.isStored m = true)
    (hlabel : (⟨l, m⟩ : LabelPair) ∈ db.messageLabels) :
    db.loadMessage m = Except.error Failure.panic := by
  have hmem : r ∈ db.labelsOf m := by
    apply List.mem_filter.mpr
    refine ⟨hr, decide_eq_true ⟨?_, hvisible⟩⟩
    rw [hl]
    exact hlabel
  rcases List.any_eq_true.mp hstored with ⟨row, hrow, hid⟩
  unfold loadMessage
  cases hfind : db.messages.find? (fun row => row.localId = m) with
  | none => exact absurd hid (List.find?_eq_none.mp hfind row hrow)
  | some found =>
      simp only [unwrapRemoteIds_of_none hmem hnone]
      rfl

theorem Unused.loadMessage (h : Unused db l) (m : LocalMessageId) :
    exists loaded, db.loadMessage m = Except.ok loaded := by
  unfold MailDb.loadMessage
  cases db.messages.find? (fun row => row.localId = m) with
  | none => exact ⟨none, rfl⟩
  | some row =>
      rcases unwrapRemoteIds_of_some (h.loadable m) with ⟨rids, hrids⟩
      refine ⟨some (row, rids), ?_⟩
      simp only [hrids]
      rfl

theorem mem_messagesOf {c : LocalConversationId} {m : LocalMessageId}
    (h : m ∈ db.messagesOf c) : db.isStored m = true := by
  rcases List.mem_map.mp h with ⟨row, hrow, hid⟩
  exact List.any_eq_true.mpr ⟨row, (List.mem_filter.mp hrow).left,
    decide_eq_true hid⟩

/-!
# The label cannot be applied
-/

theorem Unused.applyToMessages_fails (h : Unused db l) (m : LocalMessageId)
    (rest : List LocalMessageId) :
    exists failure, db.applyToMessages l (m :: rest) = Except.error failure := by
  rcases h.row with ⟨r, _, hr, hl, hnone, hvisible⟩
  have hfirst : exists failure,
      labelMessage l (db, []) m = Except.error failure := by
    unfold labelMessage
    rw [if_neg (h.messages m)]
    split
    · exact ⟨_, rfl⟩
    · rename_i hmissing
      have hstored : db.isStored m = true := by simpa using hmissing
      have hpanic : MailDb.loadMessage
          { db with messageLabels := insert ⟨l, m⟩ db.messageLabels } m =
          Except.error Failure.panic :=
        loadMessage_panics hr hl hnone hvisible hstored (Finset.mem_insert_self _ _)
      simp only [hpanic]
      exact ⟨Failure.panic, rfl⟩
  rcases hfirst with ⟨failure, hfailure⟩
  refine ⟨failure, ?_⟩
  unfold applyToMessages
  rw [List.foldlM_cons, hfailure]
  rfl

theorem loadMessages_panics {ids : List LocalMessageId} (hne : ids ≠ [])
    (h : forall m, m ∈ ids -> db.loadMessage m = Except.error Failure.panic) :
    db.loadMessages ids = Except.error Failure.panic := by
  cases ids with
  | nil => exact absurd rfl hne
  | cons m rest =>
      unfold loadMessages
      rw [h m List.mem_cons_self]
      rfl

theorem labelImpl_panics {c : LocalConversationId} {ids : List LocalMessageId}
    {r : LabelRow} (hr : r ∈ db.labels.rows) (hl : r.localId = l)
    (hnone : r.remoteId = none) (hvisible : r.deleted = 0) (hids : ids ≠ [])
    (hall : forall m, m ∈ ids -> m ∈ db.messagesOf c ∧
      (⟨l, m⟩ : LabelPair) ∈ db.messageLabels) :
    db.labelImpl l c ids = Except.error Failure.panic := by
  rcases List.exists_mem_of_ne_nil _ hids with ⟨m, hm⟩
  unfold labelImpl
  rw [if_neg hids]
  dsimp only
  rw [loadMessages_panics]
  · rfl
  · apply List.ne_nil_of_mem (a := m)
    exact List.mem_filter.mpr ⟨(hall m hm).left, decide_eq_true ⟨hm, (hall m hm).right⟩⟩
  · intro m' hm'
    rcases List.mem_filter.mp hm' with ⟨hstored, hlabel⟩
    exact loadMessage_panics hr hl hnone hvisible (mem_messagesOf hstored)
      (of_decide_eq_true hlabel).right

theorem Unused.applyToConversations_fails (h : Unused db l)
    (c : LocalConversationId) (rest : List LocalConversationId) :
    exists failure,
      db.applyToConversations l (c :: rest) = Except.error failure := by
  rcases h.row with ⟨r, hfind, hr, hl, hnone, hvisible⟩
  have hfirst : exists failure,
      labelConversation l db c = Except.error failure := by
    unfold labelConversation
    dsimp only
    split
    · rename_i hfresh
      refine ⟨Failure.panic, labelImpl_panics hr hl hnone hvisible hfresh ?_⟩
      intro m hm
      have hmem := (List.mem_filter.mp hm).left
      refine ⟨hmem, Finset.mem_union_right _ ?_⟩
      exact List.mem_toFinset.mpr (List.mem_map_of_mem hmem)
    · rw [if_neg (h.conversations c), hfind]
      simp only [hnone]
      exact ⟨_, rfl⟩
  rcases hfirst with ⟨failure, hfailure⟩
  refine ⟨failure, ?_⟩
  unfold applyToConversations
  rw [List.foldlM_cons, hfailure]
  rfl

/-!
# What does not apply the label
-/

/-- The operation fails with an error, or leaves the label unused. -/
def Harmless (db : MailDb) (l : LocalLabelId)
    (result : Except Failure MailDb) : Prop :=
  match result with
  | Except.error failure => failure ≠ Failure.panic
  | Except.ok db' =>
      Unused db' l ∧ db'.messages = db.messages ∧
        db'.conversations = db.conversations

theorem Unused.harmless (h : Unused db l) :
    db.Harmless l (Except.ok db) :=
  ⟨h, rfl, rfl⟩

theorem Unused.remoteId_eq_none (h : Unused db l) {r : LabelRow}
    (hr : r ∈ db.labels.rows) (hl : r.localId = l) : r.remoteId = none := by
  rcases h.row with ⟨own, _, hown, hid, hnone, _⟩
  have hsame := List.inj_on_of_nodup_map db.labels.ids_unique hr hown
    (hl.trans hid.symm)
  rw [hsame]
  exact hnone

theorem exists_of_mem_labelsWithRemoteIds {rids : List LabelId}
    (h : l ∈ db.labelsWithRemoteIds rids) :
    exists r, r ∈ db.labels.rows ∧ r.localId = l ∧ r.remoteId ≠ none := by
  rcases List.mem_map.mp h with ⟨r, hr, hl⟩
  rcases List.mem_filter.mp hr with ⟨hrow, hrid⟩
  rcases List.mem_map.mp (of_decide_eq_true hrid) with ⟨rid, _, heq⟩
  refine ⟨r, hrow, hl, ?_⟩
  rw [← heq]
  exact Option.some_ne_none rid

theorem Unused.applyToMessages_missing (h : Unused db l)
    {ids : List LocalMessageId}
    (hmissing : forall m, m ∈ ids -> ¬ db.isStored m = true) :
    db.Harmless l (db.applyToMessages l ids) := by
  cases ids with
  | nil => exact h.harmless
  | cons m rest =>
      have hstored : db.isStored m = false :=
        Bool.eq_false_iff.mpr (hmissing m List.mem_cons_self)
      have hfirst : labelMessage l (db, []) m =
          Except.error (Failure.error "FOREIGN KEY constraint failed") := by
        unfold labelMessage
        rw [if_neg (h.messages m)]
        simp only [hstored]
        rfl
      unfold applyToMessages
      rw [List.foldlM_cons, hfirst]
      intro hpanic
      cases hpanic

theorem Unused.applyToConversations_missing (h : Unused db l)
    {ids : List LocalConversationId}
    (hmissing : forall c, c ∈ ids -> c ∉ db.conversations) :
    db.Harmless l (db.applyToConversations l ids) := by
  rcases h.row with ⟨r, hfind, _, _, hnone, _⟩
  cases ids with
  | nil => exact h.harmless
  | cons c rest =>
      have hempty : db.messagesOf c = [] := by
        apply List.eq_nil_iff_forall_not_mem.mpr
        intro m hm
        rcases List.mem_map.mp hm with ⟨row, hrow, _⟩
        rcases List.mem_filter.mp hrow with ⟨hrow, hc⟩
        apply hmissing c List.mem_cons_self
        rw [← of_decide_eq_true hc]
        exact h.conversation row hrow
      have hfirst : labelConversation l db c =
          Except.error (Failure.error "Missing remote label id") := by
        unfold labelConversation
        dsimp only
        rw [hempty, if_neg (by simp), if_neg (h.conversations c), hfind]
        simp only [hnone]
        rfl
      unfold applyToConversations
      rw [List.foldlM_cons, hfirst]
      intro hpanic
      cases hpanic

theorem Unused.removeFromMessages_harmless (h : Unused db l)
    (ids : List LocalMessageId) :
    db.Harmless l (db.removeFromMessages l ids) := by
  unfold removeFromMessages
  split
  · intro hpanic
    cases hpanic
  · rw [if_pos]
    · exact h.harmless
    · exact List.all_eq_true.mpr (fun m _ => decide_eq_true (h.messages m))

theorem Unused.unlabelConversation_eq (h : Unused db l)
    (c : LocalConversationId) :
    unlabelConversation l db c = Except.ok db := by
  have hremoved : (db.messagesOf c).filter (fun m =>
      (⟨l, m⟩ : LabelPair) ∈ db.messageLabels) = [] := by
    apply List.filter_eq_nil_iff.mpr
    intro m _ hm
    exact h.messages m (of_decide_eq_true hm)
  unfold unlabelConversation
  dsimp only
  rw [hremoved, Finset.erase_eq_of_notMem (h.conversations c)]
  have hpairs : db.messageLabels \ (Mailbox.pairs l []).toFinset = db.messageLabels :=
    Finset.sdiff_empty
  rw [hpairs]
  rfl

theorem Unused.removeFromConversations_harmless (h : Unused db l)
    (ids : List LocalConversationId) :
    db.Harmless l (db.removeFromConversations l ids) := by
  have hall : ids.foldlM (unlabelConversation l) db = Except.ok db := by
    induction ids with
    | nil => rfl
    | cons c rest ih =>
        rw [List.foldlM_cons, h.unlabelConversation_eq c]
        exact ih
  unfold removeFromConversations
  split
  · exact h.harmless
  · split
    · intro hpanic
      cases hpanic
    · rw [hall]
      exact h.harmless

theorem Unused.saveMessage_harmless (h : Unused db l) (m : LocalMessageId)
    (rids : List LabelId) :
    db.Harmless l (db.saveMessage m rids) := by
  rcases h.loadMessage m with ⟨loaded, hloaded⟩
  unfold saveMessage
  rw [hloaded]
  cases loaded with
  | none =>
      intro hpanic
      cases hpanic
  | some loaded =>
      have hpair : forall p : LabelPair,
          p ∈ db.messageLabels.filter (fun p => p.id ≠ m) ∪
            ((db.labelsWithRemoteIds rids).map
              (fun l => (⟨l, m⟩ : LabelPair))).toFinset ->
          p ∈ db.messageLabels ∨
            exists r, r ∈ db.labels.rows ∧ r.localId = p.label ∧ r.remoteId ≠ none := by
        intro p hp
        rcases Finset.mem_union.mp hp with hold | hnew
        · exact Or.inl (Finset.mem_filter.mp hold).left
        · rcases List.mem_map.mp (List.mem_toFinset.mp hnew) with ⟨l', hl', rfl⟩
          exact Or.inr (exists_of_mem_labelsWithRemoteIds hl')
      refine ⟨⟨h.row, ?_, h.conversations, h.conversation, ?_⟩, rfl, rfl⟩
      · intro m' hm'
        rcases hpair _ hm' with hold | ⟨r, hr, hl, hsome⟩
        · exact h.messages m' hold
        · exact hsome (h.remoteId_eq_none hr hl)
      · intro m' r hr
        rcases List.mem_filter.mp hr with ⟨hrow, hlabel⟩
        rcases of_decide_eq_true hlabel with ⟨hmem, hvisible⟩
        rcases hpair _ hmem with hold | ⟨r', hr', hl, hsome⟩
        · exact h.loadable m' r
            (List.mem_filter.mpr ⟨hrow, decide_eq_true ⟨hold, hvisible⟩⟩)
        · have hsame := List.inj_on_of_nodup_map db.labels.ids_unique hr' hrow hl
          rw [← hsame]
          exact hsome

theorem Unused.saveConversationLabel_harmless (h : Unused db l)
    (c : LocalConversationId) (rid : LabelId) :
    db.Harmless l (db.saveConversationLabel c (some rid)) := by
  unfold saveConversationLabel
  dsimp only
  split
  · intro hpanic
    cases hpanic
  · rename_i l' hl'
    split
    · refine ⟨⟨h.row, h.messages, ?_, h.conversation, h.loadable⟩, rfl, rfl⟩
      intro c' hc'
      rcases Finset.mem_insert.mp hc' with heq | hold
      · rcases Option.map_eq_some_iff.mp hl' with ⟨r, hfind, hr⟩
        have hrid := List.find?_some hfind
        simp only [decide_eq_true_eq] at hrid
        have hnone := h.remoteId_eq_none (List.mem_of_find?_eq_some hfind)
          (hr.trans (Prod.mk.inj heq).right.symm)
        rw [hrid] at hnone
        cases hnone
      · exact h.conversations c' hold
    · intro hpanic
      cases hpanic

theorem Harmless.trans {db' : MailDb} {result : Except Failure MailDb}
    (h : db.Harmless l (Except.ok db')) (h' : db'.Harmless l result) :
    db.Harmless l result := by
  cases result with
  | error failure => exact h'
  | ok db'' =>
      exact ⟨h'.left, h'.right.left.trans h.right.left,
        h'.right.right.trans h.right.right⟩

theorem Unused.saveConversation_harmless (h : Unused db l)
    (c : LocalConversationId) (rids : List LabelId) :
    db.Harmless l (db.saveConversation c rids) := by
  have hall : forall (left : List LabelId) (db' : MailDb),
      db.Harmless l (Except.ok db') ->
      db.Harmless l (left.foldlM
        (fun db rid => db.saveConversationLabel c (some rid)) db') := by
    intro left
    induction left with
    | nil =>
        intro db' hdb'
        exact hdb'
    | cons rid rest ih =>
        intro db' hdb'
        have hone := hdb'.trans (hdb'.left.saveConversationLabel_harmless c rid)
        rw [List.foldlM_cons]
        cases hsaved : db'.saveConversationLabel c (some rid) with
        | error failure =>
            rw [hsaved] at hone
            exact hone
        | ok db'' =>
            rw [hsaved] at hone
            exact ih db'' hone
  apply hall
  refine ⟨⟨h.row, h.messages, ?_, h.conversation, h.loadable⟩, rfl, rfl⟩
  intro c' hc'
  exact h.conversations c' (Finset.mem_filter.mp hc').left

theorem Unused.perform_harmless (h : Unused db l) {op : Operation}
    (hop : ¬ db.AppliesToStored op) :
    db.Harmless l (db.perform l op) := by
  cases op with
  | applyLabel kind ids =>
      cases kind with
      | message =>
          exact h.applyToMessages_missing (fun m hm hstored => hop ⟨m, hm, hstored⟩)
      | conversation =>
          exact h.applyToConversations_missing (fun c hc hstored => hop ⟨c, hc, hstored⟩)
  | removeLabel kind ids =>
      cases kind with
      | message => exact h.removeFromMessages_harmless ids
      | conversation => exact h.removeFromConversations_harmless ids
  | load kind id =>
      cases kind with
      | message =>
          rcases h.loadMessage id with ⟨loaded, hloaded⟩
          unfold perform
          dsimp only
          rw [hloaded]
          exact h.harmless
      | conversation => exact h.harmless
  | save kind id rids =>
      cases kind with
      | message => exact h.saveMessage_harmless id rids
      | conversation => exact h.saveConversation_harmless id rids

/-!
# Using the label
-/

theorem AppliesToStored.congr {db' : MailDb} {op : Operation}
    (h : db'.AppliesToStored op) (hmessages : db'.messages = db.messages)
    (hconversations : db'.conversations = db.conversations) :
    db.AppliesToStored op := by
  unfold AppliesToStored isStored at h ⊢
  rw [hmessages, hconversations] at h
  exact h

theorem Expected.after_empty {op : Operation} (hop : ¬ db.AppliesToStored op) :
    Expected.after db {} op = {} := by
  cases op with
  | applyLabel kind ids =>
      cases kind with
      | message =>
          have hstored : ids.filter db.isStored = [] :=
            List.filter_eq_nil_iff.mpr (fun m hm hstored => hop ⟨m, hm, hstored⟩)
          unfold Expected.after
          dsimp only
          rw [hstored]
          rfl
      | conversation =>
          have hstored : ids.filter (fun c => c ∈ db.conversations) = [] :=
            List.filter_eq_nil_iff.mpr (fun c hc hstored =>
              hop ⟨c, hc, of_decide_eq_true hstored⟩)
          unfold Expected.after
          dsimp only
          rw [hstored]
          rfl
  | removeLabel kind ids =>
      cases kind with
      | message => simp [Expected.after]
      | conversation => simp [Expected.after]
  | load kind id => rfl
  | save kind id rids => rfl

theorem attached_empty (db : MailDb) (l : LocalLabelId) : db.Attached l {} :=
  ⟨fun _ hm => absurd hm (Finset.notMem_empty _),
    fun _ hc => absurd hc (Finset.notMem_empty _)⟩

theorem Unused.not_attached (h : Unused db l) {op : Operation}
    (hop : db.AppliesToStored op) :
    ¬ db.Attached l (Expected.after db {} op) := by
  intro hattached
  cases op with
  | applyLabel kind ids =>
      cases kind with
      | message =>
          rcases hop with ⟨m, hm, hstored⟩
          apply h.messages m
          apply hattached.left
          apply Finset.mem_union_right
          exact List.mem_toFinset.mpr (List.mem_filter.mpr ⟨hm, hstored⟩)
      | conversation =>
          rcases hop with ⟨c, hc, hstored⟩
          apply h.conversations c
          apply hattached.right
          apply Finset.mem_union_right
          exact List.mem_toFinset.mpr
            (List.mem_filter.mpr ⟨hc, decide_eq_true hstored⟩)
  | removeLabel kind ids => exact hop
  | load kind id => exact hop
  | save kind id rids => exact hop

theorem Unused.perform_fails (h : Unused db l) {op : Operation}
    (hop : db.AppliesToStored op) :
    exists failure, db.perform l op = Except.error failure := by
  cases op with
  | applyLabel kind ids =>
      cases kind with
      | message =>
          rcases hop with ⟨m, hm, _⟩
          cases ids with
          | nil => cases hm
          | cons first rest => exact h.applyToMessages_fails first rest
      | conversation =>
          rcases hop with ⟨c, hc, _⟩
          cases ids with
          | nil => cases hc
          | cons first rest => exact h.applyToConversations_fails first rest
  | removeLabel kind ids => exact absurd hop not_false
  | load kind id => exact absurd hop not_false
  | save kind id rids => exact absurd hop not_false

theorem Unused.usable_iff {ops : List Operation} :
    forall {db : MailDb}, Unused db l ->
      (Usable l db {} ops ↔ forall op, op ∈ ops -> ¬ db.AppliesToStored op) := by
  induction ops with
  | nil =>
      intro db _
      exact ⟨fun _ op hop => (nomatch hop), fun _ => trivial⟩
  | cons op rest ih =>
      intro db h
      by_cases happlies : db.AppliesToStored op
      · constructor
        · intro husable
          rcases h.perform_fails happlies with ⟨failure, hfailure⟩
          unfold Usable at husable
          rw [hfailure] at husable
          cases failure with
          | panic => exact husable.elim
          | error message => exact absurd husable.left (h.not_attached happlies)
        · intro hnone
          exact absurd happlies (hnone op List.mem_cons_self)
      · have hharmless := h.perform_harmless happlies
        have hexpected := Expected.after_empty happlies
        unfold Usable
        rw [List.forall_mem_cons, hexpected]
        cases hresult : db.perform l op with
        | error failure =>
            rw [hresult] at hharmless
            cases failure with
            | panic => exact absurd rfl hharmless
            | error message =>
                dsimp only
                rw [ih h]
                exact ⟨fun hrest => ⟨happlies, hrest.right⟩,
                  fun hrest => ⟨attached_empty db l, hrest.right⟩⟩
        | ok db' =>
            rw [hresult] at hharmless
            rcases hharmless with ⟨h', hmessages, hconversations⟩
            dsimp only
            rw [ih h']
            constructor
            · rintro ⟨_, hrest⟩
              exact ⟨happlies, fun op' hop' hbad => hrest op' hop'
                (hbad.congr hmessages.symm hconversations.symm)⟩
            · rintro ⟨_, hrest⟩
              exact ⟨attached_empty db' l, fun op' hop' hbad => hrest op' hop'
                (hbad.congr hmessages hconversations)⟩

/-!
# A label that is created offline
-/

theorem exists_applyLocal_rows (action : CreateLabel) (t : LabelTable) :
    exists (row : LabelRow) (parent : LabelRow -> Option LocalLabelId),
      (action.applyLocal t).1.rows =
          (t.rows ++ [row]).map (fun r => { r with localParentId := parent r }) ∧
        row.localId = t.nextId ∧ row.remoteId = none ∧ row.deleted = 0 ∧
        (action.applyLocal t).2 = some t.nextId :=
  ⟨_, _, rfl, rfl, rfl, rfl, rfl⟩

theorem Consistent.create_unused (h : Consistent db) (action : CreateLabel) :
    (db.create action).2 = some db.labels.nextId ∧
      Unused (db.create action).1 db.labels.nextId := by
  rcases exists_applyLocal_rows action db.labels with
    ⟨row, parent, hrows, hid, hnone, hvisible, hsome⟩
  have hpaired : forall m, (⟨db.labels.nextId, m⟩ : LabelPair) ∉ db.messageLabels :=
    fun m hm => Nat.lt_irrefl _ (h.message_label _ hm)
  refine ⟨hsome, ⟨?_, hpaired, ?_, h.conversation, ?_⟩⟩
  · have hmem : { row with localParentId := parent row } ∈
        (action.applyLocal db.labels).1.rows := by
      rw [hrows]
      exact List.mem_map_of_mem (List.mem_append_right _ List.mem_cons_self)
    refine ⟨{ row with localParentId := parent row }, ?_, hmem, hid, hnone, hvisible⟩
    change List.find? _ (action.applyLocal db.labels).1.rows = _
    cases hfind : (action.applyLocal db.labels).1.rows.find?
        (fun r => r.localId = db.labels.nextId) with
    | none =>
        have hmissing := List.find?_eq_none.mp hfind _ hmem
        exact absurd (decide_eq_true hid) hmissing
    | some found =>
        have hfound := List.find?_some hfind
        simp only [decide_eq_true_eq] at hfound
        have hsame := List.inj_on_of_nodup_map
          (action.applyLocal db.labels).1.ids_unique
          (List.mem_of_find?_eq_some hfind) hmem (hfound.trans hid.symm)
        rw [hsame]
  · intro c hc
    exact Nat.lt_irrefl _ (h.conversation_label _ hc)
  · intro m r hr
    rcases List.mem_filter.mp hr with ⟨hrow, hlabel⟩
    rcases of_decide_eq_true hlabel with ⟨hmem, hshown⟩
    change r ∈ (action.applyLocal db.labels).1.rows at hrow
    rw [hrows] at hrow
    rcases List.mem_map.mp hrow with ⟨old, hold, rfl⟩
    rcases List.mem_append.mp hold with hstored | hnew
    · exact h.loadable m old
        (List.mem_filter.mpr ⟨hstored, decide_eq_true ⟨hmem, hshown⟩⟩)
    · rw [List.mem_singleton.mp hnew, hid] at hmem
      exact absurd hmem (hpaired m)

/--
The new label can be used as long as it is applied to nothing that is stored: the
first time it is, the operation panics or fails, and the label is not attached.
-/
theorem offline_label_usable_iff {db : MailDb} (h : db.Consistent)
    (action : CreateLabel) (ops : List Operation) :
    exists l, (db.create action).2 = some l ∧
      (Usable l (db.create action).1 {} ops ↔
        forall op, op ∈ ops -> ¬ db.AppliesToStored op) := by
  rcases h.create_unused action with ⟨hcreated, hunused⟩
  exact ⟨db.labels.nextId, hcreated, hunused.usable_iff⟩

/-- The inbox and a conversation with one message in it. -/
def small : MailDb where
  labels := LabelTable.ofRows
    [{ localId := 1, remoteId := some "0", labelType := LabelType.system }] 2
    (by decide) (by decide) (by decide)
  messages := [{ localId := 1, conversationId := 1 }]
  conversations := [1]
  messageLabels := {⟨1, 1⟩}
  conversationLabels := {(1, 1)}
  messageCounters := {1}
  conversationCounters := {1}

def newFolder : CreateLabel where
  localParentId := none
  color := "#8080FF"
  labelType := LabelType.folder
  name := "Receipts"
  notify := true

theorem small_consistent : small.Consistent where
  message_label := by decide
  conversation_label := by decide
  conversation := by decide
  loadable := by
    intro m r hr
    have hrow := (List.mem_filter.mp hr).left
    rw [List.mem_singleton.mp hrow]
    exact Option.some_ne_none _

/-- Loads, saves and removals of the label are fine. -/
theorem new_folder_usable :
    exists l, (small.create newFolder).2 = some l ∧
      Usable l (small.create newFolder).1 {}
        [Operation.load MailKind.message 1,
          Operation.save MailKind.message 1 ["0"],
          Operation.removeLabel MailKind.message [1],
          Operation.applyLabel MailKind.message [7]] := by
  rcases offline_label_usable_iff small_consistent newFolder
    [Operation.load MailKind.message 1,
      Operation.save MailKind.message 1 ["0"],
      Operation.removeLabel MailKind.message [1],
      Operation.applyLabel MailKind.message [7]] with ⟨l, hl, hiff⟩
  refine ⟨l, hl, hiff.mpr ?_⟩
  intro op hop happlies
  simp only [List.mem_cons, List.not_mem_nil, or_false] at hop
  rcases hop with rfl | rfl | rfl | rfl
  · exact happlies
  · exact happlies
  · exact happlies
  · rcases happlies with ⟨m, hm, hstored⟩
    rw [List.mem_singleton.mp hm] at hstored
    exact absurd hstored (by decide)

/-- The message that is moved to the new folder cannot be loaded any more. -/
theorem move_to_new_folder_panics :
    small.Consistent ∧ (small.create newFolder).2 = some 2 ∧
      MailDb.perform 2 (small.create newFolder).1
        (Operation.applyLabel MailKind.message [1]) = Except.error Failure.panic ∧
      ¬ Usable 2 (small.create newFolder).1 {}
        [Operation.applyLabel MailKind.message [1]] := by
  refine ⟨small_consistent, rfl, by rfl, ?_⟩
  intro husable
  exact husable

end MailDb

end Actions
end MailClient
