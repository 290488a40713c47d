import Mathlib.Data.Finset.Image
import MailClient.Labels.Delete
import MailClient.Messages.BodyMetadata
import MailClient.Messages.Ids

/-!
# Saving what has been loaded

A message is loaded with its labels and attachments, and a conversation with
its rows of labels and its attachments.  A save writes them all back and removes
what is not among them, so that a load that leaves something out deletes it.
-/

namespace MailClient
namespace Messages

open Conversations (ConversationLabel)
open Labels (LabelTable LabelRow)

/-!
# The tables
-/

inductive Disposition where
  | attachment
  | inline
  deriving DecidableEq, Repr

inductive AttachmentType where
  | remote (id : Option String)
  | pgp
  deriving DecidableEq, Repr

/-- The columns that a save of a message or of a conversation may write. -/
structure Attachment where
  localId : LocalAttachmentId
  attachmentType : AttachmentType
  disposition : Disposition
  localAddressId : Option Nat := none
  remoteAddressId : Option String := none
  localConversationId : Option LocalConversationId := none
  remoteConversationId : Option ConversationId := none
  localMessageId : Option LocalMessageId := none
  remoteMessageId : Option MessageId := none
  deriving DecidableEq, Repr

structure StoredMessage where
  localId : LocalMessageId
  remoteId : Option MessageId
  localAddressId : Nat
  remoteAddressId : String
  unread : Bool
  deriving DecidableEq, Repr

structure StoredConversation where
  localId : LocalConversationId
  remoteId : Option ConversationId
  numUnread : Nat
  deriving DecidableEq, Repr

/-- A row of `conversation_labels`, with its keys. -/
structure ConversationLabelRow extends ConversationLabel where
  localId : Nat
  localConversationId : LocalConversationId
  localLabelId : LocalLabelId
  remoteLabelId : Option LabelId
  deriving DecidableEq, Repr

structure Tables where
  labels : LabelTable
  messages : List StoredMessage
  conversations : List StoredConversation
  messageLabels : Finset (LocalMessageId × LocalLabelId)
  conversationLabels : List ConversationLabelRow
  nextConversationLabel : Nat
  attachments : List Attachment
  messageAttachmentsMetadata : Finset (LocalMessageId × LocalAttachmentId)
  conversationAttachments : Finset (LocalConversationId × LocalAttachmentId)

/--
The keys of the tables.  Every row of `conversation_labels` has been written by
a save, which takes its label from the remote id and fails without one.
-/
structure Tables.Keys (db : Tables) : Prop where
  messages_unique : (db.messages.map StoredMessage.localId).Nodup
  messages_remote : forall m m', m ∈ db.messages -> m' ∈ db.messages ->
    m.remoteId ≠ none -> m.remoteId = m'.remoteId -> m = m'
  conversations_unique :
    (db.conversations.map StoredConversation.localId).Nodup
  conversations_remote : forall c c', c ∈ db.conversations ->
    c' ∈ db.conversations -> c.remoteId ≠ none -> c.remoteId = c'.remoteId ->
    c = c'
  attachments_unique : (db.attachments.map Attachment.localId).Nodup
  label_known : forall p, p ∈ db.messageLabels -> p.2 ∈ db.labels.ids
  attachment_known : forall p, p ∈ db.conversationAttachments ->
    p.2 ∈ db.attachments.map Attachment.localId
  rows_unique : forall r r', r ∈ db.conversationLabels ->
    r' ∈ db.conversationLabels ->
    r.localConversationId = r'.localConversationId ->
    r.localLabelId = r'.localLabelId -> r = r'
  rowIds_unique : (db.conversationLabels.map
    ConversationLabelRow.localId).Nodup
  rows_named : forall r, r ∈ db.conversationLabels ->
    exists rid, r.remoteLabelId = some rid ∧
      db.labels.remoteIdCounterpart rid = some r.localLabelId

structure Database extends Tables where
  keys : toTables.Keys

/-- The relations and the rows of labels and attachments are the same. -/
structure SameRelations (db db' : Tables) : Prop where
  labels : db'.labels = db.labels
  messageLabels : db'.messageLabels = db.messageLabels
  conversationLabels : db'.conversationLabels = db.conversationLabels
  attachments : db'.attachments = db.attachments
  messageAttachmentsMetadata :
    db'.messageAttachmentsMetadata = db.messageAttachmentsMetadata
  conversationAttachments :
    db'.conversationAttachments = db.conversationAttachments

/-!
# Messages
-/

/-- The metadata of a loaded attachment has its local id. -/
structure LoadedMessage extends StoredMessage where
  labelIds : List LabelId
  attachmentsMetadata : List LocalAttachmentId
  deriving DecidableEq, Repr

namespace Tables

variable (db : Tables)

/-- Labels that are marked as deleted are left out. -/
def allMessageLabels (id : LocalMessageId) : List LabelRow :=
  db.labels.rows.filter (fun r =>
    (id, r.localId) ∈ db.messageLabels ∧ r.deleted = 0)

def messageAttachmentMetadata (id : LocalMessageId) : List Attachment :=
  db.attachments.filter (fun a =>
    (id, a.localId) ∈ db.messageAttachmentsMetadata ∧
      a.disposition = Disposition.attachment)

/-- Loading panics on a label without a remote id. -/
def loadMessage (id : LocalMessageId) : Option LoadedMessage := do
  let row <- db.messages.find? (fun m => m.localId = id)
  let labelIds <- (db.allMessageLabels id).mapM (fun r => r.remoteId)
  some { row with
    labelIds := labelIds
    attachmentsMetadata :=
      (db.messageAttachmentMetadata id).map Attachment.localId }

def messageBeforeSave (m : LoadedMessage) : LoadedMessage :=
  match m.remoteId with
  | none => m
  | some rid =>
      match db.messages.find? (fun m' => m'.remoteId = some rid) with
      | none => m
      | some existing => { m with localId := existing.localId }

/-- `SELECT local_id FROM labels WHERE remote_id IN (..)`. -/
def labelsWithRemoteIds (labelIds : List LabelId) : List LocalLabelId :=
  (db.labels.rows.filter (fun r =>
    (labelIds.map some).contains r.remoteId)).map LabelRow.localId

def deleteOtherLabels (m : LoadedMessage) : Tables :=
  { db with
    messageLabels := db.messageLabels.filter (fun p =>
      ¬ (p.1 = m.localId ∧
        (m.labelIds ≠ [] -> p.2 ∉ db.labelsWithRemoteIds m.labelIds))) }

def insertLabel (m : LoadedMessage) (db : Tables) (rid : LabelId) : Tables :=
  match db.labels.remoteIdCounterpart rid with
  | none => db
  | some l =>
      { db with messageLabels := insert (m.localId, l) db.messageLabels }

/-- The attachments have been loaded, so that all of them have rows. -/
def updateFromMessage (m : LoadedMessage) : Tables :=
  { db with
    attachments := db.attachments.map (fun a =>
      if a.localId ∈ m.attachmentsMetadata then
        { a with
          localAddressId := some m.localAddressId
          remoteAddressId := some m.remoteAddressId
          localMessageId := some m.localId
          remoteMessageId := m.remoteId }
      else a)
    messageAttachmentsMetadata := db.messageAttachmentsMetadata ∪
      (m.attachmentsMetadata.map (fun a => (m.localId, a))).toFinset }

/-- The rows of any message that have one of the attachments. -/
def deleteOtherAttachments (m : LoadedMessage) : Tables :=
  let removed := (db.attachments.filter (fun a =>
    (m.localId, a.localId) ∈ db.messageAttachmentsMetadata ∧
      a.disposition = Disposition.attachment ∧
      a.attachmentType ≠ AttachmentType.pgp ∧
      a.localId ∉ m.attachmentsMetadata)).map Attachment.localId
  { db with
    messageAttachmentsMetadata :=
      db.messageAttachmentsMetadata.filter (fun p => p.2 ∉ removed) }

def messageAfterSave (m : LoadedMessage) : Tables :=
  let db := m.labelIds.foldl (insertLabel m) (db.deleteOtherLabels m)
  (db.updateFromMessage m).deleteOtherAttachments m

def saveMessage (m : LoadedMessage) : Tables :=
  let m := db.messageBeforeSave m
  messageAfterSave
    { db with
      messages := db.messages.map (fun row =>
        if row.localId = m.localId then m.toStoredMessage else row) } m

def setMessageUnread (id : LocalMessageId) (unread : Bool) :
    Option Tables := do
  let m <- db.loadMessage id
  some (db.saveMessage { m with unread := unread })

end Tables

/-!
# Conversations
-/

structure LoadedConversation extends StoredConversation where
  labels : List ConversationLabelRow
  attachmentsMetadata : List LocalAttachmentId
  deriving DecidableEq, Repr

namespace Tables

variable (db : Tables)

def conversationAttachmentMetadata (c : LocalConversationId) :
    List Attachment :=
  db.attachments.filter (fun a =>
    (c, a.localId) ∈ db.conversationAttachments ∧
      a.disposition = Disposition.attachment)

def loadConversation (c : LocalConversationId) : Option LoadedConversation :=
  (db.conversations.find? (fun row => row.localId = c)).map (fun row =>
    { row with
      labels := db.conversationLabels.filter (fun r =>
        r.localConversationId = c)
      attachmentsMetadata :=
        (db.conversationAttachmentMetadata c).map Attachment.localId })

def conversationBeforeSave (c : LoadedConversation) : LoadedConversation :=
  match c.remoteId with
  | none => c
  | some rid =>
      match db.conversations.find? (fun c' => c'.remoteId = some rid) with
      | none => c
      | some existing => { c with localId := existing.localId }

/--
`remote_label_id NOT IN (..)`: for `NULL` it only holds of a list without
elements.
-/
def isOtherRow (labelIds : List LabelId) (r : ConversationLabelRow) : Bool :=
  match r.remoteLabelId with
  | none => labelIds = []
  | some rid => rid ∉ labelIds

def deleteOtherRows (c : LoadedConversation) : Tables :=
  { db with
    conversationLabels := db.conversationLabels.filter (fun r =>
      ¬ (r.localConversationId = c.localId ∧
        (c.labels ≠ [] -> isOtherRow (c.labels.filterMap
          ConversationLabelRow.remoteLabelId) r))) }

def updateFromConversation (c : LoadedConversation) : Tables :=
  { db with
    attachments := db.attachments.map (fun a =>
      if a.localId ∈ c.attachmentsMetadata then
        { a with
          localConversationId := some c.localId
          remoteConversationId := c.remoteId }
      else a)
    conversationAttachments := (db.conversationAttachments ∪
      (c.attachmentsMetadata.map (fun a => (c.localId, a))).toFinset).filter
        (fun p => ¬ (p.1 = c.localId ∧ p.2 ∉ c.attachmentsMetadata)) }

/-- Saves a row of labels, to the row with the same conversation and label. -/
def saveConversationLabel (db : Tables) (row : ConversationLabelRow) :
    Option Tables := do
  let rid <- row.remoteLabelId
  let label <- db.labels.remoteIdCounterpart rid
  let existing := db.conversationLabels.find? (fun r =>
    r.localLabelId = label ∧ r.localConversationId = row.localConversationId)
  let id := (existing.map ConversationLabelRow.localId).getD row.localId
  if id ∈ db.conversationLabels.map ConversationLabelRow.localId then
    some { db with
      conversationLabels := db.conversationLabels.map (fun r =>
        if r.localId = id then
          { row with localId := id, localLabelId := label }
        else r) }
  else
    some { db with
      conversationLabels := db.conversationLabels ++
        [{ row with
          localId := db.nextConversationLabel
          localLabelId := label }]
      nextConversationLabel := db.nextConversationLabel + 1 }

def conversationAfterSave (c : LoadedConversation) : Option Tables :=
  (c.labels.map (fun r => { r with localConversationId := c.localId })).foldlM
    saveConversationLabel ((db.deleteOtherRows c).updateFromConversation c)

def saveConversation (c : LoadedConversation) : Option Tables :=
  let c := db.conversationBeforeSave c
  conversationAfterSave
    { db with
      conversations := db.conversations.map (fun row =>
        if row.localId = c.localId then c.toStoredConversation else row) } c

def setConversationNumUnread (c : LocalConversationId) (numUnread : Nat) :
    Option Tables := do
  let conversation <- db.loadConversation c
  db.saveConversation { conversation with numUnread := numUnread }

end Tables

/-!
# What a save of a loaded message writes
-/

section Lists

variable {α β σ : Type}

theorem mapM_eq_some_iff {f : α -> Option β} {xs : List α} {ys : List β} :
    xs.mapM f = some ys ↔ xs.map f = ys.map some := by
  induction xs generalizing ys with
  | nil =>
      rw [List.mapM_nil, List.map_nil]
      constructor
      · intro h
        cases h
        rfl
      · intro h
        rw [List.map_eq_nil_iff.mp h.symm]
        rfl
  | cons x rest ih =>
      rw [List.mapM_cons, List.map_cons]
      constructor
      · intro h
        rcases Option.bind_eq_some_iff.mp h with ⟨y, hy, h⟩
        rcases Option.bind_eq_some_iff.mp h with ⟨others, hothers, h⟩
        cases h
        rw [hy, ih.mp hothers, List.map_cons]
      · intro h
        cases ys with
        | nil => cases h
        | cons y others =>
            rcases List.cons_eq_cons.mp h with ⟨hy, hothers⟩
            rw [hy, ih.mpr hothers]
            rfl

theorem exists_mapM_iff {f : α -> Option β} {xs : List α} :
    (exists ys, xs.mapM f = some ys) ↔ forall x, x ∈ xs -> f x ≠ none := by
  constructor
  · intro h x hx hnone
    rcases h with ⟨ys, hys⟩
    have hmem : f x ∈ ys.map some := by
      rw [<- mapM_eq_some_iff.mp hys]
      exact List.mem_map_of_mem hx
    rcases List.mem_map.mp hmem with ⟨y, _, hy⟩
    rw [hnone] at hy
    cases hy
  · intro h
    induction xs with
    | nil => exact ⟨[], rfl⟩
    | cons x rest ih =>
        rcases Option.ne_none_iff_exists'.mp (h x List.mem_cons_self) with
          ⟨y, hy⟩
        rcases ih (fun z hz => h z (List.mem_cons_of_mem x hz)) with
          ⟨others, hothers⟩
        refine ⟨y :: others, mapM_eq_some_iff.mpr ?_⟩
        rw [List.map_cons, hy, mapM_eq_some_iff.mp hothers, List.map_cons]

theorem find_of_unique {κ : Type} [DecidableEq κ] {key : α -> κ}
    {xs : List α} (hunique : (xs.map key).Nodup) {x : α} (hx : x ∈ xs) :
    xs.find? (fun y => key y = key x) = some x := by
  cases hfind : xs.find? (fun y => key y = key x) with
  | none =>
      exact absurd (decide_eq_true rfl) (List.find?_eq_none.mp hfind x hx)
  | some y =>
      have hkey : key y = key x := by
        simpa using List.find?_some hfind
      rw [List.inj_on_of_nodup_map hunique (List.mem_of_find?_eq_some hfind)
        hx hkey]

theorem map_eq_self_iff {f : α -> α} {xs : List α} :
    xs.map f = xs ↔ forall x, x ∈ xs -> f x = x := by
  have h := @List.map_inj_left _ _ xs f id
  rw [List.map_id] at h
  exact h

theorem foldlM_eq_self {f : σ -> α -> Option σ} {s : σ} {xs : List α}
    (h : forall x, x ∈ xs -> f s x = some s) : xs.foldlM f s = some s := by
  induction xs with
  | nil => rfl
  | cons x rest ih =>
      rw [List.foldlM_cons, h x List.mem_cons_self, Option.bind_eq_bind,
        Option.bind_some]
      exact ih (fun y hy => h y (List.mem_cons_of_mem x hy))

end Lists

namespace Tables

variable {db : Tables} {row : StoredMessage} {m : LoadedMessage}
  {id : LocalMessageId} {l : LocalLabelId} {rid : LabelId}

theorem insertLabels_eq (m : LoadedMessage) (labelIds : List LabelId)
    (db : Tables) :
    labelIds.foldl (insertLabel m) db =
      { db with
        messageLabels := db.messageLabels ∪
          ((labelIds.filterMap db.labels.remoteIdCounterpart).map
            (fun l => (m.localId, l))).toFinset } := by
  induction labelIds generalizing db with
  | nil =>
      rw [List.filterMap_nil, List.map_nil, List.toFinset_nil,
        Finset.union_empty]
      rfl
  | cons rid rest ih =>
      rw [List.foldl_cons, ih]
      unfold insertLabel
      cases hl : db.labels.remoteIdCounterpart rid with
      | none => rw [List.filterMap_cons_none hl]
      | some l =>
          rw [List.filterMap_cons_some hl, List.map_cons,
            List.toFinset_cons, Finset.union_insert, Finset.insert_union]

theorem mem_labelsWithRemoteIds {labelIds : List LabelId} :
    l ∈ db.labelsWithRemoteIds labelIds ↔
      exists rid, rid ∈ labelIds ∧
        db.labels.remoteIdCounterpart rid = some l := by
  unfold labelsWithRemoteIds
  rw [List.mem_map]
  constructor
  · intro h
    rcases h with ⟨r, hr, hlocal⟩
    rcases List.mem_filter.mp hr with ⟨hr, hremote⟩
    rcases List.mem_map.mp (List.contains_iff_mem.mp hremote) with
      ⟨rid, hrid, hsame⟩
    exact ⟨rid, hrid, LabelTable.remoteIdCounterpart_iff.mpr
      ⟨r, hr, hsame.symm, hlocal⟩⟩
  · intro h
    rcases h with ⟨rid, hrid, hl⟩
    rcases LabelTable.remoteIdCounterpart_iff.mp hl with
      ⟨r, hr, hremote, hlocal⟩
    refine ⟨r, List.mem_filter.mpr ⟨hr, List.contains_iff_mem.mpr ?_⟩, hlocal⟩
    rw [hremote]
    exact List.mem_map_of_mem hrid

theorem messageLabels_saved {p : LocalMessageId × LocalLabelId} :
    p ∈ (m.labelIds.foldl (insertLabel m)
        (db.deleteOtherLabels m)).messageLabels ↔
      (p.1 ≠ m.localId ∧ p ∈ db.messageLabels) ∨
        (p.1 = m.localId ∧ p.2 ∈ db.labelsWithRemoteIds m.labelIds) := by
  have hinserted : p ∈ ((m.labelIds.filterMap
      db.labels.remoteIdCounterpart).map (fun l => (m.localId, l))).toFinset ↔
      p.1 = m.localId ∧ p.2 ∈ db.labelsWithRemoteIds m.labelIds := by
    rw [List.mem_toFinset, List.mem_map, mem_labelsWithRemoteIds]
    constructor
    · intro h
      rcases h with ⟨l, hl, rfl⟩
      exact ⟨rfl, List.mem_filterMap.mp hl⟩
    · intro h
      exact ⟨p.2, List.mem_filterMap.mpr h.right, Prod.ext h.left.symm rfl⟩
  rw [insertLabels_eq]
  change p ∈ _ ∪ _ ↔ _
  rw [Finset.mem_union]
  refine (or_congr_right hinserted).trans ?_
  unfold deleteOtherLabels
  dsimp only
  rw [Finset.mem_filter]
  constructor
  · intro h
    rcases h with ⟨hp, hkept⟩ | h
    · by_cases hself : p.1 = m.localId
      · by_contra hlost
        refine hkept ⟨hself, fun _ hlabel => hlost (Or.inr ⟨hself, hlabel⟩)⟩
      · exact Or.inl ⟨hself, hp⟩
    · exact Or.inr h
  · intro h
    rcases h with ⟨hother, hp⟩ | h
    · exact Or.inl ⟨hp, fun hself => hother hself.left⟩
    · exact Or.inr h

theorem messageAfterSave_attachments :
    (db.messageAfterSave m).attachments =
      (db.updateFromMessage m).attachments := by
  unfold messageAfterSave
  rw [insertLabels_eq]
  rfl

theorem messageAfterSave_others :
    (db.messageAfterSave m).labels = db.labels ∧
      (db.messageAfterSave m).conversationLabels = db.conversationLabels ∧
      (db.messageAfterSave m).conversationAttachments =
        db.conversationAttachments := by
  unfold messageAfterSave
  rw [insertLabels_eq]
  exact ⟨rfl, rfl, rfl⟩

theorem updateFromMessage_metadata
    (hknown : forall a, a ∈ m.attachmentsMetadata ->
      (m.localId, a) ∈ db.messageAttachmentsMetadata) :
    (db.updateFromMessage m).messageAttachmentsMetadata =
      db.messageAttachmentsMetadata := by
  refine Finset.union_eq_left.mpr ?_
  intro p hp
  rcases List.mem_map.mp (List.mem_toFinset.mp hp) with ⟨a, ha, rfl⟩
  exact hknown a ha

theorem deleteOtherAttachments_metadata
    (hall : forall a, a ∈ db.attachments ->
      (m.localId, a.localId) ∈ db.messageAttachmentsMetadata ->
      a.disposition = Disposition.attachment ->
      a.localId ∈ m.attachmentsMetadata) :
    (db.deleteOtherAttachments m).messageAttachmentsMetadata =
      db.messageAttachmentsMetadata := by
  refine Finset.filter_true_of_mem ?_
  intro p _ hremoved
  rcases List.mem_map.mp hremoved with ⟨a, ha, _⟩
  rcases List.mem_filter.mp ha with ⟨ha, hother⟩
  have hother' := of_decide_eq_true hother
  exact hother'.right.right.right
    (hall a ha hother'.left hother'.right.left)

theorem mem_updateFromMessage {a : Attachment}
    (ha : a ∈ (db.updateFromMessage m).attachments) :
    exists old, old ∈ db.attachments ∧ old.localId = a.localId ∧
      old.disposition = a.disposition := by
  rcases List.mem_map.mp ha with ⟨old, hold, rfl⟩
  refine ⟨old, hold, ?_, ?_⟩
  · split
    · rfl
    · rfl
  · split
    · rfl
    · rfl

theorem messageAfterSave_metadata
    (hloaded : m.attachmentsMetadata =
      (db.messageAttachmentMetadata m.localId).map Attachment.localId) :
    (db.messageAfterSave m).messageAttachmentsMetadata =
      db.messageAttachmentsMetadata := by
  have hknown : forall a, a ∈ m.attachmentsMetadata ->
      (m.localId, a) ∈ db.messageAttachmentsMetadata := by
    intro a ha
    rw [hloaded] at ha
    rcases List.mem_map.mp ha with ⟨attachment, hattachment, rfl⟩
    exact (of_decide_eq_true (List.mem_filter.mp hattachment).right).left
  unfold messageAfterSave
  rw [insertLabels_eq]
  dsimp only
  rw [deleteOtherAttachments_metadata]
  · exact updateFromMessage_metadata hknown
  · intro a ha hpair hdisposition
    rcases mem_updateFromMessage ha with ⟨old, hold, hid, hsame⟩
    have hpair' : (m.localId, a.localId) ∈ db.messageAttachmentsMetadata := by
      rw [<- updateFromMessage_metadata hknown]
      exact hpair
    rw [hloaded, <- hid]
    refine List.mem_map_of_mem (List.mem_filter.mpr ⟨hold, ?_⟩)
    rw [hid, hsame]
    exact decide_eq_true ⟨hpair', hdisposition⟩

theorem messageBeforeSave_eq (hkeys : db.Keys) (hrow : row ∈ db.messages)
    (hid : m.localId = row.localId) (hrid : m.remoteId = row.remoteId) :
    db.messageBeforeSave m = m := by
  unfold messageBeforeSave
  cases hremote : m.remoteId with
  | none => rfl
  | some rid =>
      dsimp only
      cases hfind : db.messages.find? (fun m' => m'.remoteId = some rid) with
      | none => rfl
      | some existing =>
          have hexisting : existing.remoteId = some rid := by
            simpa using List.find?_some hfind
          have hsame : existing = row := by
            refine hkeys.messages_remote existing row
              (List.mem_of_find?_eq_some hfind) hrow ?_ ?_
            · rw [hexisting]
              exact Option.some_ne_none rid
            · rw [hexisting, <- hrid, hremote]
          dsimp only
          rw [hsame, <- hid, <- hremote]

/-- A message as it is saved after it has been loaded. -/
def changed (db : Tables) (row : StoredMessage) (labelIds : List LabelId)
    (unread : Bool) : LoadedMessage :=
  { row with
    unread := unread
    labelIds := labelIds
    attachmentsMetadata :=
      (db.messageAttachmentMetadata row.localId).map Attachment.localId }

def withMessage (db : Tables) (m : StoredMessage) : Tables :=
  { db with
    messages := db.messages.map (fun row =>
      if row.localId = m.localId then m else row) }

theorem setMessageUnread_eq (hkeys : db.Keys) (hrow : row ∈ db.messages)
    (unread : Bool) :
    db.setMessageUnread row.localId unread =
      ((db.allMessageLabels row.localId).mapM (fun r : LabelRow => r.remoteId)).map
        (fun labelIds =>
          (db.withMessage (db.changed row labelIds
            unread).toStoredMessage).messageAfterSave
              (db.changed row labelIds unread)) := by
  unfold setMessageUnread loadMessage
  rw [find_of_unique hkeys.messages_unique hrow]
  cases hlabels : (db.allMessageLabels row.localId).mapM
      (fun r : LabelRow => r.remoteId) with
  | none => rfl
  | some labelIds =>
      rw [Option.map_some]
      change some (db.saveMessage (db.changed row labelIds unread)) = _
      unfold saveMessage
      rw [messageBeforeSave_eq hkeys hrow rfl rfl]
      rfl

/-!
# Messages
-/

def MessageKept (db : Tables) (id : LocalMessageId) (unread : Bool) : Prop :=
  exists db', db.setMessageUnread id unread = some db' ∧ SameRelations db db'

/-- No label of the message is hidden or unknown to the server. -/
def LabelsVisible (db : Tables) (id : LocalMessageId) : Prop :=
  forall r, r ∈ db.labels.rows -> (id, r.localId) ∈ db.messageLabels ->
    r.deleted = 0 ∧ r.remoteId ≠ none

/-- The attachments of the message name it, and no other one. -/
def OwnsAttachments (db : Tables) (m : StoredMessage) : Prop :=
  forall a, a ∈ db.attachments ->
    (m.localId, a.localId) ∈ db.messageAttachmentsMetadata ->
    a.disposition = Disposition.attachment ->
    a.localAddressId = some m.localAddressId ∧
      a.remoteAddressId = some m.remoteAddressId ∧
      a.localMessageId = some m.localId ∧ a.remoteMessageId = m.remoteId

theorem mem_allMessageLabels {r : LabelRow} :
    r ∈ db.allMessageLabels id ↔
      r ∈ db.labels.rows ∧ (id, r.localId) ∈ db.messageLabels ∧
        r.deleted = 0 := by
  unfold allMessageLabels
  rw [List.mem_filter, decide_eq_true_eq]

theorem mem_loaded_labels {labelIds : List LabelId}
    (hload : (db.allMessageLabels id).mapM (fun r : LabelRow => r.remoteId) =
      some labelIds) :
    l ∈ db.labelsWithRemoteIds labelIds ↔
      exists r, r ∈ db.allMessageLabels id ∧ r.localId = l := by
  have hmap := mapM_eq_some_iff.mp hload
  rw [mem_labelsWithRemoteIds]
  constructor
  · intro h
    rcases h with ⟨rid, hrid, hl⟩
    have hmem : some rid ∈ (db.allMessageLabels id).map
        (fun r => r.remoteId) := by
      rw [hmap]
      exact List.mem_map_of_mem hrid
    rcases List.mem_map.mp hmem with ⟨r, hr, hremote⟩
    refine ⟨r, hr, Option.some.inj (Eq.trans ?_ hl)⟩
    exact (LabelTable.remoteIdCounterpart_iff.mpr
      ⟨r, (mem_allMessageLabels.mp hr).left, hremote, rfl⟩).symm
  · intro h
    rcases h with ⟨r, hr, hl⟩
    have hmem : r.remoteId ∈ labelIds.map some := by
      rw [<- hmap]
      exact List.mem_map_of_mem hr
    rcases List.mem_map.mp hmem with ⟨rid, hrid, hremote⟩
    exact ⟨rid, hrid, LabelTable.remoteIdCounterpart_iff.mpr
      ⟨r, (mem_allMessageLabels.mp hr).left, hremote.symm, hl⟩⟩

theorem messageLabels_kept_iff
    (hknown : forall p, p ∈ db.messageLabels -> p.2 ∈ db.labels.ids)
    {labelIds : List LabelId}
    (hload : (db.allMessageLabels id).mapM (fun r : LabelRow => r.remoteId) =
      some labelIds) (hid : m.localId = id) (hlabels : m.labelIds = labelIds) :
    (m.labelIds.foldl (insertLabel m)
        (db.deleteOtherLabels m)).messageLabels = db.messageLabels ↔
      forall r, r ∈ db.labels.rows -> (id, r.localId) ∈ db.messageLabels ->
        r.deleted = 0 := by
  constructor
  · intro h r hr hpair
    rw [<- h, messageLabels_saved] at hpair
    rcases hpair with hother | hself
    · exact absurd hid.symm hother.left
    · have hlabel := hself.right
      rw [hlabels] at hlabel
      rcases (mem_loaded_labels hload).mp hlabel with ⟨r', hr', hlocal⟩
      have hr'' := mem_allMessageLabels.mp hr'
      rw [<- LabelTable.row_unique _ hr''.left hr hlocal]
      exact hr''.right.right
  · intro h
    refine Finset.ext ?_
    intro p
    rw [messageLabels_saved, hlabels, mem_loaded_labels hload, hid]
    constructor
    · intro hp
      rcases hp with hother | ⟨hself, r, hr, hlocal⟩
      · exact hother.right
      · have hpair := (mem_allMessageLabels.mp hr).right.left
        rw [hlocal, <- hself] at hpair
        exact hpair
    · intro hp
      by_cases hself : p.1 = id
      · refine Or.inr ⟨hself, ?_⟩
        rcases List.mem_map.mp (hknown p hp) with ⟨r, hr, hlocal⟩
        have hpair : (id, r.localId) ∈ db.messageLabels := by
          rw [hlocal, <- hself]
          exact hp
        exact ⟨r, mem_allMessageLabels.mpr ⟨hr, hpair, h r hr hpair⟩, hlocal⟩
      · exact Or.inl ⟨hself, hp⟩

theorem labels_kept_iff (hkeys : db.Keys) (hrow : row ∈ db.messages)
    (unread : Bool) :
    (exists db', db.setMessageUnread row.localId unread = some db' ∧
        db'.messageLabels = db.messageLabels) ↔
      db.LabelsVisible row.localId := by
  have hkept : forall labelIds, (db.allMessageLabels row.localId).mapM
      (fun r : LabelRow => r.remoteId) = some labelIds ->
      (((db.withMessage (db.changed row labelIds
        unread).toStoredMessage).messageAfterSave (db.changed row labelIds
          unread)).messageLabels = db.messageLabels ↔
        forall r, r ∈ db.labels.rows ->
          (row.localId, r.localId) ∈ db.messageLabels -> r.deleted = 0) :=
    fun labelIds hload => @messageLabels_kept_iff
      (db.withMessage (db.changed row labelIds unread).toStoredMessage)
      (db.changed row labelIds unread) row.localId hkeys.label_known labelIds
      hload rfl rfl
  rw [setMessageUnread_eq hkeys hrow]
  constructor
  · intro h r hr hpair
    rcases h with ⟨db', hsave, hsame⟩
    rcases Option.map_eq_some_iff.mp hsave with ⟨labelIds, hload, rfl⟩
    have hdeleted := (hkept labelIds hload).mp hsame r hr hpair
    exact ⟨hdeleted, exists_mapM_iff.mp ⟨labelIds, hload⟩ r
      (mem_allMessageLabels.mpr ⟨hr, hpair, hdeleted⟩)⟩
  · intro h
    have hremote : forall r, r ∈ db.allMessageLabels row.localId ->
        r.remoteId ≠ none := by
      intro r hr
      have hr' := mem_allMessageLabels.mp hr
      exact (h r hr'.left hr'.right.left).right
    rcases exists_mapM_iff.mpr hremote with ⟨labelIds, hload⟩
    rw [hload]
    exact ⟨_, rfl, (hkept labelIds hload).mpr
      (fun r hr hpair => (h r hr hpair).left)⟩

theorem mem_messageAttachmentMetadata {a : Attachment} :
    a ∈ db.messageAttachmentMetadata id ↔
      a ∈ db.attachments ∧ (id, a.localId) ∈ db.messageAttachmentsMetadata ∧
        a.disposition = Disposition.attachment := by
  unfold messageAttachmentMetadata
  rw [List.mem_filter, decide_eq_true_eq]

theorem attachments_kept_iff (hkeys : db.Keys) {labelIds : List LabelId}
    {unread : Bool} :
    ((db.withMessage (db.changed row labelIds
        unread).toStoredMessage).messageAfterSave (db.changed row labelIds
          unread)).attachments = db.attachments ↔
      db.OwnsAttachments row := by
  rw [messageAfterSave_attachments]
  refine map_eq_self_iff.trans ?_
  constructor
  · intro h a ha hpair hdisposition
    have hloaded : a.localId ∈
        (db.changed row labelIds unread).attachmentsMetadata :=
      List.mem_map_of_mem
        (mem_messageAttachmentMetadata.mpr ⟨ha, hpair, hdisposition⟩)
    have hsame := h a ha
    rw [if_pos hloaded] at hsame
    rw [<- hsame]
    exact ⟨rfl, rfl, rfl, rfl⟩
  · intro h a ha
    by_cases hloaded : a.localId ∈
        (db.changed row labelIds unread).attachmentsMetadata
    · rw [if_pos hloaded]
      rcases List.mem_map.mp hloaded with ⟨a', ha', hid⟩
      rcases mem_messageAttachmentMetadata.mp ha' with
        ⟨ha', hpair, hdisposition⟩
      have hsame : a' = a :=
        List.inj_on_of_nodup_map hkeys.attachments_unique ha' ha hid
      rw [hsame] at hpair hdisposition
      rcases h a ha hpair hdisposition with
        ⟨haddress, haddressId, hmessage, hmessageId⟩
      change { a with
        localAddressId := some row.localAddressId
        remoteAddressId := some row.remoteAddressId
        localMessageId := some row.localId
        remoteMessageId := row.remoteId } = a
      rw [<- haddress, <- haddressId, <- hmessage, <- hmessageId]
    · rw [if_neg hloaded]

theorem messageKept_iff (hkeys : db.Keys) (hrow : row ∈ db.messages)
    (unread : Bool) :
    db.MessageKept row.localId unread ↔
      db.LabelsVisible row.localId ∧ db.OwnsAttachments row := by
  constructor
  · intro h
    rcases h with ⟨db', hsave, hsame⟩
    refine ⟨(labels_kept_iff hkeys hrow unread).mp
      ⟨db', hsave, hsame.messageLabels⟩, ?_⟩
    rw [setMessageUnread_eq hkeys hrow] at hsave
    rcases Option.map_eq_some_iff.mp hsave with ⟨labelIds, _, rfl⟩
    exact (attachments_kept_iff hkeys).mp hsame.attachments
  · intro h
    rcases (labels_kept_iff hkeys hrow unread).mpr h.left with
      ⟨db', hsave, hlabels⟩
    refine ⟨db', hsave, ?_⟩
    rw [setMessageUnread_eq hkeys hrow] at hsave
    rcases Option.map_eq_some_iff.mp hsave with ⟨labelIds, _, rfl⟩
    have hothers := @messageAfterSave_others
      (db.withMessage (db.changed row labelIds unread).toStoredMessage)
      (db.changed row labelIds unread)
    exact
      { labels := hothers.left
        messageLabels := hlabels
        conversationLabels := hothers.right.left
        attachments := (attachments_kept_iff hkeys).mpr h.right
        messageAttachmentsMetadata := messageAfterSave_metadata rfl
        conversationAttachments := hothers.right.right }

end Tables

/-!
# Conversations
-/

namespace Tables

variable {db : Tables} {row : StoredConversation} {c : LoadedConversation}

def ConversationKept (db : Tables) (c : LocalConversationId)
    (numUnread : Nat) : Prop :=
  exists db', db.setConversationNumUnread c numUnread = some db' ∧
    SameRelations db db'

/-- All attachments of the conversation are listed, and they name it. -/
def OwnsListedAttachments (db : Tables) (c : StoredConversation) : Prop :=
  forall a, a ∈ db.attachments ->
    (c.localId, a.localId) ∈ db.conversationAttachments ->
    a.disposition = Disposition.attachment ∧
      a.localConversationId = some c.localId ∧
      a.remoteConversationId = c.remoteId

theorem conversationBeforeSave_eq (hkeys : db.Keys)
    (hrow : row ∈ db.conversations) (hid : c.localId = row.localId)
    (hrid : c.remoteId = row.remoteId) : db.conversationBeforeSave c = c := by
  unfold conversationBeforeSave
  cases hremote : c.remoteId with
  | none => rfl
  | some rid =>
      dsimp only
      cases hfind : db.conversations.find?
          (fun c' => c'.remoteId = some rid) with
      | none => rfl
      | some existing =>
          have hexisting : existing.remoteId = some rid := by
            simpa using List.find?_some hfind
          have hsame : existing = row := by
            refine hkeys.conversations_remote existing row
              (List.mem_of_find?_eq_some hfind) hrow ?_ ?_
            · rw [hexisting]
              exact Option.some_ne_none rid
            · rw [hexisting, <- hrid, hremote]
          dsimp only
          rw [hsame, <- hid, <- hremote]

theorem saveConversationLabel_self {db' : Tables} {r : ConversationLabelRow}
    (hkeys : db.Keys) (hlabels : db'.labels = db.labels)
    (hrows : db'.conversationLabels = db.conversationLabels)
    (hr : r ∈ db.conversationLabels) :
    saveConversationLabel db' r = some db' := by
  rcases hkeys.rows_named r hr with ⟨rid, hremote, hlabel⟩
  have hfind : db.conversationLabels.find? (fun r' =>
      r'.localLabelId = r.localLabelId ∧
        r'.localConversationId = r.localConversationId) = some r := by
    cases hfind : db.conversationLabels.find? (fun r' =>
        r'.localLabelId = r.localLabelId ∧
          r'.localConversationId = r.localConversationId) with
    | none =>
        exact absurd (decide_eq_true ⟨rfl, rfl⟩)
          (List.find?_eq_none.mp hfind r hr)
    | some r' =>
        have hkey : r'.localLabelId = r.localLabelId ∧
            r'.localConversationId = r.localConversationId := by
          simpa using List.find?_some hfind
        rw [hkeys.rows_unique r' r (List.mem_of_find?_eq_some hfind) hr
          hkey.right hkey.left]
  have hmap : db.conversationLabels.map (fun r' =>
      if r'.localId = r.localId then r else r') = db.conversationLabels := by
    refine map_eq_self_iff.mpr ?_
    intro r' hr'
    by_cases hid : r'.localId = r.localId
    · rw [if_pos hid,
        List.inj_on_of_nodup_map hkeys.rowIds_unique hr' hr hid]
    · rw [if_neg hid]
  unfold saveConversationLabel
  rw [hremote, hlabels, hrows]
  change (db.labels.remoteIdCounterpart rid).bind _ = _
  rw [hlabel, Option.bind_some]
  dsimp only
  rw [hfind, Option.map_some, Option.getD_some,
    if_pos (List.mem_map_of_mem hr), <- hremote]
  change some { db' with
    labels := db.labels
    conversationLabels := db.conversationLabels.map (fun r' =>
      if r'.localId = r.localId then r else r') } = some db'
  rw [hmap, <- hlabels, <- hrows]

def changedConversation (db : Tables) (row : StoredConversation)
    (numUnread : Nat) : LoadedConversation :=
  { row with
    numUnread := numUnread
    labels := db.conversationLabels.filter (fun r =>
      r.localConversationId = row.localId)
    attachmentsMetadata :=
      (db.conversationAttachmentMetadata row.localId).map
        Attachment.localId }

def withConversation (db : Tables) (c : StoredConversation) : Tables :=
  { db with
    conversations := db.conversations.map (fun row =>
      if row.localId = c.localId then c else row) }

theorem deleteOtherRows_eq {db' : Tables} {numUnread : Nat}
    (hkeys : db.Keys)
    (hrows : db'.conversationLabels = db.conversationLabels) :
    (db'.deleteOtherRows
      (db.changedConversation row numUnread)).conversationLabels =
        db.conversationLabels := by
  unfold deleteOtherRows
  dsimp only
  rw [hrows]
  refine List.filter_eq_self.mpr ?_
  intro r hr
  refine decide_eq_true ?_
  intro h
  rcases h with ⟨hconversation, hother⟩
  rcases hkeys.rows_named r hr with ⟨rid, hremote, _⟩
  have hloaded : r ∈ (db.changedConversation row numUnread).labels :=
    List.mem_filter.mpr ⟨hr, decide_eq_true hconversation⟩
  have hlost := hother (List.ne_nil_of_mem hloaded)
  unfold isOtherRow at hlost
  rw [hremote] at hlost
  exact of_decide_eq_true hlost
    (List.mem_filterMap.mpr ⟨r, hloaded, hremote⟩)

theorem setConversationNumUnread_eq (hkeys : db.Keys)
    (hrow : row ∈ db.conversations) (numUnread : Nat) :
    db.setConversationNumUnread row.localId numUnread =
      some ((db.withConversation (db.changedConversation row
        numUnread).toStoredConversation).updateFromConversation
          (db.changedConversation row numUnread)) := by
  let c := db.changedConversation row numUnread
  let db' := db.withConversation c.toStoredConversation
  have hdeleted : db'.deleteOtherRows c = db' := by
    have hrows := @deleteOtherRows_eq db row db' numUnread hkeys rfl
    change { db' with
      conversationLabels := (db'.deleteOtherRows c).conversationLabels } = db'
    rw [hrows]
    rfl
  have hsaved : db'.conversationAfterSave c =
      some (db'.updateFromConversation c) := by
    unfold conversationAfterSave
    rw [hdeleted]
    refine foldlM_eq_self ?_
    intro r hr
    rcases List.mem_map.mp hr with ⟨r', hr', rfl⟩
    rcases List.mem_filter.mp hr' with ⟨hmem, hconversation⟩
    have hsame : { r' with localConversationId := c.localId } = r' := by
      have hid : r'.localConversationId = c.localId :=
        of_decide_eq_true hconversation
      rw [<- hid]
    rw [hsame]
    exact saveConversationLabel_self hkeys rfl rfl hmem
  unfold setConversationNumUnread loadConversation
  rw [find_of_unique hkeys.conversations_unique hrow, Option.map_some]
  change db.saveConversation c = _
  unfold saveConversation
  rw [conversationBeforeSave_eq hkeys hrow rfl rfl]
  exact hsaved

theorem mem_conversationAttachmentMetadata {a : Attachment}
    {id : LocalConversationId} :
    a ∈ db.conversationAttachmentMetadata id ↔
      a ∈ db.attachments ∧ (id, a.localId) ∈ db.conversationAttachments ∧
        a.disposition = Disposition.attachment := by
  unfold conversationAttachmentMetadata
  rw [List.mem_filter, decide_eq_true_eq]

theorem mem_loaded_attachments (hkeys : db.Keys) {numUnread : Nat}
    {a : Attachment} (ha : a ∈ db.attachments) :
    a.localId ∈
        (db.changedConversation row numUnread).attachmentsMetadata ↔
      (row.localId, a.localId) ∈ db.conversationAttachments ∧
        a.disposition = Disposition.attachment := by
  constructor
  · intro h
    rcases List.mem_map.mp h with ⟨a', ha', hid⟩
    rcases mem_conversationAttachmentMetadata.mp ha' with
      ⟨ha', hpair, hdisposition⟩
    rw [List.inj_on_of_nodup_map hkeys.attachments_unique ha' ha hid]
      at hpair hdisposition
    exact ⟨hpair, hdisposition⟩
  · intro h
    exact List.mem_map_of_mem
      (mem_conversationAttachmentMetadata.mpr ⟨ha, h.left, h.right⟩)

theorem conversationKept_iff (hkeys : db.Keys)
    (hrow : row ∈ db.conversations) (numUnread : Nat) :
    db.ConversationKept row.localId numUnread ↔
      db.OwnsListedAttachments row := by
  unfold ConversationKept
  rw [setConversationNumUnread_eq hkeys hrow]
  constructor
  · intro h a ha hpair
    rcases h with ⟨db', hsave, hsame⟩
    cases hsave
    have hkept := hpair
    rw [<- hsame.conversationAttachments] at hkept
    have hloaded : a.localId ∈
        (db.changedConversation row numUnread).attachmentsMetadata := by
      by_contra hother
      exact (Finset.mem_filter.mp hkept).right ⟨rfl, hother⟩
    have hwritten := map_eq_self_iff.mp hsame.attachments a ha
    rw [if_pos hloaded] at hwritten
    refine ⟨((mem_loaded_attachments hkeys ha).mp hloaded).right, ?_⟩
    rw [<- hwritten]
    exact ⟨rfl, rfl⟩
  · intro h
    refine ⟨_, rfl, rfl, rfl, rfl, ?_, rfl, ?_⟩
    · refine map_eq_self_iff.mpr ?_
      intro a ha
      by_cases hloaded : a.localId ∈
          (db.changedConversation row numUnread).attachmentsMetadata
      · rw [if_pos hloaded]
        rcases h a ha ((mem_loaded_attachments hkeys ha).mp hloaded).left with
          ⟨_, hconversation, hremote⟩
        change { a with
          localConversationId := some row.localId
          remoteConversationId := row.remoteId } = a
        rw [<- hconversation, <- hremote]
      · rw [if_neg hloaded]
    · refine Finset.ext ?_
      intro p
      refine Finset.mem_filter.trans ?_
      constructor
      · intro hp
        rcases Finset.mem_union.mp hp.left with hp | hp
        · exact hp
        · rcases List.mem_map.mp (List.mem_toFinset.mp hp) with ⟨id, hid, rfl⟩
          rcases List.mem_map.mp hid with ⟨a, ha, rfl⟩
          exact (mem_conversationAttachmentMetadata.mp ha).right.left
      · intro hp
        refine ⟨Finset.mem_union_left _ hp, ?_⟩
        intro hlost
        rcases hlost with ⟨hself, hother⟩
        rcases List.mem_map.mp (hkeys.attachment_known p hp) with
          ⟨a, ha, hid⟩
        have hself' : p.1 = row.localId := hself
        have hpair : (row.localId, a.localId) ∈
            db.conversationAttachments := by
          rw [hid, <- hself']
          exact hp
        rw [<- hid] at hother
        exact hother ((mem_loaded_attachments hkeys ha).mpr
          ⟨hpair, (h a ha hpair).left⟩)

end Tables

/-!
# Reading a message of a label that is being deleted
-/

namespace Tables

variable {db : Tables} {row : StoredMessage}

def withLabels (db : Tables) (labels : LabelTable) : Tables :=
  { db with labels := labels }

/-- The label is deleted, a message is read, and the deletion is undone. -/
def SurvivesDeletion (db : Tables) (action : Labels.Delete)
    (id : LocalMessageId) : Prop :=
  exists db', (db.withLabels
      (action.applyLocal db.labels).2).setMessageUnread id false = some db' ∧
    (db'.withLabels ((action.applyLocal db.labels).1.revertLocal
      db'.labels).2).messageLabels = db.messageLabels

/-- The labels that a deletion hides. -/
def hiddenBy (db : Tables) (action : Labels.Delete) : List LocalLabelId :=
  db.labels.findDescendants action.localId ++ [action.localId]

theorem Keys.markDeleted (hkeys : db.Keys) (ids : List LocalLabelId)
    (deleted : Bool) :
    (db.withLabels (db.labels.markDeleted ids deleted)).Keys where
  messages_unique := hkeys.messages_unique
  messages_remote := hkeys.messages_remote
  conversations_unique := hkeys.conversations_unique
  conversations_remote := hkeys.conversations_remote
  attachments_unique := hkeys.attachments_unique
  label_known := by
    intro p hp
    rcases List.mem_map.mp (hkeys.label_known p hp) with ⟨r, hr, hlocal⟩
    refine List.mem_map.mpr ⟨LabelTable.markRow ids deleted r,
      List.mem_map_of_mem hr, ?_⟩
    rw [(LabelTable.markRow_data ids deleted r).left, hlocal]
  attachment_known := hkeys.attachment_known
  rows_unique := hkeys.rows_unique
  rowIds_unique := hkeys.rowIds_unique
  rows_named := by
    intro r hr
    rcases hkeys.rows_named r hr with ⟨rid, hremote, hlabel⟩
    refine ⟨rid, hremote, ?_⟩
    rcases LabelTable.remoteIdCounterpart_iff.mp hlabel with
      ⟨label, hmem, hrid, hlocal⟩
    have hdata := LabelTable.markRow_data ids deleted label
    refine LabelTable.remoteIdCounterpart_iff.mpr
      ⟨LabelTable.markRow ids deleted label, List.mem_map_of_mem hmem, ?_, ?_⟩
    · rw [hdata.right, hrid]
    · rw [hdata.left, hlocal]

theorem labelsVisible_marked (ids : List LocalLabelId)
    (id : LocalMessageId) :
    (db.withLabels (db.labels.markDeleted ids true)).LabelsVisible id ↔
      forall r, r ∈ db.labels.rows -> (id, r.localId) ∈ db.messageLabels ->
        (r.deleted = 0 ∧ r.remoteId ≠ none) ∧ r.localId ∉ ids := by
  constructor
  · intro h r hr hpair
    have hdata := LabelTable.markRow_data ids true r
    have hvisible := h (LabelTable.markRow ids true r)
      (List.mem_map_of_mem hr) (by rw [hdata.left]; exact hpair)
    rw [hdata.right] at hvisible
    by_cases hid : r.localId ∈ ids
    · have hdeleted := hvisible.left
      unfold LabelTable.markRow at hdeleted
      rw [if_pos hid] at hdeleted
      exact absurd hdeleted (Nat.succ_ne_zero r.deleted)
    · have hdeleted := hvisible.left
      unfold LabelTable.markRow at hdeleted
      rw [if_neg hid] at hdeleted
      exact ⟨⟨hdeleted, hvisible.right⟩, hid⟩
  · intro h r' hr' hpair
    rcases List.mem_map.mp hr' with ⟨r, hr, rfl⟩
    have hdata := LabelTable.markRow_data ids true r
    rw [hdata.left] at hpair
    rcases h r hr hpair with ⟨hvisible, hid⟩
    rw [hdata.right]
    refine ⟨?_, hvisible.right⟩
    unfold LabelTable.markRow
    rw [if_neg hid]
    exact hvisible.left

theorem survivesDeletion_iff (hkeys : db.Keys) (hrow : row ∈ db.messages)
    (action : Labels.Delete) :
    db.SurvivesDeletion action row.localId ↔
      forall r, r ∈ db.labels.rows ->
        (row.localId, r.localId) ∈ db.messageLabels ->
        (r.deleted = 0 ∧ r.remoteId ≠ none) ∧
          r.localId ∉ db.hiddenBy action := by
  rw [<- labelsVisible_marked]
  exact @labels_kept_iff _ row
    (hkeys.markDeleted (db.hiddenBy action) true) hrow false

end Tables

/--
What saving a loaded entity keeps.  A message loses its hidden labels, and an
attachment that names another owner is taken over.
-/
theorem saving_keeps (db : Database) :
    (forall m, m ∈ db.messages -> forall unread,
      (db.MessageKept m.localId unread ↔
        db.LabelsVisible m.localId ∧ db.OwnsAttachments m)) ∧
      (forall c, c ∈ db.conversations -> forall numUnread,
        (db.ConversationKept c.localId numUnread ↔
          db.OwnsListedAttachments c)) ∧
      (forall m, m ∈ db.messages -> forall action,
        (db.SurvivesDeletion action m.localId ↔
          forall r, r ∈ db.labels.rows ->
            (m.localId, r.localId) ∈ db.messageLabels ->
            (r.deleted = 0 ∧ r.remoteId ≠ none) ∧
              r.localId ∉ db.hiddenBy action)) :=
  ⟨fun _ hm unread => Tables.messageKept_iff db.keys hm unread,
    fun _ hc numUnread => Tables.conversationKept_iff db.keys hc numUnread,
    fun _ hm action => Tables.survivesDeletion_iff db.keys hm action⟩

/-- A message with one label, which is being deleted. -/
def inDeletedLabel : Database where
  labels := LabelTable.ofRows
    [{ localId := 1, remoteId := some "work", deleted := 1 }] 2
    (by decide) (by decide) (by decide)
  messages := [⟨1, some "m", 1, "address", true⟩]
  conversations := []
  messageLabels := {(1, 1)}
  conversationLabels := []
  nextConversationLabel := 1
  attachments := []
  messageAttachmentsMetadata := ∅
  conversationAttachments := ∅
  keys :=
    { messages_unique := by decide
      messages_remote := by
        intro m m' hm hm' _ _
        rw [List.mem_singleton.mp hm, List.mem_singleton.mp hm']
      conversations_unique := by decide
      conversations_remote := fun _ _ h => nomatch h
      attachments_unique := by decide
      label_known := by decide
      attachment_known := fun _ h => absurd h (Finset.notMem_empty _)
      rows_unique := fun _ _ h => nomatch h
      rowIds_unique := by decide
      rows_named := fun _ h => nomatch h }

/-- The message is out of its label once it has been read. -/
theorem reading_removes_label : ¬ inDeletedLabel.MessageKept 1 false := by
  intro h
  have hvisible := ((Tables.messageKept_iff inDeletedLabel.keys
    List.mem_cons_self false).mp h).left
  exact absurd (hvisible _ List.mem_cons_self (by decide)).left (by decide)

end Messages
end MailClient
