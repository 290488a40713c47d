import Mathlib.Data.List.Sort
import MailClient.Foundation.Transition
import MailClient.ActionQueue.Store
import MailClient.Messages.Ids

/-!
# The attachments of a draft

A draft keeps a row in `draft_attachment_metadata` for each of its attachments.
A removal only marks the row until its action has run on the server.  A save
lists the attachments of the draft when it is queued and hands them to the server
when it is executed; a send packs them when it is executed.
-/

namespace MailClient
namespace Drafts

open Foundation
open ActionQueue (ActionId)

inductive DraftAttachmentUploadState where
  | uploading
  | uploaded
  | error
  | offline
  | pending
  | dispositionSwap
  deriving DecidableEq, Repr

inductive DraftAttachmentOwnership where
  | inherited
  | owned
  deriving DecidableEq, Repr

structure DraftAttachmentMetadata where
  localAttachmentId : LocalAttachmentId
  state : DraftAttachmentUploadState
  ownership : DraftAttachmentOwnership := DraftAttachmentOwnership.owned
  displayOrder : Nat := 0
  deleted : Bool := false
  deriving DecidableEq, Repr

structure Attachment where
  localId : LocalAttachmentId
  /-- The attachment has a remote id. -/
  remote : Bool := false
  deriving DecidableEq, Repr

/-!
# Queued actions
-/

inductive DraftAction where
  | upload (id : LocalAttachmentId)
  | remove (id : LocalAttachmentId)
  | save (attachmentIds : List LocalAttachmentId)
  | send
  deriving DecidableEq, Repr

/-- Whether the action records the dependency key of the attachment. -/
def DraftAction.records (id : LocalAttachmentId) : DraftAction -> Bool
  | upload id' => id = id'
  | remove id' => id = id'
  | save _ => false
  | send => false

/-- How far the remote part of an action has come. -/
inductive Progress where
  | waiting
  | uploading
  | removing (ownership : DraftAttachmentOwnership)
  | saving (attachments : List LocalAttachmentId) (create : Bool)
  | sending
  deriving DecidableEq, Repr

structure QueuedDraftAction where
  id : ActionId
  action : DraftAction
  dependencies : List ActionId
  progress : Progress := Progress.waiting
  /-- The files that had been removed when the action was applied. -/
  removed : List LocalAttachmentId
  deriving DecidableEq, Repr

structure Draft where
  attachments : List Attachment
  rows : List DraftAttachmentMetadata
  /-- The attachments that are linked to the message. -/
  linked : List LocalAttachmentId := []
  /-- The row of the draft in `draft_metadata` is there. -/
  metadata : Bool := true
  message : Bool := false
  remoteMessage : Bool := false
  /-- The message carries the flag of a message that is sent or scheduled. -/
  sent : Bool := false
  outbox : Bool := false
  queue : List QueuedDraftAction := []
  nextAttachment : LocalAttachmentId
  nextAction : ActionId := 0
  /-- Attachments that stand for an inherited one, each with its file. -/
  copies : List (LocalAttachmentId × LocalAttachmentId) := []
  /-- The files that the user has removed. -/
  removed : List LocalAttachmentId := []
  deriving DecidableEq, Repr

namespace Draft

/-- The file of an attachment, by the attachment that it was first. -/
def fileOf (s : Draft) (id : LocalAttachmentId) : LocalAttachmentId :=
  (s.copies.lookup id).getD id

def contains (s : Draft) (id : LocalAttachmentId) : Bool :=
  id ∈ s.attachments.map Attachment.localId

def isRemote (s : Draft) (id : LocalAttachmentId) : Bool :=
  { localId := id, remote := true } ∈ s.attachments

/-- The rows of the draft are joined without a look at `deleted`. -/
def attachmentForDraft (s : Draft) : List LocalAttachmentId :=
  ((s.rows.insertionSort (fun r r' => r.displayOrder ≤ r'.displayOrder)).map
    DraftAttachmentMetadata.localAttachmentId).filter s.contains

/-- The attachments of a save that can be passed to the server. -/
def loadAttachments (s : Draft) (ids : List LocalAttachmentId) :
    List LocalAttachmentId :=
  ids.filter s.isRemote

def hasUnsyncedAttachments (s : Draft) : Bool :=
  s.rows.any (fun r =>
    r.state ≠ DraftAttachmentUploadState.uploaded && !r.deleted)

def nextDisplayOrder (s : Draft) : Nat :=
  (s.rows.map DraftAttachmentMetadata.displayOrder).foldl max 0

def setRow (s : Draft) (id : LocalAttachmentId)
    (f : DraftAttachmentMetadata -> DraftAttachmentMetadata) : Draft :=
  { s with
    rows := s.rows.map (fun r => if r.localAttachmentId = id then f r else r) }

def findRow (s : Draft) (id : LocalAttachmentId) :
    Option DraftAttachmentMetadata :=
  s.rows.find? (fun r => r.localAttachmentId = id)

def link (s : Draft) (id : LocalAttachmentId) : Draft :=
  { s with linked := if id ∈ s.linked then s.linked else s.linked ++ [id] }

def unlink (s : Draft) (id : LocalAttachmentId) : Draft :=
  { s with linked := s.linked.filter (fun a => a ≠ id) }

def deleteAttachment (s : Draft) (id : LocalAttachmentId) : Draft :=
  { s with
    attachments := s.attachments.filter (fun a => a.localId ≠ id)
    linked := s.linked.filter (fun a => a ≠ id) }

/-- With the trigger that cleans up attachments that were not uploaded. -/
def deleteRow (s : Draft) (r : DraftAttachmentMetadata) : Draft :=
  let s' : Draft :=
    { s with
      rows := s.rows.filter (fun r' =>
        r'.localAttachmentId ≠ r.localAttachmentId) }
  if r.state = DraftAttachmentUploadState.uploaded then s'
  else s'.deleteAttachment r.localAttachmentId

def enqueue (s : Draft) (action : DraftAction)
    (dependencies : List ActionId) : Draft :=
  { s with
    queue := s.queue ++ [{
      id := s.nextAction
      action := action
      dependencies := dependencies
      removed := s.removed }]
    nextAction := s.nextAction + 1 }

def queueIds (s : Draft) : List ActionId :=
  s.queue.map QueuedDraftAction.id

/-- `Attachment::create_local`, with the row that is made for it. -/
def create (s : Draft) (state : DraftAttachmentUploadState) : Draft :=
  { s with
    attachments := s.attachments ++ [{ localId := s.nextAttachment }]
    rows := s.rows ++ [{
      localAttachmentId := s.nextAttachment
      state := state
      displayOrder := s.nextDisplayOrder }]
    nextAttachment := s.nextAttachment + 1 }

/-- The local part of an upload whose row is there. -/
def uploadLocal (s : Draft) (id : LocalAttachmentId)
    (save : Option ActionId) : Draft :=
  ((s.setRow id (fun r =>
      { r with state := DraftAttachmentUploadState.uploading })).link
    id).enqueue (DraftAction.upload id)
    (save.toList.filter (fun d => d ∈ s.queueIds))

def removeLocal (s : Draft) (id : LocalAttachmentId) : Draft :=
  let marked := (s.unlink id).setRow id (fun r => { r with deleted := true })
  { marked.enqueue (DraftAction.remove id)
      ((s.queue.filter (fun x => x.action.records id)).map
        QueuedDraftAction.id) with
    removed := s.fileOf id :: s.removed }

/-- The part of a save that writes the message and its links. -/
def linkAttachments (s : Draft) : Draft :=
  { s with linked := s.attachmentForDraft, message := true }

def replaceSave (s : Draft) (x : QueuedDraftAction) : Draft :=
  { s with
    queue := s.queue.map (fun y =>
      if y = x then
        { x with
          action := DraftAction.save s.attachmentForDraft
          dependencies := x.dependencies ++
            s.queueIds.filter (fun d => d ≠ x.id)
          removed := s.removed }
      else y) }

def saveLocal (s : Draft) (replaced : Option QueuedDraftAction) : Draft :=
  match replaced with
  | none =>
      (s.enqueue (DraftAction.save s.attachmentForDraft)
        s.queueIds).linkAttachments
  | some x => (s.replaceSave x).linkAttachments

def sendLocal (s : Draft) (scheduled : Bool) : Draft :=
  { s.enqueue DraftAction.send s.queueIds with
    sent := true
    outbox := !scheduled }

def setProgress (s : Draft) (x : QueuedDraftAction) (p : Progress) : Draft :=
  { s with
    queue := s.queue.map (fun y => if y = x then { y with progress := p } else y) }

/-- What an action does before it talks to the server. -/
def startProgress (s : Draft) : DraftAction -> Option Progress
  | DraftAction.upload id =>
      if s.metadata && s.remoteMessage && s.contains id then
        some Progress.uploading
      else none
  | DraftAction.remove id =>
      (s.findRow id).map (fun r => Progress.removing r.ownership)
  | DraftAction.save ids =>
      if s.metadata then
        some (Progress.saving (s.loadAttachments ids) (!s.remoteMessage))
      else none
  | DraftAction.send =>
      if s.metadata && !s.hasUnsyncedAttachments && s.remoteMessage then
        some Progress.sending
      else none

/--
Inherited attachments get a new id when the draft is created.  The row of the
new one is not marked, whether or not the old one was.
-/
def replaceInherited (s : Draft) (id : LocalAttachmentId) : Draft :=
  match s.findRow id with
  | none => s
  | some r =>
      if r.ownership = DraftAttachmentOwnership.inherited then
        let s' := (s.unlink id).deleteRow r
        { s' with
          attachments := s'.attachments ++
            [{ localId := s.nextAttachment, remote := true }]
          linked := s'.linked ++ [s.nextAttachment]
          rows := s'.rows ++ [{
            localAttachmentId := s.nextAttachment
            state := DraftAttachmentUploadState.uploaded
            displayOrder := r.displayOrder }]
          copies := (s.nextAttachment, s.fileOf id) :: s'.copies
          nextAttachment := s.nextAttachment + 1 }
      else s

def dequeue (s : Draft) (x : QueuedDraftAction) : Draft :=
  { s with queue := s.queue.filter (fun y => y ≠ x) }

def uploadDone (s : Draft) (id : LocalAttachmentId) : Draft :=
  { s.setRow id (fun r =>
      { r with state := DraftAttachmentUploadState.uploaded }) with
    attachments := s.attachments.map (fun a =>
      if a.localId = id then { a with remote := true } else a) }

def deleteOwned (s : Draft) (id : LocalAttachmentId) :
    DraftAttachmentOwnership -> Draft
  | DraftAttachmentOwnership.owned => s.deleteAttachment id
  | DraftAttachmentOwnership.inherited => s

def removeDone (s : Draft) (id : LocalAttachmentId)
    (ownership : DraftAttachmentOwnership) : Draft :=
  match s.findRow id with
  | none => s.deleteOwned id ownership
  | some r => (s.deleteOwned id ownership).deleteRow r

def saveDone (s : Draft) (attachments : List LocalAttachmentId)
    (create : Bool) : Draft :=
  if create then
    { attachments.foldl replaceInherited s with remoteMessage := true }
  else s

/-- The draft is deleted, and with it the rows of its attachments. -/
def sendDone (s : Draft) : Draft :=
  { s.rows.foldl deleteRow s with metadata := false, outbox := false }

/-- The transaction of an action that has succeeded on the server. -/
def finish (s : Draft) (x : QueuedDraftAction) : Option Draft :=
  match x.progress, x.action with
  | Progress.uploading, DraftAction.upload id =>
      if (s.findRow id).isSome then some ((s.dequeue x).uploadDone id) else none
  | Progress.removing ownership, DraftAction.remove id =>
      some ((s.dequeue x).removeDone id ownership)
  | Progress.saving attachments create, DraftAction.save _ =>
      some ((s.dequeue x).saveDone attachments create)
  | Progress.sending, DraftAction.send => some (s.dequeue x).sendDone
  | _, _ => none

/-- What an error leaves in the row of the attachment. -/
def setErrorState (s : Draft) (state : DraftAttachmentUploadState) :
    DraftAction -> Draft
  | DraftAction.upload id => s.setRow id (fun r => { r with state := state })
  | DraftAction.remove id => s.setRow id (fun r => { r with state := state })
  | DraftAction.save _ => s
  | DraftAction.send => s

def revertLocal (s : Draft) : DraftAction -> Draft
  | DraftAction.upload id => s.unlink id
  | DraftAction.remove _ => s
  | DraftAction.save _ => s
  | DraftAction.send => { s with sent := false, outbox := false }

end Draft

inductive AttachmentEvent where
  /-- A new attachment is uploaded after `save`. -/
  | add (save : Option ActionId)
  | addPending
  | upload (id : LocalAttachmentId) (save : Option ActionId)
  | remove (id : LocalAttachmentId)
  | save (replaced : Option QueuedDraftAction)
  | send (scheduled : Bool)
  | start (x : QueuedDraftAction)
  | finish (x : QueuedDraftAction)
  | requeue (x : QueuedDraftAction)
  | fail (x : QueuedDraftAction)
  /-- An action that `x` requires has failed for good. -/
  | cancel (x : QueuedDraftAction)
  deriving DecidableEq, Repr

def DraftAction.isRemove : DraftAction -> Bool
  | remove _ => true
  | _ => false

def DraftAction.isSave : DraftAction -> Bool
  | save _ => true
  | _ => false

namespace Draft

def next (s : Draft) : AttachmentEvent -> Option Draft
  | AttachmentEvent.add save =>
      if s.metadata ∧ s.message then
        some ((s.create DraftAttachmentUploadState.uploading).uploadLocal
          s.nextAttachment save)
      else none
  | AttachmentEvent.addPending =>
      if s.metadata then some (s.create DraftAttachmentUploadState.pending)
      else none
  | AttachmentEvent.upload id save =>
      match s.findRow id with
      | none => none
      | some r =>
          if s.metadata ∧ s.message ∧ s.contains id ∧
              r.state ≠ DraftAttachmentUploadState.uploaded ∧
              DraftAction.upload id ∉ s.queue.map QueuedDraftAction.action then
            some (s.uploadLocal id save)
          else none
  | AttachmentEvent.remove id =>
      if s.metadata ∧ (s.findRow id).isSome then some (s.removeLocal id)
      else none
  | AttachmentEvent.save replaced =>
      if s.metadata ∧ ¬ s.outbox then
        match replaced with
        | none => some (s.saveLocal none)
        | some x =>
            if x ∈ s.queue ∧ x.action.isSave ∧ x.progress = Progress.waiting then
              some (s.saveLocal (some x))
            else none
      else none
  | AttachmentEvent.send scheduled =>
      if s.metadata ∧ s.message ∧ ¬ s.sent then some (s.sendLocal scheduled)
      else none
  | AttachmentEvent.start x =>
      if x ∈ s.queue ∧ x.progress = Progress.waiting ∧
          forall d, d ∈ x.dependencies -> d ∉ s.queueIds then
        (s.startProgress x.action).map (s.setProgress x)
      else none
  | AttachmentEvent.finish x => if x ∈ s.queue then s.finish x else none
  | AttachmentEvent.requeue x =>
      if x ∈ s.queue then
        some ((s.setErrorState DraftAttachmentUploadState.offline
          x.action).setProgress x Progress.waiting)
      else none
  | AttachmentEvent.fail x =>
      -- A removal that fails is reverted, which is not considered here.
      if x ∈ s.queue ∧ x.action.isRemove = false then
        some (((s.dequeue x).setErrorState DraftAttachmentUploadState.error
          x.action).revertLocal x.action)
      else none
  | AttachmentEvent.cancel x =>
      if x ∈ s.queue ∧ x.action.isRemove = false ∧
          x.progress = Progress.waiting then
        some ((s.dequeue x).revertLocal x.action)
      else none

/-- The attachments that a step links and lists, passes on or packs. -/
def uses (s : Draft) : AttachmentEvent -> List LocalAttachmentId
  | AttachmentEvent.save _ => s.attachmentForDraft
  | AttachmentEvent.start x =>
      match x.action with
      | DraftAction.save ids => s.loadAttachments ids
      | DraftAction.send => s.attachmentForDraft
      | _ => []
  | _ => []

/-- The files that were removed before the step, or before its save. -/
def removedBefore (s : Draft) : AttachmentEvent -> List LocalAttachmentId
  | AttachmentEvent.start x => if x.action.isSave then x.removed else s.removed
  | _ => s.removed

end Draft

/-- A draft as it is opened or created. -/
structure Opened (s : Draft) : Prop where
  queue : s.queue = []
  removed : s.removed = []
  deleted : forall r, r ∈ s.rows -> r.deleted = false
  bound : forall r, r ∈ s.rows -> r.localAttachmentId < s.nextAttachment
  copies : s.copies = []

def DraftRuns : TransitionSystem Draft AttachmentEvent where
  init := Opened
  step := fun s e s' => s.next e = some s'

/-- No attachment that gets a new id is being removed. -/
def KeepsMarks (s : Draft) : Progress -> Prop
  | Progress.saving attachments true => forall r, r ∈ s.rows ->
      r.localAttachmentId ∈ attachments ->
        r.ownership = DraftAttachmentOwnership.inherited -> r.deleted = false
  | _ => True

/--
No save is queued while a removal is under way, nothing is removed from a draft
that is being sent, and the draft is not created on the server with an inherited
attachment that has been marked since.
-/
def Settled (s : Draft) : AttachmentEvent -> Prop
  | AttachmentEvent.save _ => forall r, r ∈ s.rows -> r.deleted = false
  | AttachmentEvent.remove _ =>
      forall x, x ∈ s.queue -> x.action ≠ DraftAction.send
  | AttachmentEvent.finish x => KeepsMarks s x.progress
  | _ => True

/-- Moreover no file is removed that a queued save lists. -/
def Unlisted (s : Draft) (e : AttachmentEvent) : Prop :=
  Settled s e ∧ forall id, e = AttachmentEvent.remove id ->
    forall x, x ∈ s.queue -> forall ids, x.action = DraftAction.save ids ->
      forall a, a ∈ ids -> s.fileOf a ≠ s.fileOf id

/-!
# Files

An attachment that gets a new id keeps its file, and no two rows have the same.
-/

structure Tracked (s : Draft) : Prop where
  boundRow : forall r, r ∈ s.rows -> r.localAttachmentId < s.nextAttachment
  boundCopy : forall a file, (a, file) ∈ s.copies ->
    a < s.nextAttachment ∧ file < s.nextAttachment
  single : forall r, r ∈ s.rows -> forall r', r' ∈ s.rows ->
    s.fileOf r.localAttachmentId = s.fileOf r'.localAttachmentId ->
      r.localAttachmentId = r'.localAttachmentId

theorem mem_of_lookup {copies : List (LocalAttachmentId × LocalAttachmentId)}
    {a file : LocalAttachmentId} (h : copies.lookup a = some file) :
    (a, file) ∈ copies := by
  induction copies with
  | nil => cases h
  | cons copy rest ih =>
      rcases copy with ⟨b, file'⟩
      rw [List.lookup_cons] at h
      split at h
      · rename_i heq
        cases h
        rw [eq_of_beq heq]
        exact List.mem_cons_self
      · exact List.mem_cons_of_mem _ (ih h)

variable {s : Draft} {x : QueuedDraftAction}

theorem Tracked.fileOf_lt (h : Tracked s) {a : LocalAttachmentId}
    (ha : a < s.nextAttachment) : s.fileOf a < s.nextAttachment := by
  unfold Draft.fileOf
  cases hlookup : s.copies.lookup a with
  | none => exact ha
  | some file => exact (h.boundCopy a file (mem_of_lookup hlookup)).right

theorem Tracked.fileOf_new (h : Tracked s) :
    s.fileOf s.nextAttachment = s.nextAttachment := by
  unfold Draft.fileOf
  cases hlookup : s.copies.lookup s.nextAttachment with
  | none => rfl
  | some file =>
      exact absurd (h.boundCopy _ file (mem_of_lookup hlookup)).left
        (Nat.lt_irrefl _)

/-!
# What a step does to the rows

All rows of the new state are rows of the old one, for the same file and with
the same mark, or they belong to files that were not there before.
-/

structure RowsFrom (s s' : Draft) : Prop where
  removed : s'.removed = s.removed
  queue : s'.queue = s.queue
  bound : s.nextAttachment ≤ s'.nextAttachment
  files : forall a, a < s.nextAttachment -> s'.fileOf a = s.fileOf a
  tracked : Tracked s -> Tracked s'
  row : Tracked s -> forall r', r' ∈ s'.rows ->
    (exists r, r ∈ s.rows ∧
      s'.fileOf r'.localAttachmentId = s.fileOf r.localAttachmentId ∧
      r.deleted = r'.deleted ∧
      (r'.deleted = true -> r.localAttachmentId = r'.localAttachmentId)) ∨
    (s.nextAttachment ≤ s'.fileOf r'.localAttachmentId ∧ r'.deleted = false)

namespace RowsFrom

variable {s s' s'' : Draft}

theorem of_rows (hremoved : s'.removed = s.removed)
    (hqueue : s'.queue = s.queue) (hnext : s'.nextAttachment = s.nextAttachment)
    (hcopies : s'.copies = s.copies)
    (hrows : forall r', r' ∈ s'.rows -> exists r, r ∈ s.rows ∧
      r.localAttachmentId = r'.localAttachmentId ∧ r.deleted = r'.deleted) :
    RowsFrom s s' := by
  have hfiles : forall a, s'.fileOf a = s.fileOf a := by
    intro a
    unfold Draft.fileOf
    rw [hcopies]
  refine ⟨hremoved, hqueue, hnext.ge, fun a _ => hfiles a, ?_, ?_⟩
  · intro h
    refine ⟨?_, ?_, ?_⟩
    · intro r' hr'
      rcases hrows r' hr' with ⟨r, hr, hid, _⟩
      rw [<- hid, hnext]
      exact h.boundRow r hr
    · rw [hcopies, hnext]
      exact h.boundCopy
    · intro r₁' h₁' r₂' h₂' hfile
      rcases hrows r₁' h₁' with ⟨r₁, h₁, hid₁, _⟩
      rcases hrows r₂' h₂' with ⟨r₂, h₂, hid₂, _⟩
      rw [hfiles, hfiles, <- hid₁, <- hid₂] at hfile
      rw [<- hid₁, <- hid₂]
      exact h.single r₁ h₁ r₂ h₂ hfile
  · intro _ r' hr'
    rcases hrows r' hr' with ⟨r, hr, hid, hmark⟩
    exact Or.inl ⟨r, hr, by rw [hfiles, hid], hmark, fun _ => hid⟩

theorem of_subset (hremoved : s'.removed = s.removed)
    (hqueue : s'.queue = s.queue) (hnext : s'.nextAttachment = s.nextAttachment)
    (hcopies : s'.copies = s.copies)
    (hrows : forall r, r ∈ s'.rows -> r ∈ s.rows) : RowsFrom s s' :=
  of_rows hremoved hqueue hnext hcopies
    (fun r hr => ⟨r, hrows r hr, rfl, rfl⟩)

theorem refl (s : Draft) : RowsFrom s s :=
  of_subset rfl rfl rfl rfl (fun _ hr => hr)

theorem trans (h : RowsFrom s s') (h' : RowsFrom s' s'') : RowsFrom s s'' where
  removed := h'.removed.trans h.removed
  queue := h'.queue.trans h.queue
  bound := Nat.le_trans h.bound h'.bound
  files := by
    intro a ha
    rw [h'.files a (Nat.lt_of_lt_of_le ha h.bound), h.files a ha]
  tracked := fun hs => h'.tracked (h.tracked hs)
  row := by
    intro hs r'' hr''
    rcases h'.row (h.tracked hs) r'' hr'' with
      ⟨r', hr', hfile', hmark', hid'⟩ | ⟨hnew, hmark⟩
    · rw [hfile', <- hmark']
      rcases h.row hs r' hr' with ⟨r, hr, hfile, hmark, hid⟩ | hnew
      · refine Or.inl ⟨r, hr, hfile, hmark, ?_⟩
        intro hdeleted
        exact (hid hdeleted).trans (hid' (hmark'.symm.trans hdeleted))
      · exact Or.inr hnew
    · exact Or.inr ⟨Nat.le_trans h.bound hnew, hmark⟩

theorem setRow {f : DraftAttachmentMetadata -> DraftAttachmentMetadata}
    (hid : forall r, (f r).localAttachmentId = r.localAttachmentId)
    (hmark : forall r, (f r).deleted = r.deleted) (s : Draft)
    (id : LocalAttachmentId) : RowsFrom s (s.setRow id f) := by
  refine of_rows rfl rfl rfl rfl ?_
  intro r' hr'
  rcases List.mem_map.mp hr' with ⟨r, hr, rfl⟩
  refine ⟨r, hr, ?_⟩
  split
  · exact ⟨(hid r).symm, (hmark r).symm⟩
  · exact ⟨rfl, rfl⟩

theorem setState (s : Draft) (id : LocalAttachmentId)
    (state : DraftAttachmentUploadState) :
    RowsFrom s (s.setRow id (fun r => { r with state := state })) :=
  setRow (f := fun r => { r with state := state }) (fun _ => rfl)
    (fun _ => rfl) s id

theorem create (s : Draft) (state : DraftAttachmentUploadState) :
    RowsFrom s (s.create state) where
  removed := rfl
  queue := rfl
  bound := Nat.le_succ _
  files := fun _ _ => rfl
  tracked := by
    intro h
    -- The file of the new row is the new id.
    have hother : forall r, r ∈ s.rows ->
        s.fileOf r.localAttachmentId ≠ s.fileOf s.nextAttachment := by
      intro r hr hfile
      rw [h.fileOf_new] at hfile
      exact Nat.ne_of_lt (h.fileOf_lt (h.boundRow r hr)) hfile
    refine ⟨?_, ?_, ?_⟩
    · intro r' hr'
      rcases List.mem_append.mp hr' with hold | hnew
      · exact Nat.lt_succ_of_lt (h.boundRow r' hold)
      · rw [List.mem_singleton.mp hnew]
        exact Nat.lt_succ_self _
    · intro a file hcopy
      exact ⟨Nat.lt_succ_of_lt (h.boundCopy a file hcopy).left,
        Nat.lt_succ_of_lt (h.boundCopy a file hcopy).right⟩
    · intro r₁ h₁ r₂ h₂ hfile
      rcases List.mem_append.mp h₁ with hold₁ | hnew₁
      · rcases List.mem_append.mp h₂ with hold₂ | hnew₂
        · exact h.single r₁ hold₁ r₂ hold₂ hfile
        · rw [List.mem_singleton.mp hnew₂] at hfile
          exact absurd hfile (hother r₁ hold₁)
      · rcases List.mem_append.mp h₂ with hold₂ | hnew₂
        · rw [List.mem_singleton.mp hnew₁] at hfile
          exact absurd hfile.symm (hother r₂ hold₂)
        · rw [List.mem_singleton.mp hnew₁, List.mem_singleton.mp hnew₂]
  row := by
    intro h r' hr'
    rcases List.mem_append.mp hr' with hold | hnew
    · exact Or.inl ⟨r', hold, rfl, rfl, fun _ => rfl⟩
    · rw [List.mem_singleton.mp hnew]
      exact Or.inr ⟨h.fileOf_new.ge, rfl⟩

theorem deleteAttachment (s : Draft) (id : LocalAttachmentId) :
    RowsFrom s (s.deleteAttachment id) :=
  of_subset rfl rfl rfl rfl (fun _ hr => hr)

theorem deleteRow (s : Draft) (r : DraftAttachmentMetadata) :
    RowsFrom s (s.deleteRow r) := by
  unfold Draft.deleteRow
  split
  · exact of_subset rfl rfl rfl rfl (fun _ hr => List.mem_of_mem_filter hr)
  · exact of_subset rfl rfl rfl rfl (fun _ hr => List.mem_of_mem_filter hr)

end RowsFrom

/-!
# New ids
-/

theorem Draft.deleteRow_fields (s : Draft) (r : DraftAttachmentMetadata) :
    (s.deleteRow r).rows = s.rows.filter (fun r' =>
        r'.localAttachmentId ≠ r.localAttachmentId) ∧
      (s.deleteRow r).copies = s.copies := by
  unfold Draft.deleteRow
  split
  · exact ⟨rfl, rfl⟩
  · exact ⟨rfl, rfl⟩

theorem Draft.replaceInherited_row {id : LocalAttachmentId}
    {r' : DraftAttachmentMetadata} (h : r' ∈ (s.replaceInherited id).rows) :
    r' ∈ s.rows ∨ r'.ownership = DraftAttachmentOwnership.owned := by
  unfold Draft.replaceInherited at h
  split at h
  · exact Or.inl h
  · rename_i r _
    split at h
    · rcases List.mem_append.mp h with hold | hnew
      · rw [((s.unlink id).deleteRow_fields r).left] at hold
        exact Or.inl (List.mem_of_mem_filter hold)
      · rw [List.mem_singleton.mp hnew]
        exact Or.inr rfl
    · exact Or.inl h

namespace RowsFrom

variable {s : Draft}

theorem replaceInherited {id : LocalAttachmentId}
    (hmarks : forall r, r ∈ s.rows -> r.localAttachmentId = id ->
      r.ownership = DraftAttachmentOwnership.inherited -> r.deleted = false) :
    RowsFrom s (s.replaceInherited id) := by
  unfold Draft.replaceInherited
  split
  · exact refl s
  · rename_i r hfind
    have hr := List.mem_of_find?_eq_some hfind
    have hid : r.localAttachmentId = id := by
      simpa using List.find?_some hfind
    split
    · rename_i hinherited
      rcases (s.unlink id).deleteRow_fields r with ⟨hrows, hcopies⟩
      have hunlink : RowsFrom s (s.unlink id) :=
        of_subset rfl rfl rfl rfl (fun _ hr => hr)
      have hdelete : RowsFrom s ((s.unlink id).deleteRow r) :=
        hunlink.trans (deleteRow _ r)
      dsimp only
      rw [hrows, hcopies]
      -- The file that is looked up after the new id has been recorded.
      have hlookup : forall a, (((s.nextAttachment, s.fileOf id) ::
          s.copies).lookup a).getD a =
            if a = s.nextAttachment then s.fileOf id else s.fileOf a := by
        intro a
        rw [List.lookup_cons]
        by_cases ha : a = s.nextAttachment
        · simp [ha]
        · rw [beq_eq_false_iff_ne.mpr ha, if_neg ha]
          rfl
      have hold : forall r', r' ∈ s.rows.filter (fun r' =>
          r'.localAttachmentId ≠ r.localAttachmentId) ->
          r' ∈ s.rows ∧ r'.localAttachmentId ≠ id := by
        intro r' hr'
        rw [<- hid]
        simpa using List.mem_filter.mp hr'
      refine ⟨hdelete.removed, hdelete.queue, Nat.le_succ _, ?_, ?_, ?_⟩
      · intro a ha
        exact (hlookup a).trans (if_neg (Nat.ne_of_lt ha))
      · intro h
        have hnext : forall r', r' ∈ s.rows ->
            r'.localAttachmentId ≠ s.nextAttachment :=
          fun r' hr' => Nat.ne_of_lt (h.boundRow r' hr')
        have hfile : forall r', r' ∈ s.rows.filter (fun r' =>
            r'.localAttachmentId ≠ r.localAttachmentId) ->
            s.fileOf r'.localAttachmentId ≠ s.fileOf id := by
          intro r' hr' heq
          rw [<- hid] at heq
          exact (hold r' hr').right
            ((h.single r' (hold r' hr').left r hr heq).trans hid)
        refine ⟨?_, ?_, ?_⟩
        · intro r' hr'
          rcases List.mem_append.mp hr' with hin | hnew
          · exact Nat.lt_succ_of_lt (h.boundRow r' (hold r' hin).left)
          · rw [List.mem_singleton.mp hnew]
            exact Nat.lt_succ_self _
        · intro a file hcopy
          rcases List.mem_cons.mp hcopy with heq | hin
          · cases heq
            have hbound := h.fileOf_lt (h.boundRow r hr)
            rw [hid] at hbound
            exact ⟨Nat.lt_succ_self _, Nat.lt_succ_of_lt hbound⟩
          · exact ⟨Nat.lt_succ_of_lt (h.boundCopy a file hin).left,
              Nat.lt_succ_of_lt (h.boundCopy a file hin).right⟩
        · intro r₁ h₁ r₂ h₂ heq
          have heq := (hlookup _).symm.trans (heq.trans (hlookup _))
          rcases List.mem_append.mp h₁ with hin₁ | hnew₁
          · rw [if_neg (hnext r₁ (hold r₁ hin₁).left)] at heq
            rcases List.mem_append.mp h₂ with hin₂ | hnew₂
            · rw [if_neg (hnext r₂ (hold r₂ hin₂).left)] at heq
              exact h.single r₁ (hold r₁ hin₁).left r₂ (hold r₂ hin₂).left heq
            · rw [List.mem_singleton.mp hnew₂, if_pos rfl] at heq
              exact absurd heq (hfile r₁ hin₁)
          · rcases List.mem_append.mp h₂ with hin₂ | hnew₂
            · rw [List.mem_singleton.mp hnew₁, if_pos rfl,
                if_neg (hnext r₂ (hold r₂ hin₂).left)] at heq
              exact absurd heq.symm (hfile r₂ hin₂)
            · rw [List.mem_singleton.mp hnew₁, List.mem_singleton.mp hnew₂]
      · intro h r' hr'
        rcases List.mem_append.mp hr' with hin | hnew
        · have hbound := Nat.ne_of_lt (h.boundRow r' (hold r' hin).left)
          exact Or.inl ⟨r', (hold r' hin).left,
            (hlookup _).trans (if_neg hbound), rfl, fun _ => rfl⟩
        · rw [List.mem_singleton.mp hnew]
          refine Or.inl ⟨r, hr, ?_, hmarks r hr hid hinherited,
            fun hdeleted => nomatch hdeleted⟩
          rw [hid]
          exact (hlookup _).trans (if_pos rfl)
    · exact refl s

theorem replaceAll (attachments : List LocalAttachmentId)
    (hmarks : forall r, r ∈ s.rows -> r.localAttachmentId ∈ attachments ->
      r.ownership = DraftAttachmentOwnership.inherited -> r.deleted = false) :
    RowsFrom s (attachments.foldl Draft.replaceInherited s) := by
  induction attachments generalizing s with
  | nil => exact refl s
  | cons id rest ih =>
      have hone : RowsFrom s (s.replaceInherited id) :=
        replaceInherited (fun r hr hid =>
          hmarks r hr (hid ▸ List.mem_cons_self))
      refine hone.trans (ih ?_)
      intro r hr hin hinherited
      rcases Draft.replaceInherited_row hr with hold | howned
      · exact hmarks r hold (List.mem_cons_of_mem _ hin) hinherited
      · rw [howned] at hinherited
        cases hinherited

theorem withQueue {s' : Draft} (h : RowsFrom s s')
    (q : List QueuedDraftAction) :
    RowsFrom { s with queue := q } { s' with queue := q } where
  removed := h.removed
  queue := rfl
  bound := h.bound
  files := h.files
  tracked := by
    intro hs
    have hs' := h.tracked ⟨hs.boundRow, hs.boundCopy, hs.single⟩
    exact ⟨hs'.boundRow, hs'.boundCopy, hs'.single⟩
  row := fun hs => h.row ⟨hs.boundRow, hs.boundCopy, hs.single⟩

theorem deleteRows (rows : List DraftAttachmentMetadata) (s : Draft) :
    RowsFrom s (rows.foldl Draft.deleteRow s) := by
  induction rows generalizing s with
  | nil => exact refl s
  | cons r rest ih => exact (deleteRow s r).trans (ih _)

theorem setErrorState (s : Draft) (state : DraftAttachmentUploadState)
    (action : DraftAction) : RowsFrom s (s.setErrorState state action) := by
  cases action with
  | upload id => exact setState s id state
  | remove id => exact setState s id state
  | save ids => exact refl s
  | send => exact refl s

theorem revertLocal (s : Draft) (action : DraftAction) :
    RowsFrom s (s.revertLocal action) := by
  cases action <;> exact of_subset rfl rfl rfl rfl (fun _ hr => hr)

theorem uploadDone (s : Draft) (id : LocalAttachmentId) :
    RowsFrom s (s.uploadDone id) :=
  (setState s id DraftAttachmentUploadState.uploaded).trans
    (of_subset rfl rfl rfl rfl (fun _ hr => hr))

theorem saveDone {attachments : List LocalAttachmentId} {create : Bool}
    (hmarks : KeepsMarks s (Progress.saving attachments create)) :
    RowsFrom s (s.saveDone attachments create) := by
  unfold Draft.saveDone
  cases create with
  | true =>
      exact (replaceAll attachments hmarks).trans
        (of_subset rfl rfl rfl rfl (fun _ hr => hr))
  | false => exact refl s

theorem sendDone (s : Draft) : RowsFrom s s.sendDone :=
  (deleteRows s.rows s).trans (of_subset rfl rfl rfl rfl (fun _ hr => hr))

theorem deleteOwned (s : Draft) (id : LocalAttachmentId)
    (ownership : DraftAttachmentOwnership) :
    RowsFrom s (s.deleteOwned id ownership) := by
  cases ownership with
  | owned => exact deleteAttachment s id
  | inherited => exact refl s

theorem removeDone (s : Draft) (id : LocalAttachmentId)
    (ownership : DraftAttachmentOwnership) :
    RowsFrom s (s.removeDone id ownership) := by
  unfold Draft.removeDone
  split
  · exact deleteOwned s id ownership
  · exact (deleteOwned s id ownership).trans (deleteRow _ _)

end RowsFrom

theorem Draft.removeDone_row {id : LocalAttachmentId}
    {ownership : DraftAttachmentOwnership} {r : DraftAttachmentMetadata}
    (hr : r ∈ (s.removeDone id ownership).rows) : r.localAttachmentId ≠ id := by
  have hrows : (s.deleteOwned id ownership).rows = s.rows := by
    cases ownership <;> rfl
  unfold Draft.removeDone at hr
  split at hr
  · rename_i hfind
    rw [hrows] at hr
    have hnone := List.find?_eq_none.mp hfind r hr
    simpa using hnone
  · rename_i found hfind
    have hid : found.localAttachmentId = id := by
      simpa using List.find?_some hfind
    have hmem : r ∈ s.rows.filter (fun r' =>
        r'.localAttachmentId ≠ found.localAttachmentId) := by
      rw [<- hrows]
      unfold Draft.deleteRow at hr
      split at hr <;> exact hr
    rw [<- hid]
    simpa using (List.mem_filter.mp hmem).right

/-!
# What a step does to the queue
-/

/-- The queue up to progress, without some actions that are no removals. -/
structure QueueFrom (q q' : List QueuedDraftAction) : Prop where
  entry : forall y', y' ∈ q' -> exists y, y ∈ q ∧ y.id = y'.id ∧
    y.action = y'.action ∧ y.dependencies = y'.dependencies ∧
    y.removed = y'.removed
  removal : forall y, y ∈ q -> y.action.isRemove = true ->
    exists y', y' ∈ q' ∧ y'.action = y.action

theorem QueueFrom.refl (q : List QueuedDraftAction) : QueueFrom q q where
  entry := fun y hy => ⟨y, hy, rfl, rfl, rfl, rfl⟩
  removal := fun y hy _ => ⟨y, hy, rfl⟩

theorem QueueFrom.setProgress (s : Draft) (x : QueuedDraftAction)
    (p : Progress) : QueueFrom s.queue (s.setProgress x p).queue where
  entry := by
    intro y' hy'
    rcases List.mem_map.mp hy' with ⟨y, hy, rfl⟩
    refine ⟨y, hy, ?_⟩
    split
    · exact ⟨rfl, rfl, rfl, rfl⟩
    · exact ⟨rfl, rfl, rfl, rfl⟩
  removal := by
    intro y hy _
    refine ⟨_, List.mem_map.mpr ⟨y, hy, rfl⟩, ?_⟩
    split
    · rfl
    · rfl

theorem QueueFrom.dequeue (s : Draft) (hx : x.action.isRemove = false) :
    QueueFrom s.queue (s.dequeue x).queue where
  entry := fun y hy => ⟨y, List.mem_of_mem_filter hy, rfl, rfl, rfl, rfl⟩
  removal := by
    intro y hy hremove
    have hne : y ≠ x := by
      intro heq
      rw [heq, hx] at hremove
      cases hremove
    refine ⟨y, List.mem_filter.mpr ⟨hy, ?_⟩, rfl⟩
    simpa using hne

/-!
# What a step can do
-/

inductive Draft.Effect (s : Draft) : AttachmentEvent -> Draft -> Prop where
  /-- Nothing is queued, and nothing that is removed returns. -/
  | quiet {e : AttachmentEvent} {s' : Draft} (q : List QueuedDraftAction) :
      QueueFrom s.queue q -> RowsFrom { s with queue := q } s' ->
      Effect s e s'
  | upload {e : AttachmentEvent} {t : Draft} (id : LocalAttachmentId)
      (dependencies : List ActionId) :
      RowsFrom s t ->
      Effect s e (t.enqueue (DraftAction.upload id) dependencies)
  | remove (id : LocalAttachmentId) :
      Effect s (AttachmentEvent.remove id) (s.removeLocal id)
  | removed {x : QueuedDraftAction} (id : LocalAttachmentId)
      (ownership : DraftAttachmentOwnership) :
      x.action = DraftAction.remove id ->
      Effect s (AttachmentEvent.finish x)
        ((s.dequeue x).removeDone id ownership)
  | save :
      Effect s (AttachmentEvent.save none) (s.saveLocal none)
  | replace {x : QueuedDraftAction} :
      x.action.isSave = true ->
      Effect s (AttachmentEvent.save (some x)) (s.saveLocal (some x))
  | send (scheduled : Bool) :
      Effect s (AttachmentEvent.send scheduled) (s.sendLocal scheduled)

namespace Draft

variable {s s' : Draft}

theorem uploadLocal_effect {e : AttachmentEvent} {t : Draft}
    (h : RowsFrom s t) (id : LocalAttachmentId) (save : Option ActionId) :
    s.Effect e (t.uploadLocal id save) := by
  refine Effect.upload id _ (h.trans ?_)
  exact (RowsFrom.setState t id DraftAttachmentUploadState.uploading).trans
    (RowsFrom.of_subset rfl rfl rfl rfl (fun _ hr => hr))

theorem finish_effect (hmarks : KeepsMarks s x.progress)
    (h : s.finish x = some s') :
    s.Effect (AttachmentEvent.finish x) s' := by
  unfold finish at h
  split at h
  · rename_i id _ haction
    split at h
    · cases h
      exact Effect.quiet _ (QueueFrom.dequeue s (by rw [haction]; rfl))
        (RowsFrom.uploadDone _ id)
    · cases h
  · rename_i ownership id _ haction
    cases h
    exact Effect.removed id ownership haction
  · rename_i attachments create ids hprogress haction
    cases h
    rw [hprogress] at hmarks
    exact Effect.quiet _ (QueueFrom.dequeue s (by rw [haction]; rfl))
      (RowsFrom.saveDone (s := s.dequeue x) (by cases create <;> exact hmarks))
  · rename_i _ haction
    cases h
    exact Effect.quiet _ (QueueFrom.dequeue s (by rw [haction]; rfl))
      (RowsFrom.sendDone _)
  · cases h

theorem effect_of_next {e : AttachmentEvent} (hsettled : Settled s e)
    (h : s.next e = some s') :
    s.Effect e s' := by
  cases e with
  | add save =>
      simp only [next] at h
      split at h
      · cases h
        exact uploadLocal_effect (RowsFrom.create s _) _ save
      · cases h
  | addPending =>
      simp only [next] at h
      split at h
      · cases h
        exact Effect.quiet _ (QueueFrom.refl _) (RowsFrom.create s _)
      · cases h
  | upload id save =>
      simp only [next] at h
      split at h
      · cases h
      · split at h
        · cases h
          exact uploadLocal_effect (RowsFrom.refl s) id save
        · cases h
  | remove id =>
      simp only [next] at h
      split at h
      · cases h
        exact Effect.remove id
      · cases h
  | save replaced =>
      simp only [next] at h
      split at h
      · cases replaced with
        | none =>
            cases h
            exact Effect.save
        | some x =>
            simp only at h
            split at h
            · rename_i hguard
              cases h
              exact Effect.replace hguard.right.left
            · cases h
      · cases h
  | send scheduled =>
      simp only [next] at h
      split at h
      · cases h
        exact Effect.send scheduled
      · cases h
  | start x =>
      simp only [next] at h
      split at h
      · rcases Option.map_eq_some_iff.mp h with ⟨p, _, rfl⟩
        exact Effect.quiet _ (QueueFrom.setProgress s x p) (RowsFrom.refl _)
      · cases h
  | finish x =>
      simp only [next] at h
      split at h
      · exact finish_effect hsettled h
      · cases h
  | requeue x =>
      simp only [next] at h
      split at h
      · cases h
        refine Effect.quiet _
          (QueueFrom.setProgress s x Progress.waiting) ?_
        have hrows := RowsFrom.setErrorState s
          DraftAttachmentUploadState.offline x.action
        have hqueued := hrows.withQueue (s.setProgress x Progress.waiting).queue
        unfold setProgress at hqueued ⊢
        rw [hrows.queue]
        exact hqueued
      · cases h
  | fail x =>
      simp only [next] at h
      split at h
      · rename_i hguard
        cases h
        exact Effect.quiet _ (QueueFrom.dequeue s hguard.right)
          ((RowsFrom.setErrorState _ _ x.action).trans
            (RowsFrom.revertLocal _ x.action))
      · cases h
  | cancel x =>
      simp only [next] at h
      split at h
      · rename_i hguard
        cases h
        exact Effect.quiet _ (QueueFrom.dequeue s hguard.right.left)
          (RowsFrom.revertLocal _ x.action)
      · cases h

end Draft

/-!
# The invariant

Rows of removed attachments are marked for as long as the removal is queued, and
a send waits for the removals.
-/

structure Marked (s : Draft) : Prop extends Tracked s where
  boundRemoved : forall file, file ∈ s.removed -> file < s.nextAttachment
  marked : forall r, r ∈ s.rows -> s.fileOf r.localAttachmentId ∈ s.removed ->
    r.deleted = true

structure Withdrawn (s : Draft) : Prop extends Marked s where
  pending : forall r, r ∈ s.rows -> r.deleted = true ->
    exists y, y ∈ s.queue ∧ y.action = DraftAction.remove r.localAttachmentId
  awaited : forall x, x ∈ s.queue -> x.action = DraftAction.send ->
    forall y, y ∈ s.queue -> y.action.isRemove = true -> y.id ∈ x.dependencies
  listed : forall x, x ∈ s.queue -> forall ids, x.action = DraftAction.save ids ->
    forall a, a ∈ ids -> a < s.nextAttachment ∧ s.fileOf a ∉ x.removed

/-- No queued save lists a file that has been removed. -/
def Unused (s : Draft) : Prop :=
  forall x, x ∈ s.queue -> forall ids, x.action = DraftAction.save ids ->
    forall a, a ∈ ids -> s.fileOf a ∉ s.removed

theorem Marked.of_rows {s' : Draft} (h : Marked s) (hrows : RowsFrom s s') :
    Marked s' where
  toTracked := hrows.tracked h.toTracked
  boundRemoved := by
    rw [hrows.removed]
    exact fun a ha => Nat.lt_of_lt_of_le (h.boundRemoved a ha) hrows.bound
  marked := by
    rw [hrows.removed]
    intro r' hr' hremoved
    rcases hrows.row h.toTracked r' hr' with
      ⟨r, hr, hfile, hmark, _⟩ | ⟨hnew, _⟩
    · rw [<- hmark]
      exact h.marked r hr (hfile ▸ hremoved)
    · exact absurd (h.boundRemoved _ hremoved) (Nat.not_lt.mpr hnew)

theorem Marked.with_queue (h : Marked s) (q : List QueuedDraftAction) :
    Marked { s with queue := q } :=
  ⟨⟨h.boundRow, h.boundCopy, h.single⟩, h.boundRemoved, h.marked⟩

namespace Withdrawn

variable {s s' : Draft}

theorem of_rows (h : Withdrawn s) (hrows : RowsFrom s s') : Withdrawn s' where
  toMarked := h.toMarked.of_rows hrows
  pending := by
    rw [hrows.queue]
    intro r' hr' hdeleted
    rcases hrows.row h.toTracked r' hr' with
      ⟨r, hr, _, hmark, hid⟩ | ⟨_, hmark⟩
    · rw [<- hid hdeleted]
      exact h.pending r hr (hmark.trans hdeleted)
    · rw [hmark] at hdeleted
      cases hdeleted
  awaited := by
    rw [hrows.queue]
    exact h.awaited
  listed := by
    rw [hrows.queue]
    intro x hx ids hsave a ha
    have hold := h.listed x hx ids hsave a ha
    rw [hrows.files a hold.left]
    exact ⟨Nat.lt_of_lt_of_le hold.left hrows.bound, hold.right⟩

theorem of_queue (h : Withdrawn s) {q : List QueuedDraftAction}
    (hq : QueueFrom s.queue q) : Withdrawn { s with queue := q } where
  toMarked := h.toMarked.with_queue q
  pending := by
    intro r hr hdeleted
    rcases h.pending r hr hdeleted with ⟨y, hy, haction⟩
    rcases hq.removal y hy (by rw [haction]; rfl) with ⟨y', hy', hsame⟩
    exact ⟨y', hy', hsame.trans haction⟩
  awaited := by
    intro x' hx' hsend y' hy' hremove
    rcases hq.entry x' hx' with ⟨x, hx, _, haction, hdependencies, _⟩
    rcases hq.entry y' hy' with ⟨y, hy, hid, haction', _, _⟩
    rw [<- hdependencies, <- hid]
    exact h.awaited x hx (haction.trans hsend) y hy (by rw [haction', hremove])
  listed := by
    intro x' hx' ids hsave
    rcases hq.entry x' hx' with ⟨x, hx, _, haction, _, hremoved⟩
    rw [<- hremoved]
    exact h.listed x hx ids (haction.trans hsave)

theorem enqueue (h : Withdrawn s) {action : DraftAction}
    {dependencies : List ActionId} (hremove : action.isRemove = false)
    (hsend : action = DraftAction.send -> dependencies = s.queueIds)
    (hsave : forall ids, action = DraftAction.save ids -> forall a, a ∈ ids ->
      a < s.nextAttachment ∧ s.fileOf a ∉ s.removed) :
    Withdrawn (s.enqueue action dependencies) where
  toMarked := ⟨⟨h.boundRow, h.boundCopy, h.single⟩, h.boundRemoved, h.marked⟩
  pending := by
    intro r hr hdeleted
    rcases h.pending r hr hdeleted with ⟨y, hy, haction⟩
    exact ⟨y, List.mem_append_left _ hy, haction⟩
  awaited := by
    intro x hx hxsend y hy hyremove
    have hyold : y ∈ s.queue := by
      rcases List.mem_append.mp hy with hold | hnew
      · exact hold
      · rw [List.mem_singleton.mp hnew] at hyremove
        exact absurd (hremove.symm.trans hyremove) Bool.false_ne_true
    rcases List.mem_append.mp hx with hold | hnew
    · exact h.awaited x hold hxsend y hyold hyremove
    · rw [List.mem_singleton.mp hnew] at hxsend ⊢
      show y.id ∈ dependencies
      rw [hsend hxsend]
      exact List.mem_map_of_mem hyold
  listed := by
    intro x hx ids haction
    rcases List.mem_append.mp hx with hold | hnew
    · exact h.listed x hold ids haction
    · rw [List.mem_singleton.mp hnew] at haction ⊢
      exact hsave ids haction

theorem removeLocal (h : Withdrawn s) {found : DraftAttachmentMetadata}
    (hfound : found ∈ s.rows)
    (hsend : forall x, x ∈ s.queue -> x.action ≠ DraftAction.send) :
    Withdrawn (s.removeLocal found.localAttachmentId) := by
  have hkept : forall r', r' ∈ (s.removeLocal found.localAttachmentId).rows ->
      exists r, r ∈ s.rows ∧ r.localAttachmentId = r'.localAttachmentId ∧
        r' = if r.localAttachmentId = found.localAttachmentId then
          { r with deleted := true } else r := by
    intro r' hr'
    rcases List.mem_map.mp hr' with ⟨r, hr, rfl⟩
    refine ⟨r, hr, ?_, rfl⟩
    split
    · rfl
    · rfl
  refine ⟨⟨⟨?_, h.boundCopy, ?_⟩, ?_, ?_⟩, ?_, ?_, ?_⟩
  · intro r' hr'
    rcases hkept r' hr' with ⟨r, hr, hid, _⟩
    rw [<- hid]
    exact h.boundRow r hr
  · intro r₁' h₁' r₂' h₂' hfile
    rcases hkept r₁' h₁' with ⟨r₁, h₁, hid₁, _⟩
    rcases hkept r₂' h₂' with ⟨r₂, h₂, hid₂, _⟩
    rw [<- hid₁, <- hid₂] at hfile ⊢
    exact h.single r₁ h₁ r₂ h₂ hfile
  · intro file hin
    rcases List.mem_cons.mp hin with rfl | hold
    · exact h.fileOf_lt (h.boundRow found hfound)
    · exact h.boundRemoved file hold
  · intro r' hr' hremoved
    rcases hkept r' hr' with ⟨r, hr, hid, rfl⟩
    split
    · rfl
    · rename_i hother
      rw [<- hid] at hremoved
      rcases List.mem_cons.mp hremoved with hsame | hold
      · exact absurd (h.single r hr found hfound hsame) hother
      · exact h.marked r hr hold
  · intro r' hr' hdeleted
    rcases hkept r' hr' with ⟨r, hr, hid, rfl⟩
    rw [<- hid]
    split at hdeleted
    · rename_i hsame
      rw [hsame]
      exact ⟨_, List.mem_append_right _ (List.mem_singleton.mpr rfl), rfl⟩
    · rcases h.pending r hr hdeleted with ⟨y, hy, haction⟩
      exact ⟨y, List.mem_append_left _ hy, haction⟩
  · intro x hx hxsend
    rcases List.mem_append.mp hx with hold | hnew
    · exact absurd hxsend (hsend x hold)
    · rw [List.mem_singleton.mp hnew] at hxsend
      cases hxsend
  · intro x hx ids haction
    rcases List.mem_append.mp hx with hold | hnew
    · exact h.listed x hold ids haction
    · rw [List.mem_singleton.mp hnew] at haction
      cases haction

theorem removed (h : Withdrawn s) {id : LocalAttachmentId}
    (haction : x.action = DraftAction.remove id)
    (ownership : DraftAttachmentOwnership) :
    Withdrawn ((s.dequeue x).removeDone id ownership) := by
  have hrows := RowsFrom.removeDone (s.dequeue x) id ownership
  have hqueue : forall y, y ∈ (s.dequeue x).queue -> y ∈ s.queue :=
    fun y hy => List.mem_of_mem_filter hy
  have hmarked : Marked (s.dequeue x) := h.toMarked.with_queue _
  refine ⟨hmarked.of_rows hrows, ?_, ?_, ?_⟩
  · rw [hrows.queue]
    intro r' hr' hdeleted
    have hother := Draft.removeDone_row hr'
    rcases hrows.row hmarked.toTracked r' hr' with
      ⟨r, hr, _, hmark, hid⟩ | ⟨_, hmark⟩
    · rw [<- hid hdeleted] at hother ⊢
      rcases h.pending r hr (hmark.trans hdeleted) with ⟨y, hy, hremove⟩
      refine ⟨y, List.mem_filter.mpr ⟨hy, ?_⟩, hremove⟩
      have hne : y ≠ x := by
        intro heq
        rw [heq, haction] at hremove
        exact hother (DraftAction.remove.inj hremove).symm
      simpa using hne
    · rw [hmark] at hdeleted
      cases hdeleted
  · rw [hrows.queue]
    exact fun z hz hsend y hy =>
      h.awaited z (hqueue z hz) hsend y (hqueue y hy)
  · rw [hrows.queue]
    intro z hz ids hsave a ha
    have hold := h.listed z (hqueue z hz) ids hsave a ha
    rw [hrows.files a hold.left]
    exact ⟨Nat.lt_of_lt_of_le hold.left hrows.bound, hold.right⟩

theorem replaceSave (h : Withdrawn s) (hx : x.action.isSave = true)
    (hunused : forall a, a ∈ s.attachmentForDraft ->
      a < s.nextAttachment ∧ s.fileOf a ∉ s.removed) :
    Withdrawn (s.replaceSave x) := by
  -- An action of another kind is still there as it was.
  have hentry : forall y', y' ∈ (s.replaceSave x).queue ->
      y'.action.isSave = false -> y' ∈ s.queue := by
    intro y' hy' hkind
    rcases List.mem_map.mp hy' with ⟨y, hy, rfl⟩
    split at hkind
    · cases hkind
    · rename_i hne
      rw [if_neg hne]
      exact hy
  refine ⟨h.toMarked.with_queue _, ?_, ?_, ?_⟩
  · intro r hr hdeleted
    rcases h.pending r hr hdeleted with ⟨y, hy, haction⟩
    have hne : y ≠ x := by
      intro heq
      rw [<- heq, haction] at hx
      cases hx
    exact ⟨y, List.mem_map.mpr ⟨y, hy, if_neg hne⟩, haction⟩
  · intro z hz hsend y hy hremove
    refine h.awaited z (hentry z hz (by rw [hsend]; rfl)) hsend y
      (hentry y hy ?_) hremove
    cases haction : y.action with
    | remove id => rfl
    | upload id =>
        rw [haction] at hremove
        cases hremove
    | save ids =>
        rw [haction] at hremove
        cases hremove
    | send =>
        rw [haction] at hremove
        cases hremove
  · intro z hz ids haction
    rcases List.mem_map.mp hz with ⟨y, hy, rfl⟩
    split at haction
    · rename_i heq
      rw [if_pos heq]
      cases haction
      exact hunused
    · rename_i hne
      rw [if_neg hne]
      exact h.listed y hy ids haction

theorem unused (h : Withdrawn s)
    (hclean : forall r, r ∈ s.rows -> r.deleted = false)
    {a : LocalAttachmentId} (ha : a ∈ s.attachmentForDraft) :
    a < s.nextAttachment ∧ s.fileOf a ∉ s.removed := by
  rcases List.mem_map.mp (List.mem_of_mem_filter ha) with ⟨r, hr, rfl⟩
  have hrow : r ∈ s.rows := (List.mem_insertionSort _).mp hr
  refine ⟨h.boundRow r hrow, ?_⟩
  intro hremoved
  have hmarked := h.marked r hrow hremoved
  rw [hclean r hrow] at hmarked
  cases hmarked

theorem next (h : Withdrawn s) {e : AttachmentEvent} (hsettled : Settled s e)
    (hstep : s.next e = some s') : Withdrawn s' := by
  cases Draft.effect_of_next hsettled hstep with
  | quiet q hq hrows => exact (h.of_queue hq).of_rows hrows
  | upload id dependencies hrows =>
      exact (h.of_rows hrows).enqueue rfl (fun heq => nomatch heq)
        (fun _ heq => nomatch heq)
  | remove id =>
      simp only [Draft.next] at hstep
      split at hstep
      · rename_i hguard
        rcases Option.isSome_iff_exists.mp hguard.right with ⟨r, hr⟩
        have hid : r.localAttachmentId = id := by
          simpa using List.find?_some hr
        rw [<- hid]
        exact h.removeLocal (List.mem_of_find?_eq_some hr) hsettled
      · cases hstep
  | removed id ownership haction => exact h.removed haction ownership
  | save =>
      have hqueued : Withdrawn (s.enqueue
          (DraftAction.save s.attachmentForDraft) s.queueIds) := by
        refine h.enqueue rfl (fun heq => nomatch heq) ?_
        intro ids heq a ha
        cases heq
        exact h.unused hsettled ha
      exact hqueued.of_rows (RowsFrom.of_subset rfl rfl rfl rfl (fun _ hr => hr))
  | replace hx =>
      exact (h.replaceSave hx (fun a ha => h.unused hsettled ha)).of_rows
        (RowsFrom.of_subset rfl rfl rfl rfl (fun _ hr => hr))
  | send scheduled =>
      have hqueued : Withdrawn (s.enqueue DraftAction.send s.queueIds) :=
        h.enqueue rfl (fun _ => rfl) (fun _ heq => nomatch heq)
      exact hqueued.of_rows (RowsFrom.of_subset rfl rfl rfl rfl (fun _ hr => hr))

theorem of_reachable (h : DraftRuns.ReachableWhen Settled s) :
    Withdrawn s := by
  refine TransitionSystem.invariant_when Withdrawn ?_ ?_ h
  · intro s hopened
    have hfile : forall a, s.fileOf a = a := by
      intro a
      unfold Draft.fileOf
      rw [hopened.copies]
      rfl
    refine ⟨⟨⟨hopened.bound, ?_, ?_⟩, ?_, ?_⟩, ?_, ?_, ?_⟩
    · rw [hopened.copies]
      exact fun a file hcopy => nomatch hcopy
    · intro r _ r' _ heq
      rw [hfile, hfile] at heq
      exact heq
    · rw [hopened.removed]
      exact fun a ha => nomatch ha
    · rw [hopened.removed]
      exact fun r hr ha => nomatch ha
    · intro r hr hdeleted
      rw [hopened.deleted r hr] at hdeleted
      cases hdeleted
    · rw [hopened.queue]
      exact fun x hx => nomatch hx
    · rw [hopened.queue]
      exact fun x hx => nomatch hx
  · intro s e s' _ hwithdrawn hsettled hstep
    exact hwithdrawn.next hsettled hstep

end Withdrawn

namespace Unused

variable {s s' : Draft}

theorem next (h : Unused s) (hwithdrawn : Withdrawn s) {e : AttachmentEvent}
    (hunlisted : Unlisted s e) (hstep : s.next e = some s') : Unused s' := by
  -- Files of listed attachments are as before where only the rows change.
  have hfiles : forall {q : List QueuedDraftAction} {t : Draft},
      RowsFrom { s with queue := q } t -> forall x, x ∈ s.queue ->
        forall ids, x.action = DraftAction.save ids -> forall a, a ∈ ids ->
          t.fileOf a ∉ t.removed := by
    intro q t hrows x hx ids hsave a ha
    have hbound := (hwithdrawn.listed x hx ids hsave a ha).left
    rw [hrows.removed, hrows.files a hbound]
    exact h x hx ids hsave a ha
  cases Draft.effect_of_next hunlisted.left hstep with
  | quiet q hq hrows =>
      intro x' hx' ids hsave
      rw [hrows.queue] at hx'
      rcases hq.entry x' hx' with ⟨x, hx, _, haction, _, _⟩
      exact hfiles hrows x hx ids (haction.trans hsave)
  | upload id dependencies hrows =>
      intro x hx ids hsave
      rcases List.mem_append.mp hx with hold | hnew
      · rw [hrows.queue] at hold
        exact hfiles hrows x hold ids hsave
      · rw [List.mem_singleton.mp hnew] at hsave
        cases hsave
  | remove id =>
      intro x hx ids hsave a ha hin
      rcases List.mem_append.mp hx with hold | hnew
      · rcases List.mem_cons.mp hin with hsame | hbefore
        · exact hunlisted.right id rfl x hold ids hsave a ha hsame
        · exact h x hold ids hsave a ha hbefore
      · rw [List.mem_singleton.mp hnew] at hsave
        cases hsave
  | removed id ownership haction =>
      rename_i x
      have hrows := RowsFrom.removeDone (s.dequeue x) id ownership
      intro z hz
      rw [hrows.queue] at hz
      exact hfiles hrows z (List.mem_of_mem_filter hz)
  | save =>
      intro x hx ids hsave a ha
      rcases List.mem_append.mp hx with hold | hnew
      · exact h x hold ids hsave a ha
      · rw [List.mem_singleton.mp hnew] at hsave
        cases hsave
        exact (hwithdrawn.unused hunlisted.left ha).right
  | replace hx =>
      intro z hz ids hsave a ha
      rcases List.mem_map.mp hz with ⟨y, hy, rfl⟩
      split at hsave
      · cases hsave
        exact (hwithdrawn.unused hunlisted.left ha).right
      · exact h y hy ids hsave a ha
  | send scheduled =>
      intro x hx ids hsave a ha
      rcases List.mem_append.mp hx with hold | hnew
      · exact h x hold ids hsave a ha
      · rw [List.mem_singleton.mp hnew] at hsave
        cases hsave

theorem of_reachable (h : DraftRuns.ReachableWhen Unlisted s) : Unused s := by
  refine TransitionSystem.invariant_when Unused ?_ ?_ h
  · intro s hopened x hx
    rw [hopened.queue] at hx
    cases hx
  · intro s e s' hreach hunused hunlisted hstep
    have hwithdrawn := Withdrawn.of_reachable
      (hreach.weaken (fun _ _ hallowed => hallowed.left))
    exact hunused.next hwithdrawn hunlisted hstep

end Unused

/-!
# Main result
-/

theorem Draft.uses_cases {e : AttachmentEvent} {a : LocalAttachmentId}
    (h : a ∈ s.uses e) :
    (exists replaced, e = AttachmentEvent.save replaced ∧
      a ∈ s.attachmentForDraft) ∨
    (exists x, e = AttachmentEvent.start x ∧ x.action = DraftAction.send ∧
      a ∈ s.attachmentForDraft) ∨
    (exists x ids, e = AttachmentEvent.start x ∧
      x.action = DraftAction.save ids ∧ a ∈ ids) := by
  cases e with
  | save replaced => exact Or.inl ⟨replaced, rfl, h⟩
  | start x =>
      simp only [uses] at h
      split at h
      · rename_i ids haction
        exact Or.inr (Or.inr ⟨x, ids, rfl, haction, List.mem_of_mem_filter h⟩)
      · rename_i haction
        exact Or.inr (Or.inl ⟨x, rfl, haction, h⟩)
      · cases h
  | add save => cases h
  | addPending => cases h
  | upload id save => cases h
  | remove id => cases h
  | send scheduled => cases h
  | finish x => cases h
  | requeue x => cases h
  | fail x => cases h
  | cancel x => cases h

theorem Withdrawn.clean_of_start {s' : Draft} (h : Withdrawn s)
    (hsend : x.action = DraftAction.send)
    (hstep : s.next (AttachmentEvent.start x) = some s') :
    forall r, r ∈ s.rows -> r.deleted = false := by
  simp only [Draft.next] at hstep
  split at hstep
  · rename_i hguard
    intro r hr
    cases hdeleted : r.deleted with
    | false => rfl
    | true =>
        rcases h.pending r hr hdeleted with ⟨y, hy, hremove⟩
        have hwaits := h.awaited x hguard.left hsend y hy
          (by rw [hremove]; rfl)
        exact absurd (List.mem_map_of_mem hy)
          (hguard.right.right y.id hwaits)
  · cases hstep

theorem Draft.mem_queue_of_start {s' : Draft}
    (h : s.next (AttachmentEvent.start x) = some s') : x ∈ s.queue := by
  simp only [Draft.next] at h
  split at h
  · rename_i hguard
    exact hguard.left
  · cases h

theorem removed_stays_removed {s s' : Draft} {e : AttachmentEvent}
    (h : DraftRuns.ReachableWhen Settled s) (hsettled : Settled s e)
    (hstep : s.next e = some s') :
    (forall a, a ∈ s.uses e -> s.fileOf a ∉ s.removedBefore e) ∧
      (DraftRuns.ReachableWhen Unlisted s ->
        forall a, a ∈ s.uses e -> s.fileOf a ∉ s.removed) := by
  have hwithdrawn := Withdrawn.of_reachable h
  constructor
  · intro a hused
    rcases Draft.uses_cases hused with
      ⟨replaced, rfl, hmem⟩ | ⟨x, rfl, hsend, hmem⟩ | ⟨x, ids, rfl, hsave, hmem⟩
    · exact (hwithdrawn.unused hsettled hmem).right
    · simp only [Draft.removedBefore, hsend]
      exact (hwithdrawn.unused (hwithdrawn.clean_of_start hsend hstep)
        hmem).right
    · simp only [Draft.removedBefore, hsave]
      exact (hwithdrawn.listed x (Draft.mem_queue_of_start hstep) ids hsave a
        hmem).right
  · intro hunlisted a hused
    rcases Draft.uses_cases hused with
      ⟨replaced, rfl, hmem⟩ | ⟨x, rfl, hsend, hmem⟩ | ⟨x, ids, rfl, hsave, hmem⟩
    · exact (hwithdrawn.unused hsettled hmem).right
    · exact (hwithdrawn.unused (hwithdrawn.clean_of_start hsend hstep)
        hmem).right
    · exact Unused.of_reachable hunlisted x (Draft.mem_queue_of_start hstep) ids
        hsave a hmem

/-- A message with two attachments is forwarded. -/
def forwardedDraft : Draft where
  attachments := [{ localId := 0, remote := true },
    { localId := 1, remote := true }]
  rows := [
    { localAttachmentId := 0
      state := DraftAttachmentUploadState.uploaded
      ownership := DraftAttachmentOwnership.inherited },
    { localAttachmentId := 1
      state := DraftAttachmentUploadState.uploaded
      ownership := DraftAttachmentOwnership.inherited
      displayOrder := 1 }]
  nextAttachment := 2

theorem forwardedDraft_opened : Opened forwardedDraft where
  queue := rfl
  removed := rfl
  deleted := by decide
  bound := by decide
  copies := rfl

def queuedRemoval : QueuedDraftAction where
  id := 0
  action := DraftAction.remove 0
  dependencies := []
  removed := []

def runRemoval : List AttachmentEvent :=
  [AttachmentEvent.start queuedRemoval,
    AttachmentEvent.finish { queuedRemoval with
      progress := Progress.removing DraftAttachmentOwnership.inherited }]

theorem removal_finished_before_save :
    exists s : Draft,
      DraftRuns.ReachableWhen Settled s ∧ s.removed = [0] ∧
      s.uses (AttachmentEvent.save none) = [1] ∧
      forall a, a ∈ s.uses (AttachmentEvent.save none) ->
        s.fileOf a ∉ s.removed := by
  have hopened : DraftRuns.ReachableWhen Settled forwardedDraft :=
    TransitionSystem.ReachableWhen.start forwardedDraft_opened
  have hremoved : DraftRuns.ReachableWhen Settled _ :=
    hopened.next (l := AttachmentEvent.remove 0) (fun x hx => nomatch hx) rfl
  have hstarted : DraftRuns.ReachableWhen Settled _ :=
    hremoved.next (l := AttachmentEvent.start queuedRemoval) True.intro rfl
  have hfinished : DraftRuns.ReachableWhen Settled _ :=
    hstarted.next (l := AttachmentEvent.finish { queuedRemoval with
      progress := Progress.removing DraftAttachmentOwnership.inherited })
      True.intro rfl
  refine ⟨_, hfinished, rfl, rfl, ?_⟩
  exact (removed_stays_removed hfinished (by unfold Settled; decide) rfl).left

/-- The save that is queued while the attachment is being removed. -/
def queuedSave : QueuedDraftAction where
  id := 1
  action := DraftAction.save [0, 1]
  dependencies := [0]
  removed := [0]

/-- The save that was queued first, as it creates the draft on the server. -/
def creatingSave : QueuedDraftAction where
  id := 0
  action := DraftAction.save [0, 1]
  dependencies := []
  removed := []

/-- The first attachment is removed while the draft is being created. -/
def removedMeanwhile : List AttachmentEvent :=
  [AttachmentEvent.save none, AttachmentEvent.start creatingSave,
    AttachmentEvent.remove 0,
    AttachmentEvent.finish { creatingSave with
      progress := Progress.saving [0, 1] true }]

/--
A removed file is listed and passed on again, either because the row that is
marked is not left out or because a new row takes its place.
-/
theorem save_during_removal :
    (exists s s' : Draft, DraftRuns.Reachable s ∧
      List.foldlM Draft.next forwardedDraft
        (AttachmentEvent.remove 0 :: AttachmentEvent.save none :: runRemoval) =
        some s ∧
      s.next (AttachmentEvent.start queuedSave) = some s' ∧
      0 ∈ s.removedBefore (AttachmentEvent.start queuedSave) ∧
      0 ∈ s.linked ∧ 0 ∈ s.uses (AttachmentEvent.start queuedSave)) ∧
    exists s s' : Draft, DraftRuns.Reachable s ∧
      List.foldlM Draft.next forwardedDraft removedMeanwhile = some s ∧
      s.next (AttachmentEvent.save none) = some s' ∧
      0 ∈ s.removedBefore (AttachmentEvent.save none) ∧ 2 ∈ s.linked ∧
      2 ∈ s.uses (AttachmentEvent.save none) ∧ s.fileOf 2 = 0 := by
  have hreach : forall (es : List AttachmentEvent) (s : Draft),
      List.foldlM Draft.next forwardedDraft es = some s ->
        DraftRuns.Reachable s := fun es s hs =>
    TransitionSystem.Reachable.replay (fun _ _ _ h => h)
      (TransitionSystem.ReachableWhen.start forwardedDraft_opened) hs
  constructor
  · have hrun : exists s s' : Draft,
        List.foldlM Draft.next forwardedDraft
          (AttachmentEvent.remove 0 :: AttachmentEvent.save none ::
            runRemoval) = some s ∧
        s.next (AttachmentEvent.start queuedSave) = some s' ∧
        0 ∈ s.removedBefore (AttachmentEvent.start queuedSave) ∧
        0 ∈ s.linked ∧ 0 ∈ s.uses (AttachmentEvent.start queuedSave) :=
      ⟨_, _, rfl, rfl, by decide, by decide, by decide⟩
    rcases hrun with ⟨s, s', hs, hrest⟩
    exact ⟨s, s', hreach _ s hs, hs, hrest⟩
  · have hrun : exists s s' : Draft,
        List.foldlM Draft.next forwardedDraft removedMeanwhile = some s ∧
        s.next (AttachmentEvent.save none) = some s' ∧
        0 ∈ s.removedBefore (AttachmentEvent.save none) ∧ 2 ∈ s.linked ∧
        2 ∈ s.uses (AttachmentEvent.save none) ∧ s.fileOf 2 = 0 :=
      ⟨_, _, rfl, rfl, by decide, by decide, by decide, by decide⟩
    rcases hrun with ⟨s, s', hs, hrest⟩
    exact ⟨s, s', hreach _ s hs, hs, hrest⟩

end Drafts
end MailClient
