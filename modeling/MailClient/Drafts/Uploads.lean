import Mathlib.Algebra.Order.BigOperators.Group.List
import Mathlib.Algebra.Order.Ring.Nat
import MailClient.Drafts.Attachments

/-!
# Uploading attachments

The local part of an upload compares the limits with what the draft has without
looking at the attachment itself, and gives a new attachment the highest display
order that there is.
-/

namespace MailClient
namespace Drafts

open Foundation
open ActionQueue (ActionId)

def maxAttachmentsPerMessage : Nat := 100

def maxAttachmentSize : Nat := 25 * 1024 * 1024

/-- What `attachments` says of an attachment. -/
structure AttachmentFiles where
  size : LocalAttachmentId -> Nat
  inlineWithoutContentId : LocalAttachmentId -> Bool := fun _ => false

inductive AttachmentUploadError where
  | totalAttachmentSizeTooLarge
  | tooManyAttachments
  | existingUploadActionExist
  | attachmentAlreadyUploaded (id : LocalAttachmentId)
  | metadataNotFound
  | messageDoesNotExist
  | attachmentDataMissing (id : LocalAttachmentId)
  | missingContentId (id : LocalAttachmentId)
  deriving DecidableEq, Repr

namespace Draft

/-- The attachments that `total_attachments_size_and_count` looks at. -/
def counted (s : Draft) : List LocalAttachmentId :=
  ((s.rows.filter (fun r => !r.deleted)).map
    DraftAttachmentMetadata.localAttachmentId).filter s.contains

def saveUploading (s : Draft) (id : LocalAttachmentId) : Draft :=
  match s.findRow id with
  | some _ =>
      s.setRow id (fun r => { r with
        state := DraftAttachmentUploadState.uploading })
  | none =>
      { s with
        rows := s.rows ++ [{
          localAttachmentId := id
          state := DraftAttachmentUploadState.uploading
          displayOrder := s.nextDisplayOrder }] }

/-- `AttachmentUploadHandler::apply_local` -/
def applyUpload (files : AttachmentFiles) (s : Draft) (id : LocalAttachmentId)
    (save : Option ActionId) : Except AttachmentUploadError Draft :=
  if maxAttachmentSize ≤ (s.counted.map files.size).sum then
    Except.error AttachmentUploadError.totalAttachmentSizeTooLarge
  else if maxAttachmentsPerMessage ≤ s.counted.length then
    Except.error AttachmentUploadError.tooManyAttachments
  else if DraftAction.upload id ∈ s.queue.map QueuedDraftAction.action then
    Except.error AttachmentUploadError.existingUploadActionExist
  else if (s.findRow id).any (fun r =>
      r.state = DraftAttachmentUploadState.uploaded) then
    Except.error (AttachmentUploadError.attachmentAlreadyUploaded id)
  else if ¬ s.metadata then
    Except.error AttachmentUploadError.metadataNotFound
  else if ¬ s.message then
    Except.error AttachmentUploadError.messageDoesNotExist
  else if ¬ s.contains id then
    Except.error (AttachmentUploadError.attachmentDataMissing id)
  else if files.inlineWithoutContentId id then
    Except.error (AttachmentUploadError.missingContentId id)
  else
    Except.ok (((s.saveUploading id).link id).enqueue (DraftAction.upload id)
      (save.toList.filter (fun d => d ∈ s.queueIds)))

/-- `Attachment::create_local` -/
def createLocal (s : Draft) : Draft :=
  { s with
    attachments := s.attachments ++ [{ localId := s.nextAttachment }]
    nextAttachment := s.nextAttachment + 1 }

/-- A failed transaction leaves the draft as it was. -/
def upload (files : AttachmentFiles) (s : Draft) (id : LocalAttachmentId)
    (save : Option ActionId) : Draft :=
  match s.applyUpload files id save with
  | Except.error _ => s
  | Except.ok s' => s'

/-!
# Limits
-/

section Limits

variable {files : AttachmentFiles} {s : Draft} {id : LocalAttachmentId}
  {save : Option ActionId}

def Exceeds (files : AttachmentFiles) (ids : List LocalAttachmentId) : Prop :=
  maxAttachmentsPerMessage < ids.length ∨
    maxAttachmentSize < (ids.map files.size).sum

instance (files : AttachmentFiles) (ids : List LocalAttachmentId) :
    Decidable (Exceeds files ids) :=
  inferInstanceAs (Decidable (_ ∨ _))

/-- The attachments of the draft together with this one. -/
def countedWith (s : Draft) (id : LocalAttachmentId) :
    List LocalAttachmentId :=
  if id ∈ s.counted then s.counted else s.counted ++ [id]

def Refused (files : AttachmentFiles) (s : Draft) (id : LocalAttachmentId)
    (save : Option ActionId) : Prop :=
  s.applyUpload files id save =
      Except.error AttachmentUploadError.tooManyAttachments ∨
    s.applyUpload files id save =
      Except.error AttachmentUploadError.totalAttachmentSizeTooLarge

/-- The limits as they should be checked. -/
def LimitRight (files : AttachmentFiles) (s : Draft) (id : LocalAttachmentId)
    (save : Option ActionId) : Prop :=
  Refused files s id save ↔ Exceeds files (s.countedWith id)

/--
An attachment that is already counted does not meet a limit that is reached
exactly.  A new one finds the number at its limit; or the total size is at its
limit just if it exceeds it with the new one.
-/
def KeepsLimits (files : AttachmentFiles) (s : Draft)
    (id : LocalAttachmentId) : Prop :=
  if id ∈ s.counted then
    Exceeds files s.counted ∨
      s.counted.length < maxAttachmentsPerMessage ∧
        (s.counted.map files.size).sum < maxAttachmentSize
  else
    maxAttachmentsPerMessage ≤ s.counted.length ∨
      (maxAttachmentSize ≤ (s.counted.map files.size).sum ↔
        maxAttachmentSize < (s.counted.map files.size).sum + files.size id)

instance (files : AttachmentFiles) (s : Draft) (id : LocalAttachmentId) :
    Decidable (KeepsLimits files s id) :=
  inferInstanceAs (Decidable (if id ∈ s.counted then _ ∨ _ ∧ _
    else _ ∨ (_ ↔ _)))

theorem refused_iff :
    Refused files s id save ↔
      maxAttachmentSize ≤ (s.counted.map files.size).sum ∨
        maxAttachmentsPerMessage ≤ s.counted.length := by
  unfold Refused applyUpload
  by_cases hsize : maxAttachmentSize ≤ (s.counted.map files.size).sum
  · simp [hsize]
  · by_cases hcount : maxAttachmentsPerMessage ≤ s.counted.length
    · simp [hsize, hcount]
    · rw [if_neg hsize, if_neg hcount]
      refine iff_of_false ?_ (by simp [hsize, hcount])
      split_ifs <;> simp

theorem limitRight_iff :
    LimitRight files s id save ↔ KeepsLimits files s id := by
  unfold LimitRight KeepsLimits countedWith
  rw [refused_iff]
  by_cases hmem : id ∈ s.counted
  · rw [if_pos hmem, if_pos hmem]
    unfold Exceeds
    omega
  · rw [if_neg hmem, if_neg hmem]
    unfold Exceeds
    rw [List.length_append, List.map_append, List.sum_append]
    simp only [List.length_singleton, List.map_cons, List.map_nil,
      List.sum_singleton]
    omega

end Limits

/-!
# Runs of uploads
-/

inductive UploadEvent where
  | create
  | upload (id : LocalAttachmentId) (save : Option ActionId)
  /-- A removal is reverted, since it failed or an action before it did. -/
  | revertRemove (x : QueuedDraftAction) (failed : Bool)
  /-- A removal, or what becomes of an action that has been queued. -/
  | other (e : AttachmentEvent)
  deriving DecidableEq, Repr

def ofUploadOrRemove (x : QueuedDraftAction) : Bool :=
  match x.action with
  | DraftAction.upload _ => true
  | DraftAction.remove _ => true
  | _ => false

def followsUploads : AttachmentEvent -> Bool
  | AttachmentEvent.remove _ => true
  | AttachmentEvent.start x => ofUploadOrRemove x
  | AttachmentEvent.finish x => ofUploadOrRemove x
  | AttachmentEvent.requeue x => ofUploadOrRemove x
  | AttachmentEvent.fail x => ofUploadOrRemove x
  | AttachmentEvent.cancel x => ofUploadOrRemove x
  | _ => false

/-- `AttachmentRemoveHandler::revert_local` -/
def revertRemove (s : Draft) (id : LocalAttachmentId) : Draft :=
  (s.setRow id (fun r => { r with deleted := false })).link id

def nextUpload (files : AttachmentFiles) (s : Draft) :
    UploadEvent -> Option Draft
  | UploadEvent.create => some s.createLocal
  | UploadEvent.upload id save => some (s.upload files id save)
  | UploadEvent.revertRemove x failed =>
      match x.action with
      | DraftAction.remove id =>
          if x ∈ s.queue then
            let s' := s.dequeue x
            some (if failed then
              (s'.setErrorState DraftAttachmentUploadState.error
                x.action).revertRemove id
            else s'.revertRemove id)
          else none
      | _ => none
  | UploadEvent.other e => if followsUploads e then s.next e else none

/-- Each attachment has one row, and each row an attachment. -/
structure Known (s : Draft) : Prop where
  nodup : (s.rows.map DraftAttachmentMetadata.localAttachmentId).Nodup
  contains : forall r, r ∈ s.rows -> s.contains r.localAttachmentId = true

/-- A draft that has just been made keeps the limits, say without attachments. -/
structure WithinLimits (files : AttachmentFiles) (s : Draft) : Prop
    extends Known s where
  limits : ¬ Exceeds files s.counted

/-- Every upload keeps the limits, and what a failed removal brings back too. -/
def Keeps (files : AttachmentFiles) (s : Draft) : UploadEvent -> Prop
  | UploadEvent.upload id _ => KeepsLimits files s id
  | UploadEvent.revertRemove x _ =>
      forall id, x.action = DraftAction.remove id ->
        ¬ Exceeds files (s.countedWith id)
  | _ => True

section Counted

variable {files : AttachmentFiles} {s s' s'' : Draft}
  {id : LocalAttachmentId} {save : Option ActionId}

theorem mem_counted :
    id ∈ s.counted ↔
      exists r, r ∈ s.rows ∧ r.localAttachmentId = id ∧ r.deleted = false ∧
        s.contains id = true := by
  unfold counted
  rw [List.mem_filter, List.mem_map]
  constructor
  · rintro ⟨⟨r, hr, hid⟩, hcontains⟩
    rcases List.mem_filter.mp hr with ⟨hr, hmark⟩
    exact ⟨r, hr, hid, by simpa using hmark, hcontains⟩
  · rintro ⟨r, hr, hid, hmark, hcontains⟩
    exact ⟨⟨r, List.mem_filter.mpr ⟨hr, by simpa using hmark⟩, hid⟩,
      hcontains⟩

theorem Known.counted_nodup (h : Known s) : s.counted.Nodup := by
  unfold counted
  refine (List.Nodup.sublist ?_ h.nodup).filter _
  exact List.filter_sublist.map _

theorem Exceeds.mono {ids ids' : List LocalAttachmentId}
    (h : Exceeds files ids') (hnodup : ids'.Nodup)
    (hsubset : forall id, id ∈ ids' -> id ∈ ids) : Exceeds files ids := by
  rcases List.subperm_of_subset hnodup hsubset with ⟨l, hperm, hsub⟩
  rcases h with hcount | hsize
  · refine Or.inl (Nat.lt_of_lt_of_le hcount ?_)
    rw [<- hperm.length_eq]
    exact hsub.length_le
  · refine Or.inr (Nat.lt_of_lt_of_le hsize ?_)
    rw [<- (hperm.map files.size).sum_eq]
    exact (hsub.map files.size).sum_le_sum (fun _ _ => Nat.zero_le _)

/-- A change of a row that keeps its mark if there is one. -/
structure Marks (f : DraftAttachmentMetadata -> DraftAttachmentMetadata) :
    Prop where
  id : forall r, (f r).localAttachmentId = r.localAttachmentId
  order : forall r, (f r).displayOrder = r.displayOrder
  mark : forall r, (f r).deleted = false -> r.deleted = false

/-- No row is new, and no mark has been taken back. -/
structure Fewer (s s' : Draft) : Prop where
  rows : exists f, Marks f ∧ List.Sublist s'.rows (s.rows.map f)
  contains : forall r', r' ∈ s'.rows -> s.contains r'.localAttachmentId = true ->
    s'.contains r'.localAttachmentId = true

namespace Fewer

theorem ids (h : Fewer s s') :
    List.Sublist (s'.rows.map DraftAttachmentMetadata.localAttachmentId)
      (s.rows.map DraftAttachmentMetadata.localAttachmentId) := by
  rcases h.rows with ⟨f, hf, hsub⟩
  have hmap := hsub.map DraftAttachmentMetadata.localAttachmentId
  have hids : DraftAttachmentMetadata.localAttachmentId ∘ f =
      DraftAttachmentMetadata.localAttachmentId := funext hf.id
  rwa [List.map_map, hids] at hmap

theorem row (h : Fewer s s') {r' : DraftAttachmentMetadata}
    (hr' : r' ∈ s'.rows) :
    exists r, r ∈ s.rows ∧ r.localAttachmentId = r'.localAttachmentId ∧
      r.displayOrder = r'.displayOrder ∧
      (r'.deleted = false -> r.deleted = false) := by
  rcases h.rows with ⟨f, hf, hsub⟩
  rcases List.mem_map.mp (hsub.subset hr') with ⟨r, hr, rfl⟩
  exact ⟨r, hr, (hf.id r).symm, (hf.order r).symm, hf.mark r⟩

theorem of_sublist (hrows : List.Sublist s'.rows s.rows)
    (hcontains : forall r', r' ∈ s'.rows ->
      s.contains r'.localAttachmentId = true ->
      s'.contains r'.localAttachmentId = true) : Fewer s s' where
  rows := ⟨fun r => r, ⟨fun _ => rfl, fun _ => rfl, fun _ h => h⟩,
    by rw [List.map_id']; exact hrows⟩
  contains := hcontains

theorem of_eq (hrows : s'.rows = s.rows)
    (hcontains : s'.contains = s.contains) : Fewer s s' :=
  of_sublist (by rw [hrows]) (fun _ _ h => by rw [hcontains]; exact h)

theorem trans (h : Fewer s s') (h' : Fewer s' s'') : Fewer s s'' where
  rows := by
    rcases h.rows with ⟨f, hf, hsub⟩
    rcases h'.rows with ⟨f', hf', hsub'⟩
    refine ⟨fun r => f' (f r), ⟨?_, ?_, ?_⟩, ?_⟩
    · exact fun r => (hf'.id (f r)).trans (hf.id r)
    · exact fun r => (hf'.order (f r)).trans (hf.order r)
    · exact fun r hmark => hf.mark r (hf'.mark (f r) hmark)
    · refine hsub'.trans ?_
      have hmap := hsub.map f'
      rwa [List.map_map] at hmap
  contains := by
    intro r'' hr'' hcontains
    rcases h'.row hr'' with ⟨r', hr', hid', _⟩
    refine h'.contains r'' hr'' ?_
    rw [<- hid'] at hcontains ⊢
    exact h.contains r' hr' hcontains

theorem setRow {f : DraftAttachmentMetadata -> DraftAttachmentMetadata}
    (hf : Marks f) (s : Draft) (id : LocalAttachmentId) :
    Fewer s (s.setRow id f) where
  rows := by
    refine ⟨_, ⟨fun r => ?_, fun r => ?_, fun r => ?_⟩, List.Sublist.refl _⟩
    · split
      · exact hf.id r
      · rfl
    · split
      · exact hf.order r
      · rfl
    · split
      · exact hf.mark r
      · exact fun h => h
  contains := fun _ _ h => h

theorem setState (s : Draft) (id : LocalAttachmentId)
    (state : DraftAttachmentUploadState) :
    Fewer s (s.setRow id (fun r => { r with state := state })) :=
  setRow (f := fun r => { r with state := state })
    ⟨fun _ => rfl, fun _ => rfl, fun _ h => h⟩ s id

theorem setErrorState (s : Draft) (state : DraftAttachmentUploadState)
    (action : DraftAction) : Fewer s (s.setErrorState state action) := by
  cases action with
  | upload id => exact setState s id state
  | remove id => exact setState s id state
  | save ids => exact of_eq rfl rfl
  | send => exact of_eq rfl rfl

theorem revertLocal (s : Draft) (action : DraftAction) :
    Fewer s (s.revertLocal action) := by
  cases action <;> exact of_eq rfl rfl

theorem uploadDone (s : Draft) (id : LocalAttachmentId) :
    Fewer s (s.uploadDone id) := by
  refine (setState s id DraftAttachmentUploadState.uploaded).trans
    (of_eq rfl ?_)
  funext id'
  unfold Draft.contains Draft.uploadDone
  have hids : (s.attachments.map (fun a =>
      if a.localId = id then { a with remote := true } else a)).map
        Attachment.localId = s.attachments.map Attachment.localId := by
    rw [List.map_map]
    refine List.map_congr_left (fun a _ => ?_)
    simp only [Function.comp_apply]
    split <;> rfl
  exact congrArg (fun ids => decide (id' ∈ ids)) hids

theorem removeLocal (s : Draft) (id : LocalAttachmentId) :
    Fewer s (s.removeLocal id) := by
  have hunlink : Fewer s (s.unlink id) := of_eq rfl rfl
  have hmark := setRow (f := fun r => { r with deleted := true })
    ⟨fun _ => rfl, fun _ => rfl, fun _ h => nomatch h⟩ (s.unlink id) id
  exact hunlink.trans (hmark.trans (of_eq rfl rfl))

theorem contains_deleteAttachment {id' : LocalAttachmentId} (hne : id' ≠ id)
    (h : s.contains id' = true) :
    (s.deleteAttachment id).contains id' = true := by
  unfold Draft.contains at h ⊢
  rcases List.mem_map.mp (of_decide_eq_true h) with ⟨a, ha, hid⟩
  refine decide_eq_true (List.mem_map.mpr ⟨a, ?_, hid⟩)
  exact List.mem_filter.mpr ⟨ha, by simpa [hid] using hne⟩

theorem contains_deleteOwned (ownership : DraftAttachmentOwnership)
    {id' : LocalAttachmentId} (hne : id' ≠ id)
    (h : s.contains id' = true) :
    (s.deleteOwned id ownership).contains id' = true := by
  cases ownership with
  | inherited => exact h
  | owned => exact contains_deleteAttachment hne h

theorem rows_deleteRow (s : Draft) (r : DraftAttachmentMetadata) :
    (s.deleteRow r).rows = s.rows.filter (fun r' =>
      r'.localAttachmentId ≠ r.localAttachmentId) := by
  unfold Draft.deleteRow
  split <;> rfl

theorem removeDone (s : Draft) (id : LocalAttachmentId)
    (ownership : DraftAttachmentOwnership) :
    Fewer s (s.removeDone id ownership) := by
  have hrows : (s.deleteOwned id ownership).rows = s.rows := by
    cases ownership <;> rfl
  have hsub : List.Sublist (s.removeDone id ownership).rows s.rows := by
    unfold Draft.removeDone
    split
    · rw [hrows]
    · rw [rows_deleteRow, hrows]
      exact List.filter_sublist
  refine of_sublist hsub (fun r' hr' hcontains => ?_)
  have hne := Draft.removeDone_row hr'
  have howned := contains_deleteOwned ownership hne hcontains
  unfold Draft.removeDone
  split
  · exact howned
  · rename_i r hfind
    have hid : r.localAttachmentId = id := by
      simpa using List.find?_some hfind
    unfold Draft.deleteRow
    split
    · exact howned
    · exact contains_deleteAttachment (by rw [hid]; exact hne) howned

theorem known (h : Fewer s s') (hknown : Known s) : Known s' where
  nodup := hknown.nodup.sublist h.ids
  contains := by
    intro r' hr'
    rcases h.row hr' with ⟨r, hr, hid, _⟩
    refine h.contains r' hr' ?_
    rw [<- hid]
    exact hknown.contains r hr

theorem mem_counted (h : Fewer s s') (hknown : Known s)
    (hid : id ∈ s'.counted) : id ∈ s.counted := by
  rcases Draft.mem_counted.mp hid with ⟨r', hr', rfl, hmark, _⟩
  rcases h.row hr' with ⟨r, hr, heq, _, hmark'⟩
  rw [<- heq]
  exact Draft.mem_counted.mpr ⟨r, hr, rfl, hmark' hmark, hknown.contains r hr⟩

theorem within (h : Fewer s s') (hwithin : WithinLimits files s) :
    WithinLimits files s' where
  toKnown := h.known hwithin.toKnown
  limits := fun hexceeds => hwithin.limits
    (hexceeds.mono (h.known hwithin.toKnown).counted_nodup
      (fun _ hid => h.mem_counted hwithin.toKnown hid))

theorem setProgress (s : Draft) (x : QueuedDraftAction) (p : Progress) :
    Fewer s (s.setProgress x p) :=
  of_eq rfl rfl

theorem dequeue (s : Draft) (x : QueuedDraftAction) : Fewer s (s.dequeue x) :=
  of_eq rfl rfl

theorem finish {x : QueuedDraftAction} (hx : ofUploadOrRemove x = true)
    (h : s.finish x = some s') : Fewer s s' := by
  unfold ofUploadOrRemove at hx
  unfold Draft.finish at h
  split at h
  · split at h
    · cases h
      exact (dequeue s x).trans (uploadDone _ _)
    · cases h
  · cases h
    exact (dequeue s x).trans (removeDone _ _ _)
  · rename_i haction
    rw [haction] at hx
    cases hx
  · rename_i haction
    rw [haction] at hx
    cases hx
  · cases h

theorem next {e : AttachmentEvent} (he : followsUploads e = true)
    (h : s.next e = some s') : Fewer s s' := by
  cases e with
  | remove id =>
      rcases Option.ite_none_right_eq_some.mp h with ⟨_, hs'⟩
      cases hs'
      exact removeLocal s id
  | start x =>
      rcases Option.ite_none_right_eq_some.mp h with ⟨_, hs'⟩
      rcases Option.map_eq_some_iff.mp hs' with ⟨p, _, rfl⟩
      exact setProgress s x p
  | finish x =>
      rcases Option.ite_none_right_eq_some.mp h with ⟨_, hs'⟩
      exact finish he hs'
  | requeue x =>
      rcases Option.ite_none_right_eq_some.mp h with ⟨_, hs'⟩
      cases hs'
      exact (setErrorState s _ _).trans (setProgress _ _ _)
  | fail x =>
      rcases Option.ite_none_right_eq_some.mp h with ⟨_, hs'⟩
      cases hs'
      exact (dequeue s x).trans
        ((setErrorState _ _ _).trans (revertLocal _ _))
  | cancel x =>
      rcases Option.ite_none_right_eq_some.mp h with ⟨_, hs'⟩
      cases hs'
      exact (dequeue s x).trans (revertLocal _ _)
  | add save => cases he
  | addPending => cases he
  | upload id save => cases he
  | save replaced => cases he
  | send scheduled => cases he

end Fewer

theorem mem_countedWith {id' : LocalAttachmentId} :
    id' ∈ s.countedWith id ↔ id' ∈ s.counted ∨ id' = id := by
  unfold countedWith
  split
  · rename_i hmem
    constructor
    · exact Or.inl
    · rintro (h | rfl)
      · exact h
      · exact hmem
  · rw [List.mem_append, List.mem_singleton]

theorem WithinLimits.of_countedWith (hknown : Known s')
    (hexceeds : ¬ Exceeds files (s.countedWith id))
    (hsubset : forall id', id' ∈ s'.counted -> id' ∈ s.counted ∨ id' = id) :
    WithinLimits files s' where
  toKnown := hknown
  limits := fun h => hexceeds (h.mono hknown.counted_nodup
    (fun id' hid' => mem_countedWith.mpr (hsubset id' hid')))

theorem fewer_createLocal (s : Draft) : Fewer s s.createLocal := by
  refine Fewer.of_sublist (List.Sublist.refl _) (fun r _ h => ?_)
  unfold contains createLocal at *
  rw [List.map_append]
  exact decide_eq_true (List.mem_append_left _ (of_decide_eq_true h))

theorem applyUpload_ok (h : s.applyUpload files id save = Except.ok s') :
    ¬ Refused files s id save ∧ s.contains id = true ∧
      s'.rows = (s.saveUploading id).rows ∧ s'.contains = s.contains := by
  have hrefused : ¬ Refused files s id save := by
    unfold Refused
    rw [h]
    simp
  have hattachments : (s.saveUploading id).attachments = s.attachments := by
    unfold saveUploading
    split <;> rfl
  unfold applyUpload at h
  split_ifs at h with _ _ _ _ _ _ hcontains
  cases h
  refine ⟨hrefused, by simpa using hcontains, rfl, ?_⟩
  unfold contains
  exact funext (fun id' => congrArg
    (fun as : List Attachment => decide (id' ∈ as.map Attachment.localId))
      hattachments)

/-- The row that an upload makes for a new attachment. -/
def newRow (s : Draft) (id : LocalAttachmentId) : DraftAttachmentMetadata where
  localAttachmentId := id
  state := DraftAttachmentUploadState.uploading
  displayOrder := s.nextDisplayOrder

theorem fewer_of_applyUpload (h : s.applyUpload files id save = Except.ok s')
    (hrow : s.findRow id ≠ none) : Fewer s s' := by
  rcases applyUpload_ok h with ⟨_, _, hrows, hcontains⟩
  unfold saveUploading at hrows
  split at hrows
  · exact (Fewer.setState s id _).trans (Fewer.of_eq hrows hcontains)
  · rename_i hnone
    exact absurd hnone hrow

theorem rows_of_applyUpload (h : s.applyUpload files id save = Except.ok s')
    (hrow : s.findRow id = none) : s'.rows = s.rows ++ [s.newRow id] := by
  rw [(applyUpload_ok h).right.right.left]
  unfold saveUploading
  rw [hrow]
  rfl

theorem not_mem_ids (hrow : s.findRow id = none) {r : DraftAttachmentMetadata}
    (hr : r ∈ s.rows) : r.localAttachmentId ≠ id := by
  simpa using List.find?_eq_none.mp hrow r hr

theorem known_of_applyUpload (hknown : Known s)
    (h : s.applyUpload files id save = Except.ok s') : Known s' := by
  by_cases hrow : s.findRow id = none
  · rcases applyUpload_ok h with ⟨_, hid, _, hcontains⟩
    constructor
    · rw [rows_of_applyUpload h hrow, List.map_append, List.nodup_append]
      refine ⟨hknown.nodup, List.nodup_singleton _, ?_⟩
      intro id' hid' id'' hid''
      rcases List.mem_map.mp hid' with ⟨r, hr, rfl⟩
      rw [List.mem_singleton.mp hid'']
      exact not_mem_ids hrow hr
    · intro r hr
      rw [rows_of_applyUpload h hrow] at hr
      rw [hcontains]
      rcases List.mem_append.mp hr with hold | hnew
      · exact hknown.contains r hold
      · rw [List.mem_singleton.mp hnew]
        exact hid
  · exact (fewer_of_applyUpload h hrow).known hknown

theorem mem_counted_applyUpload (hknown : Known s)
    (h : s.applyUpload files id save = Except.ok s') {id' : LocalAttachmentId}
    (hid' : id' ∈ s'.counted) : id' ∈ s.counted ∨ id' = id := by
  by_cases hrow : s.findRow id = none
  · rcases mem_counted.mp hid' with ⟨r, hr, rfl, hmark, _⟩
    rw [rows_of_applyUpload h hrow] at hr
    rcases List.mem_append.mp hr with hold | hnew
    · exact Or.inl (mem_counted.mpr
        ⟨r, hold, rfl, hmark, hknown.contains r hold⟩)
    · rw [List.mem_singleton.mp hnew]
      exact Or.inr rfl
  · exact Or.inl ((fewer_of_applyUpload h hrow).mem_counted hknown hid')

theorem within_upload (h : WithinLimits files s)
    (hkeeps : KeepsLimits files s id) :
    WithinLimits files (s.upload files id save) := by
  unfold upload
  split
  · exact h
  · rename_i s' hok
    have haccepted := (applyUpload_ok hok).left
    refine WithinLimits.of_countedWith (known_of_applyUpload h.toKnown hok)
      (fun hexceeds => ?_) (fun _ => mem_counted_applyUpload h.toKnown hok)
    exact haccepted ((limitRight_iff.mpr hkeeps).mpr hexceeds)

theorem ids_revertRemove (s : Draft) (id : LocalAttachmentId) :
    (s.revertRemove id).rows.map DraftAttachmentMetadata.localAttachmentId =
      s.rows.map DraftAttachmentMetadata.localAttachmentId := by
  unfold revertRemove link setRow
  rw [List.map_map]
  refine List.map_congr_left (fun r _ => ?_)
  simp only [Function.comp_apply]
  split <;> rfl

theorem known_revertRemove (h : Known s) : Known (s.revertRemove id) := by
  constructor
  · rw [ids_revertRemove]
    exact h.nodup
  · intro r' hr'
    rcases List.mem_map.mp (ids_revertRemove s id ▸ List.mem_map_of_mem hr')
      with ⟨r, hr, hid⟩
    rw [<- hid]
    exact h.contains r hr

theorem mem_counted_revertRemove (h : Known s) {id' : LocalAttachmentId}
    (hid' : id' ∈ (s.revertRemove id).counted) :
    id' ∈ s.counted ∨ id' = id := by
  rcases mem_counted.mp hid' with ⟨r', hr', rfl, hmark, _⟩
  rcases List.mem_map.mp hr' with ⟨r, hr, rfl⟩
  by_cases hid : r.localAttachmentId = id
  · rw [if_pos hid]
    exact Or.inr hid
  · rw [if_neg hid] at hmark ⊢
    exact Or.inl (mem_counted.mpr ⟨r, hr, rfl, hmark, h.contains r hr⟩)

theorem WithinLimits.next (h : WithinLimits files s) {e : UploadEvent}
    (hkeeps : Keeps files s e) (hstep : s.nextUpload files e = some s') :
    WithinLimits files s' := by
  cases e with
  | create =>
      cases hstep
      exact (fewer_createLocal s).within h
  | upload id save =>
      cases hstep
      exact within_upload h hkeeps
  | revertRemove x failed =>
      simp only [nextUpload] at hstep
      split at hstep
      · rename_i id haction
        rcases Option.ite_none_right_eq_some.mp hstep with ⟨_, hs'⟩
        cases hs'
        have hroom := hkeeps id haction
        have hrevert : forall t, Fewer s t ->
            WithinLimits files (t.revertRemove id) := by
          intro t hfewer
          have hknown := hfewer.known h.toKnown
          refine WithinLimits.of_countedWith (known_revertRemove hknown) hroom
            (fun id' hid' => ?_)
          exact (mem_counted_revertRemove hknown hid').imp_left
            (hfewer.mem_counted h.toKnown)
        split
        · exact hrevert _ ((Fewer.dequeue s x).trans
            (Fewer.setErrorState _ _ _))
        · exact hrevert _ (Fewer.dequeue s x)
      · cases hstep
  | other e =>
      rcases Option.ite_none_right_eq_some.mp hstep with ⟨he, hs'⟩
      exact (Fewer.next he hs').within h

end Counted

end Draft

/-- A draft without attachments. -/
def newDraft : Draft where
  attachments := []
  rows := []
  message := true
  nextAttachment := 0

end Drafts
end MailClient
