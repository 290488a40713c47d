import Mathlib.Data.List.TakeWhile
import MailClient.Drafts.Uploads

/-!
# The order of attachments

The rows of a draft are sorted by their display orders, and rows with the same
one come in any order.
-/

namespace MailClient
namespace Drafts

open Foundation

namespace Draft

/-- What `attachment_for_draft` may list. -/
def Listed (s : Draft) (ids : List LocalAttachmentId) : Prop :=
  exists rows, List.Perm rows s.rows ∧
    rows.Pairwise (fun r r' => r.displayOrder ≤ r'.displayOrder) ∧
    ids = (rows.map DraftAttachmentMetadata.localAttachmentId).filter s.contains

theorem listed_attachmentForDraft (s : Draft) : Listed s s.attachmentForDraft :=
  ⟨_, List.perm_insertionSort _ _,
    List.pairwise_insertionSort
      (fun r r' : DraftAttachmentMetadata => r.displayOrder ≤ r'.displayOrder) _,
    rfl⟩

/-- The attachments in the order in which they have been added. -/
def added (files : AttachmentFiles) (s : Draft)
    (order : List LocalAttachmentId) : UploadEvent -> List LocalAttachmentId
  | UploadEvent.upload id save =>
      if s.findRow id = none ∧ (s.applyUpload files id save).isOk then
        order.filter (fun id' => id' ≠ id) ++ [id]
      else order
  | _ => order

/--
No attachment that is left has the display order that a new one gets, or that of
an attachment whose removal is reverted.
-/
def Spaced (s : Draft) : UploadEvent -> Prop
  | UploadEvent.upload id _ =>
      s.findRow id = none -> forall r, r ∈ s.rows -> r.deleted = false ->
        r.displayOrder ≠ s.nextDisplayOrder
  | UploadEvent.revertRemove x _ =>
      forall id, x.action = DraftAction.remove id ->
        forall r r', r ∈ s.rows -> r' ∈ s.rows -> r.localAttachmentId = id ->
          r'.localAttachmentId ≠ id -> r'.deleted = false ->
          r.displayOrder ≠ r'.displayOrder
  | _ => True

end Draft

/-- A draft, and its attachments in the order in which they were added. -/
structure Ordered where
  draft : Draft
  order : List LocalAttachmentId

namespace Ordered

open Draft

/-- The attachments of a draft as it is opened have the orders `0..n-1`. -/
structure Opened (x : Ordered) : Prop extends Known x.draft where
  deleted : forall r, r ∈ x.draft.rows -> r.deleted = false
  orders : x.draft.rows.map DraftAttachmentMetadata.displayOrder =
    List.range x.draft.rows.length
  order : x.order =
    x.draft.rows.map DraftAttachmentMetadata.localAttachmentId

def Runs (files : AttachmentFiles) : TransitionSystem Ordered UploadEvent where
  init := Opened
  step := fun x e x' =>
    x.draft.nextUpload files e = some x'.draft ∧
      x'.order = x.draft.added files x.order e

/--
However the rows are sorted, the attachments that are left come in the order in
which they were added.  Those that are being removed may stand between them.
-/
def InOrder (x : Ordered) : Prop :=
  forall ids, Listed x.draft ids ->
    ids.filter (fun id => id ∈ x.draft.counted) =
      x.order.filter (fun id => id ∈ x.draft.counted)

/-- Whatever row comes before another one that is left has a lower order. -/
def Before (r r' : DraftAttachmentMetadata) : Prop :=
  r.displayOrder ≤ r'.displayOrder ∧
    (r.deleted = false -> r'.deleted = false ->
      r.displayOrder ≠ r'.displayOrder)

structure Arranged (x : Ordered) : Prop extends Known x.draft where
  before : x.draft.rows.Pairwise Before
  order : List.Sublist
    (x.draft.rows.map DraftAttachmentMetadata.localAttachmentId) x.order
  distinct : x.order.Nodup

section Arranged

variable {files : AttachmentFiles} {x x' : Ordered} {s s' : Draft}
  {id : LocalAttachmentId}

theorem filter_mem_eq {ids ids' : List LocalAttachmentId}
    (h : List.Sublist ids ids') (hnodup : ids'.Nodup) :
    ids'.filter (fun id => id ∈ ids) = ids := by
  induction h with
  | slnil => rfl
  | @cons ids ids' id hsub ih =>
      rw [List.nodup_cons] at hnodup
      rw [List.filter_cons_of_neg, ih hnodup.right]
      simpa using fun hmem => hnodup.left (hsub.subset hmem)
  | @cons_cons ids ids' id hsub ih =>
      rw [List.nodup_cons] at hnodup
      rw [List.filter_cons_of_pos (by simp)]
      refine congrArg (List.cons id) ?_
      rw [<- ih hnodup.right]
      refine List.filter_congr (fun id' hid' => ?_)
      have hne : id' ≠ id := fun heq => hnodup.left (heq ▸ hid')
      simp [hne, ih hnodup.right]

theorem counted_sublist (s : Draft) :
    List.Sublist s.counted
      (s.rows.map DraftAttachmentMetadata.localAttachmentId) :=
  List.filter_sublist.trans (List.filter_sublist.map _)

theorem Opened.arranged (h : Opened x) : Arranged x where
  toKnown := h.toKnown
  before := by
    have hrange : (x.draft.rows.map
        DraftAttachmentMetadata.displayOrder).Pairwise (fun n m => n < m) := by
      rw [h.orders]
      exact List.pairwise_lt_range
    refine (List.pairwise_map.mp hrange).imp (fun hlt => ?_)
    exact ⟨hlt.le, fun _ _ => hlt.ne⟩
  order := by rw [h.order]
  distinct := by
    rw [h.order]
    exact h.nodup

theorem Arranged.fewer (h : Arranged x) (hfewer : Fewer x.draft s') :
    Arranged { x with draft := s' } where
  toKnown := hfewer.known h.toKnown
  before := by
    rcases hfewer.rows with ⟨f, hf, hsub⟩
    refine List.Pairwise.sublist hsub (List.pairwise_map.mpr ?_)
    refine h.before.imp (fun {r r'} hbefore => ?_)
    unfold Before
    rw [hf.order, hf.order]
    exact ⟨hbefore.left, fun hr hr' =>
      hbefore.right (hf.mark r hr) (hf.mark r' hr')⟩
  order := hfewer.ids.trans h.order
  distinct := h.distinct

theorem le_foldl_max {orders : List Nat} (m : Nat) :
    m ≤ orders.foldl max m ∧
      forall n, n ∈ orders -> n ≤ orders.foldl max m := by
  induction orders generalizing m with
  | nil => exact ⟨Nat.le_refl m, fun n hn => nomatch hn⟩
  | cons n rest ih =>
      rcases ih (max m n) with ⟨hle, hrest⟩
      refine ⟨(Nat.le_max_left m n).trans hle, fun n' hn' => ?_⟩
      rcases List.mem_cons.mp hn' with rfl | hn'
      · exact (Nat.le_max_right m n').trans hle
      · exact hrest n' hn'

theorem le_nextDisplayOrder {r : DraftAttachmentMetadata} (hr : r ∈ s.rows) :
    r.displayOrder ≤ s.nextDisplayOrder :=
  (le_foldl_max 0).right r.displayOrder (List.mem_map_of_mem hr)

theorem sublist_added (h : Arranged x) {save : Option ActionQueue.ActionId}
    (hok : x.draft.applyUpload files id save = Except.ok s')
    (hrow : x.draft.findRow id = none) :
    List.Sublist (s'.rows.map DraftAttachmentMetadata.localAttachmentId)
      (x.order.filter (fun id' => id' ≠ id) ++ [id]) := by
  rw [rows_of_applyUpload hok hrow, List.map_append]
  refine List.Sublist.append ?_ (List.Sublist.refl _)
  have hfilter := h.order.filter (fun id' => decide (id' ≠ id))
  rwa [List.filter_eq_self.mpr ?_] at hfilter
  intro id' hid'
  rcases List.mem_map.mp hid' with ⟨r, hr, rfl⟩
  exact decide_eq_true (not_mem_ids hrow hr)

theorem nodup_added (h : Arranged x) :
    (x.order.filter (fun id' => id' ≠ id) ++ [id]).Nodup := by
  rw [List.nodup_append]
  refine ⟨h.distinct.filter _, List.nodup_singleton _, ?_⟩
  intro id' hid' id'' hid''
  rw [List.mem_singleton.mp hid'']
  simpa using (List.mem_filter.mp hid').right

theorem Arranged.applyUpload (h : Arranged x) {save : Option ActionQueue.ActionId}
    (hok : x.draft.applyUpload files id save = Except.ok s')
    (hrow : x.draft.findRow id = none)
    (hspaced : forall r, r ∈ x.draft.rows -> r.deleted = false ->
      r.displayOrder ≠ x.draft.nextDisplayOrder) :
    Arranged ⟨s', x.order.filter (fun id' => id' ≠ id) ++ [id]⟩ where
  toKnown := known_of_applyUpload h.toKnown hok
  before := by
    show s'.rows.Pairwise Before
    rw [rows_of_applyUpload hok hrow, List.pairwise_append]
    refine ⟨h.before, List.pairwise_singleton _ _, ?_⟩
    intro r hr r' hr'
    rw [List.mem_singleton.mp hr']
    exact ⟨le_nextDisplayOrder hr, fun hmark _ => hspaced r hr hmark⟩
  order := sublist_added h hok hrow
  distinct := nodup_added h

theorem Arranged.revertRemove (h : Arranged x)
    (hspaced : forall r r', r ∈ x.draft.rows -> r' ∈ x.draft.rows ->
      r.localAttachmentId = id -> r'.localAttachmentId ≠ id ->
      r'.deleted = false -> r.displayOrder ≠ r'.displayOrder) :
    Arranged { x with draft := x.draft.revertRemove id } where
  toKnown := known_revertRemove h.toKnown
  before := by
    refine List.pairwise_map.mpr ?_
    have hids := List.pairwise_map.mp h.nodup
    refine (h.before.and hids).imp_of_mem ?_
    rintro r r' hr hr' ⟨⟨hle, hne⟩, hid⟩
    unfold Before
    split
    · rename_i hr_id
      rw [if_neg (fun h => hid (hr_id.trans h.symm))]
      exact ⟨hle, fun _ hmark =>
        hspaced r r' hr hr' hr_id (fun h => hid (hr_id.trans h.symm)) hmark⟩
    · rename_i hr_id
      split
      · rename_i hr'_id
        exact ⟨hle, fun hmark _ heq =>
          hspaced r' r hr' hr hr'_id hr_id hmark heq.symm⟩
      · exact ⟨hle, hne⟩
  order := by
    show List.Sublist ((x.draft.revertRemove id).rows.map _) _
    rw [ids_revertRemove]
    exact h.order
  distinct := h.distinct

theorem Arranged.next (h : Arranged x) {e : UploadEvent}
    (hspaced : Spaced x.draft e) (hstep : (Runs files).step x e x') :
    Arranged x' := by
  rcases x with ⟨s, order⟩
  rcases x' with ⟨s', order'⟩
  rcases hstep with ⟨hnext, horder⟩
  dsimp only at hnext horder hspaced
  cases e with
  | create =>
      cases hnext
      rw [horder]
      exact h.fewer (fewer_createLocal s)
  | upload id save =>
      simp only [nextUpload, Draft.upload, Option.some.injEq] at hnext
      simp only [added] at horder
      split at hnext
      · rename_i hfailed
        rw [hfailed] at horder
        rw [if_neg (by simp [Except.isOk, Except.toBool])] at horder
        rw [<- hnext, horder]
        exact h
      · rename_i hok
        rw [<- hnext, horder, hok]
        split
        · rename_i hnew
          exact h.applyUpload hok hnew.left (hspaced hnew.left)
        · rename_i hold
          refine h.fewer (fewer_of_applyUpload hok (fun hrow => hold ?_))
          exact ⟨hrow, rfl⟩
  | revertRemove x failed =>
      simp only [nextUpload] at hnext
      rw [horder]
      split at hnext
      · rename_i id haction
        rcases Option.ite_none_right_eq_some.mp hnext with ⟨_, hs'⟩
        cases hs'
        have hrevert : forall t, Fewer s t ->
            Arranged ⟨t.revertRemove id, order⟩ := by
          intro t hfewer
          refine (h.fewer hfewer).revertRemove ?_
          intro r r' hr hr' hid hid' hmark
          rcases hfewer.row hr with ⟨q, hq, hq_id, hq_order, _⟩
          rcases hfewer.row hr' with ⟨q', hq', hq'_id, hq'_order, hq'_mark⟩
          rw [<- hq_order, <- hq'_order]
          exact hspaced id haction q q' hq hq' (hq_id.trans hid)
            (hq'_id.trans_ne hid') (hq'_mark hmark)
        split
        · exact hrevert _ ((Fewer.dequeue s x).trans
            (Fewer.setErrorState _ _ _))
        · exact hrevert _ (Fewer.dequeue s x)
      · cases hnext
  | other e =>
      rcases Option.ite_none_right_eq_some.mp hnext with ⟨he, hs'⟩
      rw [horder]
      exact h.fewer (Fewer.next he hs')

/-- The attachments of these rows that have not been removed. -/
def left (s : Draft) (rows : List DraftAttachmentMetadata) :
    List LocalAttachmentId :=
  ((rows.filter (fun r => !r.deleted)).map
    DraftAttachmentMetadata.localAttachmentId).filter s.contains

theorem left_append (s : Draft) (rows rows' : List DraftAttachmentMetadata) :
    left s (rows ++ rows') = left s rows ++ left s rows' := by
  unfold left
  rw [List.filter_append, List.map_append, List.filter_append]

theorem left_cons {n : DraftAttachmentMetadata} (hmark : n.deleted = false)
    (hcontains : s.contains n.localAttachmentId = true)
    (rows : List DraftAttachmentMetadata) :
    left s (n :: rows) = n.localAttachmentId :: left s rows := by
  unfold left
  rw [List.filter_cons_of_pos (by simp [hmark]), List.map_cons,
    List.filter_cons_of_pos hcontains]

theorem mem_left {rows : List DraftAttachmentMetadata} :
    id ∈ left s rows ->
      exists r, r ∈ rows ∧ r.localAttachmentId = id := by
  intro hid
  rcases List.mem_map.mp (List.mem_of_mem_filter hid) with ⟨r, hr, heq⟩
  exact ⟨r, List.mem_of_mem_filter hr, heq⟩

theorem filter_deleted (hknown : Known s) {rows : List DraftAttachmentMetadata}
    (hperm : List.Perm rows s.rows) :
    ((rows.map DraftAttachmentMetadata.localAttachmentId).filter
        s.contains).filter (fun id => id ∈ s.counted) = left s rows := by
  unfold left
  rw [List.filter_filter, List.filter_map, List.filter_map, List.filter_filter]
  refine congrArg _ (List.filter_congr (fun r hr => ?_))
  have hr := hperm.mem_iff.mp hr
  have hcontains := hknown.contains r hr
  simp only [Function.comp_apply, hcontains, Bool.and_true, Bool.true_and]
  cases hmark : r.deleted with
  | false =>
      exact decide_eq_true (mem_counted.mpr ⟨r, hr, rfl, hmark, hcontains⟩)
  | true =>
      refine decide_eq_false (fun hmem => ?_)
      rcases mem_counted.mp hmem with ⟨r', hr', hid, hmark', _⟩
      have heq := List.inj_on_of_nodup_map hknown.nodup hr' hr hid
      rw [heq, hmark] at hmark'
      cases hmark'

theorem Arranged.eq_of_order (h : Arranged x) {r r' : DraftAttachmentMetadata}
    (hr : r ∈ x.draft.rows) (hr' : r' ∈ x.draft.rows)
    (hmark : r.deleted = false) (hmark' : r'.deleted = false)
    (horder : r.displayOrder = r'.displayOrder) : r = r' := by
  have hpairs : x.draft.rows.Pairwise (fun r r' => r.deleted = false ->
      r'.deleted = false -> r.displayOrder = r'.displayOrder -> r = r') :=
    h.before.imp (fun hbefore hmark hmark' heq =>
      absurd heq (hbefore.right hmark hmark'))
  refine hpairs.forall_of_forall_of_flip (fun _ _ _ _ _ => rfl) ?_ hr hr'
    hmark hmark' horder
  exact hpairs.imp (fun h hmark hmark' heq => (h hmark' hmark heq.symm).symm)

theorem Arranged.inOrder (h : Arranged x) : InOrder x := by
  rintro ids ⟨rows, hperm, hsorted, rfl⟩
  have hfiltered : rows.filter (fun r => !r.deleted) =
      x.draft.rows.filter (fun r => !r.deleted) := by
    refine List.Perm.eq_of_pairwise ?_ (hsorted.filter _)
      ((h.before.imp (fun h => h.left)).filter _) (hperm.filter _)
    intro r r' hr hr' hle hle'
    rcases List.mem_filter.mp hr with ⟨hr, hmark⟩
    rcases List.mem_filter.mp hr' with ⟨hr', hmark'⟩
    exact h.eq_of_order (hperm.mem_iff.mp hr) hr' (by simpa using hmark)
      (by simpa using hmark') (Nat.le_antisymm hle hle')
  rw [filter_deleted h.toKnown hperm, left, hfiltered]
  exact (filter_mem_eq ((counted_sublist x.draft).trans h.order)
    h.distinct).symm

theorem spaced_of_inOrder (h : Arranged x) {save : Option ActionQueue.ActionId}
    (hok : x.draft.applyUpload files id save = Except.ok s')
    (hrow : x.draft.findRow id = none)
    (hinOrder : InOrder ⟨s', x.order.filter (fun id' => id' ≠ id) ++ [id]⟩)
    {r : DraftAttachmentMetadata} (hr : r ∈ x.draft.rows)
    (hmark : r.deleted = false) :
    r.displayOrder ≠ x.draft.nextDisplayOrder := by
  intro horder
  let le := fun r r' : DraftAttachmentMetadata =>
    r.displayOrder ≤ r'.displayOrder
  let n := x.draft.newRow id
  let lower := x.draft.rows.takeWhile (fun r => decide (¬ le n r))
  let highest := x.draft.rows.dropWhile (fun r => decide (¬ le n r))
  have hsplit : lower ++ highest = x.draft.rows :=
    List.takeWhile_append_dropWhile
  have hknown := known_of_applyUpload h.toKnown hok
  have hrows : s'.rows = lower ++ highest ++ [n] := by
    rw [hsplit]
    exact rows_of_applyUpload hok hrow
  have hn : s'.contains id = true :=
    hknown.contains n (hrows ▸ List.mem_append_right _ (List.mem_singleton_self n))
  -- The new row may come before all others of the highest order.
  have hinsert : x.draft.rows.orderedInsert le n = lower ++ n :: highest :=
    List.orderedInsert_eq_take_drop le n _
  have hperm : List.Perm (lower ++ n :: highest) s'.rows := by
    rw [<- hinsert, rows_of_applyUpload hok hrow]
    exact (List.perm_orderedInsert le n _).trans
      (List.perm_append_singleton n _).symm
  have hsorted : (lower ++ n :: highest).Pairwise le := by
    rw [<- hinsert]
    exact List.Pairwise.orderedInsert n _ (h.before.imp (fun h => h.left))
  have heq := hinOrder _ ⟨_, hperm, hsorted, rfl⟩
  have hcounted := filter_mem_eq ((counted_sublist s').trans
    (sublist_added h hok hrow)) (nodup_added h)
  have hcycle : id :: left s' highest = left s' highest ++ [id] := by
    have hlist : left s' lower ++ id :: left s' highest =
        left s' lower ++ (left s' highest ++ [id]) := by
      calc
        left s' lower ++ id :: left s' highest
            = left s' (lower ++ n :: highest) := by
              rw [left_append, left_cons rfl hn]
              rfl
        _ = s'.counted := by rw [<- filter_deleted hknown hperm, heq, hcounted]
        _ = left s' (lower ++ highest ++ [n]) := congrArg (left s') hrows
        _ = left s' lower ++ (left s' highest ++ [id]) := by
              rw [left_append, left_append, left_cons rfl hn,
                List.append_assoc]
              rfl
    exact List.append_cancel_left hlist
  have hmem : r.localAttachmentId ∈ left s' highest := by
    have hhighest : r ∈ highest := by
      rw [<- hsplit] at hr
      refine (List.mem_append.mp hr).resolve_left (fun hlower => ?_)
      have hlt := List.mem_takeWhile_imp hlower
      simp [le, n, newRow, horder] at hlt
    refine List.mem_filter.mpr ⟨List.mem_map_of_mem ?_, ?_⟩
    · exact List.mem_filter.mpr ⟨hhighest, by simp [hmark]⟩
    · exact hknown.contains r (by
        rw [rows_of_applyUpload hok hrow]
        exact List.mem_append_left _ hr)
  cases hleft : left s' highest with
  | nil =>
      rw [hleft] at hmem
      cases hmem
  | cons id' rest =>
      rw [hleft, List.cons_append] at hcycle
      have hid : id ∈ left s' highest := by
        rw [hleft, <- (List.cons.inj hcycle).left]
        exact List.mem_cons_self
      rcases mem_left hid with ⟨r', hr', hid'⟩
      refine not_mem_ids hrow ?_ hid'
      rw [<- hsplit]
      exact List.mem_append_right _ hr'

end Arranged

/--
As long as rows stay spaced, the attachments of a draft come in the order in
which they were added, and have different display orders; and a new attachment
comes last just if the rows are spaced.
-/
theorem attachments_in_order_iff (files : AttachmentFiles) (x : Ordered)
    (hreach : (Runs files).ReachableWhen (fun x e => Spaced x.draft e) x) :
    (InOrder x ∧
      x.draft.rows.Pairwise (fun r r' => r.deleted = false ->
        r'.deleted = false -> r.displayOrder ≠ r'.displayOrder)) ∧
    forall id save s', x.draft.findRow id = none ->
      x.draft.applyUpload files id save = Except.ok s' ->
      (InOrder ⟨s', x.draft.added files x.order (UploadEvent.upload id save)⟩ ↔
        Spaced x.draft (UploadEvent.upload id save)) := by
  have harranged : Arranged x :=
    TransitionSystem.invariant_when Arranged (fun _ (h : Opened _) => h.arranged)
      (fun _ _ _ _ h hspaced hstep => h.next hspaced hstep) hreach
  refine ⟨⟨harranged.inOrder, harranged.before.imp (fun h => h.right)⟩, ?_⟩
  intro id save s' hrow hok
  simp only [added, hok]
  rw [if_pos ⟨hrow, rfl⟩]
  constructor
  · intro hinOrder _ r hr hmark
    exact spaced_of_inOrder harranged hok hrow hinOrder hr hmark
  · intro hspaced
    exact (harranged.applyUpload hok hrow (hspaced hrow)).inOrder

def smallFiles : AttachmentFiles where
  size := fun _ => 1024

/-- A draft that was synced with two attachments. -/
def syncedDraft : Draft where
  attachments := [{ localId := 0, remote := true },
    { localId := 1, remote := true }]
  rows := [
    { localAttachmentId := 0, state := DraftAttachmentUploadState.uploaded },
    { localAttachmentId := 1, state := DraftAttachmentUploadState.uploaded,
      displayOrder := 1 }]
  message := true
  nextAttachment := 2

theorem syncedDraft_opened : Opened ⟨syncedDraft, [0, 1]⟩ where
  nodup := by decide
  contains := by decide
  deleted := by decide
  orders := rfl
  order := rfl

/-- The second attachment is removed. -/
def removedDraft : Draft := syncedDraft.createLocal.removeLocal 1

theorem removedDraft_reachable :
    (Runs smallFiles).ReachableWhen (fun x e => Spaced x.draft e)
      ⟨removedDraft, [0, 1]⟩ := by
  have hsynced : (Runs smallFiles).ReachableWhen
      (fun x e => Spaced x.draft e) ⟨syncedDraft, [0, 1]⟩ :=
    TransitionSystem.ReachableWhen.start syncedDraft_opened
  have hcreated : (Runs smallFiles).ReachableWhen
      (fun x e => Spaced x.draft e) ⟨syncedDraft.createLocal, [0, 1]⟩ :=
    TransitionSystem.ReachableWhen.next hsynced (l := UploadEvent.create)
      trivial ⟨rfl, rfl⟩
  exact TransitionSystem.ReachableWhen.next hcreated
    (l := UploadEvent.other (AttachmentEvent.remove 1)) trivial ⟨rfl, rfl⟩

theorem third_attachment_last :
    InOrder ⟨removedDraft, [0, 1]⟩ ∧
      InOrder ⟨removedDraft.upload smallFiles 2 none, [0, 1, 2]⟩ := by
  rcases attachments_in_order_iff smallFiles _ removedDraft_reachable with
    ⟨⟨hbefore, _⟩, hnew⟩
  exact ⟨hbefore, (hnew 2 none _ rfl rfl).mpr (fun _ => by decide)⟩

/-- Two attachments have been uploaded. -/
def twoUploads : Draft :=
  (newDraft.createLocal.createLocal.upload smallFiles 0 none).upload smallFiles 1
    none

theorem twoUploads_reachable :
    (Runs smallFiles).Reachable ⟨twoUploads, [0, 1]⟩ := by
  have hnew : (Runs smallFiles).Reachable ⟨newDraft, []⟩ :=
    TransitionSystem.ReachableWhen.start
      { nodup := List.nodup_nil
        contains := fun _ h => nomatch h
        deleted := fun _ h => nomatch h
        orders := rfl
        order := rfl }
  have hcreated : (Runs smallFiles).Reachable ⟨newDraft.createLocal, []⟩ :=
    hnew.step (l := UploadEvent.create) ⟨rfl, rfl⟩
  have hboth : (Runs smallFiles).Reachable
      ⟨newDraft.createLocal.createLocal, []⟩ :=
    hcreated.step (l := UploadEvent.create) ⟨rfl, rfl⟩
  have hfirst : (Runs smallFiles).Reachable
      ⟨newDraft.createLocal.createLocal.upload smallFiles 0 none, [0]⟩ :=
    hboth.step (l := UploadEvent.upload 0 none) ⟨rfl, rfl⟩
  exact hfirst.step (l := UploadEvent.upload 1 none) ⟨rfl, rfl⟩

/-- Both have the same display order. -/
theorem second_attachment_first :
    (Runs smallFiles).Reachable ⟨twoUploads, [0, 1]⟩ ∧
      Listed twoUploads [1, 0] ∧ ¬ InOrder ⟨twoUploads, [0, 1]⟩ := by
  have hlisted : Listed twoUploads [1, 0] :=
    ⟨twoUploads.rows.reverse, List.reverse_perm _, by decide, rfl⟩
  refine ⟨twoUploads_reachable, hlisted, fun hinOrder => ?_⟩
  exact absurd (hinOrder [1, 0] hlisted) (by decide)

end Ordered

end Drafts
end MailClient
