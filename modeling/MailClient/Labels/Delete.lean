import MailClient.Foundation.Graph
import MailClient.Labels.Update

/-!
# Deleting a folder

The action hides a folder with everything below it: it adds one to the counter
`deleted` of each of these labels and remembers which they were.  A revert takes
the one away again.  When the server has touched one of the labels, the action
is reverted and applied to the folders as they are now.
-/

namespace MailClient
namespace Labels

open Foundation Relation

/-!
# The action
-/

namespace LabelTable

def markRow (ids : List LocalLabelId) (deleted : Bool) (r : LabelRow) :
    LabelRow :=
  if r.localId ∈ ids then
    { r with deleted := if deleted then r.deleted + 1 else r.deleted - 1 }
  else r

theorem markRow_data (ids : List LocalLabelId) (deleted : Bool) (r : LabelRow) :
    (markRow ids deleted r).localId = r.localId ∧
      (markRow ids deleted r).toLabelData = r.toLabelData := by
  unfold markRow
  split
  · exact ⟨rfl, rfl⟩
  · exact ⟨rfl, rfl⟩

/-- `MAX(deleted - 1, 0)` is subtraction of natural numbers. -/
def markDeleted (t : LabelTable) (ids : List LocalLabelId) (deleted : Bool) :
    LabelTable where
  rows := t.rows.map (markRow ids deleted)
  nextId := t.nextId
  ids_unique := by
    rw [List.map_map]
    have hids : LabelRow.localId ∘ markRow ids deleted = LabelRow.localId := by
      funext r
      exact (markRow_data ids deleted r).left
    rw [hids]
    exact t.ids_unique
  ids_lt := by
    intro r hr
    rcases List.mem_map.mp hr with ⟨old, hold, rfl⟩
    rw [(markRow_data ids deleted old).left]
    exact t.ids_lt old hold
  remoteIds_unique := by
    intro r r' hr hr'
    rcases List.mem_map.mp hr with ⟨a, ha, rfl⟩
    rcases List.mem_map.mp hr' with ⟨b, hb, rfl⟩
    rw [(markRow_data ids deleted a).left, (markRow_data ids deleted b).left,
      (markRow_data ids deleted a).right, (markRow_data ids deleted b).right]
    exact t.remoteIds_unique a b ha hb

end LabelTable

structure Delete where
  localId : LocalLabelId
  descendantsLocalIdsMarkedDeleted : List LocalLabelId := []
  deriving DecidableEq, Repr

namespace Delete

def applyLocal (action : Delete) (t : LabelTable) : Delete × LabelTable :=
  let ids := t.findDescendants action.localId ++ [action.localId]
  ({ action with descendantsLocalIdsMarkedDeleted := ids }, t.markDeleted ids true)

def revertLocal (action : Delete) (t : LabelTable) : Delete × LabelTable :=
  ({ action with descendantsLocalIdsMarkedDeleted := [] },
    t.markDeleted action.descendantsLocalIdsMarkedDeleted false)

def needsRebase (changeset : List LocalLabelId) (action : Delete) : Bool :=
  action.descendantsLocalIdsMarkedDeleted.any (fun id => id ∈ changeset)

def rebaseLocal (changeset : List LocalLabelId) (action : Delete)
    (t : LabelTable) : Delete × LabelTable :=
  if action.needsRebase changeset then
    let (action, t) := action.revertLocal t
    action.applyLocal t
  else (action, t)

end Delete

/-!
# Folders and their descendants
-/

namespace LabelTable

/-- A folder and the folder above it, as they are loaded. -/
def IsChild (t : LabelTable) (parent child : LocalLabelId) : Prop :=
  exists r, r ∈ t.rows ∧ r.labelType = LabelType.folder ∧
    r.localId = child ∧ (t.loadRow r).localParentId = some parent

variable {t : LabelTable} {lists : List (List LocalLabelId)}

theorem mem_foldersWithDeleted {l : Label} :
    l ∈ t.foldersWithDeleted <->
      exists r, r ∈ t.rows ∧ r.labelType = LabelType.folder ∧ t.loadRow r = l := by
  simp [foldersWithDeleted, and_assoc]

theorem localIds_foldersWithDeleted_nodup (t : LabelTable) :
    (t.foldersWithDeleted.filterMap Label.localId).Nodup := by
  have hids : forall rows : List LabelRow,
      (rows.map t.loadRow).filterMap Label.localId =
        rows.map LabelRow.localId := by
    intro rows
    rw [List.filterMap_map]
    exact List.filterMap_eq_map_iff_forall_eq_some.mpr (fun _ _ => rfl)
  unfold foldersWithDeleted
  rw [hids]
  have hperm := (List.perm_insertionSort
    (fun r r' : LabelRow => r.displayOrder ≤ r'.displayOrder)
    (t.rows.filter (fun r => r.labelType = LabelType.folder))).map LabelRow.localId
  rw [hperm.nodup_iff]
  exact t.ids_unique.sublist (List.filter_sublist.map _)

/-- An edge of the map from parents to children. -/
def Below (labels : List Label) (parent child : LocalLabelId) : Prop :=
  exists l, l ∈ labels ∧ l.localParentId = some parent ∧ l.localId = some child

theorem mem_childrenOf {labels : List Label} {parent child : LocalLabelId} :
    child ∈ childrenOf labels parent <-> Below labels parent child := by
  simp [childrenOf, Below, and_assoc]

/--
What the walk has seen so far: every label has either been put out or is still
in the map, and a label below one that was seen is out, or its parent is still
to be visited.
-/
structure Walked (labels : List Label) (root : LocalLabelId)
    (remaining : List Label) (toVisit out : List LocalLabelId) : Prop where
  perm : (out ++ remaining.filterMap Label.localId).Perm
    (labels.filterMap Label.localId)
  sub : remaining ⊆ labels
  split : forall l, l ∈ labels -> forall id, l.localId = some id ->
    l ∈ remaining ∨ id ∈ out
  seen : forall id, id ∈ toVisit -> id = root ∨ id ∈ out
  sound : forall id, id ∈ out -> TransGen (Below labels) root id
  pending : forall parent child, Below labels parent child ->
    parent = root ∨ parent ∈ out -> parent ∈ toVisit ∨ child ∈ out

theorem Walked.start (labels : List Label) (root : LocalLabelId) :
    Walked labels root labels [root] [] where
  perm := List.Perm.refl _
  sub := List.Subset.refl _
  split := fun l hl _ _ => Or.inl hl
  seen := fun id hid => Or.inl (List.mem_singleton.mp hid)
  sound := fun id hid => (nomatch hid)
  pending := by
    intro parent child _ hseen
    rcases hseen with hroot | hout
    · exact Or.inl (by rw [hroot]; exact List.mem_singleton.mpr rfl)
    · cases hout

theorem perm_children (remaining : List Label) (id : LocalLabelId) :
    (childrenOf remaining id ++
      (withoutChildren remaining id).filterMap Label.localId).Perm
      (remaining.filterMap Label.localId) := by
  have hsplit := (List.filter_append_perm
    (fun l : Label => decide (l.localParentId = some id)) remaining).filterMap
    Label.localId
  rw [List.filterMap_append] at hsplit
  simpa [childrenOf, withoutChildren] using hsplit

theorem Walked.visit {labels remaining : List Label} {root id : LocalLabelId}
    {rest out : List LocalLabelId}
    (h : Walked labels root remaining (id :: rest) out) :
    Walked labels root (withoutChildren remaining id)
      ((childrenOf remaining id).reverse ++ rest)
      (out ++ childrenOf remaining id) where
  perm := by
    rw [List.append_assoc]
    exact ((perm_children remaining id).append_left out).trans h.perm
  sub := fun l hl => h.sub (List.mem_of_mem_filter hl)
  split := by
    intro l hl child hchild
    rcases h.split l hl child hchild with hrem | hout
    · by_cases hparent : l.localParentId = some id
      · exact Or.inr (List.mem_append_right out
          (mem_childrenOf.mpr ⟨l, hrem, hparent, hchild⟩))
      · exact Or.inl (List.mem_filter.mpr ⟨hrem, decide_eq_true hparent⟩)
    · exact Or.inr (List.mem_append_left _ hout)
  seen := by
    intro v hv
    rcases List.mem_append.mp hv with hchild | hrest
    · exact Or.inr (List.mem_append_right out (List.mem_reverse.mp hchild))
    · rcases h.seen v (List.mem_cons_of_mem id hrest) with hroot | hout
      · exact Or.inl hroot
      · exact Or.inr (List.mem_append_left _ hout)
  sound := by
    intro v hv
    rcases List.mem_append.mp hv with hout | hchild
    · exact h.sound v hout
    · rcases mem_childrenOf.mp hchild with ⟨l, hl, hparent, hid⟩
      have hedge : Below labels id v := ⟨l, h.sub hl, hparent, hid⟩
      rcases h.seen id List.mem_cons_self with hroot | hout
      · rw [hroot] at hedge
        exact TransGen.single hedge
      · exact TransGen.tail (h.sound id hout) hedge
  pending := by
    intro parent child hbelow hseen
    rcases hbelow with ⟨l, hl, hparent, hchild⟩
    rcases h.split l hl child hchild with hrem | hout
    · by_cases hvisited : parent = id
      · rw [hvisited] at hparent
        exact Or.inr (List.mem_append_right out
          (mem_childrenOf.mpr ⟨l, hrem, hparent, hchild⟩))
      · -- The parent was waiting before, or it is one of the new ones.
        have hbefore : parent = root ∨ parent ∈ out ->
            parent ∈ (childrenOf remaining id).reverse ++ rest ∨
              child ∈ out ++ childrenOf remaining id := by
          intro hseen
          rcases h.pending parent child ⟨l, hl, hparent, hchild⟩ hseen with
            hwait | hout
          · rcases List.mem_cons.mp hwait with heq | hrest
            · exact absurd heq hvisited
            · exact Or.inl (List.mem_append_right _ hrest)
          · exact Or.inr (List.mem_append_left _ hout)
        rcases hseen with hroot | hnow
        · exact hbefore (Or.inl hroot)
        · rcases List.mem_append.mp hnow with hold | hnew
          · exact hbefore (Or.inr hold)
          · exact Or.inl (List.mem_append_left rest (List.mem_reverse.mpr hnew))
    · exact Or.inr (List.mem_append_left _ hout)

theorem Walked.visitDescendants {labels remaining : List Label}
    {root : LocalLabelId} {toVisit out : List LocalLabelId}
    (h : Walked labels root remaining toVisit out) :
    exists left, Walked labels root left []
      (LabelTable.visitDescendants remaining toVisit out) := by
  induction remaining, toVisit, out using visitDescendants.induct with
  | case1 remaining out =>
      rw [LabelTable.visitDescendants]
      exact ⟨remaining, h⟩
  | case2 remaining out id rest children ih =>
      rw [LabelTable.visitDescendants]
      exact ih h.visit

theorem Walked.mem_iff {labels left : List Label} {root : LocalLabelId}
    {out : List LocalLabelId} (h : Walked labels root left [] out)
    {id : LocalLabelId} : id ∈ out <-> TransGen (Below labels) root id := by
  constructor
  · exact h.sound id
  · intro hpath
    induction hpath with
    | single hedge =>
        rcases h.pending root _ hedge (Or.inl rfl) with hwait | hout
        · cases hwait
        · exact hout
    | tail _ hedge ih =>
        rcases h.pending _ _ hedge (Or.inr ih) with hwait | hout
        · cases hwait
        · exact hout

theorem below_foldersWithDeleted (t : LabelTable) :
    Below t.foldersWithDeleted = t.IsChild := by
  funext parent child
  apply propext
  constructor
  · rintro ⟨l, hl, hparent, hchild⟩
    rcases mem_foldersWithDeleted.mp hl with ⟨r, hr, hfolder, rfl⟩
    exact ⟨r, hr, hfolder, Option.some.inj hchild, hparent⟩
  · rintro ⟨r, hr, hfolder, hchild, hparent⟩
    exact ⟨t.loadRow r, mem_foldersWithDeleted.mpr ⟨r, hr, hfolder, rfl⟩, hparent,
      congrArg some hchild⟩

theorem findDescendants_spec (t : LabelTable) (root : LocalLabelId) :
    (t.findDescendants root).Nodup ∧
      forall id, id ∈ t.findDescendants root <-> TransGen t.IsChild root id := by
  rcases (Walked.start t.foldersWithDeleted root).visitDescendants with
    ⟨left, hwalked⟩
  constructor
  · have hnodup := hwalked.perm.nodup_iff.mpr (localIds_foldersWithDeleted_nodup t)
    exact (List.nodup_append.mp hnodup).left
  · intro id
    rw [<- below_foldersWithDeleted]
    exact hwalked.mem_iff

theorem markDeleted_counterpart (t : LabelTable) (ids : List LocalLabelId)
    (deleted : Bool) :
    (t.markDeleted ids deleted).remoteIdCounterpart = t.remoteIdCounterpart := by
  funext rid
  have hremote : (fun r : LabelRow => decide (r.remoteId = some rid)) ∘
      markRow ids deleted = fun r => decide (r.remoteId = some rid) := by
    funext r
    simp only [Function.comp_apply, (markRow_data ids deleted r).right]
  have hlocal : LabelRow.localId ∘ markRow ids deleted = LabelRow.localId := by
    funext r
    exact (markRow_data ids deleted r).left
  unfold remoteIdCounterpart markDeleted
  rw [List.find?_map, Option.map_map, hremote, hlocal]

theorem markDeleted_loadRow (t : LabelTable) (ids : List LocalLabelId)
    (deleted : Bool) (r : LabelRow) :
    ((t.markDeleted ids deleted).loadRow (markRow ids deleted r)).localParentId =
      (t.loadRow r).localParentId := by
  unfold loadRow
  simp only [markDeleted_counterpart, (markRow_data ids deleted r).right]

theorem markDeleted_isChild (t : LabelTable) (ids : List LocalLabelId)
    (deleted : Bool) : (t.markDeleted ids deleted).IsChild = t.IsChild := by
  funext parent child
  apply propext
  constructor
  · rintro ⟨r', hr', hfolder, hchild, hparent⟩
    rcases List.mem_map.mp hr' with ⟨r, hr, rfl⟩
    rcases markRow_data ids deleted r with ⟨hlocal, hdata⟩
    rw [markDeleted_loadRow] at hparent
    rw [hdata] at hfolder
    exact ⟨r, hr, hfolder, hlocal ▸ hchild, hparent⟩
  · rintro ⟨r, hr, hfolder, hchild, hparent⟩
    rcases markRow_data ids deleted r with ⟨hlocal, hdata⟩
    refine ⟨markRow ids deleted r, List.mem_map_of_mem hr, ?_, ?_, ?_⟩
    · rw [hdata]
      exact hfolder
    · rw [hlocal]
      exact hchild
    · rw [markDeleted_loadRow]
      exact hparent

/-!
# Counters
-/

/-- The counter of a label is the number of lists that have the label. -/
def Counted (t : LabelTable) (lists : List (List LocalLabelId)) : Prop :=
  forall r, r ∈ t.rows -> r.deleted = lists.countP (fun ids => r.localId ∈ ids)

def Bounded (t : LabelTable) (lists : List (List LocalLabelId)) : Prop :=
  forall ids, ids ∈ lists -> forall id, id ∈ ids -> id < t.nextId

theorem Counted.perm {lists' : List (List LocalLabelId)} (h : Counted t lists)
    (hperm : lists.Perm lists') : Counted t lists' := by
  intro r hr
  rw [h r hr]
  exact hperm.countP_eq _

theorem Counted.mark (h : Counted t lists) (ids : List LocalLabelId) :
    Counted (t.markDeleted ids true) (ids :: lists) := by
  intro r' hr'
  rcases List.mem_map.mp hr' with ⟨r, hr, rfl⟩
  rw [(markRow_data ids true r).left, List.countP_cons, <- h r hr]
  unfold markRow
  by_cases hmem : r.localId ∈ ids
  · simp [hmem]
  · simp [hmem]

theorem Counted.unmark {ids : List LocalLabelId} (h : Counted t (ids :: lists)) :
    Counted (t.markDeleted ids false) lists := by
  intro r' hr'
  rcases List.mem_map.mp hr' with ⟨r, hr, rfl⟩
  have hcount := h r hr
  rw [List.countP_cons] at hcount
  rw [(markRow_data ids false r).left]
  unfold markRow
  by_cases hmem : r.localId ∈ ids
  · simp only [hmem, decide_true, if_true] at hcount ⊢
    simp only [Bool.false_eq_true, if_false]
    omega
  · simpa [hmem] using hcount

/-- Rows keep their counter, and new rows have a new id and start at zero. -/
structure KeepsCounters (t t' : LabelTable) : Prop where
  nextId : t.nextId <= t'.nextId
  rows : forall r', r' ∈ t'.rows ->
    (exists r, r ∈ t.rows ∧ r.localId = r'.localId ∧ r.deleted = r'.deleted) ∨
    (t.nextId <= r'.localId ∧ r'.deleted = 0)

theorem KeepsCounters.refl (t : LabelTable) : KeepsCounters t t :=
  ⟨Nat.le_refl _, fun r hr => Or.inl ⟨r, hr, rfl, rfl⟩⟩

theorem KeepsCounters.trans {t' t'' : LabelTable} (h : KeepsCounters t t')
    (h' : KeepsCounters t' t'') : KeepsCounters t t'' := by
  refine ⟨Nat.le_trans h.nextId h'.nextId, ?_⟩
  intro r'' hr''
  rcases h'.rows r'' hr'' with ⟨r', hr', hid', hdeleted'⟩ | ⟨hnew, hzero⟩
  · rcases h.rows r' hr' with ⟨r, hr, hid, hdeleted⟩ | ⟨hnew, hzero⟩
    · exact Or.inl ⟨r, hr, hid.trans hid', hdeleted.trans hdeleted'⟩
    · exact Or.inr ⟨hid' ▸ hnew, hdeleted' ▸ hzero⟩
  · exact Or.inr ⟨Nat.le_trans h.nextId hnew, hzero⟩

theorem keepsCounters_setParents (t : LabelTable)
    (parent : LabelRow -> Option LocalLabelId) :
    KeepsCounters t (t.setParents parent) := by
  refine ⟨Nat.le_refl _, ?_⟩
  intro r' hr'
  rcases List.mem_map.mp hr' with ⟨r, hr, rfl⟩
  exact Or.inl ⟨r, hr, rfl, rfl⟩

theorem keepsCounters_update (t : LabelTable) (id : LocalLabelId)
    (data : LabelData) (hfits : t.Fits (some id) data) :
    KeepsCounters t (t.update id data hfits) := by
  refine ⟨Nat.le_refl _, ?_⟩
  intro r' hr'
  rcases List.mem_map.mp hr' with ⟨r, hr, rfl⟩
  refine Or.inl ⟨r, hr, (setData_localId id data r).symm, ?_⟩
  unfold setData
  split
  · rfl
  · rfl

theorem keepsCounters_insert (t : LabelTable) (data : LabelData)
    (hfits : t.Fits none data) : KeepsCounters t (t.insert data hfits) := by
  refine ⟨Nat.le_succ _, ?_⟩
  intro r' hr'
  rcases List.mem_append.mp hr' with hold | hnew
  · exact Or.inl ⟨r', hold, rfl, rfl⟩
  · rw [List.mem_singleton.mp hnew]
    exact Or.inr ⟨Nat.le_refl _, rfl⟩

theorem keepsCounters_save (t : LabelTable) (l : Label) :
    KeepsCounters t (t.save l).1 := by
  unfold save
  dsimp only
  split
  · exact (keepsCounters_insert _ _ _).trans (keepsCounters_setParents _ _)
  · split
    · exact (keepsCounters_update _ _ _ _).trans (keepsCounters_setParents _ _)
    · exact (keepsCounters_insert _ _ _).trans (keepsCounters_setParents _ _)

theorem keepsCounters_handleEvents (t : LabelTable) (labels : List ApiLabel) :
    KeepsCounters t (handleEvents t labels).1 := by
  have hfold : forall p : LabelTable × List LocalLabelId, KeepsCounters t p.1 ->
      KeepsCounters t (labels.foldl handleEvent p).1 := by
    induction labels with
    | nil => exact fun p hp => hp
    | cons l rest ih =>
        intro p hp
        exact ih _ (hp.trans (keepsCounters_save p.1 l.toLabel))
  exact hfold (t, []) (KeepsCounters.refl t)

theorem Counted.kept {t' : LabelTable} (h : Counted t lists)
    (hbound : Bounded t lists) (hkept : KeepsCounters t t') :
    Counted t' lists := by
  intro r' hr'
  rcases hkept.rows r' hr' with ⟨r, hr, hid, hdeleted⟩ | ⟨hnew, hzero⟩
  · rw [<- hdeleted, <- hid]
    exact h r hr
  · rw [hzero]
    refine (List.countP_eq_zero.mpr ?_).symm
    intro ids hids hmem
    have hlt := hbound ids hids r'.localId (of_decide_eq_true hmem)
    exact absurd hnew (Nat.not_le_of_lt hlt)

end LabelTable

/-!
# Pending deletions
-/

/-- `computedIn` records the table in which the list of the action was computed. -/
structure PendingDelete where
  action : Delete
  computedIn : LabelTable

namespace PendingDelete

def recorded (p : PendingDelete) : List LocalLabelId :=
  p.action.descendantsLocalIdsMarkedDeleted

def apply (root : LocalLabelId) (t : LabelTable) : PendingDelete × LabelTable :=
  let (action, t') := ({ localId := root } : Delete).applyLocal t
  (⟨action, t⟩, t')

def rebase (changeset : List LocalLabelId) (p : PendingDelete)
    (t : LabelTable) : PendingDelete × LabelTable :=
  let (action, t') := p.action.rebaseLocal changeset t
  let computedIn :=
    if p.action.needsRebase changeset then (p.action.revertLocal t).2
    else p.computedIn
  (⟨action, computedIn⟩, t')

def rebaseAll (changeset : List LocalLabelId) :
    List PendingDelete -> LabelTable -> List PendingDelete × LabelTable
  | [], t => ([], t)
  | p :: rest, t =>
      let (p', t') := p.rebase changeset t
      let (rest', t'') := rebaseAll changeset rest t'
      (p' :: rest', t'')

end PendingDelete

structure FolderDeletes where
  table : LabelTable
  pending : List PendingDelete

inductive DeleteEvent where
  | apply (root : LocalLabelId)
  | revert (index : Nat)
  | rebase (index : Nat) (changeset : List LocalLabelId)
  /-- Saves of the server, and the rebase that follows them. -/
  | serverSaves (labels : List ApiLabel)

namespace FolderDeletes

def next (s : FolderDeletes) : DeleteEvent -> Option FolderDeletes
  | DeleteEvent.apply root =>
      if s.table.contains root then
        let (p, t) := PendingDelete.apply root s.table
        some ⟨t, s.pending ++ [p]⟩
      else none
  | DeleteEvent.revert index => do
      let p <- s.pending[index]?
      some ⟨(p.action.revertLocal s.table).2, s.pending.eraseIdx index⟩
  | DeleteEvent.rebase index changeset => do
      let p <- s.pending[index]?
      let (p', t) := p.rebase changeset s.table
      some ⟨t, s.pending.set index p'⟩
  | DeleteEvent.serverSaves labels =>
      let (t, changeset) := handleEvents s.table labels
      let (pending, t) := PendingDelete.rebaseAll changeset s.pending t
      some ⟨t, pending⟩

/-- The folders of the server have no cycles when a save is over. -/
def system : TransitionSystem FolderDeletes DeleteEvent where
  init := fun s => s.pending = [] ∧ Acyclic s.table.IsChild ∧
    forall r, r ∈ s.table.rows -> r.deleted = 0
  step := fun s e s' => s.next e = some s' ∧ Acyclic s'.table.IsChild

def lists (s : FolderDeletes) : List (List LocalLabelId) :=
  s.pending.map PendingDelete.recorded

/-- A list has the folder of its action and what was below it, each once. -/
def Complete (p : PendingDelete) : Prop :=
  p.recorded.Nodup ∧ forall id, id ∈ p.recorded <->
    id = p.action.localId ∨ TransGen p.computedIn.IsChild p.action.localId id

/--
The counters count the lists, the lists are complete, and without pending
actions every label is visible.
-/
structure Nested (s : FolderDeletes) : Prop where
  counts : forall r, r ∈ s.table.rows ->
    r.deleted = s.pending.countP (fun p => r.localId ∈ p.recorded)
  complete : forall p, p ∈ s.pending -> Complete p
  visible : s.pending = [] -> forall r, r ∈ s.table.rows -> r.deleted = 0

end FolderDeletes

/-!
# One action
-/

namespace PendingDelete

open LabelTable

/-- The list of the action is what a walk over the folders of then finds. -/
structure Computed (p : PendingDelete) : Prop where
  list : p.recorded =
    p.computedIn.findDescendants p.action.localId ++ [p.action.localId]
  acyclic : Acyclic p.computedIn.IsChild

theorem Computed.complete {p : PendingDelete} (h : Computed p) :
    FolderDeletes.Complete p := by
  rcases findDescendants_spec p.computedIn p.action.localId with ⟨hnodup, hmem⟩
  unfold FolderDeletes.Complete
  rw [h.list]
  constructor
  · refine List.nodup_append.mpr ⟨hnodup, List.nodup_singleton _, ?_⟩
    intro a ha b hb heq
    rw [heq, List.mem_singleton.mp hb] at ha
    exact h.acyclic _ ((hmem _).mp ha)
  · intro id
    rw [List.mem_append, List.mem_singleton, hmem]
    exact Or.comm

variable {t : LabelTable} {lists : List (List LocalLabelId)}

theorem isChild_lt {root id : LocalLabelId} (h : TransGen t.IsChild root id) :
    id < t.nextId := by
  have hedge : exists parent, t.IsChild parent id := by
    cases h with
    | single hedge => exact ⟨_, hedge⟩
    | tail _ hedge => exact ⟨_, hedge⟩
  rcases hedge with ⟨_, r, hr, _, hid, _⟩
  rw [<- hid]
  exact t.ids_lt r hr

/-- What holds of the table and the lists between two steps. -/
structure Good (t : LabelTable) (lists : List (List LocalLabelId)) : Prop where
  counted : Counted t lists
  bounded : Bounded t lists

theorem Good.perm {lists' : List (List LocalLabelId)} (h : Good t lists)
    (hperm : lists.Perm lists') : Good t lists' :=
  ⟨h.counted.perm hperm, fun ids hids => h.bounded ids (hperm.mem_iff.mpr hids)⟩

theorem Good.applyLocal (h : Good t lists) {action : Delete}
    (hroot : action.localId < t.nextId) :
    Good (action.applyLocal t).2
      ((action.applyLocal t).1.descendantsLocalIdsMarkedDeleted :: lists) := by
  refine ⟨h.counted.mark _, ?_⟩
  intro ids hids id hid
  rcases List.mem_cons.mp hids with heq | hold
  · rw [heq] at hid
    rcases List.mem_append.mp hid with hbelow | hself
    · have hlt := isChild_lt (((findDescendants_spec t _).right id).mp hbelow)
      exact hlt
    · rw [List.mem_singleton.mp hself]
      exact hroot
  · exact h.bounded ids hold id hid

theorem Good.revertLocal {action : Delete}
    (h : Good t (action.descendantsLocalIdsMarkedDeleted :: lists)) :
    Good (action.revertLocal t).2 lists :=
  ⟨h.counted.unmark, fun ids hids =>
    h.bounded ids (List.mem_cons_of_mem _ hids)⟩

theorem rebase_of_needs {p : PendingDelete} {changeset : List LocalLabelId}
    (h : p.action.needsRebase changeset = true) (t : LabelTable) :
    p.rebase changeset t =
      apply p.action.localId (p.action.revertLocal t).2 := by
  unfold PendingDelete.rebase Delete.rebaseLocal
  simp only [h, if_true]
  rfl

theorem rebase_of_not_needs {p : PendingDelete}
    {changeset : List LocalLabelId}
    (h : ¬ p.action.needsRebase changeset = true) (t : LabelTable) :
    p.rebase changeset t = (p, t) := by
  unfold PendingDelete.rebase Delete.rebaseLocal
  simp only [h, Bool.false_eq_true, if_false]

theorem computed_apply (ht : Acyclic t.IsChild) (root : LocalLabelId) :
    Computed (apply root t).1 :=
  ⟨rfl, ht⟩

theorem apply_isChild (root : LocalLabelId) (t : LabelTable) :
    (apply root t).2.IsChild = t.IsChild :=
  markDeleted_isChild _ _ _

theorem Good.apply (h : Good t lists) {root : LocalLabelId}
    (hroot : root < t.nextId) :
    Good (PendingDelete.apply root t).2
      ((PendingDelete.apply root t).1.recorded :: lists) :=
  h.applyLocal hroot

theorem Computed.root_mem {p : PendingDelete} (h : Computed p) :
    p.action.localId ∈ p.recorded := by
  rw [h.list]
  exact List.mem_append_right _ (List.mem_singleton.mpr rfl)

theorem revertLocal_isChild (action : Delete) (t : LabelTable) :
    (action.revertLocal t).2.IsChild = t.IsChild :=
  markDeleted_isChild _ _ _

theorem rebase_isChild (changeset : List LocalLabelId) (p : PendingDelete)
    (t : LabelTable) : (p.rebase changeset t).2.IsChild = t.IsChild := by
  by_cases hneeds : p.action.needsRebase changeset = true
  · rw [rebase_of_needs hneeds, apply_isChild, revertLocal_isChild]
  · rw [rebase_of_not_needs hneeds]

theorem rebaseAll_isChild (changeset : List LocalLabelId)
    (pending : List PendingDelete) (t : LabelTable) :
    (rebaseAll changeset pending t).2.IsChild = t.IsChild := by
  induction pending generalizing t with
  | nil => rfl
  | cons p rest ih => exact (ih _).trans (rebase_isChild changeset p t)

theorem Good.rebase {p : PendingDelete} (hp : Computed p)
    (ht : Acyclic t.IsChild) (h : Good t (p.recorded :: lists))
    (changeset : List LocalLabelId) :
    Good (p.rebase changeset t).2 ((p.rebase changeset t).1.recorded :: lists) ∧
      Computed (p.rebase changeset t).1 := by
  by_cases hneeds : p.action.needsRebase changeset = true
  · rw [rebase_of_needs hneeds]
    have hroot := h.bounded p.recorded List.mem_cons_self _ hp.root_mem
    have hreverted : Good (p.action.revertLocal t).2 lists := h.revertLocal
    refine ⟨hreverted.apply hroot, computed_apply ?_ _⟩
    rw [revertLocal_isChild]
    exact ht
  · rw [rebase_of_not_needs hneeds]
    exact ⟨h, hp⟩

theorem Good.rebaseAll {changeset : List LocalLabelId}
    {pending : List PendingDelete} {before : List (List LocalLabelId)}
    (hcomputed : forall p, p ∈ pending -> Computed p) (ht : Acyclic t.IsChild)
    (h : Good t (before ++ pending.map recorded)) :
    Good (PendingDelete.rebaseAll changeset pending t).2
        (before ++ (PendingDelete.rebaseAll changeset pending t).1.map recorded) ∧
      forall p, p ∈ (PendingDelete.rebaseAll changeset pending t).1 ->
        Computed p := by
  induction pending generalizing t before with
  | nil => exact ⟨h, hcomputed⟩
  | cons p rest ih =>
      have hfront : Good t (p.recorded :: (before ++ rest.map recorded)) :=
        h.perm List.perm_middle
      rcases hfront.rebase (hcomputed p List.mem_cons_self) ht changeset with
        ⟨hgood, hp'⟩
      have hnext : Good (p.rebase changeset t).2
          ((before ++ [(p.rebase changeset t).1.recorded]) ++
            rest.map recorded) := by
        rw [List.append_assoc]
        exact hgood.perm List.perm_middle.symm
      rcases ih (fun q hq => hcomputed q (List.mem_cons_of_mem p hq))
        (by rw [rebase_isChild]; exact ht) hnext with ⟨hall, hcomp⟩
      constructor
      · rw [List.append_assoc] at hall
        exact hall
      · intro q hq
        rcases List.mem_cons.mp hq with heq | hq
        · rw [heq]
          exact hp'
        · exact hcomp q hq

end PendingDelete

/-!
# Whole runs
-/

namespace FolderDeletes

open LabelTable PendingDelete

structure Tracked (s : FolderDeletes) : Prop where
  good : Good s.table s.lists
  computed : forall p, p ∈ s.pending -> Computed p
  acyclic : Acyclic s.table.IsChild

theorem Tracked.nested {s : FolderDeletes} (hs : Tracked s) : Nested s := by
  have hcounts : forall r, r ∈ s.table.rows ->
      r.deleted = s.pending.countP (fun p => r.localId ∈ p.recorded) := by
    intro r hr
    rw [hs.good.counted r hr]
    exact List.countP_map
  refine ⟨hcounts, fun p hp => (hs.computed p hp).complete, ?_⟩
  intro hnone r hr
  rw [hcounts r hr, hnone]
  rfl

theorem Tracked.next {s s' : FolderDeletes} {e : DeleteEvent} (hs : Tracked s)
    (hacyclic : Acyclic s'.table.IsChild) (h : s.next e = some s') :
    Tracked s' := by
  cases e with
  | apply root =>
      simp only [FolderDeletes.next] at h
      split at h
      · rename_i hcontains
        cases h
        rcases List.mem_map.mp (contains_iff.mp hcontains) with ⟨r, hr, hid⟩
        have hroot : root < s.table.nextId := by
          rw [<- hid]
          exact s.table.ids_lt r hr
        refine ⟨?_, ?_, hacyclic⟩
        · have hgood := hs.good.apply hroot
          unfold lists
          rw [List.map_append]
          exact hgood.perm (List.perm_append_singleton _ _).symm
        · intro p hp
          rcases List.mem_append.mp hp with hold | hnew
          · exact hs.computed p hold
          · rw [List.mem_singleton.mp hnew]
            exact computed_apply hs.acyclic root
      · cases h
  | revert index =>
      rcases Option.bind_eq_some_iff.mp h with ⟨p, hp, hrest⟩
      cases hrest
      rcases List.getElem?_eq_some_iff.mp hp with ⟨hlt, hget⟩
      have hperm := (List.getElem_cons_eraseIdx_perm hlt).map recorded
      rw [hget] at hperm
      refine ⟨(hs.good.perm hperm.symm).revertLocal, ?_, hacyclic⟩
      intro q hq
      exact hs.computed q (List.mem_of_mem_eraseIdx hq)
  | rebase index changeset =>
      rcases Option.bind_eq_some_iff.mp h with ⟨p, hp, hrest⟩
      cases hrest
      rcases List.getElem?_eq_some_iff.mp hp with ⟨hlt, hget⟩
      have hperm := (List.getElem_cons_eraseIdx_perm hlt).map recorded
      rw [hget] at hperm
      have hmem : p ∈ s.pending := List.mem_of_getElem? hp
      rcases (hs.good.perm hperm.symm).rebase (hs.computed p hmem) hs.acyclic
        changeset with ⟨hgood, hp'⟩
      refine ⟨?_, ?_, hacyclic⟩
      · have hset := (List.set_perm_cons_eraseIdx hlt
          (p.rebase changeset s.table).1).map recorded
        exact hgood.perm hset.symm
      · intro q hq
        rcases List.mem_or_eq_of_mem_set hq with hold | hnew
        · exact hs.computed q hold
        · rw [hnew]
          exact hp'
  | serverSaves labels =>
      cases h
      have hkept := keepsCounters_handleEvents s.table labels
      have hsaved : Good (handleEvents s.table labels).1
          ([] ++ s.pending.map recorded) := by
        refine ⟨hs.good.counted.kept hs.good.bounded hkept, ?_⟩
        intro ids hids id hid
        exact Nat.lt_of_lt_of_le (hs.good.bounded ids hids id hid) hkept.nextId
      have hforest : Acyclic (handleEvents s.table labels).1.IsChild := by
        rw [<- rebaseAll_isChild (handleEvents s.table labels).2 s.pending]
        exact hacyclic
      rcases Good.rebaseAll hs.computed hforest hsaved with ⟨hgood, hcomputed⟩
      exact ⟨hgood, hcomputed, hacyclic⟩

/--
However deletions of folders, reverts, rebases and saves of the server follow
each other, the counter of every label is the number of pending deletions whose
list has it, every list is complete, and nothing stays hidden without a pending
deletion.
-/
theorem deletions_nest {s : FolderDeletes} (hreach : system.Reachable s) :
    Nested s := by
  have htracked : Tracked s := by
    refine TransitionSystem.invariant Tracked ?_ ?_ hreach
    · rintro s ⟨hnone, hacyclic, hvisible⟩
      refine ⟨⟨?_, ?_⟩, ?_, hacyclic⟩
      · intro r hr
        unfold lists
        rw [hvisible r hr, hnone]
        rfl
      · intro ids hids
        unfold lists at hids
        rw [hnone] at hids
        cases hids
      · intro p hp
        rw [hnone] at hp
        cases hp
    · intro s e s' _ hs hstep
      exact hs.next hstep.right hstep.left
  exact htracked.nested

/-- A folder and one below it. -/
def twoFolders : LabelTable :=
  LabelTable.ofRows
    [{ localId := 1, labelType := LabelType.folder },
      { localId := 2, labelType := LabelType.folder, localParentId := some 1 }]
    3 (by decide) (by decide) (by decide)

theorem twoFolders_acyclic : Acyclic twoFolders.IsChild := by
  have hlt : forall parent child, twoFolders.IsChild parent child ->
      parent < child := by
    rintro parent child ⟨r, hr, _, rfl, hparent⟩
    rcases List.mem_cons.mp hr with rfl | hr
    · cases hparent
    · rw [List.mem_singleton.mp hr] at hparent ⊢
      cases hparent
      exact Nat.lt_succ_self 1
  intro id hcycle
  have hpath := hcycle.lift (fun x => x) hlt
  rw [transGen_eq_self] at hpath
  exact Nat.lt_irrefl id hpath

/-- The lower folder is deleted, and then the one above it. -/
theorem nested_deletions_counted :
    exists s, system.Reachable s ∧
      s.pending.map (fun p => p.action.localId) = [2, 1] ∧ Nested s := by
  have hfirst : system.Reachable
      ⟨(apply 2 twoFolders).2, [(apply 2 twoFolders).1]⟩ := by
    refine TransitionSystem.Reachable.step (s := ⟨twoFolders, []⟩)
      (l := DeleteEvent.apply 2) ?_ ⟨rfl, ?_⟩
    · refine TransitionSystem.ReachableWhen.start ⟨rfl, twoFolders_acyclic, ?_⟩
      decide
    · rw [apply_isChild]
      exact twoFolders_acyclic
  have hsecond : system.Reachable
      ⟨(apply 1 (apply 2 twoFolders).2).2,
        [(apply 2 twoFolders).1, (apply 1 (apply 2 twoFolders).2).1]⟩ := by
    refine TransitionSystem.Reachable.step (l := DeleteEvent.apply 1) hfirst
      ⟨?_, ?_⟩
    · have hcontains : (apply 2 twoFolders).2.contains 1 = true := by
        rw [contains_iff]
        exact List.mem_map.mpr ⟨markRow _ true _,
          List.mem_map_of_mem List.mem_cons_self, (markRow_data _ _ _).left⟩
      simp only [FolderDeletes.next, hcontains, if_true]
      rfl
    · rw [apply_isChild, apply_isChild]
      exact twoFolders_acyclic
  exact ⟨_, hsecond, rfl, deletions_nest hsecond⟩

end FolderDeletes

end Labels
end MailClient
