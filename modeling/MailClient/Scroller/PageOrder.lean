import MailClient.Scroller.DataSource

/-!
# The order of the pages

A source takes its order from the label it is created for and keeps it, while
a state built for a new label looks the order up again.  The two agree as long
as the labels selected later are ordered like the first one.
-/

namespace MailClient
namespace Scroller

open Foundation
open Labels (LabelTable)

variable {labels : LabelTable}

/-!
# Runs
-/

inductive PagingEvent where
  | initializeSource (view : CategoryView) (a : Answers)
      (meanwhile : List Completion)
  | changeState (readFilter : Option ReadFilter) (label : Option LocalLabelId)
      (view : Option CategoryView) (a : Answers) (meanwhile : List Completion)
  | clear (a : Answers) (meanwhile : List Completion)
  | syncNext (a i : Answers) (meanwhile awaited : List Completion)
      (hasNextPage : Bool)
  | syncNew (a : Answers)
  | complete (c : Completion)
  | reopen (label : LocalLabelId) (pageSize : Nat)
  deriving DecidableEq, Repr

namespace Paging

def start (labels : LabelTable) (label : LocalLabelId) (pageSize : Nat) :
    Paging where
  source := DataScrollerSource.forLabel labels label pageSize
  rows := []
  inFlight := []
  issued := []
  built := [(label, (DataScrollerSource.forLabel labels label pageSize).state)]

/-- `reopen` is another scroller over the same tables. -/
def next (labels : LabelTable) (w : Paging) : PagingEvent -> Paging
  | PagingEvent.initializeSource view a meanwhile =>
      w.initializeSource labels view a meanwhile
  | PagingEvent.changeState readFilter label view a meanwhile =>
      w.changeState labels readFilter label view a meanwhile
  | PagingEvent.clear a meanwhile => w.clear labels a meanwhile
  | PagingEvent.syncNext a i meanwhile awaited hasNextPage =>
      w.syncNext labels a i meanwhile awaited hasNextPage
  | PagingEvent.syncNew a => w.syncNew labels a
  | PagingEvent.complete c => w.complete c
  | PagingEvent.reopen label pageSize =>
      w.withSource (DataScrollerSource.forLabel labels label pageSize)

end Paging

def pagingSystem (labels : LabelTable) :
    TransitionSystem Paging PagingEvent where
  init := fun w => exists label pageSize, w = Paging.start labels label pageSize
  step := fun w e w' => w.next labels e = w'

/-!
# The order of a label
-/

/-- The order `(dir, field)` is the one of the label. -/
structure OwnOrder (labels : LabelTable) (l : LocalLabelId)
    (dir : ScrollOrderDir) (field : ScrollOrderField) : Prop where
  dir : dir = ScrollOrderDir.forLocalLabel labels l
  field : field = ScrollOrderField.forLocalLabel labels l

structure ScrollCursor.InOrder (labels : LabelTable) (l : LocalLabelId)
    (c : ScrollCursor) : Prop where
  label : c.localLabelId = l
  order : OwnOrder labels l c.orderDir c.orderField

structure CachedScrollData.InOrder (labels : LabelTable) (l : LocalLabelId)
    (d : CachedScrollData) : Prop where
  last : d.last.InOrder labels l
  cursor : d.cursor.InOrder labels l

def MailScrollerState.InOrder (labels : LabelTable) (l : LocalLabelId)
    (state : MailScrollerState) : Prop :=
  state.scrollData.InOrder labels l

def EndCursor.InOrder (labels : LabelTable) (row : EndCursor) : Prop :=
  OwnOrder labels row.localLabelId row.orderDir row.orderField

def PageRequest.InOrder (labels : LabelTable) (r : PageRequest) : Prop :=
  OwnOrder labels r.localLabelId r.orderDir r.orderField

/-- The label of every request, row and state is paged in its own order. -/
structure Paging.PagedInOwnOrder (labels : LabelTable) (w : Paging) :
    Prop where
  requests : forall r, r ∈ w.issued -> r.InOrder labels
  rows : forall row, row ∈ w.rows -> row.InOrder labels
  states : forall l state, (l, state) ∈ w.built -> state.InOrder labels l
  foundAgain : forall row, row ∈ w.rows -> forall pageSize category,
    canonicalCategory category = row.category ->
    (CachedScrollData.new labels w.rows row.localLabelId row.unread pageSize
      category).isSome

/-- The label selected next is ordered like the one the source was built for. -/
def KeepsOrder (labels : LabelTable) (w : Paging) : PagingEvent -> Prop
  | PagingEvent.changeState _ (some label) _ _ _ =>
      OwnOrder labels label w.source.orderDir w.source.orderField
  | _ => True

/-!
# The rows
-/

section Rows

variable {rows : List EndCursor} {row : EndCursor} {l : LocalLabelId}
  {readFilter : ReadFilter} {dir : ScrollOrderDir}
  {category : List LocalLabelId}

theorem EndCursor.hasKey_iff :
    row.hasKey l readFilter dir category = true ↔
      row.localLabelId = l ∧ row.unread = readFilter ∧ row.orderDir = dir ∧
        row.category = category := by
  simp [EndCursor.hasKey]

theorem findWithKey_mem
    (h : findWithKey rows l readFilter dir category = some row) :
    row ∈ rows ∧ row.localLabelId = l := by
  have hkey : row.hasKey l readFilter dir category = true := by
    simpa using List.find?_some h
  exact ⟨List.mem_of_find?_eq_some h, (EndCursor.hasKey_iff.mp hkey).left⟩

theorem mem_saveEndCursor {saved : EndCursor}
    (h : row ∈ saveEndCursor rows saved) : row = saved ∨ row ∈ rows := by
  rcases List.mem_cons.mp h with h | h
  · exact Or.inl h
  · exact Or.inr (List.mem_of_mem_filter h)

theorem CachedScrollData.new_isSome (hmem : row ∈ rows)
    (horder : row.InOrder labels) (pageSize : Nat)
    (hcategory : canonicalCategory category = row.category) :
    (CachedScrollData.new labels rows row.localLabelId row.unread pageSize
      category).isSome := by
  simp only [CachedScrollData.new, Option.isSome_map, findWithKey,
    List.find?_isSome]
  exact ⟨row, hmem, EndCursor.hasKey_iff.mpr
    ⟨rfl, rfl, horder.dir, hcategory.symm⟩⟩

theorem EndCursor.InOrder.toCursor (h : row.InOrder labels)
    (hlabel : row.localLabelId = l) : row.toCursor.InOrder labels l := by
  subst hlabel
  exact ⟨rfl, h⟩

end Rows

/-!
# States
-/

section States

variable {rows : List EndCursor} {l : LocalLabelId} {d : CachedScrollData}
  {readFilter : ReadFilter} {pageSize : Nat} {category : List LocalLabelId}
  {dir : ScrollOrderDir} {field : ScrollOrderField}
  {state : MailScrollerState}

theorem CachedScrollData.InOrder.fetchMore (h : d.InOrder labels l)
    (fetched : CachedScrollData.Fetched) :
    (d.fetchMore fetched).InOrder labels l := by
  cases fetched with
  | nothing => exact h
  | noItems => exact ⟨h.last, h.last⟩
  | items => exact ⟨h.last, h.cursor.label, h.last.order⟩

theorem CachedScrollData.InOrder.loadEndCursor (h : d.InOrder labels l)
    {row : EndCursor} (hload : d.loadEndCursor rows = some row) :
    row ∈ rows ∧ row.localLabelId = l := by
  have hfound := findWithKey_mem hload
  rw [h.last.label] at hfound
  exact hfound

theorem MailScrollerState.newUnsynced_inOrder
    (h : OwnOrder labels l dir field) :
    (newUnsynced l readFilter pageSize category dir field).InOrder labels l :=
  ⟨⟨rfl, h⟩, ⟨rfl, h⟩⟩

theorem MailScrollerState.newSynced_inOrder
    (hrows : forall row, row ∈ rows -> row.InOrder labels) :
    (newSynced labels rows l readFilter pageSize category).InOrder labels
      l := by
  unfold newSynced
  split
  · rename_i d hnew
    rcases Option.map_eq_some_iff.mp hnew with ⟨row, hfind, rfl⟩
    have hfound := findWithKey_mem hfind
    constructor
    · exact (hrows row hfound.left).toCursor hfound.right
    · exact ⟨rfl, rfl, rfl⟩
  · exact newUnsynced_inOrder ⟨rfl, rfl⟩

theorem MailScrollerState.InOrder.sync (h : state.InOrder labels l)
    (hrows : forall row, row ∈ rows -> row.InOrder labels)
    (hasNextPage : Bool) :
    (state.sync labels rows l readFilter pageSize category
      hasNextPage).InOrder labels l := by
  unfold MailScrollerState.sync
  split
  · rename_i d
    split
    · exact h
    · split
      · rename_i row hload
        have hfound := CachedScrollData.InOrder.loadEndCursor h hload
        exact ⟨(hrows row hfound.left).toCursor hfound.right, h.cursor⟩
      · exact h
  · split
    · rename_i d' hnew
      have hsynced : (newSynced labels rows l readFilter pageSize
          category).InOrder labels l := newSynced_inOrder hrows
      rw [hnew] at hsynced
      exact hsynced
    · exact h

end States

/-!
# One call
-/

namespace Paging

/-- Besides the property itself: the source's own order, and what is pending. -/
structure InOrder (labels : LabelTable) (w : Paging) : Prop where
  source : OwnOrder labels w.source.localLabelId w.source.orderDir
    w.source.orderField
  state : w.source.state.InOrder labels w.source.localLabelId
  rows : forall row, row ∈ w.rows -> row.InOrder labels
  inFlight : forall r, r ∈ w.inFlight -> r.InOrder labels
  issued : forall r, r ∈ w.issued -> r.InOrder labels
  built : forall l state, (l, state) ∈ w.built -> state.InOrder labels l

variable {w : Paging}

theorem InOrder.withSource (h : w.InOrder labels) {source : DataScrollerSource}
    (hsource : OwnOrder labels source.localLabelId source.orderDir
      source.orderField)
    (hstate : source.state.InOrder labels source.localLabelId) :
    (w.withSource source).InOrder labels := by
  refine ⟨hsource, hstate, h.rows, h.inFlight, h.issued, ?_⟩
  intro l state hmem
  rcases List.mem_append.mp hmem with hmem | hmem
  · exact h.built l state hmem
  · cases List.mem_singleton.mp hmem
    exact hstate

theorem InOrder.request (h : w.InOrder labels) (kind : PageKind)
    (remoteLabelIds : List LabelId) :
    (w.request kind remoteLabelIds).InOrder labels := by
  have hadd : forall (requests : List PageRequest),
      (forall r, r ∈ requests -> r.InOrder labels) ->
      forall r, r ∈ requests ++ [w.source.pageRequest kind remoteLabelIds] ->
        r.InOrder labels := by
    intro requests hrequests r hmem
    rcases List.mem_append.mp hmem with hmem | hmem
    · exact hrequests r hmem
    · cases List.mem_singleton.mp hmem
      exact h.source
  exact ⟨h.source, h.state, h.rows, hadd _ h.inFlight, hadd _ h.issued,
    h.built⟩

theorem InOrder.complete (h : w.InOrder labels) (c : Completion) :
    (w.complete c).InOrder labels := by
  have hdone : InOrder labels
      { w with inFlight := w.inFlight.eraseIdx c.index } :=
    ⟨h.source, h.state, h.rows,
      fun r hmem => h.inFlight r (List.mem_of_mem_eraseIdx hmem), h.issued,
      h.built⟩
  unfold Paging.complete
  split
  · exact h
  · rename_i r hr
    split
    · exact hdone
    · exact hdone
    · refine ⟨h.source, h.state, ?_, hdone.inFlight, h.issued, h.built⟩
      intro row hmem
      rcases mem_saveEndCursor hmem with rfl | hmem
      · exact h.inFlight r (List.mem_of_getElem? hr)
      · exact h.rows row hmem

theorem InOrder.settle (h : w.InOrder labels) (cs : List Completion) :
    (w.settle cs).InOrder labels := by
  induction cs generalizing w with
  | nil => exact h
  | cons c cs ih => exact ih (h.complete c)

theorem InOrder.delete (h : w.InOrder labels) (row : EndCursor) :
    (w.delete row).InOrder labels :=
  ⟨h.source, h.state,
    fun other hmem => h.rows other (List.mem_of_mem_filter hmem), h.inFlight,
    h.issued, h.built⟩

theorem InOrder.clearState (h : w.InOrder labels) :
    w.clearState.InOrder labels :=
  h.withSource h.source (MailScrollerState.newUnsynced_inOrder h.source)

theorem InOrder.syncScroller (h : w.InOrder labels) (hasNextPage : Bool) :
    (w.syncScroller labels hasNextPage).InOrder labels :=
  h.withSource h.source (h.state.sync h.rows hasNextPage)

theorem InOrder.resume (h : w.InOrder labels) (a : Answers)
    (remoteLabelIds : List LabelId) (ending beginning : String) :
    (w.resume a remoteLabelIds ending beginning).InOrder labels := by
  have hprevious := h.request (PageKind.previous beginning) remoteLabelIds
  unfold Paging.resume
  dsimp only
  split
  · exact hprevious.request (PageKind.next ending) remoteLabelIds
  · exact hprevious

theorem InOrder.firstPage (h : w.InOrder labels) (a : Answers)
    (remoteLabelIds : List LabelId) (checkForTotal : Bool) :
    (w.firstPage a remoteLabelIds checkForTotal).1.InOrder labels := by
  unfold Paging.firstPage
  split
  · exact h
  · exact h.request PageKind.first remoteLabelIds

theorem InOrder.initializeImpl (h : w.InOrder labels) (a : Answers)
    (meanwhile : List Completion) (checkForTotal : Bool) :
    (w.initializeImpl labels a meanwhile checkForTotal).1.InOrder labels := by
  unfold Paging.initializeImpl
  split
  · exact h
  · have hsettled := (h.syncScroller a.syncHasNextPage).settle meanwhile
    dsimp only
    split
    · exact hsettled.firstPage a _ checkForTotal
    · split
      · exact hsettled
      · rename_i endCursor _
        have hgone := (hsettled.delete endCursor).clearState
        split
        · split
          · exact hsettled.resume a _ _ _
          · exact hgone.firstPage a _ checkForTotal
        · exact hgone.firstPage a _ checkForTotal

theorem InOrder.initializeSource (h : w.InOrder labels) (view : CategoryView)
    (a : Answers) (meanwhile : List Completion) :
    (w.initializeSource labels view a meanwhile).InOrder labels := by
  have hview : InOrder labels
      { w with source := { w.source with categoryView := view } } :=
    ⟨h.source, h.state, h.rows, h.inFlight, h.issued, h.built⟩
  exact hview.clearState.initializeImpl a meanwhile false

theorem InOrder.changeState (h : w.InOrder labels)
    (readFilter : Option ReadFilter) (label : Option LocalLabelId)
    (view : Option CategoryView) (a : Answers) (meanwhile : List Completion)
    (hlabel : forall l, label = some l ->
      OwnOrder labels l w.source.orderDir w.source.orderField) :
    (w.changeState labels readFilter label view a meanwhile).InOrder
      labels := by
  have hsource : OwnOrder labels (label.getD w.source.localLabelId)
      w.source.orderDir w.source.orderField := by
    cases label with
    | none => exact h.source
    | some l => exact hlabel l rfl
  exact (h.withSource hsource
    (MailScrollerState.newSynced_inOrder h.rows)).initializeImpl a meanwhile
      false

theorem InOrder.clear (h : w.InOrder labels) (a : Answers)
    (meanwhile : List Completion) :
    (w.clear labels a meanwhile).InOrder labels := by
  unfold Paging.clear
  split
  · exact h.clearState.initializeImpl a meanwhile false
  · split
    · exact h
    · exact (h.delete _).clearState.initializeImpl a meanwhile false

theorem InOrder.fetchNext (h : w.InOrder labels) (a : Answers)
    (primary : LabelId) : (w.fetchNext labels a primary).InOrder labels := by
  have hstate := h.state
  unfold Paging.fetchNext
  split
  · rename_i d hd
    rw [hd] at hstate
    exact h.withSource h.source (CachedScrollData.InOrder.fetchMore hstate _)
  · rename_i d hd
    rw [hd] at hstate
    have hfetched : InOrder labels (w.withSource { w.source with
        state := MailScrollerState.synced (d.fetchMore a.fetched) }) :=
      h.withSource h.source (CachedScrollData.InOrder.fetchMore hstate _)
    dsimp only
    split
    · split
      · exact hfetched
      · exact hfetched.request _ _
    · exact hfetched

theorem InOrder.syncNext (h : w.InOrder labels) (a i : Answers)
    (meanwhile awaited : List Completion) (hasNextPage : Bool) :
    (w.syncNext labels a i meanwhile awaited hasNextPage).InOrder labels := by
  unfold Paging.syncNext
  split
  · exact h
  · rename_i primary _
    have hsynced := h.syncScroller a.syncHasNextPage
    dsimp only
    split
    · exact hsynced.fetchNext a primary
    · split
      · have hinit := hsynced.initializeImpl i meanwhile true
        split <;> rename_i w' heq <;> rw [heq] at hinit
        · exact hinit
        · exact hinit.fetchNext a primary
        · exact ((hinit.settle awaited).syncScroller hasNextPage).fetchNext a
            primary
      · exact hsynced.fetchNext a primary

theorem InOrder.syncNew (h : w.InOrder labels) (a : Answers) :
    (w.syncNew labels a).InOrder labels := by
  unfold Paging.syncNew
  split
  · exact h
  · have hsynced := h.syncScroller a.syncHasNextPage
    dsimp only
    split
    · exact hsynced.request _ _
    · exact hsynced.request _ _

theorem InOrder.start (label : LocalLabelId) (pageSize : Nat) :
    (start labels label pageSize).InOrder labels := by
  have hstate : MailScrollerState.InOrder labels label
      (DataScrollerSource.forLabel labels label pageSize).state :=
    MailScrollerState.newUnsynced_inOrder ⟨rfl, rfl⟩
  refine ⟨⟨rfl, rfl⟩, hstate, ?_, ?_, ?_, ?_⟩
  · exact fun row hmem => nomatch hmem
  · exact fun r hmem => nomatch hmem
  · exact fun r hmem => nomatch hmem
  · intro l state hmem
    cases List.mem_singleton.mp hmem
    exact hstate

theorem InOrder.next (h : w.InOrder labels) {e : PagingEvent}
    (hallowed : KeepsOrder labels w e) : (w.next labels e).InOrder labels := by
  cases e with
  | initializeSource view a meanwhile =>
      exact h.initializeSource view a meanwhile
  | changeState readFilter label view a meanwhile =>
      refine h.changeState readFilter label view a meanwhile ?_
      rintro l rfl
      exact hallowed
  | clear a meanwhile => exact h.clear a meanwhile
  | syncNext a i meanwhile awaited hasNextPage =>
      exact h.syncNext a i meanwhile awaited hasNextPage
  | syncNew a => exact h.syncNew a
  | complete c => exact h.complete c
  | reopen label pageSize =>
      exact h.withSource ⟨rfl, rfl⟩
        (MailScrollerState.newUnsynced_inOrder ⟨rfl, rfl⟩)

theorem InOrder.pagedInOwnOrder (h : w.InOrder labels) :
    w.PagedInOwnOrder labels :=
  ⟨h.issued, h.rows, h.built, fun row hmem pageSize _ hcategory =>
    CachedScrollData.new_isSome hmem (h.rows row hmem) pageSize hcategory⟩

/--
In every run in which `change_state` only selects labels ordered like the one
the source was created for, each label is paged in its own order, and what was
stored for it is found again.
-/
theorem labels_paged_in_own_order
    (hreach : (pagingSystem labels).ReachableWhen (KeepsOrder labels) w) :
    w.PagedInOwnOrder labels := by
  have hinv : w.InOrder labels := by
    refine TransitionSystem.invariant_when (InOrder labels) ?_ ?_ hreach
    · rintro w ⟨label, pageSize, rfl⟩
      exact InOrder.start label pageSize
    · rintro w e w' _ hw hallowed rfl
      exact hw.next hallowed
  exact hinv.pagedInOwnOrder

/-- The archive, the scheduled mail and the spam. -/
def threeFolders : LabelTable where
  rows := [{ localId := 1, remoteId := some "6" },
    { localId := 2, remoteId := some "12" },
    { localId := 3, remoteId := some "4" }]
  nextId := 4
  ids_unique := by simp
  ids_lt := by simp
  remoteIds_unique := by
    intro r r' hr hr'
    simp only [List.mem_cons, List.not_mem_nil, or_false] at hr hr'
    rcases hr with rfl | rfl | rfl <;> rcases hr' with rfl | rfl | rfl <;>
      decide

/-- The label is changed, and the first page of the new one is stored. -/
def changeAndStore (label : LocalLabelId) : List PagingEvent :=
  [PagingEvent.changeState none (some label) none {} [],
    PagingEvent.complete ⟨0, some "m"⟩]

theorem spam_paged_in_own_order :
    ((changeAndStore 3).foldl (next threeFolders)
      (start threeFolders 1 50)).PagedInOwnOrder threeFolders := by
  have h₀ : (pagingSystem threeFolders).ReachableWhen
      (KeepsOrder threeFolders) (start threeFolders 1 50) :=
    TransitionSystem.ReachableWhen.start ⟨1, 50, rfl⟩
  have h₁ := h₀.next
    (l := PagingEvent.changeState none (some 3) none {} [])
    ⟨by decide, by decide⟩ rfl
  have h₂ := h₁.next (l := PagingEvent.complete ⟨0, some "m"⟩) True.intro rfl
  exact labels_paged_in_own_order h₂

/-- Scheduled mail is asked for from new to old, and its row is not found. -/
theorem scheduled_paged_in_other_order :
    exists w, (pagingSystem threeFolders).Reachable w ∧
      w.issued.map (fun r => (r.localLabelId, r.orderDir)) =
        [(2, ScrollOrderDir.desc)] ∧
      ScrollOrderDir.forLocalLabel threeFolders 2 = ScrollOrderDir.asc ∧
      w.rows.map EndCursor.localLabelId = [2] ∧
      CachedScrollData.new threeFolders w.rows 2 ReadFilter.all 50 [] = none ∧
      ¬ w.PagedInOwnOrder threeFolders := by
  have h₀ : (pagingSystem threeFolders).Reachable (start threeFolders 1 50) :=
    TransitionSystem.ReachableWhen.start ⟨1, 50, rfl⟩
  have h₁ := h₀.step
    (l := PagingEvent.changeState none (some 2) none {} []) rfl
  have h₂ := h₁.step (l := PagingEvent.complete ⟨0, some "m"⟩) rfl
  refine ⟨_, h₂, by decide, by decide, by decide, by decide, ?_⟩
  intro h
  have horder := (h.requests _ (List.mem_singleton.mpr rfl)).dir
  revert horder
  decide

end Paging

end Scroller
end MailClient
