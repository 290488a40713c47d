import Mathlib.Data.Nat.Find
import MailClient.Scroller.SearchPaging
import MailClient.Scroller.SearchRows

/-!
# When a hybrid search is complete

Without local hits the pages of the server follow each other, as long as every
call has something to show.  With local hits the cursor is looked up again
before each call, so only the first call shows anything, and what is stored is
the first page and one more.
-/

namespace MailClient
namespace Scroller

variable {search : HybridSearch} {t : SearchTable} {m : LocalMessageId}

namespace HybridSearch

open HybridSource SearchTable

/-!
# With local hits
-/

section Hybrid

/-- The last result of the first page that is new, or else the last hit. -/
def anchor (search : HybridSearch) : Option LocalMessageId :=
  ((search.server.take search.pageSize).filter (fun m =>
    search.kept m ∧ m ∉ search.hits)).getLast?.or search.hits.getLast?

/-- Some hit, or some kept result of the first page, is not marked as deleted. -/
def ShowsSomething (search : HybridSearch) : Prop :=
  exists m, (m ∈ search.hits ∨
    (m ∈ search.server.take search.pageSize ∧ search.kept m = true)) ∧
    search.deleted m = false

/-- The first page and the one after the anchor have all that is kept. -/
def TwoPagesCover (search : HybridSearch) : Prop :=
  forall m, m ∈ search.server -> search.kept m = true ->
    m ∈ search.hits ∨ m ∈ search.server.take search.pageSize ∨
      (search.ShowsSomething ∧ exists a, search.anchor = some a ∧
        (search.remoteId a).isSome ∧ m ∈ search.followers a)

def hitRows (search : HybridSearch) : SearchTable :=
  search.hits.foldl push empty

def firstRows (search : HybridSearch) : SearchTable :=
  search.saved search.hitRows (search.server.take search.pageSize)

theorem mem_hitRows : m ∈ search.hitRows.ids ↔ m ∈ search.hits := by
  rw [hitRows, mem_foldl_push]
  simp [empty, ids]

theorem ids_firstRows :
    search.firstRows.ids = search.hitRows.ids ++
      (search.server.take search.pageSize).filter (fun m =>
        search.kept m ∧ m ∉ search.hits) := by
  rw [firstRows, ids_saved (search.server_nodup.sublist (List.take_sublist _ _)),
    List.filter_filter]
  congr 1
  refine List.filter_congr ?_
  intro x _
  simp [mem_hitRows, Bool.and_comm]

theorem mem_firstRows :
    m ∈ search.firstRows.ids ↔ m ∈ search.hits ∨
      (m ∈ search.server.take search.pageSize ∧ search.kept m = true) := by
  rw [ids_firstRows, List.mem_append, mem_hitRows, List.mem_filter]
  simp only [decide_eq_true_eq]
  tauto

theorem firstRows_last :
    search.firstRows.last.map SearchScrollData.localMessageId =
      search.anchor := by
  rw [last_map_id, ids_firstRows, List.getLast?_append, anchor]
  congr 1
  rw [hitRows, getLast_foldl_push]
  simp [empty, ids]

theorem showsSomething_iff :
    search.ShowsSomething ↔
      search.firstRows.ids.filter (fun m => ¬ search.deleted m) ≠ [] := by
  rw [ne_eq, List.filter_eq_nil_iff]
  constructor
  · rintro ⟨m, hm, hshown⟩ hnone
    have hgone := hnone m (mem_firstRows.mpr hm)
    simp [hshown] at hgone
  · intro h
    by_contra hnone
    refine h ?_
    intro m hm hshown
    refine hnone ⟨m, mem_firstRows.mp hm, ?_⟩
    simpa using hshown

theorem syncNext_hybrid {s : HybridSource} {l : Option SearchScrollData}
    {r : SearchScrollData} (hstate : s.state = HybridSourceState.hybrid l)
    (hlast : s.table.last = some r) :
    s.syncNext search =
      s.answered (HybridSourceState.hybrid (some r)) true
        (if s.firstSyncDone then []
          else s.table.ids.filter (fun m => ¬ search.deleted m)) true := by
  have hrefresh : s.refreshLast = HybridSourceState.hybrid (some r) := by
    simp [refreshLast, hstate, hlast]
  unfold syncNext
  rw [hrefresh]
  dsimp only [items]
  cases hfirst : s.firstSyncDone with
  | true => simp [fetchMore, hlast]
  | false => simp [visibleElements, upTo_last hlast]

theorem calls_one_hybrid (hhits : search.hits ≠ []) :
    exists (s : HybridSource) (r : SearchScrollData),
      s.firstSyncDone = false ∧ s.table = search.firstRows ∧
      search.firstRows.last = some r ∧ search.calls 1 =
        s.answered (HybridSourceState.hybrid (some r)) true
          (search.firstRows.ids.filter (fun m => ¬ search.deleted m)) true := by
  rcases List.exists_mem_of_ne_nil _ hhits with ⟨hit, hhit⟩
  rcases last_of_mem (mem_hitRows.mpr hhit) with ⟨r₀, hr₀⟩
  rcases last_of_mem (mem_firstRows.mpr (Or.inl hhit)) with ⟨r, hr⟩
  have hinit : search.calls 0 =
      { state := HybridSourceState.hybrid (some r₀)
        firstSyncDone := false
        total := search.visibleElementCount search.hitRows r₀
        table := search.hitRows
        task := some (SearchTask.firstPage true)
        answer := none } := by
    change initializeImpl search true = _
    unfold initializeImpl
    dsimp only
    rw [show search.hits.foldl SearchTable.push SearchTable.empty =
      search.hitRows from rfl, hr₀]
    rfl
  rcases syncFirstPage_eq search (search.calls 0) true with
    ⟨total, hpage⟩
  rw [hinit] at hpage
  have hround : search.calls 1 =
      ((search.calls 0).finishTask search).syncNext search := by
    rw [calls_succ, HybridSource.round, hinit]
    rfl
  rw [hround, hinit, finishTask]
  dsimp only
  rw [hpage]
  dsimp only
  rw [syncNext_hybrid rfl hr]
  exact ⟨_, r, rfl, rfl, hr, rfl⟩

theorem calls_zero_goes_on :
    (search.calls 0).returnedNothing = false := by
  have hanswer : (search.calls 0).answer = none := by
    change (initializeImpl search true).answer = none
    unfold initializeImpl
    dsimp only
    split
    · rfl
    · rfl
  simp [returnedNothing, hanswer]

theorem calls_two_hybrid (hhits : search.hits ≠ [])
    (hshows : search.ShowsSomething) :
    (search.calls 1).returnedNothing = false ∧
      (search.calls 2).returnedNothing = true ∧
      forall x, x ∈ (search.calls 2).table.ids ↔ x ∈ search.firstRows.ids ∨
        (search.kept x = true ∧ exists a, search.anchor = some a ∧
          (search.remoteId a).isSome ∧ x ∈ search.followers a) := by
  rcases calls_one_hybrid hhits with ⟨s, r, hfirst, htable, hlast, hone⟩
  have hitems := showsSomething_iff.mp hshows
  have hgoes : (search.calls 1).returnedNothing = false := by
    rw [hone, Bool.eq_false_iff, ne_eq, answered_returnedNothing]
    exact hitems
  have htask : (search.calls 1).task = some SearchTask.nextPage := by
    rw [hone, answered_task hitems]
  have hrows : (search.calls 1).table.last = some r := by
    rw [hone]
    simp [answered, htable, hlast]
  have hstate : (search.calls 1).state = HybridSourceState.hybrid (some r) := by
    rw [hone]
    rfl
  have hdone : (search.calls 1).firstSyncDone = true := by
    rw [hone]
    rfl
  have hanchor : search.anchor = some r.localMessageId := by
    rw [<- firstRows_last, hlast]
    rfl
  have hround : search.calls 2 =
      ((search.calls 1).finishTask search).syncNext search := by
    rw [calls_succ, HybridSource.round, if_neg (by simp [hgoes])]
  -- the page after the anchor, or nothing for a hit without a remote id
  obtain ⟨table, hfinish, hmem⟩ : exists table : SearchTable,
      (search.calls 1).finishTask search =
        { search.calls 1 with table := table, task := none } ∧
      forall x, x ∈ table.ids ↔ x ∈ search.firstRows.ids ∨
        (search.kept x = true ∧ exists a, search.anchor = some a ∧
          (search.remoteId a).isSome ∧ x ∈ search.followers a) := by
    have hfirstRows : (search.calls 1).table = search.firstRows := by
      rw [hone]
      exact htable
    cases hid : search.remoteId r.localMessageId with
    | none =>
        refine ⟨search.firstRows, ?_, ?_⟩
        · rw [finishTask, htask]
          dsimp only
          rw [syncNextPage_no_remoteId hrows hid, hfirstRows]
        · intro x
          simp [hanchor, hid]
    | some anchorId =>
        refine ⟨search.saved search.firstRows
          (search.followers r.localMessageId), ?_, ?_⟩
        · rw [finishTask, htask]
          dsimp only
          rw [syncNextPage_eq hrows hid, hfirstRows]
        · intro x
          rw [mem_saved (followers_nodup _)]
          simp [hanchor, hid, and_comm]
  have hlast₂ : exists r', table.last = some r' := by
    have hr : r.localMessageId ∈ table.ids := by
      rw [hmem]
      refine Or.inl ?_
      rw [ids]
      exact List.mem_map_of_mem (List.mem_of_getLast? hlast)
    exact last_of_mem hr
  rcases hlast₂ with ⟨r', hr'⟩
  have htwo : search.calls 2 = answered
      { search.calls 1 with table := table, task := none }
      (HybridSourceState.hybrid (some r')) true [] true := by
    rw [hround, hfinish, syncNext_hybrid
      (s := { search.calls 1 with table := table, task := none }) hstate hr']
    simp [hdone]
  refine ⟨hgoes, ?_, ?_⟩
  · rw [htwo, answered_returnedNothing]
  · intro x
    rw [htwo]
    exact hmem x

theorem losesNothing_hybrid (hhits : search.hits ≠ []) :
    search.LosesNothing ↔ search.TwoPagesCover := by
  by_cases hshows : search.ShowsSomething
  · rcases calls_two_hybrid hhits hshows with ⟨hone, htwo, hrows⟩
    have hbefore : forall n, n < 2 ->
        (search.calls n).returnedNothing = false := by
      intro n hn
      match n, hn with
      | 0, _ => exact calls_zero_goes_on
      | 1, _ => exact hone
    rw [losesNothing_iff_of_stop htwo hbefore]
    constructor
    · intro h m hserver hkept
      have hm := (hrows m).mp (h m (Or.inr ⟨hserver, hkept⟩))
      rw [mem_firstRows] at hm
      tauto
    · rintro h m (hhit | ⟨hserver, hkept⟩)
      · exact (hrows m).mpr (Or.inl (mem_firstRows.mpr (Or.inl hhit)))
      · have hm := h m hserver hkept
        rw [hrows, mem_firstRows]
        tauto
  · rcases calls_one_hybrid hhits with ⟨s, r, _, htable, _, hone⟩
    have hstop : (search.calls 1).returnedNothing = true := by
      rw [hone, answered_returnedNothing]
      by_contra hitems
      exact hshows (showsSomething_iff.mpr hitems)
    have hbefore : forall n, n < 1 ->
        (search.calls n).returnedNothing = false := by
      intro n hn
      match n, hn with
      | 0, _ => exact calls_zero_goes_on
    have hrows : (search.calls 1).table = search.firstRows := by
      rw [hone]
      exact htable
    rw [losesNothing_iff_of_stop hstop hbefore, hrows]
    constructor
    · intro h m hserver hkept
      have hm := mem_firstRows.mp (h m (Or.inr ⟨hserver, hkept⟩))
      tauto
    · rintro h m (hhit | ⟨hserver, hkept⟩)
      · exact mem_firstRows.mpr (Or.inl hhit)
      · have hm := h m hserver hkept
        rw [mem_firstRows]
        tauto

end Hybrid

/-!
# Without local hits
-/

section Remote

/-- A page up to its last result that is kept. -/
def page (search : HybridSearch) (rest : List LocalMessageId) :
    List LocalMessageId :=
  (rest.take search.pageSize).rdropWhile (fun m => !search.kept m)

def afterPage (search : HybridSearch) (rest : List LocalMessageId) :
    List LocalMessageId :=
  rest.drop (search.page rest).length

/-- What follows the last kept result of each page. -/
def rest (search : HybridSearch) (k : Nat) : List LocalMessageId :=
  search.afterPage^[k] search.server

/-- The results that are kept, before a rest of the list. -/
def keptBefore (search : HybridSearch) (later : List LocalMessageId) :
    List LocalMessageId :=
  (search.server.take (search.server.length - later.length)).filter search.kept

/--
A page that is followed by further results to keep has more of them than are
marked as deleted up to its end.
-/
def PagesAdvance (search : HybridSearch) : Prop :=
  forall k, (forall m, m ∈ search.rest (k + 1) -> search.kept m = false) ∨
    ((search.keptBefore (search.rest (k + 1))).filter search.deleted).length <
      (((search.rest k).take search.pageSize).filter search.kept).length

theorem rest_succ (k : Nat) :
    search.rest (k + 1) = search.afterPage (search.rest k) :=
  Function.iterate_succ_apply' _ _ _

theorem page_append (search : HybridSearch) (rest : List LocalMessageId) :
    search.page rest ++ search.afterPage rest = rest := by
  have hprefix : search.page rest <+: rest :=
    (List.rdropWhile_prefix _ _).trans (List.take_prefix _ _)
  have htake := List.prefix_iff_eq_take.mp hprefix
  calc search.page rest ++ search.afterPage rest
      = rest.take (search.page rest).length ++
          rest.drop (search.page rest).length := by rw [afterPage, <- htake]
    _ = rest := List.take_append_drop _ _

theorem filter_page (rest : List LocalMessageId) :
    (search.page rest).filter search.kept =
      (rest.take search.pageSize).filter search.kept := by
  have hsplit : search.page rest ++ (rest.take search.pageSize).rtakeWhile
      (fun m => !search.kept m) = rest.take search.pageSize :=
    List.rdropWhile_append_rtakeWhile
  have hskipped : ((rest.take search.pageSize).rtakeWhile
      (fun m => !search.kept m)).filter search.kept = [] := by
    rw [List.filter_eq_nil_iff]
    intro m hm
    simpa using List.mem_rtakeWhile_imp hm
  have hfilter := congrArg (List.filter search.kept) hsplit
  rw [List.filter_append, hskipped, List.append_nil] at hfilter
  exact hfilter

theorem keptBefore_of_split {before later : List LocalMessageId}
    (h : search.server = before ++ later) :
    search.keptBefore later = before.filter search.kept := by
  unfold keptBefore
  rw [h, List.length_append, Nat.add_sub_cancel, List.take_left]

theorem rest_split (search : HybridSearch) (k : Nat) :
    exists before, search.server = before ++ search.rest k := by
  induction k with
  | zero => exact ⟨[], rfl⟩
  | succ k ih =>
      rcases ih with ⟨before, h⟩
      refine ⟨before ++ search.page (search.rest k), ?_⟩
      rw [rest_succ, List.append_assoc, page_append, h]

/-- The rows after a number of pages. -/
def stored (search : HybridSearch) (k : Nat) : List LocalMessageId :=
  search.keptBefore (search.rest k)

theorem stored_succ (search : HybridSearch) (k : Nat) :
    search.stored (k + 1) = search.stored k ++
      ((search.rest k).take search.pageSize).filter search.kept := by
  rcases rest_split search k with ⟨before, h⟩
  have hnext : search.server =
      (before ++ search.page (search.rest k)) ++ search.rest (k + 1) := by
    rw [rest_succ, List.append_assoc, page_append, h]
  rw [stored, keptBefore_of_split hnext, List.filter_append, filter_page,
    stored, keptBefore_of_split h]

/-- A call after the page shows something. -/
def GoesOn (search : HybridSearch) (k : Nat) : Prop :=
  (search.stored k).length <
    ((search.stored (k + 1)).filter (fun m => ¬ search.deleted m)).length

theorem goesOn_iff (k : Nat) :
    search.GoesOn k ↔
      ((search.stored (k + 1)).filter search.deleted).length <
        (((search.rest k).take search.pageSize).filter search.kept).length := by
  have hsplit := List.length_eq_length_filter_add search.deleted
    (l := search.stored (k + 1))
  have hlength := congrArg List.length (stored_succ search k)
  rw [List.length_append] at hlength
  have hshown : (search.stored (k + 1)).filter (fun m => ¬ search.deleted m) =
      (search.stored (k + 1)).filter (fun m => !search.deleted m) := by
    refine List.filter_congr ?_
    intro m _
    simp
  unfold GoesOn
  rw [hshown]
  omega

theorem GoesOn.length_lt {k : Nat} (h : search.GoesOn k) :
    (search.stored k).length < (search.stored (k + 1)).length :=
  Nat.lt_of_lt_of_le h (List.length_filter_le _ _)

theorem GoesOn.anchored {k : Nat} (h : search.GoesOn k) :
    exists before a, search.server = before ++ a :: search.rest (k + 1) ∧
      (search.stored (k + 1)).getLast? = some a := by
  rcases rest_split search k with ⟨before, hserver⟩
  rcases List.eq_nil_or_concat (search.page (search.rest k)) with
    hnil | ⟨front, a, hpage⟩
  · have hlength := h.length_lt
    rw [stored_succ, <- filter_page, hnil] at hlength
    simp at hlength
  · rw [List.concat_eq_append] at hpage
    have hkept : search.kept a = true := by
      have hne : search.page (search.rest k) ≠ [] := by
        simp [hpage]
      have hlast := List.rdropWhile_last_not _ _ hne
      have ha : (search.page (search.rest k)).getLast hne = a := by
        simp [hpage]
      change ¬ (!search.kept ((search.page (search.rest k)).getLast hne)) = true
        at hlast
      rw [ha] at hlast
      simpa using hlast
    refine ⟨before ++ front, a, ?_, ?_⟩
    · have hrest := page_append search (search.rest k)
      rw [hpage, <- rest_succ] at hrest
      rw [hserver, <- hrest]
      simp
    · rw [stored_succ, <- filter_page, hpage]
      simp [hkept]

theorem followers_anchor {before later : List LocalMessageId}
    {a : LocalMessageId} (h : search.server = before ++ a :: later) :
    search.followers a = later.take search.pageSize := by
  have hmem : a ∈ search.server := by
    simp [h]
  have hnew : forall m, m ∈ before -> m ≠ a := by
    rintro m hm rfl
    have hnodup := search.server_nodup
    rw [h, List.nodup_append] at hnodup
    exact hnodup.right.right m hm m List.mem_cons_self rfl
  have hdrop : search.server.dropWhile (fun m => m ≠ a) = a :: later := by
    rw [h, List.dropWhile_append_of_pos]
    · simp
    · intro m hm
      simpa using hnew m hm
  unfold followers
  rw [if_pos hmem, hdrop, List.tail_cons]

theorem ids_saved_rest {k : Nat} (h : t.ids = search.stored k) :
    (search.saved t ((search.rest k).take search.pageSize)).ids =
      search.stored (k + 1) := by
  rcases rest_split search k with ⟨before, hserver⟩
  have hnodup := search.server_nodup
  rw [hserver, List.nodup_append] at hnodup
  rw [ids_saved (hnodup.right.left.sublist (List.take_sublist _ _)), h,
    stored_succ]
  congr 1
  rw [List.filter_eq_self]
  intro m hm
  have hrest : m ∈ search.rest k :=
    List.mem_of_mem_take (List.mem_of_mem_filter hm)
  have hnew : m ∉ search.stored k := by
    rw [stored, keptBefore_of_split hserver]
    intro hbefore
    exact hnodup.right.right m (List.mem_of_mem_filter hbefore) m hrest rfl
  simpa using hnew

/-- After `k` pages the cursor stands at the last row, and a task is running. -/
structure RemoteAt (search : HybridSearch) (k : Nat) (s : HybridSource) :
    Prop where
  cursor : exists r, s.state = HybridSourceState.remoteOnly (some r) ∧
    s.table.last = some r
  firstSyncDone : s.firstSyncDone = true
  task : s.task = some SearchTask.nextPage
  goesOn : s.returnedNothing = false
  ids : s.table.ids = search.stored k
  contiguous : s.table.Contiguous
  anchored : exists before a, search.server = before ++ a :: search.rest k ∧
    (search.stored k).getLast? = some a

/-- What a call does after page `k`. -/
structure RemoteCall (search : HybridSearch) (k : Nat) (s : HybridSource) :
    Prop where
  goes : search.GoesOn k -> search.RemoteAt (k + 1) s
  stops : ¬ search.GoesOn k -> s.returnedNothing = true ∧
    s.table.ids = search.stored (k + 1)

theorem remoteCall_answered {s : HybridSource} {k : Nat}
    {r : SearchScrollData} {items : List LocalMessageId}
    (hids : s.table.ids = search.stored (k + 1))
    (hcontiguous : s.table.Contiguous) (hlast : s.table.last = some r)
    (hitems : items ≠ [] ↔ search.GoesOn k) :
    search.RemoteCall k
      (s.answered (HybridSourceState.remoteOnly (some r)) true items true) := by
  constructor
  · intro hgoes
    have hne := hitems.mpr hgoes
    refine ⟨⟨r, rfl, hlast⟩, rfl, answered_task hne, ?_, hids, hcontiguous,
      hgoes.anchored⟩
    rw [Bool.eq_false_iff, ne_eq, answered_returnedNothing]
    exact hne
  · intro hstops
    refine ⟨?_, hids⟩
    rw [answered_returnedNothing]
    by_contra hne
    exact hstops (hitems.mp hne)

theorem syncNext_remote_first {s : HybridSource}
    (hstate : s.state = HybridSourceState.remoteOnly none)
    (hfirst : s.firstSyncDone = false)
    (hids : s.table.ids = search.stored 1)
    (hcontiguous : s.table.Contiguous) :
    search.RemoteCall 0 (s.syncNext search) := by
  have hstored : search.stored 0 = [] := by
    simp [stored, keptBefore, rest]
  cases hlast : s.table.last with
  | none =>
      have hnil : search.stored 1 = [] := by
        rw [<- hids, SearchTable.ids, List.getLast?_eq_none_iff.mp hlast]
        rfl
      have hsync : s.syncNext search =
          s.answered (HybridSourceState.remoteOnly none) false [] true := by
        simp [syncNext, refreshLast, hstate, hlast, items, hfirst]
      rw [hsync]
      constructor
      · intro hgoes
        have hlength := hgoes.length_lt
        simp [hnil] at hlength
      · exact fun _ => ⟨answered_returnedNothing.mpr rfl, hids⟩
  | some r =>
      have hsync : s.syncNext search =
          s.answered (HybridSourceState.remoteOnly (some r)) true
            (s.table.ids.filter (fun m => ¬ search.deleted m)) true := by
        simp [syncNext, refreshLast, hstate, hlast, items, hfirst,
          visibleElements, upTo_last hlast]
      rw [hsync]
      refine remoteCall_answered hids hcontiguous hlast ?_
      rw [GoesOn, hids, hstored, List.length_nil, List.length_pos_iff]

theorem syncNext_remote {s : HybridSource} {k : Nat} {r : SearchScrollData}
    (hstate : s.state = HybridSourceState.remoteOnly (some r))
    (hcursor : r.displayOrder + 1 = (search.stored k).length)
    (hfirst : s.firstSyncDone = true)
    (hids : s.table.ids = search.stored (k + 1))
    (hcontiguous : s.table.Contiguous) :
    search.RemoteCall k (s.syncNext search) := by
  have hrefresh : s.refreshLast = HybridSourceState.remoteOnly (some r) := by
    simp [refreshLast, hstate]
  have hlength := congrArg List.length (stored_succ search k)
  rw [List.length_append] at hlength
  have hpos : 0 < s.table.ids.length := by
    rw [hids]
    omega
  rcases List.exists_mem_of_length_pos hpos with ⟨m, hm⟩
  rcases last_of_mem hm with ⟨last, hlast⟩
  have horder := hcontiguous.last_order hlast
  rw [hids] at horder
  unfold syncNext
  rw [hrefresh]
  dsimp only [items]
  rw [hfirst]
  simp only [if_true, fetchMore, hlast]
  by_cases hnew : r.displayOrder < last.displayOrder
  · rw [if_pos hnew]
    refine remoteCall_answered hids hcontiguous hlast ?_
    rw [upTo_last hlast, hcursor, hids, GoesOn]
    have hpage : 0 < search.pageSize := by
      by_contra hzero
      have hnone : (search.rest k).take search.pageSize = [] := by
        simp [Nat.eq_zero_of_not_pos hzero]
      rw [hnone] at hlength
      simp at hlength
      omega
    rw [ne_eq, List.take_eq_nil_iff, List.drop_eq_nil_iff]
    omega
  · rw [if_neg hnew]
    constructor
    · intro hgoes
      have hmore := hgoes.length_lt
      omega
    · exact fun _ => ⟨answered_returnedNothing.mpr rfl, hids⟩

theorem RemoteAt.round {s : HybridSource} {k : Nat}
    (h : search.RemoteAt k s) : search.RemoteCall k (s.round search) := by
  rcases h.cursor with ⟨r, hstate, hlast⟩
  rcases h.anchored with ⟨before, a, hserver, ha⟩
  have hr : r.localMessageId = a := by
    have hmap := last_map_id s.table
    rw [hlast, h.ids, ha] at hmap
    exact Option.some.inj hmap
  have hmem : a ∈ search.server := by
    simp [hserver]
  rcases Option.isSome_iff_exists.mp (search.server_remoteId a hmem) with
    ⟨anchorId, hid⟩
  have hfinish : s.finishTask search =
      { s with
        table := search.saved s.table
          ((search.rest k).take search.pageSize)
        task := none } := by
    rw [finishTask, h.task]
    dsimp only
    rw [syncNextPage_eq hlast (hr ▸ hid), hr, followers_anchor hserver]
  have horder := h.contiguous.last_order hlast
  rw [h.ids] at horder
  rw [HybridSource.round, if_neg (by simp [h.goesOn]), hfinish]
  exact syncNext_remote hstate horder h.firstSyncDone (ids_saved_rest h.ids)
    (contiguous_foldl_addMissing h.contiguous _)

theorem calls_one_remote (hhits : search.hits = []) :
    search.RemoteCall 0 (search.calls 1) := by
  have hinit : search.calls 0 =
      { state := HybridSourceState.remoteOnly none
        firstSyncDone := false
        total := 0
        table := SearchTable.empty
        task := some (SearchTask.firstPage false)
        answer := none } := by
    change initializeImpl search true = _
    unfold initializeImpl
    rw [hhits]
    rfl
  rcases syncFirstPage_eq search (search.calls 0) false with ⟨total, hpage⟩
  rw [hinit] at hpage
  have hround : search.calls 1 =
      ((search.calls 0).finishTask search).syncNext search := by
    rw [calls_succ, HybridSource.round, hinit]
    rfl
  have hempty : SearchTable.empty.ids = search.stored 0 := by
    simp [SearchTable.empty, SearchTable.ids, stored, keptBefore, rest]
  have hids : (search.saved SearchTable.empty
      (search.server.take search.pageSize)).ids = search.stored 1 :=
    ids_saved_rest hempty
  rw [hround, hinit, finishTask]
  dsimp only
  rw [hpage]
  have hcontiguous : SearchTable.empty.Contiguous := rfl
  exact syncNext_remote_first rfl rfl hids
    (contiguous_foldl_addMissing hcontiguous _)

theorem remoteCall_calls (hhits : search.hits = []) {k : Nat}
    (h : forall j, j < k -> search.GoesOn j) :
    search.RemoteCall k (search.calls (k + 1)) := by
  induction k with
  | zero => exact calls_one_remote hhits
  | succ k ih =>
      have hcall := ih (fun j hj => h j (by omega))
      rw [calls_succ]
      exact (hcall.goes (h k (by omega))).round

theorem exists_not_goesOn (search : HybridSearch) :
    exists k, ¬ search.GoesOn k := by
  by_contra hnone
  have hgoes : forall k, search.GoesOn k := by
    intro k
    by_contra hstop
    exact hnone ⟨k, hstop⟩
  have hgrows : forall k, k ≤ (search.stored k).length := by
    intro k
    induction k with
    | zero => exact Nat.zero_le _
    | succ k ih =>
        have hlt := (hgoes k).length_lt
        omega
  have hbound : (search.stored (search.server.length + 1)).length ≤
      search.server.length :=
    Nat.le_trans (List.length_filter_le _ _) (List.length_take_le' _ _)
  have hmore := hgrows (search.server.length + 1)
  omega

theorem mem_rest_of_mem_rest {i j : Nat} (hij : i ≤ j)
    (h : m ∈ search.rest j) : m ∈ search.rest i := by
  induction hij with
  | refl => exact h
  | step _ ih =>
      rw [rest_succ] at h
      exact ih (List.mem_of_mem_drop h)

theorem losesNothing_remote (hhits : search.hits = []) :
    search.LosesNothing ↔ search.PagesAdvance := by
  classical
  have hex := exists_not_goesOn search
  let k := Nat.find hex
  have hk : ¬ search.GoesOn k := Nat.find_spec hex
  have hgoes : forall j, j < k -> search.GoesOn j :=
    fun j hj => not_not.mp (Nat.find_min hex hj)
  rcases (remoteCall_calls hhits hgoes).stops hk with ⟨hstop, hids⟩
  have hbefore : forall n, n < k + 1 ->
      (search.calls n).returnedNothing = false := by
    intro n hn
    cases n with
    | zero => exact calls_zero_goes_on
    | succ j =>
        have hcall := remoteCall_calls hhits
          (fun i hi => hgoes i (Nat.lt_trans hi (by omega : j < k)))
        exact (hcall.goes (hgoes j (by omega))).goesOn
  rw [losesNothing_iff_of_stop hstop hbefore, hids]
  rcases rest_split search (k + 1) with ⟨before, hserver⟩
  constructor
  · intro h i
    by_cases hi : i < k
    · exact Or.inr ((goesOn_iff i).mp (hgoes i hi))
    · refine Or.inl ?_
      intro m hm
      have hrest : m ∈ search.rest (k + 1) :=
        mem_rest_of_mem_rest (by omega) hm
      rw [Bool.eq_false_iff]
      intro hkept
      have hstored := h m (Or.inr ⟨by simp [hserver, hrest], hkept⟩)
      rw [stored, keptBefore_of_split hserver] at hstored
      have hnodup := search.server_nodup
      rw [hserver, List.nodup_append] at hnodup
      exact hnodup.right.right m (List.mem_of_mem_filter hstored) m hrest rfl
  · intro h m hm
    rcases h k with hrest | hadvance
    · rcases hm with hhit | ⟨hmem, hkept⟩
      · rw [hhits] at hhit
        cases hhit
      · rw [stored, keptBefore_of_split hserver, List.mem_filter]
        rw [hserver, List.mem_append] at hmem
        rcases hmem with hmem | hmem
        · exact ⟨hmem, hkept⟩
        · rw [hrest m hmem] at hkept
          cases hkept
    · exact absurd ((goesOn_iff k).mpr hadvance) hk

end Remote

/--
A hybrid search loses nothing exactly when the pages of the server reach all
that is kept: page after page without local hits, within two pages with them.
-/
theorem hybrid_search_loses_nothing_iff (search : HybridSearch) :
    search.LosesNothing ↔
      (search.hits = [] -> search.PagesAdvance) ∧
        (search.hits ≠ [] -> search.TwoPagesCover) := by
  by_cases hhits : search.hits = []
  · rw [losesNothing_remote hhits]
    exact ⟨fun h => ⟨fun _ => h, fun hne => absurd hhits hne⟩,
      fun h => h.left hhits⟩
  · rw [losesNothing_hybrid hhits]
    exact ⟨fun h => ⟨fun hnil => absurd hnil hhits, fun _ => h⟩,
      fun h => h.right hhits⟩

/-- One local hit, four results of the server, pages of one. -/
def oneHit : HybridSearch where
  hits := [9]
  server := [0, 1, 2, 3]
  pageSize := 1
  remoteId := fun m => some (String.ofList (List.replicate m 'm'))
  time := fun m => 100 - m
  kept := fun _ => true
  deleted := fun _ => false
  server_sorted := by decide
  server_nodup := by decide
  server_remoteId := fun _ _ => rfl
  remoteId_unique := deletedHit.remoteId_unique

theorem oneHit_loses_results :
    (oneHit.calls 2).returnedNothing = true ∧
      (oneHit.calls 2).table.ids = [9, 0, 1] ∧ ¬ oneHit.LosesNothing := by
  have hstop : (oneHit.calls 2).returnedNothing = true := by decide
  have hids : (oneHit.calls 2).table.ids = [9, 0, 1] := by decide
  refine ⟨hstop, hids, ?_⟩
  intro h
  have hcount := h.stored 2 hstop 2 (Or.inr ⟨by decide, rfl⟩)
  rw [hids] at hcount
  revert hcount
  decide

end HybridSearch

end Scroller
end MailClient
