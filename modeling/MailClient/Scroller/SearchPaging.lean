import MailClient.Foundation.Keyset
import MailClient.Scroller.HybridSearch

/-!
# Pages of the search rows

`fetch_more` skips as many rows as the display order of the cursor says, and
leaves the cursor on the last row, however many rows the page size lets
through.
-/

namespace MailClient
namespace Scroller

open Foundation

namespace SearchTable

theorem le_last {t : SearchTable} {last r : SearchScrollData}
    (hlast : t.last = some last) (hr : r ∈ t.rows) :
    r.displayOrder ≤ last.displayOrder := by
  have hlt := lt_nextOrder hr
  unfold nextOrder at hlt
  rw [hlast] at hlt
  exact Nat.le_of_lt_succ hlt

theorem le_of_no_more {t : SearchTable} {c : Nat}
    (h : ¬ exists last, t.last = some last ∧ c < last.displayOrder) :
    forall r, r ∈ t.rows -> r.displayOrder ≤ c := by
  intro r hr
  cases hlast : t.last with
  | none =>
      rw [List.getLast?_eq_none_iff.mp hlast] at hr
      cases hr
  | some last =>
      have hle : last.displayOrder ≤ c :=
        not_lt.mp (fun hlt => h ⟨last, hlast, hlt⟩)
      exact le_trans (le_last hlast hr) hle

end SearchTable

namespace HybridSearch

variable (search : HybridSearch)

/-- The rows of messages that are not deleted. -/
def live (t : SearchTable) : List SearchScrollData :=
  t.rows.filter (fun r => ¬ search.deleted r.localMessageId)

/-- The messages that lie after `c` and not after `e`, in display order. -/
def between (t : SearchTable) (c e : Nat) : List LocalMessageId :=
  ((search.live t).filter
    (fun r => c < r.displayOrder ∧ r.displayOrder ≤ e)).map
      SearchScrollData.localMessageId

/-- The messages that lie after the cursor. -/
def unseen (t : SearchTable) (cursor : SearchScrollData) : List LocalMessageId :=
  ((search.live t).filter (fun r => cursor.displayOrder < r.displayOrder)).map
    SearchScrollData.localMessageId

/-- No display order up to the cursor is missing, and none is of a deleted message. -/
def Dense (t : SearchTable) (cursor : SearchScrollData) : Prop :=
  forall i, i ≤ cursor.displayOrder ->
    exists r, r ∈ search.live t ∧ r.displayOrder = i

/-- The page leads from what is visible before it to what is visible after it. -/
structure ExactPage (t : SearchTable) (cursor : SearchScrollData) : Prop where
  page : (search.fetchMore t cursor).1 =
    search.between t cursor.displayOrder
      (search.fetchMore t cursor).2.displayOrder
  visible : search.visibleElements t cursor ++ (search.fetchMore t cursor).1 =
    search.visibleElements t (search.fetchMore t cursor).2

variable {search}

theorem live_ascending (t : SearchTable) :
    Ascending SearchScrollData.displayOrder (search.live t) :=
  List.Pairwise.filter _ t.ordered

theorem upTo_eq (t : SearchTable) (e : Nat) :
    search.upTo t e =
      ((search.live t).filter (fun r => r.displayOrder ≤ e)).map
        SearchScrollData.localMessageId := by
  unfold upTo live
  rw [List.filter_filter]
  congr 2
  funext r
  exact Bool.decide_and _ _

theorem upTo_length (t : SearchTable) (e : Nat) :
    (search.upTo t e).length =
      (search.live t).countP (fun r => r.displayOrder ≤ e) := by
  rw [upTo_eq, List.length_map, List.countP_eq_length_filter]

theorem drop_upTo_length (t : SearchTable) {c e : Nat} (hce : c ≤ e) :
    (search.upTo t e).drop (search.upTo t c).length = search.between t c e := by
  rw [upTo_length, upTo_eq, <- List.map_drop, drop_upTo (live_ascending t) hce]
  rfl

theorem upTo_append_between (t : SearchTable) {c e : Nat} (hce : c ≤ e) :
    search.upTo t c ++ search.between t c e = search.upTo t e := by
  rw [upTo_eq, upTo_eq, <- upTo_append_remaining (live_ascending t) hce,
    List.map_append]
  rfl

theorem between_self (t : SearchTable) (c : Nat) :
    search.between t c c = [] := by
  have hself := search.upTo_append_between t (le_refl c)
  exact List.append_right_eq_self.mp hself

theorem unseen_eq {t : SearchTable} {cursor last : SearchScrollData}
    (hlast : t.last = some last) :
    search.unseen t cursor =
      search.between t cursor.displayOrder last.displayOrder := by
  unfold unseen between
  congr 1
  apply List.filter_congr
  intro r hr
  have hle : r.displayOrder ≤ last.displayOrder :=
    t.le_last hlast (List.mem_of_mem_filter hr)
  exact decide_eq_decide.mpr (and_iff_left hle).symm

theorem unseen_of_no_more {t : SearchTable} {cursor : SearchScrollData}
    (hnone : forall r, r ∈ t.rows -> r.displayOrder ≤ cursor.displayOrder) :
    search.unseen t cursor = [] := by
  unfold unseen
  rw [List.map_eq_nil_iff, List.filter_eq_nil_iff]
  intro r hr hlt
  exact absurd (of_decide_eq_true hlt)
    (not_lt_of_ge (hnone r (List.mem_of_mem_filter hr)))

/-!
# One page
-/

theorem fetchMore_of_more {t : SearchTable} {cursor last : SearchScrollData}
    (hlast : t.last = some last)
    (hmore : cursor.displayOrder < last.displayOrder) :
    search.fetchMore t cursor =
      (((search.upTo t last.displayOrder).drop
        (cursor.displayOrder + 1)).take search.pageSize, last) := by
  unfold fetchMore
  rw [hlast]
  exact if_pos hmore

theorem fetchMore_of_no_more {t : SearchTable} {cursor : SearchScrollData}
    (hnone : forall r, r ∈ t.rows -> r.displayOrder ≤ cursor.displayOrder) :
    search.fetchMore t cursor = ([], cursor) := by
  unfold fetchMore
  cases hlast : t.last with
  | none => rfl
  | some last =>
      have hle := hnone last (List.mem_of_getLast? hlast)
      exact if_neg (not_lt_of_ge hle)

theorem le_fetchMore (t : SearchTable) (cursor : SearchScrollData) :
    cursor.displayOrder ≤ (search.fetchMore t cursor).2.displayOrder := by
  by_cases hmore : exists last, t.last = some last ∧
      cursor.displayOrder < last.displayOrder
  · rcases hmore with ⟨last, hlast, hlt⟩
    rw [fetchMore_of_more hlast hlt]
    exact le_of_lt hlt
  · rw [fetchMore_of_no_more (t.le_of_no_more hmore)]

theorem exactPage_iff (t : SearchTable) (cursor : SearchScrollData) :
    search.ExactPage t cursor ↔
      (search.fetchMore t cursor).1 = search.between t cursor.displayOrder
        (search.fetchMore t cursor).2.displayOrder := by
  constructor
  · intro h
    exact h.page
  · intro hpage
    refine ⟨hpage, ?_⟩
    rw [hpage]
    exact search.upTo_append_between t (le_fetchMore t cursor)

theorem dense_iff (t : SearchTable) (cursor : SearchScrollData) :
    search.Dense t cursor ↔
      (search.upTo t cursor.displayOrder).length = cursor.displayOrder + 1 := by
  rw [upTo_length]
  exact ((live_ascending t).count_eq_iff cursor.displayOrder).symm

/--
A page is right exactly if there is nothing to show, or every display order up
to the cursor is that of a visible message and all that is new fits the page.
-/
theorem fetchMore_exact_iff (t : SearchTable) (cursor : SearchScrollData) :
    search.ExactPage t cursor ↔
      search.unseen t cursor = [] ∨
        (search.Dense t cursor ∧
          (search.unseen t cursor).length ≤ search.pageSize) := by
  rw [exactPage_iff]
  by_cases hmore : exists last, t.last = some last ∧
      cursor.displayOrder < last.displayOrder
  · rcases hmore with ⟨last, hlast, hlt⟩
    have hcount : (search.upTo t cursor.displayOrder).length ≤
        cursor.displayOrder + 1 := by
      rw [upTo_length]
      exact (live_ascending t).count_le cursor.displayOrder
    rw [fetchMore_of_more hlast hlt, unseen_eq hlast,
      <- drop_upTo_length t (le_of_lt hlt), take_drop_eq_drop_iff hcount,
      dense_iff]
  · have hnone := t.le_of_no_more hmore
    rw [fetchMore_of_no_more hnone, unseen_of_no_more hnone, between_self]
    exact iff_of_true rfl (Or.inl rfl)

/-- Of four messages two are shown; the first of them has been deleted since. -/
def deletedHit : HybridSearch where
  hits := [0, 1]
  server := [2, 3]
  pageSize := 2
  remoteId := fun m => some (String.ofList (List.replicate m 'm'))
  time := fun m => 100 - m
  kept := fun _ => true
  deleted := fun m => m = 0
  server_sorted := by decide
  server_nodup := by decide
  server_remoteId := fun _ _ => rfl
  remoteId_unique := by
    intro m m' _ h
    have hlength := congrArg (fun id => id.map String.length) h
    simpa using hlength

def fourRows : SearchTable := [0, 1, 2, 3].foldl SearchTable.push SearchTable.empty

/-- The page leaves out the message 2, and the cursor passes it. -/
theorem deletedHit_skips :
    deletedHit.fetchMore fourRows ⟨1, 1⟩ = ([3], ⟨3, 3⟩) ∧
      deletedHit.between fourRows 1 3 = [2, 3] ∧
      ¬ forall (search : HybridSearch) (t : SearchTable)
        (cursor : SearchScrollData), search.ExactPage t cursor := by
  have hpage : deletedHit.fetchMore fourRows ⟨1, 1⟩ = ([3], ⟨3, 3⟩) := by decide
  refine ⟨hpage, by decide, ?_⟩
  intro h
  have hexact := (h deletedHit fourRows ⟨1, 1⟩).page
  rw [hpage] at hexact
  revert hexact
  decide

end HybridSearch

end Scroller
end MailClient
