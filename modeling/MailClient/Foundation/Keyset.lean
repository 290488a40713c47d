import Mathlib.Data.Finset.Card
import Mathlib.Data.Finset.Range
import Mathlib.Data.List.Sort

/-!
# Pages of sorted rows

Rows in the order of a key are read page by page.  A reader that knows the key
of the last row it has read goes on with the rows after that key, up to a last
key.  Counting the rows up to its key gives the number of rows to skip; where
the keys are numbers, the key gives it only if none is left out.
-/

namespace MailClient
namespace Foundation

section Keyset

variable {row key : Type} [LinearOrder key] (k : row -> key)

/-- The rows are in the order of their keys, and no two have the same. -/
def Ascending (rows : List row) : Prop :=
  rows.Pairwise (fun a b => k a < k b)

/-- What is left to read after `c`, up to the key `e`. -/
def remaining (e c : key) (rows : List row) : List row :=
  rows.filter (fun r => c < k r ∧ k r ≤ e)

/-- The key of the last row of a page, or `e` if the page is empty. -/
def advance (e : key) (page : List row) : key :=
  page.getLast?.elim e k

variable {k}

theorem Ascending.filter {rows : List row} (h : Ascending k rows)
    (p : row -> Bool) : Ascending k (rows.filter p) :=
  List.Pairwise.filter p h

theorem Ascending.nodup {rows : List row} (h : Ascending k rows) :
    rows.Nodup :=
  h.imp (fun hlt heq => ne_of_lt hlt (congrArg k heq))

theorem ascending_insertionSort {rows : List row}
    (h : (rows.map k).Nodup) :
    Ascending k (rows.insertionSort (fun a b => k a ≤ k b)) := by
  have hsorted : (rows.insertionSort (fun a b => k a ≤ k b)).Pairwise
      (fun a b => k a ≤ k b) := by
    have htotal : Std.Total (fun a b : row => k a ≤ k b) :=
      ⟨fun a b => le_total (k a) (k b)⟩
    have htrans : IsTrans row (fun a b => k a ≤ k b) :=
      ⟨fun a b c => le_trans⟩
    exact List.pairwise_insertionSort _ rows
  have hne : (rows.insertionSort (fun a b => k a ≤ k b)).Pairwise
      (fun a b => k a ≠ k b) := by
    have hperm := (List.perm_insertionSort (fun a b => k a ≤ k b) rows).map k
    exact List.pairwise_map.mp (hperm.nodup_iff.mpr h)
  exact (hsorted.and hne).imp (fun hab => lt_of_le_of_ne hab.left hab.right)

theorem Ascending.eq_of_perm {rows rows' : List row} (h : Ascending k rows)
    (h' : Ascending k rows') (hperm : rows.Perm rows') : rows = rows' := by
  refine hperm.eq_of_pairwise ?_ h h'
  intro a b _ _ hab hba
  exact absurd hab (lt_asymm hba)

theorem insertionSort_filter {rows : List row} (h : (rows.map k).Nodup)
    (p : row -> Bool) :
    (rows.filter p).insertionSort (fun a b => k a ≤ k b) =
      (rows.insertionSort (fun a b => k a ≤ k b)).filter p := by
  have hfilter : ((rows.filter p).map k).Nodup :=
    h.sublist (List.filter_sublist.map k)
  refine (ascending_insertionSort hfilter).eq_of_perm
    ((ascending_insertionSort h).filter p) ?_
  exact (List.perm_insertionSort _ _).trans
    ((List.perm_insertionSort _ rows).filter p).symm

theorem Ascending.drop_count {rows : List row} (h : Ascending k rows)
    (c : key) :
    rows.drop (rows.countP (fun r => k r ≤ c)) =
      rows.filter (fun r => c < k r) := by
  induction rows with
  | nil => rfl
  | cons r rows ih =>
      rcases List.pairwise_cons.mp h with ⟨hlater, hrows⟩
      by_cases hr : k r ≤ c
      · rw [List.countP_cons, if_pos (decide_eq_true hr), List.drop_succ_cons,
          ih hrows, List.filter_cons_of_neg (by simpa using hr)]
      · have hnone : rows.countP (fun r => k r ≤ c) = 0 := by
          apply List.countP_eq_zero.mpr
          intro x hx hle
          exact hr (le_trans (le_of_lt (hlater x hx)) (of_decide_eq_true hle))
        have hall : rows.filter (fun r => c < k r) = rows := by
          apply List.filter_eq_self.mpr
          intro x hx
          exact decide_eq_true (lt_trans (not_le.mp hr) (hlater x hx))
        rw [List.countP_cons, if_neg (by simpa using hr), hnone, List.drop_zero,
          List.filter_cons_of_pos (by simpa using hr), hall]

theorem Ascending.take_count {rows : List row} (h : Ascending k rows)
    (c : key) :
    rows.take (rows.countP (fun r => k r ≤ c)) =
      rows.filter (fun r => k r ≤ c) := by
  induction rows with
  | nil => rfl
  | cons r rows ih =>
      rcases List.pairwise_cons.mp h with ⟨hlater, hrows⟩
      by_cases hr : k r ≤ c
      · rw [List.countP_cons, if_pos (decide_eq_true hr), List.take_succ_cons,
          ih hrows, List.filter_cons_of_pos (by simpa using hr)]
      · have hnone : forall x, x ∈ r :: rows -> ¬ k x ≤ c := by
          intro x hx hle
          rcases List.mem_cons.mp hx with heq | hx
          · exact hr (heq ▸ hle)
          · exact hr (le_trans (le_of_lt (hlater x hx)) hle)
        have hzero : (r :: rows).countP (fun r => k r ≤ c) = 0 :=
          List.countP_eq_zero.mpr (fun x hx hle => hnone x hx (of_decide_eq_true hle))
        have hnil : (r :: rows).filter (fun r => k r ≤ c) = [] :=
          List.filter_eq_nil_iff.mpr
            (fun x hx hle => hnone x hx (of_decide_eq_true hle))
        rw [hzero, hnil, List.take_zero]

theorem filter_upTo {e c : key} (hce : c ≤ e) (rows : List row) :
    (rows.filter (fun r => k r ≤ e)).filter (fun r => k r ≤ c) =
      rows.filter (fun r => k r ≤ c) := by
  rw [List.filter_filter]
  apply List.filter_congr
  intro r _
  have hiff : (k r ≤ c ∧ k r ≤ e) ↔ k r ≤ c :=
    and_iff_left_of_imp (fun hrc => le_trans hrc hce)
  rw [<- Bool.decide_and]
  exact decide_eq_decide.mpr hiff

theorem count_upTo {e c : key} (hce : c ≤ e) (rows : List row) :
    (rows.filter (fun r => k r ≤ e)).countP (fun r => k r ≤ c) =
      rows.countP (fun r => k r ≤ c) := by
  rw [List.countP_eq_length_filter, filter_upTo hce,
    List.countP_eq_length_filter]

theorem drop_upTo {rows : List row} (h : Ascending k rows) {e c : key}
    (hce : c ≤ e) :
    (rows.filter (fun r => k r ≤ e)).drop
        (rows.countP (fun r => k r ≤ c)) = remaining k e c rows := by
  rw [<- count_upTo hce, (h.filter _).drop_count c, List.filter_filter]
  unfold remaining
  congr 1
  funext r
  exact (Bool.decide_and _ _).symm

theorem upTo_append_remaining {rows : List row} (h : Ascending k rows)
    {e c : key} (hce : c ≤ e) :
    rows.filter (fun r => k r ≤ c) ++ remaining k e c rows =
      rows.filter (fun r => k r ≤ e) := by
  have htake : (rows.filter (fun r => k r ≤ e)).take
      (rows.countP (fun r => k r ≤ c)) = rows.filter (fun r => k r ≤ c) := by
    rw [<- count_upTo hce, (h.filter _).take_count c, filter_upTo hce]
  rw [<- htake, <- drop_upTo h hce, List.take_append_drop]

theorem remaining_advance {rows : List row} (h : Ascending k rows) {e c : key}
    {n : Nat} (hpage : (remaining k e c rows).take n ≠ []) :
    remaining k e (advance k e ((remaining k e c rows).take n)) rows =
      (remaining k e c rows).drop n := by
  have hsorted : Ascending k (remaining k e c rows) := h.filter _
  have hmem {r : row} : r ∈ remaining k e c rows ↔
      r ∈ rows ∧ c < k r ∧ k r ≤ e := by
    unfold remaining
    rw [List.mem_filter, decide_eq_true_iff]
  generalize hrest : remaining k e c rows = rest at hsorted hmem hpage ⊢
  rcases List.eq_nil_or_concat (rest.take n) with hnil | ⟨before, x, hx⟩
  · exact absurd hnil hpage
  have hadvance : advance k e (rest.take n) = k x := by
    unfold advance
    rw [hx, List.concat_eq_append, List.getLast?_concat]
    rfl
  have hsplit : rest = before ++ x :: rest.drop n := by
    have happend := List.take_append_drop n rest
    rw [hx, List.concat_eq_append, List.append_assoc] at happend
    exact happend.symm
  have hxrest : c < k x := by
    have hxmem : x ∈ rest := by
      rw [hsplit]
      exact List.mem_append_right before List.mem_cons_self
    exact (hmem.mp hxmem).right.left
  rw [hadvance]
  have hfilter : remaining k e (k x) rows = rest.filter (fun r => k x < k r) := by
    rw [<- hrest]
    unfold remaining
    rw [List.filter_filter]
    apply List.filter_congr
    intro r _
    rw [<- Bool.decide_and]
    apply decide_eq_decide.mpr
    constructor
    · intro hr
      exact ⟨hr.left, lt_trans hxrest hr.left, hr.right⟩
    · intro hr
      exact ⟨hr.left, hr.right.right⟩
  rw [hfilter]
  have hsorted' := hsorted
  unfold Ascending at hsorted'
  rw [hsplit, List.pairwise_append] at hsorted'
  rcases hsorted' with ⟨_, hafter, hbefore⟩
  have hbefore' : before.filter (fun r => k x < k r) = [] := by
    apply List.filter_eq_nil_iff.mpr
    intro r hr hlt
    exact lt_asymm (of_decide_eq_true hlt) (hbefore r hr x List.mem_cons_self)
  have hafter' : (rest.drop n).filter (fun r => k x < k r) = rest.drop n := by
    apply List.filter_eq_self.mpr
    intro r hr
    exact decide_eq_true ((List.pairwise_cons.mp hafter).left r hr)
  conv => lhs; rw [hsplit]
  rw [List.filter_append, hbefore', List.nil_append,
    List.filter_cons_of_neg (by simp), hafter']

theorem advance_le {rows : List row} {e c : key} {n : Nat} :
    advance k e ((remaining k e c rows).take n) ≤ e := by
  unfold advance
  cases hlast : ((remaining k e c rows).take n).getLast? with
  | none => exact le_rfl
  | some x =>
      have hx := List.mem_of_mem_take (List.mem_of_getLast? hlast)
      unfold remaining at hx
      rw [List.mem_filter, decide_eq_true_iff] at hx
      exact hx.right.right

theorem remaining_upTo {rows : List row} (h : Ascending k rows) {e c : key}
    {n : Nat} (hpage : (remaining k e c rows).take n ≠ []) :
    remaining k (advance k e ((remaining k e c rows).take n)) c rows =
      (remaining k e c rows).take n := by
  have hafter := remaining_advance h hpage
  have hsorted : Ascending k (remaining k e c rows) := h.filter _
  have hle : advance k e ((remaining k e c rows).take n) ≤ e := advance_le
  generalize hrest : remaining k e c rows = rest at hafter hsorted hpage hle ⊢
  have hlast : forall r, r ∈ rest.take n ->
      k r ≤ advance k e (rest.take n) := by
    intro r hr
    have hpairwise : Ascending k (rest.take n) :=
      List.Pairwise.sublist (List.take_sublist n rest) hsorted
    unfold advance
    rcases List.eq_nil_or_concat (rest.take n) with hnil | ⟨before, x, hx⟩
    · exact absurd hnil hpage
    · rw [List.concat_eq_append] at hx
      rw [hx, List.getLast?_concat]
      rw [hx] at hr hpairwise
      rcases List.mem_append.mp hr with hbefore | hrx
      · exact le_of_lt ((List.pairwise_append.mp hpairwise).right.right r
          hbefore x List.mem_cons_self)
      · rw [List.mem_singleton.mp hrx]
        exact le_rfl
  have hfilter : remaining k (advance k e (rest.take n)) c rows =
      rest.filter (fun r => k r ≤ advance k e (rest.take n)) := by
    rw [<- hrest]
    unfold remaining
    rw [List.filter_filter]
    apply List.filter_congr
    intro r _
    rw [<- Bool.decide_and]
    apply decide_eq_decide.mpr
    unfold remaining at hrest
    rw [hrest]
    constructor
    · intro hr
      exact ⟨hr.right, hr.left, le_trans hr.right hle⟩
    · intro hr
      exact ⟨hr.right.left, hr.left⟩
  have htake : (rest.take n).filter
      (fun r => k r ≤ advance k e (rest.take n)) = rest.take n := by
    apply List.filter_eq_self.mpr
    intro r hr
    exact decide_eq_true (hlast r hr)
  have hdrop : (rest.drop n).filter
      (fun r => k r ≤ advance k e (rest.take n)) = [] := by
    apply List.filter_eq_nil_iff.mpr
    intro r hr hle
    rw [<- hafter] at hr
    unfold remaining at hr
    rw [List.mem_filter, decide_eq_true_iff] at hr
    exact absurd (of_decide_eq_true hle) (not_le.mpr hr.right.left)
  rw [hfilter]
  conv => lhs; arg 2; rw [<- List.take_append_drop n rest]
  rw [List.filter_append, htake, hdrop, List.append_nil]

theorem Ascending.mem_take {rows : List row} (h : Ascending k rows) {r : row}
    (hr : r ∈ rows) {n : Nat} :
    r ∈ rows.take n ↔ rows.countP (fun x => k x < k r) < n := by
  rcases List.append_of_mem hr with ⟨before, after, hsplit⟩
  rw [hsplit] at h ⊢
  rcases List.pairwise_append.mp h with ⟨_, hafter, hbefore⟩
  have hlt : forall x, x ∈ before -> k x < k r :=
    fun x hx => hbefore x hx r List.mem_cons_self
  have hcount : (before ++ r :: after).countP (fun x => k x < k r) =
      before.length := by
    rw [List.countP_append, List.countP_cons, if_neg (by simp)]
    have hfirst : before.countP (fun x => k x < k r) = before.length :=
      List.countP_eq_length.mpr (fun x hx => decide_eq_true (hlt x hx))
    have hlast : after.countP (fun x => k x < k r) = 0 := by
      refine List.countP_eq_zero.mpr ?_
      intro x hx hxr
      exact lt_asymm (of_decide_eq_true hxr)
        ((List.pairwise_cons.mp hafter).left x hx)
    rw [hfirst, hlast, Nat.add_zero]
  rw [hcount, List.take_append]
  constructor
  · intro hmem
    rcases List.mem_append.mp hmem with hmem | hmem
    · exact absurd (hlt r (List.mem_of_mem_take hmem)) (lt_irrefl _)
    · by_contra hle
      rw [Nat.sub_eq_zero_of_le (Nat.le_of_not_lt hle), List.take_zero] at hmem
      exact List.not_mem_nil hmem
  · intro hn
    refine List.mem_append_right _ ?_
    rcases Nat.exists_eq_add_of_lt hn with ⟨d, hd⟩
    have hsub : n - before.length = d + 1 := by omega
    rw [hsub, List.take_succ_cons]
    exact List.mem_cons_self

theorem Ascending.take_subset {rows rows' : List row} (h : Ascending k rows)
    (h' : Ascending k rows') (hsubset : rows' ⊆ rows) {r : row} {n : Nat}
    (hr : r ∈ rows.take n) (hr' : r ∈ rows') : r ∈ rows'.take n := by
  have hcount := (h.mem_take (List.mem_of_mem_take hr)).mp hr
  refine (h'.mem_take hr').mpr (lt_of_le_of_lt ?_ hcount)
  rw [List.countP_eq_length_filter, List.countP_eq_length_filter]
  refine ((h'.filter _).nodup.subperm ?_).length_le
  intro x hx
  rcases List.mem_filter.mp hx with ⟨hmem, hlt⟩
  exact List.mem_filter.mpr ⟨hsubset hmem, hlt⟩

end Keyset

theorem take_drop_eq_drop_iff {row : Type} {rows : List row} {n m p : Nat}
    (hnm : n ≤ m) :
    (rows.drop m).take p = rows.drop n ↔
      rows.drop n = [] ∨ (n = m ∧ (rows.drop n).length ≤ p) := by
  constructor
  · intro h
    have hlength := congrArg List.length h
    rw [List.length_take, List.length_drop, List.length_drop] at hlength
    rcases Nat.eq_or_lt_of_le hnm with heq | hlt
    · right
      rw [<- heq] at hlength
      rw [List.length_drop]
      exact ⟨heq, min_eq_right_iff.mp hlength⟩
    · left
      rw [List.drop_eq_nil_iff]
      omega
  · intro h
    rcases h with hnil | ⟨rfl, hp⟩
    · have hlength := List.drop_eq_nil_iff.mp hnil
      rw [hnil, List.drop_eq_nil_of_le (le_trans hlength hnm), List.take_nil]
    · exact List.take_of_length_le hp

section Numbered

variable {row : Type} {k : row -> Nat} {rows : List row}

private theorem upTo_keys (h : Ascending k rows) (c : Nat) :
    ((rows.filter (fun r => k r ≤ c)).map k).toFinset ⊆ Finset.range (c + 1) ∧
      ((rows.filter (fun r => k r ≤ c)).map k).toFinset.card =
        rows.countP (fun r => k r ≤ c) := by
  have hnodup : ((rows.filter (fun r => k r ≤ c)).map k).Nodup :=
    List.pairwise_map.mpr ((h.filter _).imp ne_of_lt)
  constructor
  · intro i hi
    rcases List.mem_map.mp (List.mem_toFinset.mp hi) with ⟨r, hr, rfl⟩
    have hle := of_decide_eq_true (List.mem_filter.mp hr).right
    exact Finset.mem_range.mpr (Nat.lt_succ_of_le hle)
  · rw [List.toFinset_card_of_nodup hnodup, List.length_map,
      List.countP_eq_length_filter]

theorem Ascending.count_le (h : Ascending k rows) (c : Nat) :
    rows.countP (fun r => k r ≤ c) ≤ c + 1 := by
  have hcard := Finset.card_le_card (upTo_keys h c).left
  rw [(upTo_keys h c).right, Finset.card_range] at hcard
  exact hcard

theorem Ascending.count_eq_iff (h : Ascending k rows) (c : Nat) :
    rows.countP (fun r => k r ≤ c) = c + 1 ↔
      forall i, i ≤ c -> exists r, r ∈ rows ∧ k r = i := by
  rcases upTo_keys h c with ⟨hsubset, hcard⟩
  rw [<- hcard]
  constructor
  · intro heq i hi
    have hrange := Finset.eq_of_subset_of_card_le hsubset
      (by rw [heq, Finset.card_range])
    have hmem : i ∈ ((rows.filter (fun r => k r ≤ c)).map k).toFinset := by
      rw [hrange]
      exact Finset.mem_range.mpr (Nat.lt_succ_of_le hi)
    rcases List.mem_map.mp (List.mem_toFinset.mp hmem) with ⟨r, hr, hkey⟩
    exact ⟨r, List.mem_of_mem_filter hr, hkey⟩
  · intro hall
    have hrange : Finset.range (c + 1) ⊆
        ((rows.filter (fun r => k r ≤ c)).map k).toFinset := by
      intro i hi
      have hle := Nat.le_of_lt_succ (Finset.mem_range.mp hi)
      rcases hall i hle with ⟨r, hr, hkey⟩
      rw [<- hkey] at hle
      exact List.mem_toFinset.mpr (List.mem_map.mpr
        ⟨r, List.mem_filter.mpr ⟨hr, decide_eq_true hle⟩, hkey⟩)
    rw [Finset.Subset.antisymm hsubset hrange, Finset.card_range]

end Numbered

end Foundation
end MailClient
