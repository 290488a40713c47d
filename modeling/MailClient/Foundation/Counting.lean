import Mathlib.Algebra.BigOperators.Group.Finset.Basic
import Mathlib.Algebra.BigOperators.Group.Finset.Piecewise
import Mathlib.Algebra.Order.BigOperators.Group.List
import Mathlib.Algebra.Order.Ring.Nat
import Mathlib.Data.List.Nodup

/-!
# Counting what satisfies a predicate

A table is changed at one key at a time, and a count over the table moves by
what changes at that key.
-/

namespace MailClient
namespace Foundation

variable {α : Type} [DecidableEq α]

theorem card_filter_eq_erase {s : Finset α} {c : α} (hc : c ∈ s)
    (p : α -> Bool) :
    (s.filter (fun x => p x)).card =
      ((s.erase c).filter (fun x => p x)).card + (p c).toNat := by
  have hcount := Finset.add_sum_erase s (fun x => if p x then 1 else 0) hc
  rw [Finset.card_filter, Finset.card_filter, <- hcount, Nat.add_comm]
  cases p c with
  | false => rfl
  | true => rfl

/-- Two predicates that differ at one key count alike but for that key. -/
theorem card_filter_agree {s : Finset α} {c : α} (hc : c ∈ s)
    {p q : α -> Bool} (h : forall x, x ≠ c -> p x = q x) :
    (s.filter (fun x => q x)).card + (p c).toNat =
      (s.filter (fun x => p x)).card + (q c).toNat := by
  have hsame : (s.erase c).filter (fun x => p x) =
      (s.erase c).filter (fun x => q x) := by
    refine Finset.filter_congr ?_
    intro x hx
    rw [h x (Finset.ne_of_mem_erase hx)]
  rw [card_filter_eq_erase hc p, card_filter_eq_erase hc q, hsame]
  omega

omit [DecidableEq α] in
theorem card_filter_split {s : Finset α} {p q : α -> Bool}
    (h : forall x, x ∈ s -> q x = true -> p x = true) :
    (s.filter (fun x => p x)).card = (s.filter (fun x => q x)).card +
      (s.filter (fun x => p x && !q x)).card := by
  rw [<- Finset.card_filter_add_card_filter_not (fun x => q x = true)
    (s := s.filter (fun x => p x)), Finset.filter_filter, Finset.filter_filter]
  congr 2
  · refine Finset.filter_congr ?_
    intro x hx
    exact ⟨fun hpq => hpq.right, fun hq => ⟨h x hx hq, hq⟩⟩
  · refine Finset.filter_congr ?_
    intro x _
    simp

theorem card_filter_eq_countP {s : Finset α} {xs : List α}
    (hnodup : xs.Nodup) (hsub : forall x, x ∈ xs -> x ∈ s) {p q : α -> Bool}
    (h : forall x, x ∈ s -> (q x = true ↔ x ∈ xs ∧ p x = true)) :
    (s.filter (fun x => q x)).card = xs.countP p := by
  have hset : s.filter (fun x => q x) = (xs.filter p).toFinset := by
    ext x
    rw [Finset.mem_filter, List.mem_toFinset, List.mem_filter]
    constructor
    · intro hx
      exact (h x hx.left).mp hx.right
    · intro hx
      exact ⟨hsub x hx.left, (h x (hsub x hx.left)).mpr hx⟩
  rw [hset, List.toFinset_card_of_nodup (hnodup.filter _),
    List.countP_eq_length_filter]

omit [DecidableEq α] in
theorem countP_or_of_disjoint {xs : List α} {p q : α -> Bool}
    (h : forall x, x ∈ xs -> p x = true -> q x = false) :
    xs.countP (fun x => p x || q x) = xs.countP p + xs.countP q := by
  induction xs with
  | nil => rfl
  | cons x rest ih =>
      have hx := h x List.mem_cons_self
      have hrest := ih (fun y hy => h y (List.mem_cons_of_mem _ hy))
      rw [List.countP_cons, List.countP_cons, List.countP_cons, hrest]
      cases hp : p x with
      | false =>
          simp only [Bool.false_or]
          simp
          omega
      | true =>
          simp only [hx hp]
          simp
          omega

/-!
# Sums over lists
-/

omit [DecidableEq α] in
theorem sum_map_eq_iff {xs : List α} {f g : α -> Nat}
    (h : forall x, x ∈ xs -> f x ≤ g x) :
    (xs.map f).sum = (xs.map g).sum ↔ forall x, x ∈ xs -> f x = g x := by
  induction xs with
  | nil => simp
  | cons x rest ih =>
      have hx := h x List.mem_cons_self
      have hrest : forall y, y ∈ rest -> f y ≤ g y :=
        fun y hy => h y (List.mem_cons_of_mem _ hy)
      have hle := List.sum_le_sum hrest
      rw [List.forall_mem_cons, <- ih hrest, List.map_cons, List.map_cons,
        List.sum_cons, List.sum_cons]
      omega

theorem sum_countP_filter_le {β : Type} {keys : List α} (h : keys.Nodup)
    (key : β -> α) (p : β -> Bool) (xs : List β) :
    (keys.map (fun k => (xs.filter (fun x => key x = k)).countP p)).sum ≤
      xs.countP p := by
  induction keys generalizing xs with
  | nil => exact Nat.zero_le _
  | cons k rest ih =>
      rw [List.nodup_cons] at h
      rw [List.map_cons, List.sum_cons,
        List.countP_eq_countP_filter_add xs p (fun x => key x = k)]
      refine Nat.add_le_add_left ?_ _
      refine le_trans (le_of_eq ?_)
        (ih h.right (xs.filter (fun x => !decide (key x = k))))
      refine congrArg List.sum (List.map_congr_left ?_)
      intro k' hk'
      rw [List.filter_filter]
      refine congrArg (List.countP p) (List.filter_congr ?_)
      intro x _
      have hne : k' ≠ k := fun heq => h.left (heq ▸ hk')
      by_cases hx : key x = k'
      · simp [hx, hne]
      · simp [hx]

omit [DecidableEq α] in
theorem sum_map_le_countP {xs : List α} {f : α -> Nat} {p : α -> Bool}
    (h : forall x, x ∈ xs -> f x ≤ (p x).toNat) :
    (xs.map f).sum ≤ xs.countP p := by
  induction xs with
  | nil => exact Nat.zero_le _
  | cons x rest ih =>
      have hx := h x List.mem_cons_self
      have hrest := ih (fun y hy => h y (List.mem_cons_of_mem _ hy))
      rw [List.map_cons, List.sum_cons, List.countP_cons]
      cases hp : p x with
      | false =>
          rw [hp] at hx
          simp at hx ⊢
          omega
      | true =>
          rw [hp] at hx
          simp at hx ⊢
          omega

omit [DecidableEq α] in
theorem countP_le_of_subset {xs ys : List α} (h : xs.Nodup) {p : α -> Bool}
    (hsub : forall x, x ∈ xs -> p x = true -> x ∈ ys) :
    xs.countP p ≤ ys.countP p := by
  rw [List.countP_eq_length_filter, List.countP_eq_length_filter]
  refine ((h.filter p).subperm ?_).length_le
  intro x hx
  rcases List.mem_filter.mp hx with ⟨hmem, hp⟩
  exact List.mem_filter.mpr ⟨hsub x hmem hp, hp⟩

end Foundation
end MailClient
