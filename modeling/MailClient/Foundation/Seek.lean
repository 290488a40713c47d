import Mathlib.Order.Lattice
import Mathlib.Data.List.Basic

/-!
# Seeking the next match

A partial function on a linear order seeks a predicate if it never goes back,
never passes an element that matches, and rests only on a match.  Iterating it
finds the next match.  Functions that seek are closed under composition, which
seeks the conjunction, and under taking the least result, which seeks the
disjunction.
-/

namespace MailClient
namespace Foundation

variable {point : Type} [LinearOrder point]

/-- From `lo` on, `op` seeks the points that satisfy `p`. -/
structure Seeks (lo : point) (op : point -> Option point)
    (p : point -> Prop) : Prop where
  forward : forall c n, lo ≤ c -> op c = some n -> c ≤ n
  passes : forall c n d, lo ≤ c -> op c = some n -> c ≤ d -> d < n -> ¬ p d
  rests : forall c, lo ≤ c -> op c = some c -> p c

namespace Seeks

variable {lo : point} {f g : point -> Option point} {p q : point -> Prop}

theorem of_jumps
    (h : forall c n, lo ≤ c -> f c = some n ->
      (n = c ∧ p c) ∨ (c < n ∧ forall d, c ≤ d -> d < n -> ¬ p d)) :
    Seeks lo f p where
  forward := by
    intro c n hlo hrun
    cases h c n hlo hrun with
    | inl hrest => exact le_of_eq hrest.left.symm
    | inr hjump => exact le_of_lt hjump.left
  passes := by
    intro c n d hlo hrun hcd hdn
    cases h c n hlo hrun with
    | inl hrest =>
        rw [hrest.left] at hdn
        exact absurd hdn (not_lt.mpr hcd)
    | inr hjump => exact hjump.right d hcd hdn
  rests := by
    intro c hlo hrun
    cases h c c hlo hrun with
    | inl hrest => exact hrest.right
    | inr hjump => exact absurd hjump.left (lt_irrefl c)

theorem stays (h : Seeks lo f p) {c n : point} (hlo : lo ≤ c)
    (hrun : f c = some n) (hp : p c) : n = c := by
  by_contra hne
  have hlt : c < n := lt_of_le_of_ne (h.forward c n hlo hrun) (Ne.symm hne)
  exact h.passes c n c hlo hrun le_rfl hlt hp

theorem eq_iff (h : Seeks lo f p) {c n : point} (hlo : lo ≤ c)
    (hrun : f c = some n) : n = c ↔ p c := by
  constructor
  · intro heq
    rw [heq] at hrun
    exact h.rests c hlo hrun
  · exact h.stays hlo hrun

theorem le_of_match (h : Seeks lo f p) {c n d : point} (hlo : lo ≤ c)
    (hrun : f c = some n) (hd : c ≤ d) (hp : p d) : n ≤ d := by
  by_contra hlt
  exact h.passes c n d hlo hrun hd (not_le.mp hlt) hp

theorem congr (h : Seeks lo f p) (hpq : forall d, lo ≤ d -> (q d ↔ p d)) :
    Seeks lo f q where
  forward := h.forward
  passes := by
    intro c n d hlo hrun hcd hdn hq
    exact h.passes c n d hlo hrun hcd hdn ((hpq d (le_trans hlo hcd)).mp hq)
  rests := fun c hlo hrun => (hpq c hlo).mpr (h.rests c hlo hrun)

theorem rest (lo : point) : Seeks lo some (fun _ => True) where
  forward := by
    intro c n _ hrun
    cases hrun
    exact le_rfl
  passes := by
    intro c n d _ hrun hcd hdn _
    cases hrun
    exact absurd hdn (not_lt.mpr hcd)
  rests := fun _ _ _ => trivial

theorem andThen (hf : Seeks lo f p) (hg : Seeks lo g q) :
    Seeks lo (fun c => (f c).bind g) (fun d => p d ∧ q d) where
  forward := by
    intro c n hlo hrun
    rcases Option.bind_eq_some_iff.mp hrun with ⟨x, hx, hn⟩
    have hcx := hf.forward c x hlo hx
    exact le_trans hcx (hg.forward x n (le_trans hlo hcx) hn)
  passes := by
    intro c n d hlo hrun hcd hdn hpq
    rcases Option.bind_eq_some_iff.mp hrun with ⟨x, hx, hn⟩
    have hcx := hf.forward c x hlo hx
    have hxd := hf.le_of_match hlo hx hcd hpq.left
    exact hg.passes x n d (le_trans hlo hcx) hn hxd hdn hpq.right
  rests := by
    intro c hlo hrun
    rcases Option.bind_eq_some_iff.mp hrun with ⟨x, hx, hn⟩
    have hcx := hf.forward c x hlo hx
    have hxc := hg.forward x c (le_trans hlo hcx) hn
    cases le_antisymm hcx hxc
    exact ⟨hf.rests c hlo hx, hg.rests c hlo hn⟩

theorem least {choice : Type} {choices : List choice}
    {ops : choice -> point -> Option point} {ps : choice -> point -> Prop}
    (hops : forall i, i ∈ choices -> Seeks lo (ops i) (ps i))
    (hsome : forall c n, f c = some n ->
      exists i, i ∈ choices ∧ ops i c = some n)
    (hleast : forall c n, f c = some n -> forall i, i ∈ choices ->
      exists k, ops i c = some k ∧ n ≤ k) :
    Seeks lo f (fun d => exists i, i ∈ choices ∧ ps i d) where
  forward := by
    intro c n hlo hrun
    rcases hsome c n hrun with ⟨i, hi, hn⟩
    exact (hops i hi).forward c n hlo hn
  passes := by
    rintro c n d hlo hrun hcd hdn ⟨i, hi, hp⟩
    rcases hleast c n hrun i hi with ⟨k, hk, hnk⟩
    exact (hops i hi).passes c k d hlo hk hcd (lt_of_lt_of_le hdn hnk) hp
  rests := by
    intro c hlo hrun
    rcases hsome c c hrun with ⟨i, hi, hn⟩
    exact ⟨i, hi, (hops i hi).rests c hlo hn⟩

end Seeks

end Foundation
end MailClient
