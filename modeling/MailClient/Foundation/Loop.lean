import Mathlib.Order.Basic

/-!
# Loops with a bound on their passes

A loop that need not end is run with fuel and has no result if the fuel runs
out.  Its body may use the fuel that is left, for a loop within the loop.  More
fuel never changes a result, so a computation returns a result if it does with
some fuel.
-/

namespace MailClient
namespace Foundation

variable {state result arg arg' : Type}

/-- A pass through the body of a loop goes on or leaves the loop. -/
inductive Flow (state result : Type) where
  | again (s : state)
  | done (r : result)

def loop (body : Nat -> state -> Option (Flow state result)) :
    Nat -> state -> Option result
  | 0, _ => none
  | fuel + 1, s =>
      match body fuel s with
      | none => none
      | some (Flow.again s') => loop body fuel s'
      | some (Flow.done r) => some r

/-- One more unit of fuel keeps every result. -/
def Grows (f : Nat -> arg -> Option result) : Prop :=
  forall fuel a r, f fuel a = some r -> f (fuel + 1) a = some r

theorem Grows.mono {f : Nat -> arg -> Option result} (hf : Grows f)
    {n m : Nat} (h : n ≤ m) {a : arg} {r : result} (hrun : f n a = some r) :
    f m a = some r := by
  induction h with
  | refl => exact hrun
  | step _ ih => exact hf _ a r ih

theorem loop_eq_some {body : Nat -> state -> Option (Flow state result)}
    {fuel : Nat} {s : state} {r : result} :
    loop body (fuel + 1) s = some r ↔
      body fuel s = some (Flow.done r) ∨
        exists s', body fuel s = some (Flow.again s') ∧
          loop body fuel s' = some r := by
  cases hpass : body fuel s with
  | none => simp [loop, hpass]
  | some flow =>
      cases flow with
      | again s' => simp [loop, hpass]
      | done r' => simp [loop, hpass]

theorem Grows.loop {body : Nat -> state -> Option (Flow state result)}
    (hbody : Grows body) : Grows (Foundation.loop body) := by
  intro fuel
  induction fuel with
  | zero =>
      intro s r hrun
      cases hrun
  | succ fuel ih =>
      intro s r hrun
      rw [loop_eq_some] at hrun ⊢
      rcases hrun with hdone | ⟨s', hagain, hrest⟩
      · exact Or.inl (hbody fuel s _ hdone)
      · exact Or.inr ⟨s', hbody fuel s _ hagain, ih s' r hrest⟩

theorem Grows.map {f : Nat -> arg -> Option arg'} (hf : Grows f)
    (g : arg' -> result) : Grows (fun fuel a => (f fuel a).map g) := by
  intro fuel a r hrun
  rcases Option.map_eq_some_iff.mp hrun with ⟨x, hx, rfl⟩
  exact Option.map_eq_some_iff.mpr ⟨x, hf fuel a x hx, rfl⟩

theorem grows_const (g : arg -> result) :
    Grows (fun _ a => some (g a)) :=
  fun _ _ _ hrun => hrun

/-- Some fuel is enough to return `r`. -/
def Returns (f : Nat -> arg -> Option result) (a : arg) (r : result) : Prop :=
  exists fuel, f fuel a = some r

theorem Returns.unique {f : Nat -> arg -> Option result} (hf : Grows f)
    {a : arg} {r r' : result} (h : Returns f a r) (h' : Returns f a r') :
    r = r' := by
  rcases h with ⟨n, hn⟩
  rcases h' with ⟨m, hm⟩
  have hsame := (hf.mono (Nat.le_max_left n m) hn).symm.trans
    (hf.mono (Nat.le_max_right n m) hm)
  exact Option.some.inj hsame

theorem Returns.map {f : Nat -> arg -> Option arg'} {a : arg} {x : arg'}
    (h : Returns f a x) (g : arg' -> result) :
    Returns (fun fuel a => (f fuel a).map g) a (g x) := by
  rcases h with ⟨n, hn⟩
  exact ⟨n, Option.map_eq_some_iff.mpr ⟨x, hn, rfl⟩⟩

theorem returns_const (g : arg -> result) (a : arg) :
    Returns (fun _ a => some (g a)) a (g a) :=
  ⟨0, rfl⟩

theorem Returns.done {body : Nat -> state -> Option (Flow state result)}
    {s : state} {r : result} (h : Returns body s (Flow.done r)) :
    Returns (loop body) s r := by
  rcases h with ⟨n, hn⟩
  refine ⟨n + 1, ?_⟩
  rw [loop_eq_some]
  exact Or.inl hn

theorem Returns.again {body : Nat -> state -> Option (Flow state result)}
    (hbody : Grows body) {s s' : state} {r : result}
    (h : Returns body s (Flow.again s')) (hrest : Returns (loop body) s' r) :
    Returns (loop body) s r := by
  rcases h with ⟨n, hn⟩
  rcases hrest with ⟨m, hm⟩
  refine ⟨max n m + 1, ?_⟩
  rw [loop_eq_some]
  refine Or.inr ⟨s', ?_, ?_⟩
  · exact hbody.mono (Nat.le_max_left n m) hn
  · exact (hbody.loop).mono (Nat.le_max_right n m) hm

theorem Returns.of_same_pass
    {body : Nat -> state -> Option (Flow state result)} (hbody : Grows body)
    {s s' : state} (hpass : forall flow, Returns body s' flow ->
      Returns body s flow) {r : result} (h : Returns (loop body) s' r) :
    Returns (loop body) s r := by
  rcases h with ⟨n, hn⟩
  cases n with
  | zero => cases hn
  | succ n =>
      rw [loop_eq_some] at hn
      rcases hn with hdone | ⟨t, hagain, hrest⟩
      · exact Returns.done (hpass _ ⟨n, hdone⟩)
      · exact Returns.again hbody (hpass _ ⟨n, hagain⟩) ⟨n, hrest⟩

theorem Returns.keeps {body : Nat -> state -> Option (Flow state result)}
    (inv : state -> Prop) (post : result -> Prop)
    (hagain : forall fuel s s', inv s ->
      body fuel s = some (Flow.again s') -> inv s')
    (hdone : forall fuel s r, inv s ->
      body fuel s = some (Flow.done r) -> post r)
    {s : state} {r : result} (h : Returns (loop body) s r) (hs : inv s) :
    post r := by
  rcases h with ⟨n, hn⟩
  induction n generalizing s with
  | zero => cases hn
  | succ n ih =>
      rw [loop_eq_some] at hn
      rcases hn with hlast | ⟨t, hpass, hrest⟩
      · exact hdone n s r hs hlast
      · exact ih (hagain n s t hs hpass) hrest

end Foundation
end MailClient
