import Mathlib.Data.List.Destutter

/-!
# Removing duplicates

Of a run of elements that are the same under some comparison only the first is
kept.  The comparison need not be equality.  Of the elements of a list, only the
first occurrences are kept by `eraseDups`.
-/

namespace MailClient
namespace Foundation

section Dedup

variable {α : Type} {same : α -> α -> Bool}

def dedupBy (same : α -> α -> Bool) (xs : List α) : List α :=
  xs.destutter (fun a b => ¬ same a b = true)

theorem dedupBy_sublist (xs : List α) : (dedupBy same xs).Sublist xs :=
  List.destutter_sublist _ xs

/-- The element stands directly after an element that is the same. -/
def FollowsSame (same : α -> α -> Bool) (xs : List α) (x : α) : Prop :=
  exists before y after, xs = before ++ y :: x :: after ∧ same y x = true

theorem mem_destutter_of_not_followsSame
    (heuclid : forall a b c, same a b = true -> same a c = true ->
      same b c = true)
    {last previous : α} (hlast : last = previous ∨ same last previous = true)
    {xs : List α} {x : α} (hx : x ∈ xs)
    (hfirst : ¬ FollowsSame same (previous :: xs) x) :
    x ∈ xs.destutter' (fun a b => ¬ same a b = true) last := by
  induction xs generalizing last previous with
  | nil => cases hx
  | cons y rest ih =>
      have hrest : ¬ FollowsSame same (y :: rest) x := by
        rintro ⟨before, z, after, heq, hsame⟩
        exact hfirst ⟨previous :: before, z, after, by rw [heq]; rfl, hsame⟩
      rw [List.destutter'_cons]
      split
      · rename_i hkept
        rcases List.mem_cons.mp hx with rfl | hx
        · exact List.mem_cons_of_mem _ (List.mem_destutter' rest _ x)
        · exact List.mem_cons_of_mem _ (ih (Or.inl rfl) hx hrest)
      · rename_i hdropped
        have hdrop := not_not.mp hdropped
        have hprevious : same previous y = true := by
          rcases hlast with rfl | hlast
          · exact hdrop
          · exact heuclid _ _ _ hlast hdrop
        rcases List.mem_cons.mp hx with rfl | hx
        · exact absurd ⟨[], previous, rest, rfl, hprevious⟩ hfirst
        · exact ih (Or.inr hdrop) hx hrest

theorem mem_dedupBy (heuclid : forall a b c, same a b = true ->
      same a c = true -> same b c = true) {xs : List α} {x : α} (hx : x ∈ xs)
    (hfirst : ¬ FollowsSame same xs x) : x ∈ dedupBy same xs := by
  unfold dedupBy
  cases xs with
  | nil => cases hx
  | cons y rest =>
      rw [List.destutter_cons']
      rcases List.mem_cons.mp hx with rfl | hx
      · exact List.mem_destutter' rest _ x
      · exact mem_destutter_of_not_followsSame heuclid (Or.inl rfl) hx hfirst

theorem filter_destutter {p : α -> Bool}
    (hp : forall a b, same a b = true -> p a = p b) {last : α} {xs : List α}
    (hone : ((last :: xs).filter p).length ≤ 1) :
    (xs.destutter' (fun a b => ¬ same a b = true) last).filter p =
      (last :: xs).filter p := by
  induction xs generalizing last with
  | nil => rfl
  | cons x rest ih =>
      rw [List.destutter'_cons]
      split
      · have hrest : ((x :: rest).filter p).length ≤ 1 := by
          refine Nat.le_trans ?_ hone
          exact ((List.sublist_cons_self last (x :: rest)).filter p).length_le
        rw [List.filter_cons, ih hrest, <- List.filter_cons]
      · rename_i hdropped
        have heq := hp last x (not_not.mp hdropped)
        cases hx : p x with
        | true =>
            rw [hx] at heq
            simp [heq, hx] at hone
        | false =>
            rw [hx] at heq
            rw [ih (by simpa [heq, hx] using hone)]
            simp [heq, hx]

theorem filter_dedupBy {p : α -> Bool}
    (hp : forall a b, same a b = true -> p a = p b) {xs : List α}
    (hone : (xs.filter p).length ≤ 1) :
    (dedupBy same xs).filter p = xs.filter p := by
  unfold dedupBy
  cases xs with
  | nil => rfl
  | cons x rest =>
      rw [List.destutter_cons']
      exact filter_destutter hp hone

end Dedup

section FirstOccurrences

variable {α β : Type} [BEq α] [LawfulBEq α]

theorem eraseDups_map [BEq β] [LawfulBEq β] {f : α -> β} (xs : List α)
    (hf : forall x, x ∈ xs -> forall y, y ∈ xs -> f x = f y -> x = y) :
    (xs.map f).eraseDups = xs.eraseDups.map f := by
  induction hlength : xs.length using Nat.strong_induction_on generalizing xs with
  | _ n ih =>
    cases xs with
    | nil => rfl
    | cons x rest =>
        have hfilter : (rest.map f).filter (fun b => !b == f x) =
            (rest.filter (fun a => !a == x)).map f := by
          rw [List.filter_map]
          congr 1
          apply List.filter_congr
          intro a ha
          have hiff : f a = f x ↔ a = x :=
            ⟨hf a (List.mem_cons_of_mem x ha) x List.mem_cons_self,
              congrArg f⟩
          have hbeq : (f a == f x) = (a == x) := by
            rw [Bool.eq_iff_iff, beq_iff_eq, beq_iff_eq]
            exact hiff
          rw [Function.comp_apply, hbeq]
        have hless : (rest.filter (fun a => !a == x)).length < n := by
          rw [<- hlength, List.length_cons]
          exact Nat.lt_succ_of_le (List.length_filter_le _ rest)
        have hrest : forall a, a ∈ rest.filter (fun a => !a == x) ->
            a ∈ x :: rest := by
          intro a ha
          exact List.mem_cons_of_mem x (List.mem_of_mem_filter ha)
        rw [List.map_cons, List.eraseDups_cons, List.eraseDups_cons,
          List.map_cons, hfilter]
        rw [ih _ hless _ (fun a ha b hb => hf a (hrest a ha) b (hrest b hb)) rfl]

end FirstOccurrences

end Foundation
end MailClient
