import Mathlib.Data.List.Infix
import MailClient.Foundation.Separators

/-!
# What a replacement changes

A scan from the left replaces every occurrence that does not overlap with one it
has replaced before.  Only one occurrence may be meant.
-/

namespace MailClient
namespace Foundation

variable {s t : List Char}

theorem replaceFrom_eq (n : Nat) (l : List Char) :
    replaceFrom s t n l = replace s t (l.drop n) := by
  induction l generalizing n with
  | nil =>
      cases n with
      | zero => rfl
      | succ n => rfl
  | cons c rest ih =>
      cases n with
      | zero => rfl
      | succ n => exact ih n

theorem replace_append (hs : s ≠ []) (l : List Char) :
    replace s t (s ++ l) = t ++ replace s t l := by
  cases s with
  | nil => exact absurd rfl hs
  | cons c s =>
      have hprefix : (c :: s).isPrefixOf (c :: s ++ l) = true :=
        List.isPrefixOf_iff_prefix.mpr (List.prefix_append _ _)
      unfold replace
      rw [List.cons_append] at hprefix ⊢
      rw [replaceFrom, if_pos hprefix, replaceFrom_eq]
      congr 2
      simp

theorem replace_cons {c : Char} {l : List Char} (h : ¬ s <+: c :: l) :
    replace s t (c :: l) = c :: replace s t l :=
  if_neg (fun hprefix => h (List.isPrefixOf_iff_prefix.mp hprefix))

theorem replace_of_free {l : List Char} (h : ¬ s <:+: l) :
    replace s t l = l := by
  induction l with
  | nil => rfl
  | cons c l ih =>
      rw [replace_cons (fun hs => h hs.isInfix), ih]
      exact fun hs => h (hs.trans (List.suffix_cons c l).isInfix)

/-!
# Occurrences
-/

/-- No occurrence begins before the one that stands between the two lists. -/
def FirstBetween (s before after : List Char) : Prop :=
  forall b a, b ++ (s ++ a) = before ++ (s ++ after) ->
    before.length ≤ b.length

theorem firstBetween_of_not_mem {c : Char} {before : List Char}
    (h : c ∉ before) (after : List Char) :
    FirstBetween (c :: s) before after := by
  intro b a hab
  by_contra hlt
  have hchar := congrArg (fun l : List Char => l[b.length]?) hab
  rw [List.getElem?_append_right (Nat.le_refl _), Nat.sub_self,
    List.getElem?_append_left (Nat.lt_of_not_le hlt)] at hchar
  exact h (List.mem_of_getElem? hchar.symm)

theorem exists_first {l : List Char} (h : s <:+: l) :
    exists before after, l = before ++ (s ++ after) ∧
      FirstBetween s before after := by
  induction l with
  | nil =>
      have hnil := List.infix_nil.mp h
      subst hnil
      exact ⟨[], [], rfl, fun _ _ _ => Nat.zero_le _⟩
  | cons c l ih =>
      by_cases hprefix : s <+: c :: l
      · rcases hprefix with ⟨after, hafter⟩
        exact ⟨[], after, hafter.symm, fun _ _ _ => Nat.zero_le _⟩
      · rcases ih ((List.infix_cons_iff.mp h).resolve_left hprefix) with
          ⟨before, after, heq, hfirst⟩
        subst heq
        refine ⟨c :: before, after, rfl, ?_⟩
        intro b a hab
        cases b with
        | nil => exact absurd ⟨a, hab⟩ hprefix
        | cons d b =>
            exact Nat.succ_le_succ (hfirst b a (List.cons.inj hab).right)

theorem replace_first (hs : s ≠ []) {before after : List Char}
    (h : FirstBetween s before after) :
    replace s t (before ++ (s ++ after)) =
      before ++ (t ++ replace s t after) := by
  induction before with
  | nil => exact replace_append hs after
  | cons c before ih =>
      have hprefix : ¬ s <+: c :: (before ++ (s ++ after)) := by
        intro ⟨a, ha⟩
        exact absurd (h [] a ha) (Nat.not_succ_le_zero _)
      rw [List.cons_append, replace_cons hprefix, ih]
      · rfl
      · intro b a hab
        exact Nat.le_of_succ_le_succ (h (c :: b) a (congrArg (c :: ·) hab))

theorem induction_on_occurrences (hs : s ≠ []) {P : List Char -> Prop}
    (hfree : forall l, ¬ s <:+: l -> P l)
    (hfirst : forall before after, FirstBetween s before after -> P after ->
      P (before ++ (s ++ after))) (l : List Char) : P l := by
  induction hn : l.length using Nat.strong_induction_on generalizing l with
  | _ n ih =>
      by_cases hoccurs : s <:+: l
      · rcases exists_first hoccurs with ⟨before, after, rfl, h⟩
        refine hfirst before after h (ih after.length ?_ after rfl)
        have hpos := List.length_pos_iff.mpr hs
        simp only [List.length_append] at hn
        omega
      · exact hfree l hoccurs

theorem replace_self (hs : s ≠ []) (l : List Char) :
    replace s s l = l := by
  induction l using induction_on_occurrences hs with
  | hfree l h => exact replace_of_free h
  | hfirst before after h ih => rw [replace_first hs h, ih]

theorem length_replace (hs : s ≠ []) (l : List Char) :
    exists k, (s <:+: l -> 0 < k) ∧
      (replace s t l).length + k * s.length = l.length + k * t.length := by
  induction l using induction_on_occurrences hs with
  | hfree l h =>
      refine ⟨0, fun hoccurs => absurd hoccurs h, ?_⟩
      rw [replace_of_free h, Nat.zero_mul, Nat.zero_mul]
  | hfirst before after h ih =>
      rcases ih with ⟨k, _, hk⟩
      refine ⟨k + 1, fun _ => Nat.succ_pos k, ?_⟩
      rw [replace_first hs h]
      simp only [List.length_append, Nat.add_mul, Nat.one_mul]
      omega

theorem length_eq_of_replace (hs : s ≠ []) {l : List Char} (h : s <:+: l)
    (hlength : (replace s t l).length = l.length) :
    t.length = s.length := by
  rcases length_replace (t := t) hs l with ⟨k, hpos, hk⟩
  rw [hlength, Nat.add_left_cancel_iff] at hk
  exact (Nat.eq_of_mul_eq_mul_left (hpos h) hk).symm

theorem eq_of_shift {u q q' r r' : List Char} (hu : u ≠ [])
    (hlength : t.length = s.length) (hs : s ++ q = u ++ (s ++ r))
    (ht : t ++ q' = u ++ (t ++ r')) : t = s := by
  have hpos := List.length_pos_iff.mpr hu
  apply List.ext_getElem?
  intro i
  induction i using Nat.strong_induction_on with
  | _ i ih =>
      by_cases hi : i < s.length
      · have hleft : (t ++ q')[i]? = t[i]? :=
          List.getElem?_append_left (hlength ▸ hi)
        have hright : (s ++ q)[i]? = s[i]? := List.getElem?_append_left hi
        rw [<- hleft, <- hright, hs, ht]
        by_cases hui : i < u.length
        · rw [List.getElem?_append_left hui, List.getElem?_append_left hui]
        · have hle := Nat.not_lt.mp hui
          rw [List.getElem?_append_right hle, List.getElem?_append_right hle,
            List.getElem?_append_left (by omega),
            List.getElem?_append_left (by omega)]
          exact ih _ (by omega)
      · rw [List.getElem?_eq_none (by omega), List.getElem?_eq_none (by omega)]

theorem replace_eq_self (hs : s ≠ []) {l : List Char} (h : s <:+: l)
    (heq : replace s t l = l) : t = s := by
  have hlength := length_eq_of_replace hs h (congrArg List.length heq)
  rcases exists_first h with ⟨before, after, rfl, hfirst⟩
  rw [replace_first hs hfirst, List.append_cancel_left_eq] at heq
  exact (List.append_inj heq hlength).left

theorem exists_suffix {u y after : List Char}
    (h : u ++ (s ++ y) = s ++ after) :
    exists u', after = u' ++ y ∧ s ++ u' = u ++ s := by
  refine ⟨after.take u.length, ?_⟩
  have hlength := congrArg List.length h
  simp only [List.length_append] at hlength
  have hsplit := List.take_append_drop u.length after
  rw [<- hsplit, <- List.append_assoc, <- List.append_assoc] at h
  have hparts := List.append_inj' h (by rw [List.length_drop]; omega)
  refine ⟨?_, hparts.left.symm⟩
  rw [hparts.right, hsplit]

theorem replace_eq_self_iff (hs : s ≠ []) {l : List Char} :
    replace s t l = l ↔ ¬ s <:+: l ∨ t = s := by
  constructor
  · intro heq
    by_cases h : s <:+: l
    · exact Or.inr (replace_eq_self hs h heq)
    · exact Or.inl h
  · intro h
    rcases h with h | heq
    · exact replace_of_free h
    · rw [heq, replace_self hs]

/-- The first occurrence is the only one, and moving it over `u` changes nothing. -/
def OccursOnce (s t x y : List Char) : Prop :=
  exists p u u', x = p ++ u ∧ s ++ u' = u ++ s ∧ t ++ u' = u ++ t ∧
    FirstBetween s p (u' ++ y) ∧ ¬ s <:+: u' ++ y

theorem replace_between_iff (hs : s ≠ []) (x y : List Char) :
    replace s t (x ++ (s ++ y)) = x ++ (t ++ y) ↔
      t = s ∨ OccursOnce s t x y := by
  constructor
  · intro heq
    have hoccurs : s <:+: x ++ (s ++ y) := ⟨x, y, by rw [List.append_assoc]⟩
    rcases exists_first hoccurs with ⟨p, after, hbody, hfirst⟩
    have hpx : p <+: x :=
      List.prefix_of_prefix_length_le (hbody ▸ List.prefix_append p _)
        (List.prefix_append x _) (hfirst x y hbody)
    rcases hpx with ⟨u, rfl⟩
    rw [hbody, replace_first hs hfirst, List.append_assoc,
      List.append_cancel_left_eq] at heq
    rw [List.append_assoc, List.append_cancel_left_eq] at hbody
    -- What follows the first occurrence ends with `y`.
    rcases exists_suffix hbody with ⟨u', rfl, hsu⟩
    have hlength : (replace s t (u' ++ y)).length = (u' ++ y).length := by
      have h₁ := congrArg List.length heq
      have h₂ := congrArg List.length hsu
      simp only [List.length_append] at h₁ h₂ ⊢
      omega
    by_cases hagain : s <:+: u' ++ y
    · left
      by_cases hu : u = []
      · subst hu
        have hu' : u' = [] := by simpa using hsu
        subst hu'
        exact replace_eq_self hs hagain (List.append_cancel_left heq)
      · exact eq_of_shift hu (length_eq_of_replace hs hagain hlength)
          hbody.symm heq
    · right
      rw [replace_of_free hagain, <- List.append_assoc,
        <- List.append_assoc, List.append_cancel_right_eq] at heq
      exact ⟨p, u, u', rfl, hsu, heq, hfirst, hagain⟩
  · intro h
    rcases h with heq | ⟨p, u, u', rfl, hsu, htu, hfirst, hfree⟩
    · rw [heq, replace_self hs]
    · have hbody : p ++ u ++ (s ++ y) = p ++ (s ++ (u' ++ y)) := by
        rw [List.append_assoc, <- List.append_assoc u, <- hsu, List.append_assoc]
      rw [hbody, replace_first hs hfirst, replace_of_free hfree,
        <- List.append_assoc t, htu]
      simp

end Foundation
end MailClient
