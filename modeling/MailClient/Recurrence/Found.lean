import MailClient.Recurrence.Walk

/-!
# What a search comes to

From an instant `next_occur_of` leads to the next one that the facts come to,
and from an occurrence, which they leave alone, the search goes on a second
later.  It comes to an occurrence if nothing before it makes `next_occur_of`
fail or leads past it.
-/

namespace MailClient
namespace Recurrence

open Foundation

/-!
# Repetitions
-/

/-- The first instant of the next period that repeats. -/
def nextRepeat (P : Partition) (origin interval n : Int) : Int :=
  P.first (P.index n + (interval - (P.index n - origin) % interval))

section Repeat

variable {P : Partition} {origin interval : Int} (hpos : 1 ≤ interval)

include hpos

theorem lt_nextRepeat (n : Int) : n < nextRepeat P origin interval n := by
  have hmod := Int.emod_lt_of_pos (P.index n - origin) (b := interval)
    (by omega)
  exact P.lt_first_iff.mpr (by omega)

theorem nextRepeat_le {n k : Int} (hlt : P.index n < k)
    (hk : (k - origin) % interval = 0) :
    nextRepeat P origin interval n ≤ P.first k := by
  have hmod := Int.emod_nonneg (P.index n - origin) (b := interval) (by omega)
  have hmod' := Int.emod_lt_of_pos (P.index n - origin) (b := interval)
    (by omega)
  apply P.first_strictMono.monotone
  by_contra hbefore
  have hsplit : k - origin = (P.index n - origin) + (k - P.index n) := by
    omega
  rw [hsplit, <- Int.emod_add_emod] at hk
  by_cases hzero : (P.index n - origin) % interval + (k - P.index n) < interval
  · rw [Int.emod_eq_of_lt (by omega) hzero] at hk
    omega
  · omega

theorem nextRepeat_within {x y : Int} (hle : x ≤ y)
    (hlt : y < nextRepeat P origin interval x) :
    nextRepeat P origin interval y = nextRepeat P origin interval x := by
  have hmod := Int.emod_nonneg (P.index x - origin) (b := interval) (by omega)
  have hindex := P.index_mono hle
  have hbefore := P.lt_first_iff.mp hlt
  have hsplit : P.index y - origin =
      (P.index x - origin) + (P.index y - P.index x) := by
    omega
  have hsame : (P.index y - origin) % interval =
      (P.index x - origin) % interval + (P.index y - P.index x) := by
    rw [hsplit, <- Int.emod_add_emod]
    exact Int.emod_eq_of_lt (by omega) (by omega)
  unfold nextRepeat
  rw [hsame]
  congr 1
  omega

end Repeat

/-!
# The way of a search
-/

namespace Cursor

/-- To the next instant that the facts come to, or past an occurrence. -/
inductive Goes (c : Cursor) (x : Int) : Int -> Prop where
  | jumps {n : Int} (h : nextOccurOf c.fact x = some n) (hlt : x < n) :
      Goes c x n
  | rests (h : nextOccurOf c.fact x = some x)
      (hadd : addSeconds 1 x = some (x + 1)) : Goes c x (x + 1)

theorem goes_unique (c : Cursor) : Relator.RightUnique (Goes c) := by
  intro x y z hy hz
  cases hy with
  | jumps h hlt =>
      cases hz with
      | jumps h' _ => exact Option.some.inj (h.symm.trans h')
      | rests h' _ =>
          cases h.symm.trans h'
          exact absurd hlt (lt_irrefl _)
  | rests h _ =>
      cases hz with
      | jumps h' hlt =>
          cases h.symm.trans h'
          exact absurd hlt (lt_irrefl _)
      | rests _ _ => rfl

section Way

variable {c : Cursor} {b x y n : Int}

theorem Goes.lt (h : Goes c x y) : x < y := by
  cases h with
  | jumps _ hlt => exact hlt
  | rests _ _ => exact Int.lt_succ x

theorem way_le (h : Relation.ReflTransGen (Goes c) x y) : x ≤ y := by
  induction h with
  | refl => exact le_rfl
  | tail _ hgoes ih => exact le_trans ih (le_of_lt hgoes.lt)

/-- Of two instants on the way the earlier one leads to the later one. -/
theorem way_of_lt (hx : Relation.ReflTransGen (Goes c) b x)
    (hy : Relation.ReflTransGen (Goes c) b y) (hlt : x < y) :
    exists z, Goes c x z ∧ z ≤ y := by
  rcases hx.total_of_right_unique (goes_unique c) hy with hway | hway
  · rcases Relation.ReflTransGen.cases_head hway with rfl | ⟨z, hz, hrest⟩
    · exact absurd hlt (lt_irrefl _)
    · exact ⟨z, hz, way_le hrest⟩
  · exact absurd hlt (not_lt.mpr (way_le hway))

/-- What is returned at an instant comes before any later one on the way. -/
theorem returned_le (hx : Relation.ReflTransGen (Goes c) b x)
    (hy : Relation.ReflTransGen (Goes c) b y) (hlt : x < y)
    (hn : nextOccurOf c.fact x = some n) : n ≤ y := by
  rcases way_of_lt hx hy hlt with ⟨z, hz, hle⟩
  cases hz with
  | jumps h _ =>
      cases h.symm.trans hn
      exact hle
  | rests h _ =>
      cases h.symm.trans hn
      exact le_of_lt hlt

end Way

/--
The search from `b` comes to the occurrence `d`: at no instant before `d` to
which `next_occur_of` leads does it fail, go back or pass `d`.
-/
structure Meets (c : Cursor) (b d : Int) : Prop where
  le : b ≤ d
  occur : nextOccurOf c.fact d = some d
  after : addSeconds 1 d = some (d + 1)
  onward : forall x, Relation.ReflTransGen (Goes c) b x -> x < d ->
    exists n, nextOccurOf c.fact x = some n ∧ x ≤ n ∧ n ≤ d

/-- The search from an instant rests on `d`. -/
inductive Leads (c : Cursor) (d : Int) : Int -> Prop where
  | rests (h : nextOccurOf c.fact d = some d)
      (hadd : addSeconds 1 d = some (d + 1)) : Leads c d d
  | goesOn {x : Int} (h : nextOccurOf c.fact x = some x)
      (hadd : addSeconds 1 x = some (x + 1)) (hrest : Leads c d (x + 1)) :
      Leads c d x
  | jumps {x n : Int} (h : nextOccurOf c.fact x = some n) (hlt : x < n)
      (hrest : Leads c d n) : Leads c d x

section Leading

variable {c : Cursor} {b d : Int}

theorem leads_iff : Leads c d b ↔ Relation.ReflTransGen (Goes c) b d ∧
    nextOccurOf c.fact d = some d ∧ addSeconds 1 d = some (d + 1) := by
  constructor
  · intro h
    induction h with
    | rests h hadd => exact ⟨Relation.ReflTransGen.refl, h, hadd⟩
    | goesOn h hadd _ ih =>
        exact ⟨ih.left.head (Goes.rests h hadd), ih.right⟩
    | jumps h hlt _ ih => exact ⟨ih.left.head (Goes.jumps h hlt), ih.right⟩
  · rintro ⟨hway, hoccur, hafter⟩
    induction hway using Relation.ReflTransGen.head_induction_on with
    | refl => exact Leads.rests hoccur hafter
    | head hgoes _ ih =>
        cases hgoes with
        | jumps h hlt => exact Leads.jumps h hlt ih
        | rests h hadd => exact Leads.goesOn h hadd ih

theorem Meets.way (hb : inRange b) (h : Meets c b d) {x : Int}
    (hx : Relation.ReflTransGen (Goes c) b x) (hle : x ≤ d) :
    Relation.ReflTransGen (Goes c) b d := by
  induction hn : (d - x).toNat using Nat.strong_induction_on generalizing x with
  | _ k ih =>
      rcases eq_or_lt_of_le hle with rfl | hlt
      · exact hx
      · rcases h.onward x hx hlt with ⟨n, hnext, hforward, hnd⟩
        rcases eq_or_lt_of_le hforward with rfl | hlater
        · have hafter := (addSeconds_eq_some h.after).left.right
          have hbx := way_le hx
          have hadd : addSeconds 1 x = some (x + 1) :=
            addSeconds_one_of_range ⟨le_trans hb.left (by omega), by omega⟩
          exact ih (d - (x + 1)).toNat (by omega)
            (hx.tail (Goes.rests hnext hadd)) hlt rfl
        · exact ih (d - n).toNat (by omega)
            (hx.tail (Goes.jumps hnext hlater)) hnd rfl

theorem meets_iff (hb : inRange b) : Meets c b d ↔ Leads c d b := by
  rw [leads_iff]
  constructor
  · intro h
    exact ⟨h.way hb Relation.ReflTransGen.refl h.le, h.occur, h.after⟩
  · rintro ⟨hway, hoccur, hafter⟩
    refine ⟨way_le hway, hoccur, hafter, ?_⟩
    intro x hx hlt
    rcases way_of_lt hx hway hlt with ⟨z, hz, hle⟩
    cases hz with
    | jumps h hlt' => exact ⟨z, h, le_of_lt hlt', hle⟩
    | rests h _ => exact ⟨x, h, le_rfl, le_of_lt hlt⟩

end Leading

/-!
# A search without groups
-/

/-- A place of a search without groups. -/
def ungrouped (x : Int) (xs : List Int) : Place :=
  ({ curr := x, repeatAt := none }, xs)

theorem within_ungrouped (x n : Int) :
    WithinGroup { curr := x, repeatAt := none } n :=
  fun _ hr => nomatch hr

theorem leads_of_found {c : Cursor} {d : Int} {a : Place}
    (h : Found c none a d) (hnone : a.1.repeatAt = none) : Leads c d a.1.curr := by
  rcases h with ⟨b, hway, hgives⟩
  induction hway using Relation.ReflTransGen.head_induction_on with
  | refl =>
      cases hgives with
      | selected _ hq _ => cases hq
      | atOnce h _ =>
          rcases h.curr_eq with ⟨rfl, _⟩
          exact Leads.rests h.occur h.after
  | head hstep _ ih =>
      cases hstep with
      | ends h =>
          rcases h.past with ⟨r, hr, _⟩
          cases hnone.symm.trans hr
      | jumps h => exact Leads.jumps h.occur h.later (ih hnone)
      | rests h =>
          rcases h.curr_eq with ⟨rfl, _⟩
          exact Leads.goesOn h.occur h.after (ih hnone)

theorem found_of_leads {c : Cursor} {d x : Int} (h : Leads c d x)
    (xs : List Int) : Found c none (ungrouped x xs) d := by
  induction h generalizing xs with
  | rests h hadd =>
      exact ⟨_, Relation.ReflTransGen.refl,
        Gives.atOnce ⟨h, within_ungrouped _ _, hadd⟩ trivial⟩
  | @goesOn x h hadd _ ih =>
      have hstep : Step c (ungrouped x xs) (ungrouped (x + 1) (xs ++ [x])) :=
        Step.rests ⟨h, within_ungrouped _ _, hadd⟩
      exact (found_of_step hstep).mpr (Or.inr (ih _))
  | @jumps x n h hlt _ ih =>
      have hstep : Step c (ungrouped x xs) (ungrouped n xs) :=
        Step.jumps ⟨h, within_ungrouped _ _, hlt⟩
      exact (found_of_step hstep).mpr (Or.inr (ih _))

/-!
# Searches that pass no occurrence
-/

/--
What the search relies on: from a `good` instant the fact passes no occurrence,
rests on occurrences only, and leads to a good instant again.
-/
structure Finder (c : Cursor) (good occurs : Int -> Prop) : Prop where
  forward : forall x n, good x -> nextOccurOf c.fact x = some n -> x ≤ n
  passes : forall x n d, good x -> nextOccurOf c.fact x = some n -> x ≤ d ->
    d < n -> ¬ occurs d
  rests : forall x, good x -> nextOccurOf c.fact x = some x -> occurs x
  lands : forall x n, good x -> nextOccurOf c.fact x = some n -> good n
  after : forall x, good x -> occurs x -> good (x + 1)

end Cursor

end Recurrence
end MailClient
