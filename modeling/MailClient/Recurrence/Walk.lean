import MailClient.Recurrence.Search

/-!
# The way of a search

Where a search comes to does not depend on its picker.  It goes from place to
place, where a place is a position with the occurrences of the group so far, and
gives dates at some of them: an occurrence that is returned at once, and what is
wanted of a group that ends.
-/

namespace MailClient
namespace Recurrence

open Foundation

namespace Cursor

abbrev Place :=
  Position × List Int

/-- The group ends before `next`, and the one of `next` ends at `r`. -/
structure EndsGroup (c : Cursor) (s : Position) (next r : Int) : Prop where
  occur : nextOccurOf c.fact s.curr = some next
  past : exists r, s.repeatAt = some r ∧ r ≤ next
  repeats : nextInstanceOf c.start c.freq c.interval next = some r

structure Jumps (c : Cursor) (s : Position) (next : Int) : Prop where
  occur : nextOccurOf c.fact s.curr = some next
  within : WithinGroup s next
  later : s.curr < next

structure Rests (c : Cursor) (s : Position) (curr : Int) : Prop where
  occur : nextOccurOf c.fact s.curr = some s.curr
  within : WithinGroup s s.curr
  after : addSeconds 1 s.curr = some curr

inductive Step (c : Cursor) : Place -> Place -> Prop where
  | ends {s : Position} {xs : List Int} {next r : Int}
      (h : EndsGroup c s next r) :
      Step c (s, xs) ({ s with repeatAt := some r }, [])
  | jumps {s : Position} {xs : List Int} {next : Int} (h : Jumps c s next) :
      Step c (s, xs) ({ s with curr := next }, xs)
  | rests {s : Position} {xs : List Int} {curr : Int} (h : Rests c s curr) :
      Step c (s, xs) ({ s with curr := curr }, xs ++ [s.curr])

/-- The dates that the search gives at a place. -/
inductive Gives (c : Cursor) (q : Option (Picker Int)) : Place -> Int -> Prop
    where
  | selected {s : Position} {xs : List Int} {next r : Int} {p : Picker Int}
      {d : Int} (h : EndsGroup c s next r) (hq : q = some p)
      (hd : (p.holding xs).close.Wanted d) : Gives c q (s, xs) d
  | atOnce {s : Position} {xs : List Int} {curr : Int} (h : Rests c s curr)
      (honce : AtOnce q xs.length) : Gives c q (s, xs) s.curr

/-- The date is given at some place on the way. -/
def Found (c : Cursor) (q : Option (Picker Int)) (a : Place) (d : Int) : Prop :=
  exists b, Relation.ReflTransGen (Step c) a b ∧ Gives c q b d

section Steps

variable {c : Cursor} {s : Position} {xs : List Int}

theorem EndsGroup.not_within {next r : Int} (h : EndsGroup c s next r) :
    ¬ WithinGroup s next := by
  rcases h.past with ⟨r', hr', hle⟩
  exact fun hwithin => absurd (hwithin r' hr') (not_lt.mpr hle)

theorem EndsGroup.unique {next next' r r' : Int} (h : EndsGroup c s next r)
    (h' : EndsGroup c s next' r') : next = next' ∧ r = r' := by
  cases h.occur.symm.trans h'.occur
  cases h.repeats.symm.trans h'.repeats
  exact ⟨rfl, rfl⟩

theorem EndsGroup.not_jumps {next next' r : Int} (h : EndsGroup c s next r)
    (h' : Jumps c s next') : False := by
  cases h.occur.symm.trans h'.occur
  exact h.not_within h'.within

theorem EndsGroup.not_rests {next r curr : Int} (h : EndsGroup c s next r)
    (h' : Rests c s curr) : False := by
  cases h.occur.symm.trans h'.occur
  exact h.not_within h'.within

theorem Jumps.not_rests {next curr : Int} (h : Jumps c s next)
    (h' : Rests c s curr) : False := by
  cases h.occur.symm.trans h'.occur
  exact lt_irrefl _ h.later

theorem Step.unique {a b b' : Place} (h : Step c a b) (h' : Step c a b') :
    b = b' := by
  cases h with
  | ends h =>
      cases h' with
      | ends h' => rw [(h.unique h').right]
      | jumps h' => exact (h.not_jumps h').elim
      | rests h' => exact (h.not_rests h').elim
  | jumps h =>
      cases h' with
      | ends h' => exact (h'.not_jumps h).elim
      | jumps h' =>
          cases h.occur.symm.trans h'.occur
          rfl
      | rests h' => exact (h.not_rests h').elim
  | rests h =>
      cases h' with
      | ends h' => exact (h'.not_rests h).elim
      | jumps h' => exact (h'.not_rests h).elim
      | rests h' =>
          cases h.after.symm.trans h'.after
          rfl

theorem move_of_step {a b : Place} (h : Step c a b) :
    c.move a.1 = some b.1 := by
  cases h with
  | @ends s _ next r h =>
      rcases h.past with ⟨r', hr', hle⟩
      unfold move
      rw [h.occur]
      dsimp only [Option.bind_eq_bind, Option.bind_some]
      rw [hr', Option.any_some, if_pos (decide_eq_true hle), h.repeats]
      rfl
  | @jumps s _ next h =>
      unfold move
      rw [h.occur]
      dsimp only [Option.bind_eq_bind, Option.bind_some]
      rw [if_neg (fun hends => any_repeatAt.mp hends h.within),
        if_neg (not_lt.mpr (le_of_lt h.later)), if_neg (ne_of_gt h.later)]
  | @rests s _ curr h =>
      unfold move
      rw [h.occur]
      dsimp only [Option.bind_eq_bind, Option.bind_some]
      rw [if_neg (fun hends => any_repeatAt.mp hends h.within),
        if_neg (lt_irrefl _), if_pos rfl, h.after]
      rfl

theorem step_of_move {s' : Position} (h : c.move s = some s') :
    (exists next r, EndsGroup c s next r ∧ s' = { s with repeatAt := some r }) ∨
      (exists next, Jumps c s next ∧ s' = { s with curr := next }) ∨
      (exists curr, Rests c s curr ∧ s' = { s with curr := curr }) := by
  rcases move_cases h with ⟨next, hnext, hcases⟩
  rcases hcases with ⟨r, r', hr, hle, hinstance, hs'⟩ | ⟨hwithin, hlt, hs'⟩ |
    ⟨hwithin, rfl, hadd, hs'⟩
  · exact Or.inl ⟨next, r', ⟨hnext, ⟨r, hr, hle⟩, hinstance⟩, hs'⟩
  · exact Or.inr (Or.inl ⟨next, ⟨hnext, hwithin, hlt⟩, hs'⟩)
  · exact Or.inr (Or.inr ⟨s'.curr, ⟨hnext, hwithin, hadd⟩, hs'⟩)

theorem Gives.step {q : Option (Picker Int)} {a : Place} {d : Int}
    (h : Gives c q a d) : exists b, Step c a b := by
  cases h with
  | selected h _ _ => exact ⟨_, Step.ends h⟩
  | atOnce h _ => exact ⟨_, Step.rests h⟩

theorem found_of_step {q : Option (Picker Int)} {a b : Place} {d : Int}
    (h : Step c a b) : Found c q a d ↔ Gives c q a d ∨ Found c q b d := by
  constructor
  · rintro ⟨e, hway, hgives⟩
    rcases Relation.ReflTransGen.cases_head hway with rfl | ⟨b', hstep, hrest⟩
    · exact Or.inl hgives
    · rw [h.unique hstep]
      exact Or.inr ⟨e, hrest, hgives⟩
  · rintro (hgives | ⟨e, hway, hgives⟩)
    · exact ⟨a, Relation.ReflTransGen.refl, hgives⟩
    · exact ⟨e, Relation.ReflTransGen.head h hway, hgives⟩

theorem not_found_of_stuck {q : Option (Picker Int)} (h : c.move s = none)
    (xs : List Int) (d : Int) : ¬ Found c q (s, xs) d := by
  have hstuck : forall b, ¬ Step c (s, xs) b := by
    intro b hstep
    cases h.symm.trans (move_of_step hstep)
  rintro ⟨e, hway, hgives⟩
  rcases Relation.ReflTransGen.cases_head hway with rfl | ⟨b, hstep, _⟩
  · rcases hgives.step with ⟨b, hstep⟩
    exact hstuck b hstep
  · exact hstuck b hstep

theorem gives_ends {q : Option (Picker Int)} {next r d : Int}
    (h : EndsGroup c s next r) :
    Gives c q (s, xs) d ↔
      exists p, q = some p ∧ (p.holding xs).close.Wanted d := by
  constructor
  · intro hgives
    cases hgives with
    | selected _ hq hd => exact ⟨_, hq, hd⟩
    | atOnce h' _ => exact (h.not_rests h').elim
  · rintro ⟨p, hq, hd⟩
    exact Gives.selected h hq hd

theorem gives_rests {q : Option (Picker Int)} {curr d : Int}
    (h : Rests c s curr) :
    Gives c q (s, xs) d ↔ d = s.curr ∧ AtOnce q xs.length := by
  constructor
  · intro hgives
    cases hgives with
    | selected h' _ _ => exact (h'.not_rests h).elim
    | atOnce _ honce => exact ⟨rfl, honce⟩
  · rintro ⟨rfl, honce⟩
    exact Gives.atOnce h honce

theorem not_gives_jumps {q : Option (Picker Int)} {next d : Int}
    (h : Jumps c s next) : ¬ Gives c q (s, xs) d := by
  intro hgives
  cases hgives with
  | selected h' _ _ => exact h'.not_jumps h
  | atOnce h' _ => exact h.not_rests h'

end Steps

/-!
# What a search gives on its way
-/

/-- A bound on the moves that are left. -/
def room (s : Position) : Nat :=
  (maxTimestamp - s.curr).toNat +
    (s.repeatAt.elim 0 (fun r => (maxTimestamp - r).toNat))

theorem addSeconds_one {x n : Int} (h : addSeconds 1 x = some n) :
    n = x + 1 ∧ n ≤ maxTimestamp :=
  ⟨(addSeconds_eq_some h).right, (addSeconds_eq_some h).left.right⟩

theorem addSeconds_one_of_range {x : Int} (h : inRange (x + 1)) :
    addSeconds 1 x = some (x + 1) := by
  unfold addSeconds
  exact checked_eq_some.mpr ⟨h, rfl⟩

theorem Rests.curr_eq {c : Cursor} {s : Position} {curr : Int}
    (h : Rests c s curr) : curr = s.curr + 1 ∧ curr ≤ maxTimestamp :=
  addSeconds_one h.after

/-- Positions from which every move leaves less room. -/
structure Steady (c : Cursor) (inv : Position -> Prop) : Prop where
  bounded : forall s, inv s -> s.curr ≤ maxTimestamp
  keeps : forall s s', inv s -> c.move s = some s' ->
    inv s' ∧ room s' < room s
  after : forall s next r, inv s -> EndsGroup c s next r -> next < r

/-- The occurrences of the group, all behind the search. -/
structure Gathered (s : Position) (xs : List Int) : Prop where
  ordered : xs.Pairwise (· < ·)
  before : forall x, x ∈ xs -> x < s.curr

theorem Gathered.nil (s : Position) : Gathered s [] :=
  ⟨List.Pairwise.nil, List.forall_mem_nil _⟩

theorem Gathered.later {s s' : Position} {xs : List Int} (h : Gathered s xs)
    (hle : s.curr ≤ s'.curr) : Gathered s' xs :=
  ⟨h.ordered, fun x hx => lt_of_lt_of_le (h.before x hx) hle⟩

theorem Gathered.concat {s : Position} {xs : List Int} (h : Gathered s xs) :
    Gathered { s with curr := s.curr + 1 } (xs ++ [s.curr]) where
  ordered := by
    refine List.pairwise_append.mpr ⟨h.ordered, List.pairwise_singleton _ _, ?_⟩
    intro x hx y hy
    rw [List.mem_singleton.mp hy]
    exact h.before x hx
  before := by
    intro x hx
    rcases List.mem_append.mp hx with hx | hx
    · exact lt_trans (h.before x hx) (Int.lt_succ _)
    · rw [List.mem_singleton.mp hx]
      exact Int.lt_succ _

theorem Matched.ends {s : Position} {q : Option (Picker Int)}
    (h : Matched s q) {c : Cursor} {next r : Int} (hends : EndsGroup c s next r) :
    Matched { s with repeatAt := some r } q := by
  rcases hends.past with ⟨r', hr', _⟩
  unfold Matched at h ⊢
  rw [hr'] at h
  exact h

section Walk

variable {c : Cursor} {inv : Position -> Prop} (hsteady : Steady c inv)
  {q : Option (Picker Int)}
  (hcapacity : forall p, q = some p -> p.backIdxs ≠ ∅ -> 1 ≤ p.backCap)

include hsteady hcapacity

/--
The dates of a run are those that are found on the way, in order.  They come
from the group so far or lie ahead.
-/
theorem raws_walk {s : Position} (hs : inv s) (hmatched : Matched s q)
    {xs : List Int} (hxs : Gathered s xs) :
    exists ds, Raws (c.standing s q xs) ds ∧ ds.Pairwise (· < ·) ∧
      (forall d, d ∈ ds ↔ Found c q (s, xs) d) ∧
      forall d, d ∈ ds -> d ≤ maxTimestamp ∧
        (d ∈ xs ∧ Keeps q ∨ s.curr ≤ d) := by
  induction hn : room s using Nat.strong_induction_on generalizing s xs with
  | _ n ih =>
      have hbounded := hsteady.bounded s hs
      cases hmove : c.move s with
      | none =>
          refine ⟨[], raws_stuck hmatched hmove, List.Pairwise.nil, ?_, ?_⟩
          · exact fun d => iff_of_false List.not_mem_nil
              (not_found_of_stuck hmove xs d)
          · exact fun d hd => nomatch hd
      | some s' =>
          rcases hsteady.keeps s s' hs hmove with ⟨hs', hroom⟩
          rcases step_of_move hmove with ⟨next, r, hends, rfl⟩ |
            ⟨next, hjumps, rfl⟩ | ⟨curr, hrests, rfl⟩
          · rcases hends.past with ⟨r', hr', hle⟩
            rcases raws_ends hmatched hxs.ordered hends.occur hr' hle
              hends.repeats (hsteady.after s next r hs hends) with
              ⟨ys, hys, hraws⟩
            rcases ih _ (hn ▸ hroom) hs' (hmatched.ends hends) (Gathered.nil _)
              rfl with ⟨ds, hds, hordered, hfound, hmem⟩
            have hlater : forall d, d ∈ ds ->
                d ≤ maxTimestamp ∧ s.curr ≤ d := by
              intro d hd
              rcases hmem d hd with ⟨hmax, ⟨hnil, _⟩ | hle⟩
              · cases hnil
              · exact ⟨hmax, hle⟩
            refine ⟨ys ++ ds, hraws ds hds, ?_, ?_, ?_⟩
            · refine List.pairwise_append.mpr ⟨hys.ordered, hordered, ?_⟩
              intro y hy d hd
              exact lt_of_lt_of_le (hxs.before y (hys.members y hy).left)
                (hlater d hd).right
            · intro d
              rw [List.mem_append, found_of_step (Step.ends hends), hfound,
                gives_ends hends]
              refine or_congr ?_ Iff.rfl
              rcases hmatched.picker hr' with ⟨p, rfl⟩
              rw [hys.wanted p d rfl]
              constructor
              · exact fun hd => ⟨p, rfl, hd⟩
              · rintro ⟨p', hp', hd⟩
                cases hp'
                exact hd
            · intro d hd
              rcases List.mem_append.mp hd with hd | hd
              · have hd' := hys.members d hd
                have hlt := hxs.before d hd'.left
                exact ⟨by omega, Or.inl hd'⟩
              · exact ⟨(hlater d hd).left, Or.inr (hlater d hd).right⟩
          · have hlt := hjumps.later
            rcases ih _ (hn ▸ hroom) hs' hmatched (hxs.later (le_of_lt hlt))
              rfl with ⟨ds, hds, hordered, hfound, hmem⟩
            refine ⟨ds, raws_jumps hjumps.occur hjumps.within hlt hds, hordered,
              ?_, ?_⟩
            · intro d
              rw [found_of_step (Step.jumps hjumps), hfound]
              exact (or_iff_right (not_gives_jumps hjumps)).symm
            · intro d hd
              rcases hmem d hd with ⟨hmax, hold | hle⟩
              · exact ⟨hmax, Or.inl hold⟩
              · exact ⟨hmax, Or.inr (le_trans (le_of_lt hlt) hle)⟩
          · rcases hrests.curr_eq with ⟨rfl, _⟩
            rcases ih _ (hn ▸ hroom) hs' hmatched hxs.concat rfl with
              ⟨ds, hds, hordered, hfound, hmem⟩
            refine ⟨_, raws_rests hcapacity hrests.occur hrests.within
              hrests.after hds, ?_, ?_, ?_⟩
            · split
              · rename_i honce
                refine List.pairwise_cons.mpr ⟨?_, hordered⟩
                intro d hd
                rcases (hmem d hd).right with ⟨_, hkeeps⟩ | hle
                · exact absurd honce (hkeeps.not_atOnce _)
                · exact hle
              · exact hordered
            · intro d
              rw [List.mem_append, found_of_step (Step.rests hrests), hfound,
                gives_rests hrests]
              refine or_congr ?_ Iff.rfl
              split
              · rename_i honce
                rw [List.mem_singleton, and_iff_left honce]
              · rename_i hnot
                exact iff_of_false List.not_mem_nil (fun h => hnot h.right)
            · intro d hd
              rcases List.mem_append.mp hd with hd | hd
              · split at hd
                · cases List.mem_singleton.mp hd
                  exact ⟨hbounded, Or.inr le_rfl⟩
                · cases hd
              · rcases hmem d hd with ⟨hmax, ⟨hold, hkeeps⟩ | hle⟩
                · rcases List.mem_append.mp hold with hold | hnew
                  · exact ⟨hmax, Or.inl ⟨hold, hkeeps⟩⟩
                  · exact ⟨hmax, Or.inr
                      (le_of_eq (List.mem_singleton.mp hnew).symm)⟩
                · exact ⟨hmax, Or.inr
                    (le_trans (le_of_lt (Int.lt_succ _)) hle)⟩

end Walk

end Cursor

end Recurrence
end MailClient
