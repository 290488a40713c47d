import MailClient.Recurrence.Iterator
import MailClient.Recurrence.Overshoot
import Mathlib.Logic.Relation

/-!
# The search for occurrences

The dates that `next_inner` finds, one call after the other, described by the
moves of the search: it jumps to a later instant, rests on an occurrence, or
ends the group of a repetition.  The picker never changes where the search
stands, it only decides which occurrences are returned and when.
-/

namespace MailClient
namespace Recurrence

open Foundation

namespace Cursor

/-!
# The dates that are found
-/

theorem search_grows : Grows search :=
  (grows_const pass).loop

theorem nextInner_grows : Grows nextInner := by
  intro fuel c r hrun
  unfold nextInner at hrun ⊢
  split at hrun
  · exact hrun
  · exact search_grows fuel _ r hrun

/-- Calling `next_inner` until it returns `None` gives these dates. -/
inductive Raws : Cursor -> List Int -> Prop where
  | stop {c c' : Cursor} (h : Returns nextInner c (none, c')) : Raws c []
  | more {c c' : Cursor} {d : Int} {ds : List Int}
      (h : Returns nextInner c (some d, c')) (hrest : Raws c' ds) :
      Raws c (d :: ds)

theorem Raws.unique {c : Cursor} {ds ds' : List Int} (h : Raws c ds)
    (h' : Raws c ds') : ds = ds' := by
  induction h generalizing ds' with
  | stop hstop =>
      cases h' with
      | stop _ => rfl
      | more hmore _ =>
          cases hstop.unique nextInner_grows hmore
  | more hmore _ ih =>
      cases h' with
      | stop hstop =>
          cases hstop.unique nextInner_grows hmore
      | more hmore' hrest' =>
          cases hmore.unique nextInner_grows hmore'
          rw [ih hrest']

/-- There is nothing to pull. -/
def Drained (c : Cursor) : Prop :=
  c.pull = (c, none)

theorem returns_of_drained {c : Cursor} (h : c.Drained)
    {r : Option Int × Cursor} :
    Returns nextInner c r ↔ Returns search c r := by
  unfold Returns nextInner
  rw [h]

theorem raws_of_search {c c' : Cursor} (hc : c.Drained) (hc' : c'.Drained)
    (hsearch : forall r, Returns search c' r -> Returns search c r)
    {ds : List Int} (h : Raws c' ds) : Raws c ds := by
  cases h with
  | stop hstop =>
      rw [returns_of_drained hc'] at hstop
      exact Raws.stop ((returns_of_drained hc).mpr (hsearch _ hstop))
  | more hmore hrest =>
      rw [returns_of_drained hc'] at hmore
      exact Raws.more ((returns_of_drained hc).mpr (hsearch _ hmore)) hrest

theorem pass_returns (c : Cursor) :
    Returns (fun _ c => some (pass c)) c c.pass :=
  returns_const pass c

theorem raws_again {c c' : Cursor} (hc : c.Drained) (hc' : c'.Drained)
    (hpass : c.pass = Flow.again c') {ds : List Int} (h : Raws c' ds) :
    Raws c ds := by
  refine raws_of_search hc hc' (fun r hr => ?_) h
  exact Returns.again (grows_const pass) (hpass ▸ pass_returns c) hr

theorem raws_same_pass {c c' : Cursor} (hc : c.Drained) (hc' : c'.Drained)
    (hpass : c.pass = c'.pass) {ds : List Int} (h : Raws c' ds) :
    Raws c ds := by
  refine raws_of_search hc hc' (fun r hr => ?_) h
  refine Returns.of_same_pass (grows_const pass) (fun flow hflow => ?_) hr
  cases (pass_returns c').unique (grows_const pass) hflow
  exact hpass ▸ pass_returns c

theorem raws_none {c c' : Cursor} (hc : c.Drained)
    (hpass : c.pass = Flow.done (none, c')) : Raws c [] := by
  have hsearch : Returns search c (none, c') :=
    Returns.done (hpass ▸ pass_returns c)
  exact Raws.stop ((returns_of_drained hc).mpr hsearch)

theorem raws_some {c c' : Cursor} {d : Int} (hc : c.Drained)
    (hpass : c.pass = Flow.done (some d, c')) {ds : List Int}
    (h : Raws c' ds) : Raws c (d :: ds) := by
  have hsearch : Returns search c (some d, c') :=
    Returns.done (hpass ▸ pass_returns c)
  exact Raws.more ((returns_of_drained hc).mpr hsearch) h

theorem drained_none {c : Cursor} (h : c.picker = none) : c.Drained := by
  unfold Drained pull
  rw [h]

theorem drained_opened {c : Cursor} {p : Picker Int} {len : Int}
    (h : c.picker = some p) (hp : p.state = PickerState.opened len) :
    c.Drained := by
  unfold Drained pull
  rw [h]
  dsimp only
  rw [Picker.pull_opened hp, <- h]

theorem raws_drains {c : Cursor} {p p' : Picker Int} {ys : List Int}
    (hdrains : Picker.Drains p ys p') {len : Int}
    (hopened : p'.state = PickerState.opened len) (hp : c.picker = some p)
    {ds : List Int} (h : Raws { c with picker := some p' } ds) :
    Raws c (ys ++ ds) := by
  induction hdrains generalizing c with
  | @done p p' hpull =>
      have hc' : Drained { c with picker := some p' } :=
        drained_opened rfl hopened
      have hsame : forall r, Returns nextInner { c with picker := some p' } r ->
          Returns nextInner c r := by
        intro r hr
        rw [returns_of_drained hc'] at hr
        rcases hr with ⟨fuel, hfuel⟩
        refine ⟨fuel, ?_⟩
        unfold nextInner pull
        rw [hp]
        dsimp only
        rw [hpull]
        exact hfuel
      cases h with
      | stop hstop => exact Raws.stop (hsame _ hstop)
      | more hmore hrest => exact Raws.more (hsame _ hmore) hrest
  | @more p p'' p' y ys hpull _ ih =>
      have hfound : Returns nextInner c
          (some y, { c with picker := some p'' }) := by
        refine ⟨0, ?_⟩
        unfold nextInner pull
        rw [hp]
        dsimp only
        rw [hpull]
      exact Raws.more hfound (ih hopened rfl h)

end Cursor

/-!
# The moves of the search
-/

/-- Where a search stands, and the repetition at which its group ends. -/
structure Position where
  curr : Int
  repeatAt : Option Int

namespace Cursor

/-- One move of the search; there is none if it fails. -/
def move (c : Cursor) (s : Position) : Option Position := do
  let next <- nextOccurOf c.fact s.curr
  if s.repeatAt.any (fun r => r ≤ next) then do
    let repeatAt <- nextInstanceOf c.start c.freq c.interval next
    some { s with repeatAt := some repeatAt }
  else if next < s.curr then
    none
  else if next = s.curr then do
    let curr <- addSeconds 1 s.curr
    some { s with curr := curr }
  else
    some { s with curr := next }

/-- The group goes on at `next`. -/
def WithinGroup (s : Position) (next : Int) : Prop :=
  forall r, s.repeatAt = some r -> next < r

theorem any_repeatAt {s : Position} {next : Int} :
    s.repeatAt.any (fun r => r ≤ next) = true ↔ ¬ WithinGroup s next := by
  unfold WithinGroup
  cases s.repeatAt with
  | none => simp
  | some r => simp

theorem move_cases {c : Cursor} {s s' : Position} (h : c.move s = some s') :
    exists next, nextOccurOf c.fact s.curr = some next ∧
      ((exists r r', s.repeatAt = some r ∧ r ≤ next ∧
          nextInstanceOf c.start c.freq c.interval next = some r' ∧
          s' = { s with repeatAt := some r' }) ∨
        (WithinGroup s next ∧ s.curr < next ∧ s' = { s with curr := next }) ∨
        (WithinGroup s next ∧ next = s.curr ∧
          addSeconds 1 s.curr = some s'.curr ∧
          s' = { s with curr := s'.curr })) := by
  rcases Option.bind_eq_some_iff.mp h with ⟨next, hnext, hmove⟩
  refine ⟨next, hnext, ?_⟩
  split at hmove
  · rename_i hends
    rcases Option.bind_eq_some_iff.mp hmove with ⟨r', hr', hs'⟩
    cases hs'
    cases hr : s.repeatAt with
    | none =>
        rw [hr] at hends
        cases hends
    | some r =>
        rw [hr] at hends
        exact Or.inl ⟨r, r', rfl, of_decide_eq_true hends, hr', rfl⟩
  · rename_i hwithin
    rw [any_repeatAt, not_not] at hwithin
    split at hmove
    · cases hmove
    · rename_i hforward
      split at hmove
      · rename_i hrests
        rcases Option.bind_eq_some_iff.mp hmove with ⟨curr, hcurr, hs'⟩
        cases hs'
        exact Or.inr (Or.inr ⟨hwithin, hrests, hcurr, rfl⟩)
      · rename_i hjumps
        cases hmove
        exact Or.inr (Or.inl ⟨hwithin, by omega, rfl⟩)

/-- The cursor of a search, with the occurrences of the group so far. -/
def standing (c : Cursor) (s : Position) (q : Option (Picker Int))
    (xs : List Int) : Cursor :=
  { c with
    picker := q.map (fun p => p.holding xs)
    repeatAt := s.repeatAt
    curr := s.curr }

@[simp] theorem standing_fact (c : Cursor) (s : Position)
    (q : Option (Picker Int)) (xs : List Int) :
    (c.standing s q xs).fact = c.fact :=
  rfl

@[simp] theorem standing_curr (c : Cursor) (s : Position)
    (q : Option (Picker Int)) (xs : List Int) :
    (c.standing s q xs).curr = s.curr :=
  rfl

theorem standing_drained (c : Cursor) (s : Position) (q : Option (Picker Int))
    (xs : List Int) : (c.standing s q xs).Drained := by
  cases q with
  | none => exact drained_none rfl
  | some p => exact drained_opened rfl rfl

/-- Groups end exactly if there is a picker. -/
def Matched (s : Position) (q : Option (Picker Int)) : Prop :=
  s.repeatAt.isSome = q.isSome

section Moves

variable {c : Cursor} {s : Position} {q : Option (Picker Int)} {xs : List Int}

theorem pass_within (q : Option (Picker Int)) (xs : List Int) {next : Int}
    (hnext : nextOccurOf c.fact s.curr = some next)
    (hwithin : WithinGroup s next) :
    (c.standing s q xs).pass = (c.standing s q xs).visit next := by
  have hend : (c.standing s q xs).endGroup next =
      some (c.standing s q xs, none) := by
    unfold endGroup
    split
    · rename_i p r _ hr
      rw [if_neg (not_le.mpr (hwithin r hr))]
    · rfl
  unfold pass
  rw [standing_fact, standing_curr, hnext]
  dsimp only
  rw [hend]

theorem pass_end (xs : List Int) {p : Picker Int} {r next : Int}
    (hq : q = some p) (hnext : nextOccurOf c.fact s.curr = some next)
    (hr : s.repeatAt = some r) (hle : r ≤ next) :
    (c.standing s q xs).pass =
      match nextInstanceOf c.start c.freq c.interval next with
      | none => Flow.done (none, c.standing s q xs)
      | some r' =>
          let pulled := (p.holding xs).close.pull
          let c' := { c.standing s q xs with
            picker := some pulled.1, repeatAt := some r' }
          match pulled.2 with
          | none => c'.visit next
          | some d => Flow.done (some d, c') := by
  have hend : (c.standing s q xs).endGroup next =
      (nextInstanceOf c.start c.freq c.interval next).bind (fun r' =>
        some ({ c.standing s q xs with
          picker := some (p.holding xs).close.pull.1, repeatAt := some r' },
          (p.holding xs).close.pull.2)) := by
    unfold endGroup standing
    rw [hq, hr]
    dsimp only [Option.map_some]
    rw [if_pos hle]
    rfl
  unfold pass
  rw [standing_fact, standing_curr, hnext]
  dsimp only
  rw [hend]
  cases nextInstanceOf c.start c.freq c.interval next with
  | none => rfl
  | some r' =>
      rw [Option.bind_some]
      cases (p.holding xs).close.pull.2 with
      | none => rfl
      | some d => rfl

theorem pass_fails (hnext : nextOccurOf c.fact s.curr = none) :
    (c.standing s q xs).pass = Flow.done (none, c.standing s q xs) := by
  unfold pass
  rw [standing_fact, standing_curr, hnext]

theorem Matched.picker {r : Int} (h : Matched s q) (hr : s.repeatAt = some r) :
    exists p, q = some p := by
  unfold Matched at h
  rw [hr] at h
  exact Option.isSome_iff_exists.mp h.symm

theorem raws_stuck (hmatched : Matched s q) (h : c.move s = none) :
    Raws (c.standing s q xs) [] := by
  have hdrained := standing_drained c s q xs
  cases hnext : nextOccurOf c.fact s.curr with
  | none => exact raws_none hdrained (pass_fails hnext)
  | some next =>
      unfold move at h
      rw [hnext] at h
      change (if _ then _ else _ : Option Position) = none at h
      split at h
      · rename_i hends
        cases hr : s.repeatAt with
        | none =>
            rw [hr] at hends
            cases hends
        | some r =>
            rw [hr] at hends
            rcases hmatched.picker hr with ⟨p, hq⟩
            have hpass := pass_end xs hq hnext hr
              (of_decide_eq_true hends)
            cases hinstance :
                nextInstanceOf c.start c.freq c.interval next with
            | some r' =>
                rw [hinstance] at h
                cases h
            | none =>
                rw [hinstance] at hpass
                exact raws_none hdrained hpass
      · rename_i hwithin
        rw [any_repeatAt, not_not] at hwithin
        have hpass := pass_within q xs hnext hwithin
        unfold visit at hpass
        rw [standing_curr] at hpass
        split at h
        · rename_i hback
          rw [if_pos hback] at hpass
          exact raws_none hdrained hpass
        · rename_i hforward
          rw [if_neg hforward] at hpass
          split at h
          · rename_i hrests
            rw [if_pos hrests] at hpass
            cases hadd : addSeconds 1 s.curr with
            | some curr =>
                rw [hadd] at h
                cases h
            | none =>
                rw [hadd] at hpass
                exact raws_none hdrained hpass
          · cases h

theorem raws_jumps {next : Int} (hnext : nextOccurOf c.fact s.curr = some next)
    (hwithin : WithinGroup s next) (hlt : s.curr < next) {ds : List Int}
    (h : Raws (c.standing { s with curr := next } q xs) ds) :
    Raws (c.standing s q xs) ds := by
  refine raws_again (standing_drained c s q xs)
    (standing_drained c { s with curr := next } q xs) ?_ h
  rw [pass_within q xs hnext hwithin]
  unfold visit
  rw [standing_curr, if_neg (not_lt.mpr (le_of_lt hlt)), if_neg (ne_of_gt hlt)]
  rfl

/-- The occurrence after `n` others of its group is returned at once. -/
def AtOnce : Option (Picker Int) -> Nat -> Prop
  | none, _ => True
  | some p, n => p.Returned n

instance (q : Option (Picker Int)) (n : Nat) : Decidable (AtOnce q n) :=
  match q with
  | none => inferInstanceAs (Decidable True)
  | some p => inferInstanceAs (Decidable (p.Returned n))

/-- Whether the picker needs the whole group. -/
def Keeps (q : Option (Picker Int)) : Prop :=
  exists p, q = some p ∧ p.backIdxs ≠ ∅

theorem Keeps.not_atOnce (h : Keeps q) (n : Nat) : ¬ AtOnce q n := by
  rcases h with ⟨p, rfl, hback⟩
  exact fun honce => hback honce.left

theorem raws_rests
    (hcapacity : forall p, q = some p -> p.backIdxs ≠ ∅ -> 1 ≤ p.backCap)
    (hnext : nextOccurOf c.fact s.curr = some s.curr)
    (hwithin : WithinGroup s s.curr) {curr : Int}
    (hadd : addSeconds 1 s.curr = some curr) {ds : List Int}
    (h : Raws (c.standing { s with curr := curr } q (xs ++ [s.curr])) ds) :
    Raws (c.standing s q xs)
      ((if AtOnce q xs.length then [s.curr] else []) ++ ds) := by
  have hdrained := standing_drained c s q xs
  have hpass := pass_within q xs hnext hwithin
  unfold visit at hpass
  rw [standing_curr, if_neg (lt_irrefl _), if_pos rfl, hadd] at hpass
  cases q with
  | none =>
      rw [if_pos (show AtOnce none xs.length from trivial)]
      exact raws_some hdrained hpass h
  | some p =>
      have hpush := Picker.push_holding (hcapacity p rfl) xs s.curr
      change _ = (match ((p.holding xs).push s.curr).2 with
        | none => Flow.again { c.standing s (some p) xs with
            curr := curr, picker := some ((p.holding xs).push s.curr).1 }
        | some found => Flow.done (some found, { c.standing s (some p) xs with
            curr := curr, picker := some ((p.holding xs).push s.curr).1 }))
        at hpass
      rw [hpush] at hpass
      by_cases hreturned : p.Returned xs.length
      · rw [if_pos hreturned] at hpass
        rw [if_pos (show AtOnce (some p) xs.length from hreturned)]
        exact raws_some hdrained hpass h
      · rw [if_neg hreturned] at hpass
        rw [if_neg (show ¬ AtOnce (some p) xs.length from hreturned)]
        exact raws_again hdrained
          (standing_drained c { s with curr := curr } (some p) _) hpass h

/-- What ending the group `xs` finds. -/
structure GroupFound (q : Option (Picker Int)) (xs ys : List Int) : Prop where
  ordered : ys.Pairwise (· < ·)
  members : forall y, y ∈ ys -> y ∈ xs ∧ Keeps q
  wanted : forall p x, q = some p -> (x ∈ ys ↔ (p.holding xs).close.Wanted x)

theorem raws_ends (hmatched : Matched s q) (hxs : xs.Pairwise (· < ·))
    {next r r' : Int} (hnext : nextOccurOf c.fact s.curr = some next)
    (hr : s.repeatAt = some r) (hle : r ≤ next)
    (hinstance : nextInstanceOf c.start c.freq c.interval next = some r')
    (hafter : next < r') :
    exists ys, GroupFound q xs ys ∧
      forall ds, Raws (c.standing { s with repeatAt := some r' } q []) ds ->
        Raws (c.standing s q xs) (ys ++ ds) := by
  rcases hmatched.picker hr with ⟨p, rfl⟩
  have hdrained := standing_drained c s (some p) xs
  have hpass := pass_end xs (rfl : some p = some p) hnext hr hle
  rw [hinstance] at hpass
  dsimp only at hpass
  rcases Picker.group_drains p hxs with ⟨ys, hdrains, hordered, hmem, hnone, hall⟩
  refine ⟨ys, ⟨hordered, ?_, ?_⟩, ?_⟩
  · intro y hy
    refine ⟨hmem y hy, p, rfl, fun hempty => ?_⟩
    rw [hnone hempty] at hy
    cases hy
  · intro p' x hp'
    cases hp'
    exact hall x
  · intro ds hds
    have hdrained' := standing_drained c { s with repeatAt := some r' } (some p) []
    have hreset : some (p.holding []) = some p.reset := by
      rw [Picker.holding_nil]
    -- The pass goes on where the next one, with the group ended, starts.
    have hpass' : (c.standing { s with repeatAt := some r' } (some p) []).pass =
        (c.standing { s with repeatAt := some r' } (some p) []).visit next := by
      refine pass_within (some p) [] (s := { s with repeatAt := some r' }) hnext ?_
      intro r'' hr''
      cases hr''
      exact hafter
    cases hdrains with
    | done hpull =>
        rw [hpull] at hpass
        refine raws_same_pass hdrained hdrained' ?_ hds
        rw [hpass, hpass']
        dsimp only [standing, Option.map_some]
        rw [Picker.holding_nil]
    | more hpull hrest =>
        rw [hpull] at hpass
        refine raws_some hdrained hpass (raws_drains hrest rfl rfl ?_)
        rw [standing, Option.map_some, hreset] at hds
        exact hds

end Moves

end Cursor

end Recurrence
end MailClient
