import MailClient.Foundation.Transition
import MailClient.Recurrence.Dates
import MailClient.Recurrence.Fresh
import Mathlib.Data.Int.Interval
import Mathlib.Data.Set.Card

/-!
# New iterators

What `new` makes of a rule, where the search for its dates begins, and which of
the dates that are found `next` accepts.
-/

namespace MailClient
namespace Recurrence

open Foundation

/-!
# Which dates are accepted
-/

namespace RecurIterator

theorem accepted_sublist (start : Int) (since untilAt : Option Int)
    (ds : List Int) : (accepted start since untilAt ds).Sublist ds := by
  induction ds with
  | nil => exact List.Sublist.refl []
  | cons d ds ih =>
      unfold accepted
      split
      · exact ih.cons d
      · split
        · exact List.nil_sublist _
        · exact ih.cons_cons d

/-- The instants from the start to the end of a rule. -/
structure Within (start : Int) (untilAt : Option Int) (d : Int) : Prop where
  start_le : start ≤ d
  le_until : forall u, untilAt = some u -> d ≤ u

theorem accepted_within {start : Int} {since untilAt : Option Int}
    {ds : List Int} {d : Int} (hd : d ∈ accepted start since untilAt ds) :
    Within start untilAt d := by
  induction ds with
  | nil => cases hd
  | cons x ds ih =>
      unfold accepted at hd
      split at hd
      · exact ih hd
      · rename_i hskips
        split at hd
        · cases hd
        · rename_i huntil
          rcases List.mem_cons.mp hd with rfl | hd
          · constructor
            · simp at hskips
              exact hskips.left
            · rintro u rfl
              simpa using huntil
          · exact ih hd

/-!
# A new iterator
-/

theorem firstOf_lands {freq : Freq} (hfreq : freq.repeatsDays = true)
    {t n : Int} (h : freq.firstOf t = some n) : FullHour n := by
  cases freq with
  | secondly => cases hfreq
  | minutely => cases hfreq
  | hourly => cases hfreq
  | daily => exact startOfDay_lands h
  | weekly =>
      unfold Freq.firstOf at h
      dsimp only at h
      split at h
      · exact startOfDay_lands h
      · exact bind_startOfDay h
  | monthly => exact bind_startOfDay h
  | yearly => exact bind_startOfDay h

/-- What `new` makes of a rule. -/
structure Made (recur : Recur) (it : RecurIterator) : Prop where
  interval_pos : 1 ≤ recur.intervalOrOne
  byWeekNo : recur.byWeekNo = []
  fact : fromRecur recur it.start = Except.ok it.fact
  inRange : Recurrence.inRange it.start
  freq : it.freq = recur.freq
  interval : it.interval = recur.intervalOrOne
  picker : it.picker = Picker.new recur.positions
  plain : recur.bySetPos = [] -> it.repeatAt = none ∧ it.curr = it.start
  grouped : recur.bySetPos ≠ [] ->
    it.repeatAt = some ((nextInstanceOf it.start recur.freq
      recur.intervalOrOne it.start).getD it.start) ∧
    recur.freq.firstOf it.start = some it.curr
  next : it.next = none
  since : it.since = none
  count : it.count = recur.count
  emitted : it.emitted = 0

theorem mapFailure_ok {result : Type} {e : RecurIteratorError}
    {x : Except Failure result} {r : result}
    (h : mapFailure e x = Except.ok r) : x = Except.ok r := by
  cases x with
  | ok r' =>
      cases h
      rfl
  | error failure =>
      cases failure with
      | jiffError => cases h
      | panicked => cases h

theorem liftJiff_ok {result : Type} {x : Option result} {r : result}
    (h : liftJiff x = Except.ok r) : x = some r := by
  cases x with
  | none => cases h
  | some r' =>
      cases h
      rfl

theorem toZoned_inRange {d : DateOrDt UtcOrLocalForm} {t : Int}
    (h : d.toZoned = Except.ok t) : inRange t := by
  cases d with
  | date d =>
      rcases checked_eq_some.mp (liftJiff_ok h) with ⟨hrange, rfl⟩
      exact hrange
  | dateTime d time form =>
      unfold DateOrDt.toZoned at h
      dsimp only at h
      split at h
      · rcases checked_eq_some.mp (liftJiff_ok h) with ⟨hrange, rfl⟩
        exact hrange
      · cases h

variable {recur : Recur} {it : RecurIterator}

theorem intervalOrOne_pos (h : ¬ recur.interval = some 0) :
    1 ≤ recur.intervalOrOne := by
  unfold Recur.intervalOrOne
  cases hinterval : recur.interval with
  | none => exact le_rfl
  | some n =>
      have hn : n ≠ 0 := by
        rintro rfl
        exact h hinterval
      rw [Option.getD_some]
      omega

theorem new_made {dtstart : DateOrDt UtcOrLocalForm}
    (h : new recur dtstart = Except.ok it) :
    Made recur it := by
  unfold new at h
  split at h
  · cases h
  · rename_i hinterval
    rcases bind_eq_ok h with ⟨start, hstart, h⟩
    rcases bind_eq_ok h with ⟨fact, hfact, h⟩
    rcases bind_eq_ok h with ⟨curr, hcurr, h⟩
    rcases bind_eq_ok h with ⟨untilAt, _, h⟩
    cases h
    have hfact' := mapFailure_ok hfact
    exact
      { interval_pos := intervalOrOne_pos hinterval
        byWeekNo := byWeekNo_of_fromRecur hfact'
        fact := hfact'
        inRange := toZoned_inRange (mapFailure_ok hstart)
        freq := rfl
        interval := rfl
        picker := rfl
        plain := by
          intro hnil
          rw [if_pos hnil] at hcurr ⊢
          cases hcurr
          exact ⟨rfl, rfl⟩
        grouped := by
          intro hne
          rw [if_neg hne] at hcurr ⊢
          exact ⟨rfl, liftJiff_ok (mapFailure_ok hcurr)⟩
        next := rfl
        since := rfl
        count := rfl
        emitted := rfl }

/-!
# The begin of the search
-/

/-- Where the search for the dates of a rule begins at an instant. -/
def beginAt (recur : Recur) (start instant : Int) : Position :=
  if recur.bySetPos = [] then
    { curr := instant
      repeatAt := none }
  else
    { curr := (recur.freq.firstOf instant).getD instant
      repeatAt := some ((nextInstanceOf start recur.freq recur.intervalOrOne
        instant).getD instant) }

theorem positions_bounds {i : Int} (hi : i ∈ recur.positions) :
    i ≠ 0 ∧ -2 ^ 15 ≤ i ∧ i < 2 ^ 15 := by
  rcases List.mem_map.mp hi with ⟨s, _, rfl⟩
  have hbounds := s.value.property
  unfold Signed.toInt Bounded.asNum
  split
  · omega
  · omega

theorem picker_none_iff (h : Made recur it) :
    it.picker = none ↔ recur.bySetPos = [] := by
  rw [h.picker, Picker.new_none_iff (fun i hi => (positions_bounds hi).left)]
  exact List.map_eq_nil_iff

theorem picker_sound (h : Made recur it) (p : Picker Int)
    (hp : it.picker = some p) : p.Sound := by
  rw [h.picker] at hp
  exact Picker.new_sound hp (fun i hi => positions_bounds hi)

theorem picker_holding (h : Made recur it) :
    it.picker.map (fun p => p.holding []) = it.picker := by
  cases hp : it.picker with
  | none => rfl
  | some p =>
      rw [h.picker] at hp
      rw [Option.map_some, Picker.holding_nil, (Picker.new_eq_some hp).left]

theorem beginAt_plain (h : recur.bySetPos = []) (start instant : Int) :
    beginAt recur start instant = { curr := instant, repeatAt := none } :=
  if_pos h

theorem beginAt_grouped (h : ¬ recur.bySetPos = []) (start instant : Int) :
    beginAt recur start instant =
      { curr := (recur.freq.firstOf instant).getD instant
        repeatAt := some ((nextInstanceOf start recur.freq recur.intervalOrOne
          instant).getD instant) } :=
  if_neg h

theorem beginAt_curr_le (recur : Recur) (start instant : Int) :
    (beginAt recur start instant).curr ≤ instant := by
  unfold beginAt
  split
  · exact le_rfl
  · dsimp only
    cases hfirst : recur.freq.firstOf instant with
    | none => exact le_rfl
    | some first => exact firstOf_le hfirst

theorem beginAt_repeatAt (hinterval : 1 ≤ recur.intervalOrOne)
    (hsmall : recur.freq.repeatsDays = true ∨ recur.intervalOrOne < 2 ^ 32)
    {start first r : Int} (hfirst : recur.freq.firstOf start = some first)
    (hr : (beginAt recur start start).repeatAt = some r) : first ≤ r := by
  have hle := firstOf_le hfirst
  by_cases hnil : recur.bySetPos = []
  · rw [beginAt_plain hnil] at hr
    cases hr
  · rw [beginAt_grouped hnil] at hr
    cases hr
    cases hnext : nextInstanceOf start recur.freq recur.intervalOrOne
      start with
    | none => exact hle
    | some r =>
        have hlt := nextInstanceOf_after hinterval hsmall hfirst hle hnext
        exact le_trans hle (le_of_lt hlt)

theorem standing_start (h : Made recur it) :
    it.toCursor.standing (beginAt recur it.start it.start) it.picker [] =
      it.toCursor := by
  unfold Cursor.standing
  rw [picker_holding h]
  by_cases hnil : recur.bySetPos = []
  · have hplain := h.plain hnil
    rw [beginAt_plain hnil, <- hplain.left]
    exact congrArg (fun curr => { it.toCursor with curr := curr })
      hplain.right.symm
  · have hgrouped := h.grouped hnil
    rw [beginAt_grouped hnil, <- hgrouped.left, hgrouped.right,
      Option.getD_some]

theorem beginAt_matched (h : Made recur it) (instant : Int) :
    Cursor.Matched (beginAt recur it.start instant) it.picker := by
  unfold Cursor.Matched
  by_cases hnil : recur.bySetPos = []
  · rw [beginAt_plain hnil, (picker_none_iff h).mpr hnil]
    rfl
  · rcases Option.ne_none_iff_exists'.mp
      (fun hnone => hnil ((picker_none_iff h).mp hnone)) with ⟨p, hp⟩
    rw [beginAt_grouped hnil, hp]
    rfl

/-!
# Every search ends
-/

/-- No group ends before the first period. -/
structure FromFirst (recur : Recur) (start : Int) (s : Position) : Prop where
  bounded : s.curr ≤ maxTimestamp
  repeatAt : forall first r, recur.freq.firstOf start = some first ->
    s.repeatAt = some r -> first ≤ r

section Steady

variable {recur : Recur} {it : RecurIterator} (hmade : Made recur it)
  (hsmall : recur.freq.repeatsDays = true ∨ recur.intervalOrOne < 2 ^ 32)

include hmade hsmall

theorem endsGroup_after {s : Position} (hs : FromFirst recur it.start s)
    {next r : Int} (hends : Cursor.EndsGroup it.toCursor s next r) :
    next < r ∧ r ≤ maxTimestamp := by
  have hrepeats := hends.repeats
  rw [hmade.freq, hmade.interval] at hrepeats
  rcases Option.bind_eq_some_iff.mp hrepeats with ⟨fact, hfact, hrun⟩
  rcases Option.bind_eq_some_iff.mp hfact with ⟨first, hfirst, hfact⟩
  cases hfact
  rcases hends.past with ⟨r', hr', hle⟩
  refine ⟨nextInstanceOf_after hmade.interval_pos hsmall hfirst
    (le_trans (hs.repeatAt first r' hfirst hr') hle) hrepeats, ?_⟩
  rcases instanceFrom_inRange hrun with ⟨hfalse, _⟩ | hrange
  · cases hfalse
  · exact hrange.right

theorem made_steady :
    Cursor.Steady it.toCursor (FromFirst recur it.start) where
  bounded := fun s hs => hs.bounded
  after := fun s next r hs hends => (endsGroup_after hmade hsmall hs hends).left
  keeps := by
    intro s s' hs hmove
    rcases Cursor.step_of_move hmove with ⟨next, r, hends, rfl⟩ |
      ⟨next, hjumps, rfl⟩ | ⟨curr, hrests, rfl⟩
    · rcases endsGroup_after hmade hsmall hs hends with ⟨hlt, hmax⟩
      rcases hends.past with ⟨r', hr', hle⟩
      refine ⟨⟨hs.bounded, ?_⟩, ?_⟩
      · intro first r'' hfirst hr''
        cases hr''
        have hfirst' := hs.repeatAt first r' hfirst hr'
        omega
      · unfold Cursor.room
        rw [hr']
        dsimp only [Option.elim_some]
        omega
    · have hlt := hjumps.later
      have hmax : next ≤ maxTimestamp := by
        rcases nextOccurOf_lands hmade.fact s.curr next hjumps.occur with
          rfl | hrange
        · exact hs.bounded
        · exact hrange.right
      refine ⟨⟨hmax, hs.repeatAt⟩, ?_⟩
      unfold Cursor.room
      dsimp only
      omega
    · rcases hrests.curr_eq with ⟨rfl, hmax⟩
      refine ⟨⟨hmax, hs.repeatAt⟩, ?_⟩
      unfold Cursor.room
      dsimp only
      omega

theorem beginAt_fromFirst :
    FromFirst recur it.start (beginAt recur it.start it.start) where
  bounded := le_trans (beginAt_curr_le recur it.start it.start)
    hmade.inRange.right
  repeatAt := fun _ _ hfirst hr =>
    beginAt_repeatAt hmade.interval_pos hsmall hfirst hr

end Steady

/-!
# What occurs
-/

theorem secondEq_leap (c : Int) : secondEq 60 c = none := by
  have hbounds := second_bounds c
  unfold secondEq
  rw [if_pos (by omega)]
  unfold ZonedWith.build
  dsimp only [Option.getD]
  rw [if_neg (by omega)]

theorem nextOccurOf_leap {start : Int} {fact : FactOp}
    (hfact : fromRecur recur start = Except.ok fact) {s : Second}
    (hs : s ∈ recur.bySecond) (hleap : s.asNum = 60) (c : Int) :
    nextOccurOf fact c = none := by
  rcases bind_eq_ok hfact with ⟨instances, _, hfact⟩
  rcases bind_eq_ok hfact with ⟨filters, hfilters, hfact⟩
  cases hfact
  have hfilters' : filters = andFacts (filterFacts recur) := by
    unfold fromRecurFilters at hfilters
    split at hfilters
    · cases hfilters
      rfl
    · cases hfilters
  rw [Option.eq_none_iff_forall_not_mem]
  intro n hn
  change runFacts (_ :: _) c = some n at hn
  rw [runFacts_cons] at hn
  rcases Option.bind_eq_some_iff.mp hn with ⟨x, _, hx⟩
  rw [runFacts_append, hfilters', runFacts_andFacts, filterFacts_eq,
    runFacts_append] at hx
  rcases Option.bind_eq_some_iff.mp hx with ⟨_, hx, _⟩
  rcases Option.bind_eq_some_iff.mp hx with ⟨z, hz, _⟩
  rcases runFacts_orFacts (fun s : Second => secondEq s.asNum)
    (List.ne_nil_of_mem hs) with ⟨f, hf, hrun⟩
  unfold secondFilters at hz
  rw [hrun] at hz
  rcases (orFacts_least hf hz).right s hs with ⟨k, hk, _⟩
  rw [hleap, secondEq_leap] at hk
  cases hk

/-!
# Days of 2018
-/

end RecurIterator

end Recurrence
end MailClient
