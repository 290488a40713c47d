import MailClient.Recurrence.Begin

/-!
# The fixed points of a rule

The search for the dates of a rule stops where `next_occur_of` returns the
instant it was given.  All facts of a rule, also the one of the minutes that
may pass an occurrence, go forward and rest exactly on the instants that match
them, and so does their composition.
-/

namespace MailClient
namespace Recurrence

open Foundation

/--
The rules of days, weeks, months or years whose constraints are those of the
calendar: no week numbers, no ordinal weekdays of a year and no day counted from
the end of a year, and an interval that every frequency can hold.
-/
structure Calendrical (recur : Recur) : Prop where
  freq : recur.freq.repeatsDays = true
  interval : 1 ≤ recur.intervalOrOne ∧ recur.intervalOrOne < 2 ^ 15
  byDay : recur.freq = Freq.yearly -> forall b, b ∈ recur.byDay ->
    exists wd, b = ByDay.every wd
  byYearDay : forall yd, yd ∈ recur.byYearDay -> yd.sign = Sign.pos
  byWeekNo : recur.byWeekNo = []

theorem Calendrical.effectiveInterval {recur : Recur} (h : Calendrical recur) :
    recur.effectiveInterval = recur.intervalOrOne := by
  have hinterval := h.interval.right
  unfold Recur.effectiveInterval narrow Freq.intervalBits
  rw [if_pos]
  split
  · exact hinterval
  · exact lt_trans hinterval (by decide)

theorem Calendrical.supported {recur : Recur} (h : Calendrical recur)
    (hsecond : forall s, s ∈ recur.bySecond -> s.asNum ≠ 60) :
    Supported recur where
  freq := h.freq
  interval := h.interval.left
  bySecond := by
    intro s hs
    have hbounds : s.asNum ≤ 60 := (Bounded.asNum_bounds s).right
    have hne := hsecond s hs
    omega
  byDay := by
    intro hyearly nth wd hmem
    rcases h.byDay hyearly _ hmem with ⟨wd', heq⟩
    cases heq
  byWeekNo := h.byWeekNo

theorem minuteFact_eq_iff {recur : Recur} {start c n : Int}
    (h : minuteFact recur start c = some n) :
    n = c ↔ minute c ∈ recur.minutes start := by
  rcases minuteFact_cases h with ⟨hover, m, hm, _, hn⟩ | ⟨hle, hrests, hpasses⟩
  · constructor
    · intro heq
      have hbounds := minutes_bounds hm
      omega
    · intro hmem
      exact absurd (hover _ hmem) (lt_irrefl _)
  · constructor
    · exact hrests
    · intro hmem
      by_contra hne
      have hlt : c < n := lt_of_le_of_ne hle (Ne.symm hne)
      exact hpasses c le_rfl hlt hmem

theorem supported_fixed_iff {recur : Recur} (hsupported : Supported recur)
    {start first curr n : Int} {fact : FactOp}
    (hrun : forall c, nextOccurOf fact c =
      ((runFacts (factsBefore recur start first) c).bind
        (minuteFact recur start)).bind (runFacts (factsAfter recur start)))
    (hfirst : recur.freq.firstOf start = some first) (hcurr : first ≤ curr)
    (hnext : nextOccurOf fact curr = some n) :
    curr ≤ n ∧
      (n = curr ↔ MatchesEvery recur.effectiveInterval recur start curr) := by
  rw [hrun] at hnext
  rcases Option.bind_eq_some_iff.mp hnext with ⟨y, hmid, hafter⟩
  rcases Option.bind_eq_some_iff.mp hmid with ⟨x, hbefore, hminute⟩
  have hseeks := factsBefore_seeks hsupported hfirst
    (Or.inl (le_refl first))
  have hseeks' := factsAfter_seeks hsupported start y
  have hcx := hseeks.forward curr x hcurr hbefore
  have hxy := minuteFact_forward hminute
  have hyn := hseeks'.forward y n le_rfl hafter
  have hx := hseeks.eq_iff hcurr hbefore
  have hy := minuteFact_eq_iff hminute
  have hn := hseeks'.eq_iff le_rfl hafter
  refine ⟨le_trans hcx (le_trans hxy hyn), ?_⟩
  rw [matchesEvery_iff]
  constructor
  · intro heq
    -- Every step between `curr` and itself was one that did not move.
    have hxc : x = curr := le_antisymm (by omega) hcx
    have hyx : y = x := le_antisymm (by omega) hxy
    have hny : n = y := le_antisymm (by omega) hyn
    subst hxc
    subst hyx
    exact ⟨hx.mp rfl, hy.mp rfl, hn.mp hny⟩
  · rintro ⟨hbeforeMatches, hminuteMatches, hafterMatches⟩
    have hxc := hx.mpr hbeforeMatches
    subst hxc
    have hyx := hy.mpr hminuteMatches
    subst hyx
    exact hn.mpr hafterMatches

theorem next_occur_of_fixed_iff {recur : Recur}
    (hcalendrical : Calendrical recur) {start curr n : Int} {fact : FactOp}
    (hfact : fromRecur recur start = Except.ok fact)
    (hcurr : forall first, recur.freq.firstOf start = some first ->
      first ≤ curr)
    (hnext : nextOccurOf fact curr = some n) :
    curr ≤ n ∧ (n = curr ↔ Satisfies recur start curr) := by
  have hsecond : forall s, s ∈ recur.bySecond -> s.asNum ≠ 60 := by
    intro s hs hleap
    rw [RecurIterator.nextOccurOf_leap hfact hs hleap] at hnext
    cases hnext
  have hsupported := hcalendrical.supported hsecond
  rcases fromRecur_run hcalendrical.freq hfact with ⟨first, hfirst, hrun⟩
  have hfixed := supported_fixed_iff hsupported hrun hfirst
    (hcurr first hfirst) hnext
  rw [hcalendrical.effectiveInterval] at hfixed
  exact hfixed

/-- The last day of every other month. -/
def lastDays : Recur :=
  { freq := Freq.monthly
    interval := some 2
    byMonthDay := [⟨Sign.neg, ⟨1, firstDay_bounded⟩⟩] }

theorem lastDays_calendrical : Calendrical lastDays where
  freq := rfl
  interval := by decide
  byDay := fun hyearly => nomatch hyearly
  byYearDay := fun yd hyd => nomatch hyd
  byWeekNo := rfl

/-- 2018-01-31 00:00:00. -/
def lastDayOfJanuary : Int := 1517356800

/-- The last of March is an occurrence, the last of February leads to it. -/
theorem lastDays_fixed_points :
    exists fact, fromRecur lastDays lastDayOfJanuary = Except.ok fact ∧
      nextOccurOf fact (lastDayOfJanuary + 28 * 86400) =
        some (lastDayOfJanuary + 59 * 86400) ∧
      ¬ Satisfies lastDays lastDayOfJanuary (lastDayOfJanuary + 28 * 86400) ∧
      nextOccurOf fact (lastDayOfJanuary + 59 * 86400) =
        some (lastDayOfJanuary + 59 * 86400) ∧
      Satisfies lastDays lastDayOfJanuary (lastDayOfJanuary + 59 * 86400) := by
  have hfirst : forall first,
      lastDays.freq.firstOf lastDayOfJanuary = some first ->
        first ≤ lastDayOfJanuary := by
    intro first hfirst
    have hvalue : lastDays.freq.firstOf lastDayOfJanuary =
        some (lastDayOfJanuary - 30 * 86400) := by
      decide
    cases hvalue.symm.trans hfirst
    decide
  refine ⟨_, rfl, by decide, ?_, by decide, ?_⟩
  · have hfixed := next_occur_of_fixed_iff lastDays_calendrical rfl
      (fun first h => le_trans (hfirst first h) (by decide))
      (show nextOccurOf _ (lastDayOfJanuary + 28 * 86400) =
        some (lastDayOfJanuary + 59 * 86400) by decide)
    exact fun hsatisfies => absurd (hfixed.right.mpr hsatisfies) (by decide)
  · have hfixed := next_occur_of_fixed_iff lastDays_calendrical rfl
      (fun first h => le_trans (hfirst first h) (by decide))
      (show nextOccurOf _ (lastDayOfJanuary + 59 * 86400) =
        some (lastDayOfJanuary + 59 * 86400) by decide)
    exact hfixed.right.mp rfl

end Recurrence
end MailClient
