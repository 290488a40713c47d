import MailClient.Recurrence.Fresh

/-!
# Monthly rules by weekday

The fact of a rule that repeats monthly and has only a `BYDAY`: the month, the
weekdays, the time of the start.  Inside the calendar it fails at an ordinal
weekday that the month of an instant does not have, or that the month after it
does not have if it is over in the month of the instant.
-/

namespace MailClient
namespace Recurrence

open Foundation

/-- `FREQ=MONTHLY` with an `INTERVAL` and a `BYDAY`. -/
def monthlyOn (interval : Option Nat) (byDay : List ByDay) : Recur :=
  { freq := Freq.monthly
    interval := interval
    byDay := byDay }

/-- Month `k` has the ordinal weekday. -/
def HasDay (nth wd k : Int) : Prop :=
  nth ≠ 0 ∧ monthStart k ≤ nthDayOfMonth nth wd k ∧
    nthDayOfMonth nth wd k < monthStart (k + 1)

instance (nth wd k : Int) : Decidable (HasDay nth wd k) :=
  inferInstanceAs (Decidable (_ ∧ _))

/-- The time of the start, by its second, its minute and its hour. -/
def timeFact (start : Int) : FactOp := fun c =>
  ((secondEq (second start) c).bind (minuteEq (minute start))).bind
    (observedHourEq (hour start))

/-- The weekdays of a monthly rule. -/
def weekdaysFact (byDay : List ByDay) : FactOp :=
  runFacts (orFacts (byDay.map (dayFact Freq.monthly))).toList

theorem monthlyOn_byDay (interval : Option Nat) (byDay : List ByDay) :
    otherFilters (monthlyOn interval byDay) =
      (orFacts (byDay.map (dayFact Freq.monthly))).toList := by
  have hentries : (monthlyOn interval byDay).dayEntries = byDay := by
    apply List.filter_eq_self.mpr
    intro b _
    cases b with
    | every wd => rfl
    | fixed nth wd => rfl
  have hfacts := byDay_facts (monthlyOn interval byDay)
  rw [hentries] at hfacts
  unfold otherFilters
  rw [hfacts]
  simp [monthlyOn, orFacts]

theorem monthlyOn_run {interval : Option Nat} {byDay : List ByDay}
    (hne : byDay ≠ []) {start : Int} {fact : FactOp}
    (hfact : fromRecur (monthlyOn interval byDay) start = Except.ok fact) :
    exists first, Freq.monthly.firstOf start = some first ∧
      forall c, nextOccurOf fact c =
        ((instanceFrom first Freq.monthly
          (monthlyOn interval byDay).intervalOrOne true c).bind
            (weekdaysFact byDay)).bind (timeFact start) := by
  rcases fromRecur_run rfl hfact with ⟨first, hfirst, hrun⟩
  refine ⟨first, hfirst, fun c => ?_⟩
  have hafter : runFacts (factsAfter (monthlyOn interval byDay) start) =
      observedHourEq (hour start) := by
    have hlist : factsAfter (monthlyOn interval byDay) start =
        [observedHourEq (hour start)] := by
      unfold factsAfter otherInvariants dateInvariants
      simp [monthlyOn, factIf, hne]
    rw [hlist, runFacts_singleton]
  have hminute : minuteFact (monthlyOn interval byDay) start =
      minuteEq (minute start) := by
    rw [minuteFact_eq]
    exact if_pos rfl
  have hbefore : factsBefore (monthlyOn interval byDay) start first =
      instanceFrom first Freq.monthly
          (monthlyOn interval byDay).intervalOrOne true ::
        ((orFacts (byDay.map (dayFact Freq.monthly))).toList ++
          [secondEq (second start)]) := by
    have hminutes : (monthlyOn interval byDay).byMinute.isEmpty = true := rfl
    unfold factsBefore
    rw [if_pos hminutes, monthlyOn_byDay]
    rfl
  rw [hrun, hafter, hminute, hbefore, runFacts_cons]
  unfold weekdaysFact timeFact
  rw [Option.bind_assoc, Option.bind_assoc, Option.bind_assoc]
  congr 1
  funext y
  rw [runFacts_append, runFacts_singleton, Option.bind_assoc]
  congr 1
  funext z
  rw [Option.bind_assoc]

/-!
# The time of the start
-/

theorem observedHourEq_eq_some {h c n : Int} (hh : 0 ≤ h) (hh' : h ≤ 23)
    (hrun : observedHourEq h c = some n) :
    (hour c < h ∧ n = 86400 * date c + 3600 * h) ∨ (hour c = h ∧ n = c) ∨
      (h < hour c ∧ n = 86400 * (date c + 1) + 3600 * h) := by
  rcases Option.bind_eq_some_iff.mp hrun with ⟨x, hx, hrun⟩
  have hxvalue := build_time hx
  have hxhour : hour x = h := by
    unfold hour
    omega
  have hday : c - c % 86400 = 86400 * date c := by
    unfold date
    omega
  rw [hxhour] at hrun
  split at hrun
  · rename_i hlt
    cases hrun
    exact Or.inl ⟨hlt, by omega⟩
  · split at hrun
    · rename_i heq
      cases hrun
      exact Or.inr (Or.inl ⟨heq, rfl⟩)
    · rename_i hlt hne
      rcases Option.bind_eq_some_iff.mp hrun with ⟨y, hy, hbuild⟩
      have hyvalue := tomorrow_eq_some hy
      have hn := build_time hbuild
      exact Or.inr (Or.inr ⟨by omega, by omega⟩)

section Time

variable {start z n : Int}

theorem timeFact_eq_some (h : timeFact start z = some n) :
    exists x y, secondEq (second start) z = some x ∧
      minuteEq (minute start) x = some y ∧
      observedHourEq (hour start) y = some n := by
  rcases Option.bind_eq_some_iff.mp h with ⟨y, hy, hn⟩
  rcases Option.bind_eq_some_iff.mp hy with ⟨x, hx, hy⟩
  exact ⟨x, y, hx, hy, hn⟩

theorem timeFact_near (h : timeFact start z = some n) :
    z ≤ n ∧ date n ≤ date z + 2 := by
  rcases timeFact_eq_some h with ⟨x, y, hx, hy, hn⟩
  have hsecond := second_bounds start
  have hminute := minute_bounds start
  have hhour := hour_bounds start
  have hx' : z ≤ x ∧ x ≤ z + 60 := by
    rcases secondEq_eq_some hx with ⟨hle, hx⟩ | ⟨hlt, hx⟩
    · unfold second at *
      omega
    · unfold second at *
      omega
  have hy' : x ≤ y ∧ y ≤ x + 3600 := by
    rcases minuteEq_eq_some hy with ⟨hlt, hy⟩ | ⟨_, rfl⟩ | ⟨hlt, hy⟩
    · unfold minute at *
      omega
    · omega
    · unfold minute at *
      omega
  rcases observedHourEq_eq_some hhour.left hhour.right hn with ⟨hlt, hn⟩ |
    ⟨_, rfl⟩ | ⟨hlt, hn⟩
  · unfold hour date at *
    omega
  · unfold date
    omega
  · unfold hour date at *
    omega

theorem timeFact_midnight {k : Int} (h : timeFact start (86400 * k) = some n) :
    date n = k := by
  rcases timeFact_eq_some h with ⟨x, y, hx, hy, hn⟩
  have hsecond := second_bounds start
  have hminute := minute_bounds start
  have hhour := hour_bounds start
  have hx' : x = 86400 * k + second start := by
    rcases secondEq_eq_some hx with ⟨_, hx⟩ | ⟨hlt, _⟩
    · omega
    · unfold second at hlt
      omega
  have hy' : 86400 * k ≤ y ∧ y < 86400 * k + 3600 := by
    rcases minuteEq_eq_some hy with ⟨_, hy⟩ | ⟨_, rfl⟩ | ⟨hlt, _⟩
    · omega
    · omega
    · unfold minute at *
      omega
  rcases observedHourEq_eq_some hhour.left hhour.right hn with ⟨_, hn⟩ |
    ⟨_, rfl⟩ | ⟨hlt, _⟩
  · unfold date at *
    omega
  · unfold date
    omega
  · unfold hour at *
    omega

theorem timeFact_after {k : Int}
    (h : timeFact start (86400 * k + timeOfDay start + 1) = some n) :
    n = 86400 * (k + 1) + 3600 * hour start := by
  rcases timeFact_eq_some h with ⟨x, y, hx, hy, hn⟩
  have hhour := hour_bounds start
  have htime : timeOfDay start =
      3600 * hour start + 60 * minute start + second start := by
    unfold timeOfDay hour minute second
    omega
  have hsecond := second_bounds start
  have hminute := minute_bounds start
  rw [htime] at hx
  generalize second start = s at *
  generalize minute start = m at *
  generalize hour start = h at *
  have hx' : x = 86400 * k + 3600 * h + 60 * m + s + 60 := by
    rcases secondEq_eq_some hx with ⟨hle, hx⟩ | ⟨hlt, hx⟩
    · unfold second at hle
      omega
    · unfold second at hlt
      omega
  have hy' : 86400 * k + 3600 * h + 60 * m + 3600 ≤ y ∧
      y ≤ 86400 * k + 3600 * h + 60 * m + s + 3600 := by
    rcases minuteEq_eq_some hy with ⟨hlt, hy⟩ | ⟨heq, _⟩ | ⟨hlt, hy⟩
    · unfold minute at hlt
      omega
    · unfold minute at heq
      omega
    · unfold minute at hlt
      omega
  rcases observedHourEq_eq_some hhour.left hhour.right hn with ⟨hlt, hn⟩ |
    ⟨heq, _⟩ | ⟨hlt, hn⟩
  · unfold hour at hlt
    unfold date at hn
    omega
  · unfold hour at heq
    omega
  · unfold hour at hlt
    unfold date at hn
    omega

end Time

/-!
# The weekdays of a month
-/

theorem nthWeekdayOfMonthEq_eq_some {nth wd c n : Int}
    (h : nthWeekdayOfMonthEq nth wd c = some n) :
    HasDay nth wd (monthOf (date c)) ∧
      (nthDayOfMonth nth wd (monthOf (date c)) < date c ->
        HasDay nth wd (monthOf (date c) + 1) ∧
          n = 86400 * nthDayOfMonth nth wd (monthOf (date c) + 1)) ∧
      (nthDayOfMonth nth wd (monthOf (date c)) = date c -> n = c) ∧
      (date c < nthDayOfMonth nth wd (monthOf (date c)) ->
        n = 86400 * nthDayOfMonth nth wd (monthOf (date c))) := by
  have hhas {t x : Int} (hx : nthWeekdayOfMonth nth wd t = some x) :
      HasDay nth wd (monthOf (date t)) := by
    unfold nthWeekdayOfMonth at hx
    dsimp only at hx
    split at hx
    · assumption
    · cases hx
  rcases Option.bind_eq_some_iff.mp h with ⟨x, hx, hrun⟩
  rcases nthWeekdayOfMonth_eq_some hx with ⟨hdate, _, htime⟩
  have hdays : x = 86400 * date x + x % 86400 ∧
      c = 86400 * date c + c % 86400 := by
    unfold date
    omega
  refine ⟨hhas hx, ?_⟩
  split at hrun
  · rename_i hsame
    cases hrun
    refine ⟨fun hlt => ?_, fun _ => rfl, fun hlt => ?_⟩
    · omega
    · omega
  · rename_i hother
    split at hrun
    · rename_i hbefore
      rcases Option.bind_eq_some_iff.mp hrun with ⟨y, hy, hrun⟩
      rcases Option.bind_eq_some_iff.mp hrun with ⟨z, hz, hstart⟩
      have hhas' := hhas hz
      have hdate' := (nthWeekdayOfMonth_eq_some hz).left
      rw [monthOf_addMonths hy] at hhas' hdate'
      have hn := startOfDay_eq_some hstart
      rw [hdate'] at hn
      refine ⟨fun _ => ⟨hhas', hn⟩, fun heq => ?_, fun hlt => ?_⟩
      · omega
      · omega
    · rename_i hafter
      have hn := startOfDay_eq_some hrun
      rw [hdate] at hn
      refine ⟨fun hlt => ?_, fun heq => ?_, fun _ => hn⟩
      · omega
      · omega

theorem weekdayEq_eq_some {wd c n : Int} (hwd : 0 ≤ wd) (hwd' : wd ≤ 6)
    (h : weekdayEq wd c = some n) :
    n = c ∨ exists k, n = 86400 * k ∧ date c < k ∧ k ≤ date c + 6 := by
  unfold weekdayEq at h
  split at h
  · cases h
    exact Or.inl rfl
  · rename_i hother
    rcases Option.bind_eq_some_iff.mp h with ⟨x, hx, hstart⟩
    have hn := startOfDay_eq_some hstart
    rw [date_addDays hx] at hn
    refine Or.inr ⟨_, hn, ?_⟩
    unfold daysUntil weekday weekdayOf at *
    omega

/-- A weekday either rests or leads to the first instant of a later day. -/
theorem dayFact_monthly {b : ByDay} {c n : Int}
    (h : dayFact Freq.monthly b c = some n) :
    n = c ∨ exists k, n = 86400 * k ∧ date c < k := by
  cases b with
  | every wd =>
      have hbounds := asJiff_bounds wd
      rcases weekdayEq_eq_some hbounds.left hbounds.right h with
        rfl | ⟨k, hn, hlt, _⟩
      · exact Or.inl rfl
      · exact Or.inr ⟨k, hn, hlt⟩
  | fixed nth wd =>
      rcases nthWeekdayOfMonthEq_eq_some h with ⟨_, hbefore, hsame, hafter⟩
      rcases lt_trichotomy (nthDayOfMonth nth.val wd.asJiff
        (monthOf (date c))) (date c) with hlt | heq | hlt
      · rcases hbefore hlt with ⟨hday, hn⟩
        have hmonth := (monthOf_bracket (date c)).right
        exact Or.inr ⟨_, hn, lt_of_lt_of_le hmonth hday.right.left⟩
      · exact Or.inl (hsame heq)
      · exact Or.inr ⟨_, hafter hlt, hlt⟩

theorem weekdaysFact_cases {byDay : List ByDay} (hne : byDay ≠ []) {c n : Int}
    (h : weekdaysFact byDay c = some n) :
    (n = c ∨ exists k, n = 86400 * k ∧ date c < k) ∧
      forall b, b ∈ byDay ->
        exists k, dayFact Freq.monthly b c = some k ∧ n ≤ k := by
  rcases runFacts_orFacts (dayFact Freq.monthly) hne with ⟨fact, hfact, hrun⟩
  unfold weekdaysFact at h
  rw [hrun] at h
  rcases orFacts_least hfact h with ⟨⟨b, _, hb⟩, hall⟩
  exact ⟨dayFact_monthly hb, hall⟩

theorem foldlM_defined {choice : Type} {facts : choice -> FactOp}
    {choices : List choice} {c : Int}
    (h : forall i, i ∈ choices -> exists k, facts i c = some k) (best : Int) :
    exists n, (choices.map facts).foldlM
      (fun best fact => (fact c).map (min best)) best = some n := by
  induction choices generalizing best with
  | nil => exact ⟨best, rfl⟩
  | cons i choices ih =>
      rcases h i List.mem_cons_self with ⟨k, hk⟩
      rcases ih (fun j hj => h j (List.mem_cons_of_mem i hj)) (min best k) with
        ⟨n, hn⟩
      refine ⟨n, ?_⟩
      rw [List.map_cons, List.foldlM_cons, hk]
      exact hn

theorem weekdaysFact_defined {byDay : List ByDay} {c : Int}
    (h : forall b, b ∈ byDay -> exists k, dayFact Freq.monthly b c = some k) :
    exists n, weekdaysFact byDay c = some n := by
  cases byDay with
  | nil => exact ⟨c, rfl⟩
  | cons b byDay =>
      rcases h b List.mem_cons_self with ⟨k, hk⟩
      rcases foldlM_defined
        (fun b' hb' => h b' (List.mem_cons_of_mem b hb')) k with ⟨n, hn⟩
      refine ⟨n, ?_⟩
      unfold weekdaysFact
      rw [List.map_cons]
      show runFacts [_] c = some n
      rw [runFacts_singleton]
      show (dayFact Freq.monthly b c).bind _ = some n
      rw [hk]
      exact hn

/-!
# Inside the calendar

Nothing fails on days of which jiff has every instant, but for ordinal weekdays
that do not exist.
-/

section Inside

variable {lo hi : Int} (hlo : minTimestamp ≤ 86400 * lo)
  (hhi : 86400 * hi ≤ maxTimestamp)

include hlo hhi

theorem checked_inside {t : Int} (h : lo ≤ date t) (h' : date t < hi) :
    checked t = some t := by
  apply checked_eq_some.mpr
  refine ⟨⟨?_, ?_⟩, rfl⟩
  · unfold date at h
    omega
  · unfold date at h'
    omega

theorem onDate_inside {k t : Int} (h : lo ≤ k) (h' : k < hi) :
    onDate k t = some (86400 * k + timeOfDay t) := by
  have hdate : date (86400 * k + timeOfDay t) = k := by
    unfold date timeOfDay
    omega
  apply checked_inside hlo hhi
  · rw [hdate]
    exact h
  · rw [hdate]
    exact h'

theorem startOfDay_inside {t : Int} (h : lo ≤ date t) (h' : date t < hi) :
    startOfDay t = some (86400 * date t) := by
  have hdate : date (86400 * date t) = date t := by
    unfold date
    omega
  apply checked_inside hlo hhi
  · rw [hdate]
    exact h
  · rw [hdate]
    exact h'

theorem build_inside {t : Int} {w : ZonedWith} (h : lo ≤ date t)
    (h' : date t < hi)
    (hhour : 0 ≤ w.hour.getD (hour t) ∧ w.hour.getD (hour t) ≤ 23)
    (hminute : 0 ≤ w.minute.getD (minute t) ∧ w.minute.getD (minute t) ≤ 59)
    (hsecond : 0 ≤ w.second.getD (second t) ∧ w.second.getD (second t) ≤ 59) :
    exists n, w.build t = some n := by
  unfold ZonedWith.build
  dsimp only
  rw [if_pos ⟨hhour.left, hhour.right, hminute.left, hminute.right,
    hsecond.left, hsecond.right⟩]
  refine ⟨_, checked_inside hlo hhi ?_ ?_⟩
  · unfold date at *
    omega
  · unfold date at *
    omega

theorem secondEq_inside {s c : Int} (hs : 0 ≤ s ∧ s ≤ 59) (h : lo ≤ date c)
    (h' : date c + 1 < hi) : exists n, secondEq s c = some n := by
  unfold secondEq
  split
  · exact build_inside hlo hhi h (by omega) (hour_bounds c) (minute_bounds c) hs
  · split
    · exact ⟨c, rfl⟩
    · have hadd : addMinutes 1 c = some (c + 60) := by
        show checked (c + 60 * 1) = some (c + 60)
        apply checked_inside hlo hhi
        · unfold date at *
          omega
        · unfold date at *
          omega
      rw [hadd]
      apply build_inside hlo hhi
      · unfold date at *
        omega
      · unfold date at *
        omega
      · exact hour_bounds _
      · exact minute_bounds _
      · exact hs

theorem minuteEq_inside {m c : Int} (hm : 0 ≤ m ∧ m ≤ 59) (h : lo ≤ date c)
    (h' : date c + 1 < hi) : exists n, minuteEq m c = some n := by
  unfold minuteEq
  split
  · have hzero : (0 : Int) ≤ 0 ∧ (0 : Int) ≤ 59 := by decide
    exact build_inside hlo hhi h (by omega) (hour_bounds c) hm hzero
  · split
    · exact ⟨c, rfl⟩
    · have hadd : addHours 1 c = some (c + 3600) := by
        show checked (c + 3600 * 1) = some (c + 3600)
        apply checked_inside hlo hhi
        · unfold date at *
          omega
        · unfold date at *
          omega
      rw [hadd]
      apply build_inside hlo hhi
      · unfold date at *
        omega
      · unfold date at *
        omega
      · exact hour_bounds _
      · exact hm
      · exact second_bounds _

theorem observedHourEq_inside {h c : Int} (hh : 0 ≤ h ∧ h ≤ 23)
    (hc : lo ≤ date c) (hc' : date c + 1 < hi) :
    exists n, observedHourEq h c = some n := by
  have hbuild {t : Int} (ht : lo ≤ date t) (ht' : date t < hi) :
      exists n, ZonedWith.build t
        { hour := some h, minute := some 0, second := some 0 } = some n := by
    have hzero : (0 : Int) ≤ 0 ∧ (0 : Int) ≤ 59 := by decide
    exact build_inside hlo hhi ht ht' hh hzero hzero
  rcases hbuild hc (by omega) with ⟨x, hx⟩
  unfold observedHourEq
  rw [hx]
  dsimp only [Option.bind_eq_bind, Option.bind_some]
  split
  · exact ⟨x, rfl⟩
  · split
    · exact ⟨c, rfl⟩
    · have htomorrow : tomorrow c = some (86400 * (date c + 1) + timeOfDay c) :=
        onDate_inside hlo hhi (by omega) (by omega)
      rw [htomorrow]
      apply hbuild
      · unfold date timeOfDay at *
        omega
      · unfold date timeOfDay at *
        omega

theorem timeFact_inside (start : Int) {z : Int} (h : lo ≤ date z)
    (h' : date z + 3 ≤ hi) : exists n, timeFact start z = some n := by
  have hsecond := second_bounds start
  have hminute := minute_bounds start
  rcases secondEq_inside hlo hhi hsecond h (by omega) with ⟨x, hx⟩
  have hx' : z ≤ x ∧ x ≤ z + 60 := by
    rcases secondEq_eq_some hx with ⟨hle, hx⟩ | ⟨hlt, hx⟩
    · unfold second at *
      omega
    · unfold second at *
      omega
  have hxdate : lo ≤ date x ∧ date x ≤ date z + 1 := by
    unfold date at *
    omega
  rcases minuteEq_inside hlo hhi hminute hxdate.left (by omega) with ⟨y, hy⟩
  have hydate : lo ≤ date y ∧ date y ≤ date z + 1 := by
    have hy' : x ≤ y ∧ y ≤ x + 3600 := by
      rcases minuteEq_eq_some hy with ⟨hlt, hy⟩ | ⟨_, rfl⟩ | ⟨hlt, hy⟩
      · unfold minute at *
        omega
      · omega
      · unfold minute at *
        omega
    unfold date at *
    omega
  rcases observedHourEq_inside hlo hhi (hour_bounds start) hydate.left
    (by omega) with ⟨n, hn⟩
  refine ⟨n, ?_⟩
  unfold timeFact
  rw [hx, Option.bind_some, hy, Option.bind_some, hn]

theorem weekdayEq_inside {wd c : Int} (h : lo ≤ date c)
    (h' : date c + 7 ≤ hi) : exists n, weekdayEq wd c = some n := by
  unfold weekdayEq
  split
  · exact ⟨c, rfl⟩
  · have hdays : 0 ≤ daysUntil wd c ∧ daysUntil wd c ≤ 6 := by
      unfold daysUntil
      omega
    have hadd : addDays (daysUntil wd c) c =
        some (86400 * (date c + daysUntil wd c) + timeOfDay c) := by
      unfold addDays trySpan
      rw [if_pos (by omega), Option.bind_some]
      exact onDate_inside hlo hhi (by omega) (by omega)
    have hdate : date (86400 * (date c + daysUntil wd c) + timeOfDay c) =
        date c + daysUntil wd c := by
      unfold date timeOfDay
      omega
    rw [hadd]
    refine ⟨_, startOfDay_inside hlo hhi ?_ ?_⟩
    · rw [hdate]
      omega
    · rw [hdate]
      omega

theorem nthWeekdayOfMonth_inside {nth wd t : Int}
    (hday : HasDay nth wd (monthOf (date t)))
    (h : lo ≤ monthStart (monthOf (date t)))
    (h' : monthStart (monthOf (date t) + 1) ≤ hi) :
    nthWeekdayOfMonth nth wd t = some
      (86400 * nthDayOfMonth nth wd (monthOf (date t)) + timeOfDay t) := by
  have hvalid := hday
  unfold HasDay at hvalid
  unfold nthWeekdayOfMonth
  dsimp only
  rw [if_pos hvalid]
  exact onDate_inside hlo hhi (le_trans h hday.right.left)
    (lt_of_lt_of_le hday.right.right h')

theorem addMonths_inside {k c : Int} (hk : -239976 ≤ k ∧ k ≤ 239976)
    (h : lo ≤ monthStart (monthOf (date c) + k))
    (h' : monthStart (monthOf (date c) + k + 1) ≤ hi) :
    addMonths k c = some
      (86400 * clampDay (monthOf (date c) + k) c + timeOfDay c) := by
  have hbounds : monthStart (monthOf (date c) + k) ≤
      clampDay (monthOf (date c) + k) c ∧
      clampDay (monthOf (date c) + k) c <
        monthStart (monthOf (date c) + k + 1) := by
    have hday := (dayOfMonth_bounds (date c)).left
    have hlength := monthLength_bounds (monthOf (date c) + k)
    rw [monthStart_add]
    unfold clampDay day
    omega
  unfold addMonths trySpan
  rw [if_pos hk, Option.bind_some]
  exact onDate_inside hlo hhi (le_trans h hbounds.left)
    (lt_of_lt_of_le hbounds.right h')

theorem nthWeekdayOfMonthEq_inside {nth wd c : Int}
    (hday : HasDay nth wd (monthOf (date c)))
    (hnext : nthDayOfMonth nth wd (monthOf (date c)) < date c ->
      HasDay nth wd (monthOf (date c) + 1))
    (h : lo ≤ monthStart (monthOf (date c)))
    (h' : monthStart (monthOf (date c) + 1 + 1) ≤ hi) :
    exists n, nthWeekdayOfMonthEq nth wd c = some n := by
  have hfirst := monthStart_lt (monthOf (date c))
  have hsecond := monthStart_lt (monthOf (date c) + 1)
  have hstart {k t : Int} (hk : lo ≤ k) (hk' : k < hi) :
      exists n, startOfDay (86400 * k + timeOfDay t) = some n := by
    have hdate : date (86400 * k + timeOfDay t) = k := by
      unfold date timeOfDay
      omega
    refine ⟨_, startOfDay_inside hlo hhi ?_ ?_⟩
    · rw [hdate]
      exact hk
    · rw [hdate]
      exact hk'
  unfold nthWeekdayOfMonthEq
  rw [nthWeekdayOfMonth_inside hlo hhi hday h (by omega)]
  dsimp only [Option.bind_eq_bind, Option.bind_some]
  have hx : date (86400 * nthDayOfMonth nth wd (monthOf (date c)) +
      timeOfDay c) = nthDayOfMonth nth wd (monthOf (date c)) := by
    unfold date timeOfDay
    omega
  rw [hx]
  split
  · exact ⟨c, rfl⟩
  · rename_i hother
    split
    · rename_i hbefore
      have hlt : nthDayOfMonth nth wd (monthOf (date c)) < date c := by
        unfold date timeOfDay at *
        omega
      have hadd := addMonths_inside hlo hhi (c := c) (k := 1) (by decide)
        (by omega) h'
      have hmonth := monthOf_addMonths hadd
      rw [hadd, Option.bind_some]
      have hday' := hnext hlt
      rw [<- hmonth] at hday'
      rw [nthWeekdayOfMonth_inside hlo hhi hday' (by rw [hmonth]; omega)
        (by rw [hmonth]; exact h'), Option.bind_some]
      apply hstart
      · rw [hmonth] at hday' ⊢
        have hle := hday'.right.left
        omega
      · rw [hmonth] at hday' ⊢
        exact lt_of_lt_of_le hday'.right.right h'
    · apply hstart
      · exact le_trans h hday.right.left
      · have hlt := hday.right.right
        omega

/-- The ordinal weekdays of a rule that an instant needs exist. -/
def Answers (byDay : List ByDay) (c : Int) : Prop :=
  forall nth wd, ByDay.fixed nth wd ∈ byDay ->
    HasDay nth.val wd.asJiff (monthOf (date c)) ∧
      (nthDayOfMonth nth.val wd.asJiff (monthOf (date c)) < date c ->
        HasDay nth.val wd.asJiff (monthOf (date c) + 1))

theorem weekdaysFact_inside {byDay : List ByDay} {c : Int}
    (hanswers : Answers byDay c) (h : lo ≤ monthStart (monthOf (date c)))
    (h' : monthStart (monthOf (date c) + 1 + 1) ≤ hi) :
    exists n, weekdaysFact byDay c = some n := by
  apply weekdaysFact_defined
  intro b hb
  cases b with
  | every wd =>
      have hbracket := monthOf_bracket (date c)
      have hlength := monthLength_bounds (monthOf (date c) + 1)
      rw [monthStart_add (monthOf (date c) + 1)] at h'
      exact weekdayEq_inside hlo hhi (by omega) (by omega)
  | fixed nth wd =>
      rcases hanswers nth wd hb with ⟨hday, hnext⟩
      exact nthWeekdayOfMonthEq_inside hlo hhi hday hnext h h'

end Inside

theorem answers_of_weekdaysFact {byDay : List ByDay} {c n : Int}
    (h : weekdaysFact byDay c = some n) : Answers byDay c := by
  intro nth wd hmem
  rcases (weekdaysFact_cases (List.ne_nil_of_mem hmem) h).right _ hmem with
    ⟨k, hk, _⟩
  rcases nthWeekdayOfMonthEq_eq_some hk with ⟨hday, hnext, _⟩
  exact ⟨hday, fun hlt => (hnext hlt).left⟩

/-!
# The months of a rule
-/

theorem monthStart_add_le {j k : Int} (h : j ≤ k) :
    monthStart j + 28 * (k - j) ≤ monthStart k := by
  induction k, h using Int.leInduction with
  | base => omega
  | succ k _ ih =>
      have hlength := monthLength_bounds k
      rw [monthStart_add]
      omega

theorem startOfMonth_inside {lo hi : Int} (hlo : minTimestamp ≤ 86400 * lo)
    (hhi : 86400 * hi ≤ maxTimestamp) {c d : Int}
    (hzero : 0 ≤ monthOf (date c)) (hd : 1 ≤ d)
    (h : lo ≤ monthStart (monthOf (date c) + d))
    (h' : monthStart (monthOf (date c) + d + 1) ≤ hi) :
    exists n, (addMonths d c).bind (fun next =>
      (firstOfMonth next).bind startOfDay) = some n := by
  have hlimit : d ≤ 239976 := by
    have hmonths := monthStart_add_le
      (show monthOf (date c) ≤ monthOf (date c) + d + 1 by omega)
    have hyear : monthStart 0 = -719528 := by decide
    have hbegin : monthStart 0 ≤ monthStart (monthOf (date c)) :=
      months.first_strictMono.monotone hzero
    unfold maxTimestamp at hhi
    omega
  have hadd := addMonths_inside hlo hhi (c := c) ⟨by omega, hlimit⟩ h h'
  have hmonth := monthOf_addMonths hadd
  have hlt : monthStart (monthOf (date c) + d) < hi :=
    lt_of_lt_of_le (monthStart_lt _) h'
  rw [hadd, Option.bind_some]
  generalize 86400 * clampDay (monthOf (date c) + d) c + timeOfDay c = x
    at hmonth
  have hfirst : firstOfMonth x = some
      (86400 * monthStart (monthOf (date c) + d) + timeOfDay x) := by
    unfold firstOfMonth
    rw [hmonth]
    exact onDate_inside hlo hhi h hlt
  have hdate : date (86400 * monthStart (monthOf (date c) + d) +
      timeOfDay x) = monthStart (monthOf (date c) + d) := by
    unfold date timeOfDay
    omega
  rw [hfirst, Option.bind_some]
  refine ⟨_, startOfDay_inside hlo hhi ?_ ?_⟩
  · rw [hdate]
    exact h
  · rw [hdate]
    exact hlt

section Months

variable {start first interval : Int} (hinterval : 1 ≤ interval)
  (hfirst : Freq.monthly.firstOf start = some first)

include hinterval hfirst

/--
The rule repeats in the month of the instant, or it goes to the first instant of
the next month in which it does.
-/
theorem monthly_instance {c n : Int} (hle : first ≤ c)
    (hrun : instanceFrom first Freq.monthly interval true c = some n) :
    (monthOf (date n) - monthOf (date start)) % narrow 32 interval = 0 ∧
      (n = c ∨
        (monthOf (date c) - monthOf (date start)) % narrow 32 interval ≠ 0 ∧
        monthOf (date c) < monthOf (date n) ∧
        n = 86400 * monthStart (monthOf (date n)) ∧
        forall k, monthOf (date c) < k ->
          (k - monthOf (date start)) % narrow 32 interval = 0 ->
            monthOf (date n) ≤ k) := by
  have hnarrow := narrow_bounds 32 (by decide) hinterval
  have hfirst' := firstOf_eq_some rfl hfirst
  have hindex : forall t, (months.comp days).index t = monthOf (date t) :=
    fun t => comp_days_index months t
  rw [hfirst'] at hrun hle
  have hfreq : Freq.monthly.repeatsDays = true := rfl
  have hcases := instanceFrom_next hfreq hinterval (Or.inl hle) hrun
  change ((months.comp days).index c - (months.comp days).index start) %
      narrow 32 interval = 0 ∧ _ ∧ n = c ∨
    (((months.comp days).index c - (months.comp days).index start) %
      narrow 32 interval = 0 -> _) ∧
    n = (months.comp days).first ((months.comp days).index c +
      (narrow 32 interval - ((months.comp days).index c -
        (months.comp days).index start) % narrow 32 interval)) at hcases
  rw [hindex, hindex] at hcases
  rcases hcases with ⟨hzero, _, rfl⟩ | ⟨hother, hn⟩
  · exact ⟨hzero, Or.inl rfl⟩
  · have hmod := Int.emod_lt_of_pos (monthOf (date c) - monthOf (date start))
      (b := narrow 32 interval) (by omega)
    have hmonth : monthOf (date n) = monthOf (date c) + (narrow 32 interval -
        (monthOf (date c) - monthOf (date start)) % narrow 32 interval) := by
      rw [hn, <- hindex, Partition.index_first]
    have hnext : n = 86400 * monthStart (monthOf (date n)) := by
      rw [hmonth, <- months_first, <- comp_days_first]
      exact hn
    refine ⟨?_, Or.inr ⟨?_, by omega, hnext, ?_⟩⟩
    · rw [hmonth]
      have hsplit : monthOf (date c) + (narrow 32 interval -
          (monthOf (date c) - monthOf (date start)) % narrow 32 interval) -
            monthOf (date start) =
          narrow 32 interval + ((monthOf (date c) - monthOf (date start)) -
            (monthOf (date c) - monthOf (date start)) %
              narrow 32 interval) := by
        omega
      rw [hsplit, Int.add_emod_left]
      exact Int.emod_eq_zero_of_dvd (Int.dvd_self_sub_emod)
    · exact fun hzero => nomatch hother hzero
    · intro k hlt hk
      have hle' : nextRepeat months (monthOf (date start)) (narrow 32 interval)
          (date c) ≤ months.first k :=
        nextRepeat_le hnarrow.left hlt hk
      rw [hmonth]
      exact months.first_strictMono.le_iff_le.mp hle'

theorem monthly_instance_inside {lo hi : Int}
    (hlo : minTimestamp ≤ 86400 * lo) (hhi : 86400 * hi ≤ maxTimestamp)
    {c k : Int} (hle : first ≤ c) (hzero : 0 ≤ monthOf (date c))
    (hc : lo ≤ monthStart (monthOf (date c))) (hck : monthOf (date c) ≤ k)
    (hk : (k - monthOf (date start)) % narrow 32 interval = 0)
    (hk' : monthStart (k + 1) ≤ hi) :
    exists n, instanceFrom first Freq.monthly interval true c = some n := by
  have hnarrow := narrow_bounds 32 (by decide) hinterval
  have hfirst' := firstOf_eq_some rfl hfirst
  have hindex : (months.comp days).index start = monthOf (date start) :=
    comp_days_index months start
  change first = (months.comp days).first ((months.comp days).index start)
    at hfirst'
  rw [hindex] at hfirst'
  have horigin : monthOf (date start) ≤ monthOf (date c) := by
    have hmono := (months.comp days).index_mono hle
    rw [hfirst', Partition.index_first, comp_days_index] at hmono
    exact hmono
  have hdiff : (sinceMonths first c).tmod (narrow 32 interval) =
      (monthOf (date c) - monthOf (date start)) % narrow 32 interval := by
    rw [hfirst'] at hle ⊢
    rw [(monthly_repeats (monthOf (date start))).diff_eq c hle, comp_days_index]
    exact Int.tmod_eq_emod_of_nonneg (by
      show 0 ≤ monthOf (date c) - monthOf (date start)
      omega)
  show exists n, repetition 32 (narrow 32 interval) (sinceMonths first c) true
    (fun n => (addMonths n c).bind (fun next =>
      (firstOfMonth next).bind startOfDay)) c = some n
  unfold repetition
  dsimp only
  rw [hdiff]
  split
  · exact ⟨c, rfl⟩
  · rename_i hother
    have hmod := Int.emod_nonneg (monthOf (date c) - monthOf (date start))
      (b := narrow 32 interval) (by omega)
    have hmod' := Int.emod_lt_of_pos (monthOf (date c) - monthOf (date start))
      (b := narrow 32 interval) (by omega)
    have hnonzero : ¬ (monthOf (date c) - monthOf (date start)) %
        narrow 32 interval = 0 :=
      fun h => hother ⟨h, rfl⟩
    rw [wrap_eq (by decide) (by omega) (by omega)]
    have hnext : monthOf (date c) + (narrow 32 interval -
        (monthOf (date c) - monthOf (date start)) % narrow 32 interval) ≤ k := by
      have hlt : monthOf (date c) < k := by
        refine lt_of_le_of_ne hck ?_
        rintro rfl
        exact hnonzero hk
      have hle' : nextRepeat months (monthOf (date start)) (narrow 32 interval)
          (date c) ≤ months.first k :=
        nextRepeat_le hnarrow.left hlt hk
      exact months.first_strictMono.le_iff_le.mp hle'
    have hpos : 1 ≤ narrow 32 interval -
        (monthOf (date c) - monthOf (date start)) % narrow 32 interval := by
      omega
    generalize narrow 32 interval - (monthOf (date c) - monthOf (date start)) %
      narrow 32 interval = d at hnext hpos ⊢
    exact startOfMonth_inside hlo hhi hzero hpos
      (le_trans hc (months.first_strictMono.monotone (by omega)))
      (le_trans (months.first_strictMono.monotone (by omega)) hk')

end Months

end Recurrence
end MailClient
