import MailClient.Recurrence.Matches

/-!
# Where the facts of a rule land

The results of the facts in more detail than what they seek: the jump of the
minutes to the next hour, the facts that return to a full hour, and when the
filter of the seconds stays within the minute.
-/

namespace MailClient
namespace Recurrence

open Foundation

/-!
# The minutes of a rule
-/

/-- The minute filter, or the minute of the start if there is none. -/
def minuteFact (recur : Recur) (start : Int) : FactOp :=
  runFacts (orFacts ((recur.minutes start).map minuteEq)).toList

theorem minutes_bounds {recur : Recur} {start m : Int}
    (h : m ∈ recur.minutes start) : 0 ≤ m ∧ m ≤ 59 := by
  unfold Recur.minutes at h
  split at h
  · cases List.mem_singleton.mp h
    exact minute_bounds start
  · rcases List.mem_map.mp h with ⟨u, _, rfl⟩
    exact Bounded.asNum_bounds u

theorem minutes_ne_nil (recur : Recur) (start : Int) :
    recur.minutes start ≠ [] := by
  unfold Recur.minutes
  split
  · exact List.cons_ne_nil _ _
  · rename_i h
    intro hnil
    rw [List.map_eq_nil_iff.mp hnil] at h
    exact h rfl

/-- The jump to the next hour that keeps the seconds. -/
def StaleJump (recur : Recur) (start c n : Int) : Prop :=
  (forall m, m ∈ recur.minutes start -> m < minute c) ∧
    exists m, m ∈ recur.minutes start ∧
      (forall m', m' ∈ recur.minutes start -> m ≤ m') ∧
      n = c - c % 3600 + 3600 + 60 * m + c % 60

theorem minuteFact_cases {recur : Recur} {start c n : Int}
    (h : minuteFact recur start c = some n) :
    StaleJump recur start c n ∨
      (c ≤ n ∧ (n = c -> minute c ∈ recur.minutes start) ∧
        forall d, c ≤ d -> d < n -> minute d ∉ recur.minutes start) := by
  rcases runFacts_orFacts minuteEq (minutes_ne_nil recur start) with
    ⟨fact, hfact, hrun⟩
  unfold minuteFact at h
  rw [hrun] at h
  rcases orFacts_least hfact h with ⟨⟨m, hm, hn⟩, hleast⟩
  have hbounds := minutes_bounds hm
  have hcminute := minute_bounds c
  rcases minuteEq_eq_some hn with ⟨hlt, hn⟩ | ⟨heq, hn⟩ | ⟨hgt, hn⟩
  · refine Or.inr ⟨?_, ?_, ?_⟩
    · unfold minute at hlt
      omega
    · intro hnc
      unfold minute at hlt
      omega
    · intro d hcd hdn hd
      rcases hleast (minute d) hd with ⟨k, hk, hnk⟩
      have hsteps := minuteEq_eq_some hk
      unfold minute at hlt hsteps hcminute
      omega
  · refine Or.inr ⟨by omega, ?_, ?_⟩
    · intro _
      rw [heq]
      exact hm
    · intro d hcd hdn
      omega
  · refine Or.inl ⟨?_, m, hm, ?_, hn⟩
    · intro m' hm'
      rcases hleast m' hm' with ⟨k, hk, hnk⟩
      have hbounds' := minutes_bounds hm'
      rcases minuteEq_eq_some hk with ⟨hlt', hk⟩ | ⟨heq', hk⟩ | ⟨hgt', hk⟩
      · omega
      · omega
      · exact hgt'
    · intro m' hm'
      rcases hleast m' hm' with ⟨k, hk, hnk⟩
      have hbounds' := minutes_bounds hm'
      rcases minuteEq_eq_some hk with ⟨hlt', hk⟩ | ⟨heq', hk⟩ | ⟨hgt', hk⟩
      · omega
      · omega
      · omega

theorem minuteFact_over {recur : Recur} {start c n : Int}
    (hover : forall m, m ∈ recur.minutes start -> m < minute c)
    (h : minuteFact recur start c = some n) : StaleJump recur start c n := by
  rcases runFacts_orFacts minuteEq (minutes_ne_nil recur start) with
    ⟨fact, hfact, hrun⟩
  unfold minuteFact at h
  rw [hrun] at h
  rcases orFacts_least hfact h with ⟨⟨m, hm, hn⟩, hleast⟩
  have hmover := hover m hm
  refine ⟨hover, m, hm, ?_, ?_⟩
  · intro m' hm'
    rcases hleast m' hm' with ⟨k, hk, hnk⟩
    have hover' := hover m' hm'
    have hsteps := minuteEq_eq_some hn
    have hsteps' := minuteEq_eq_some hk
    omega
  · have hsteps := minuteEq_eq_some hn
    omega

theorem minuteFact_forward {recur : Recur} {start c n : Int}
    (h : minuteFact recur start c = some n) : c ≤ n := by
  rcases minuteFact_cases h with ⟨_, m, hm, _, hn⟩ | hsound
  · have hbounds := minutes_bounds hm
    omega
  · exact hsound.left

/-!
# Where facts land

A fact that moves an instant moves it to one within jiff's range.  All but those
of the seconds and the minutes move it to a full hour, where no minute is over.
-/

def Lands (q : Int -> Prop) (fact : FactOp) : Prop :=
  forall c n, fact c = some n -> n = c ∨ q n

def FullHour (n : Int) : Prop :=
  n % 3600 = 0 ∧ inRange n

theorem Lands.weaken {q r : Int -> Prop} {fact : FactOp} (h : Lands q fact)
    (hqr : forall n, q n -> r n) : Lands r fact := by
  intro c n hrun
  exact (h c n hrun).imp_right (hqr n)

theorem lands_runFacts {q : Int -> Prop} {facts : List FactOp}
    (h : forall fact, fact ∈ facts -> Lands q fact) :
    Lands q (runFacts facts) := by
  induction facts with
  | nil =>
      intro c n hrun
      cases hrun
      exact Or.inl rfl
  | cons fact facts ih =>
      intro c n hrun
      rw [runFacts_cons] at hrun
      rcases Option.bind_eq_some_iff.mp hrun with ⟨x, hx, hn⟩
      have hrest := ih (fun f hf => h f (List.mem_cons_of_mem fact hf)) x n hn
      have hfact := h fact List.mem_cons_self c x hx
      rcases hrest with rfl | hlands
      · exact hfact
      · exact Or.inr hlands

theorem lands_orFacts {q : Int -> Prop} {choice : Type}
    {choices : List choice} {facts : choice -> FactOp}
    (h : forall i, i ∈ choices -> Lands q (facts i)) {fact : FactOp}
    (hfact : fact ∈ (orFacts (choices.map facts)).toList) :
    Lands q fact := by
  intro c n hrun
  rcases (orFacts_least (Option.mem_toList.mp hfact) hrun).left with
    ⟨i, hi, hn⟩
  exact h i hi c n hn

theorem startOfDay_lands {t n : Int} (h : startOfDay t = some n) :
    FullHour n := by
  rcases checked_eq_some.mp h with ⟨hrange, rfl⟩
  exact ⟨by omega, hrange⟩

theorem build_inRange {t n : Int} {w : ZonedWith} (h : w.build t = some n) :
    inRange n := by
  unfold ZonedWith.build at h
  dsimp only at h
  split at h
  · rcases checked_eq_some.mp h with ⟨hrange, rfl⟩
    exact hrange
  · cases h

theorem build_time_lands {t h n : Int}
    (hbuild : ZonedWith.build t
      { hour := some h, minute := some 0, second := some 0 } = some n) :
    FullHour n := by
  have hn := build_time hbuild
  exact ⟨by omega, build_inRange hbuild⟩

theorem hourEq_lands (h : Int) : Lands FullHour (hourEq h) := by
  intro c n hrun
  unfold hourEq at hrun
  split at hrun
  · exact Or.inr (build_time_lands hrun)
  · split at hrun
    · cases hrun
      exact Or.inl rfl
    · rcases Option.bind_eq_some_iff.mp hrun with ⟨x, _, hbuild⟩
      exact Or.inr (build_time_lands hbuild)

theorem observedHourEq_lands (h : Int) :
    Lands FullHour (observedHourEq h) := by
  intro c n hrun
  rcases Option.bind_eq_some_iff.mp hrun with ⟨x, hx, hrun⟩
  split at hrun
  · cases hrun
    exact Or.inr (build_time_lands hx)
  · split at hrun
    · cases hrun
      exact Or.inl rfl
    · rcases Option.bind_eq_some_iff.mp hrun with ⟨y, _, hbuild⟩
      exact Or.inr (build_time_lands hbuild)

/-- A computation that stays where it is or ends on a full hour. -/
def Arrives (c : Int) (r : Option Int) : Prop :=
  forall n, r = some n -> n = c ∨ FullHour n

theorem arrives_stay (c : Int) : Arrives c (some c) :=
  fun _ hn => Or.inl (Option.some.inj hn).symm

theorem arrives_startOfDay (c t : Int) : Arrives c (startOfDay t) :=
  fun _ hn => Or.inr (startOfDay_lands hn)

theorem Arrives.bind {c : Int} {value : Type} {o : Option value}
    {next : value -> Option Int}
    (h : forall x, o = some x -> Arrives c (next x)) :
    Arrives c (o >>= next) := by
  intro n hn
  rcases Option.bind_eq_some_iff.mp hn with ⟨x, hx, hnext⟩
  exact h x hx n hnext

theorem Arrives.toDay (c : Int) {value : Type} (o : Option value)
    (day : value -> Option Int) :
    Arrives c (do
      let found <- o
      let next <- day found
      startOfDay next) :=
  Arrives.bind (fun _ _ => Arrives.bind (fun next _ => arrives_startOfDay c next))

/-- What is done for a negative day, in a month and in a year. -/
theorem Arrives.fromEnd (c : Int) {o last : Option Int}
    {target : Int -> Option Int} :
    Arrives c (do
      let found <- o
      let next <- target found
      let dst <- startOfDay next
      if dst ≤ c then do
        let found <- last
        let next <- tomorrow found
        startOfDay next
      else
        some dst) := by
  apply Arrives.bind
  intro found _
  apply Arrives.bind
  intro next _
  apply Arrives.bind
  intro dst hdst
  split
  · exact Arrives.toDay c last tomorrow
  · rw [<- hdst]
    exact arrives_startOfDay c next

theorem weekdayEq_lands (wd : Int) : Lands FullHour (weekdayEq wd) := by
  intro c
  unfold weekdayEq
  split
  · exact arrives_stay c
  · exact Arrives.bind (fun x _ => arrives_startOfDay c x)

theorem dayEq_lands (d : Int) : Lands FullHour (dayEq d) := by
  intro c
  apply Arrives.bind
  intro abs _
  split
  · exact Arrives.bind (fun next _ => arrives_startOfDay c next)
  · split
    · exact arrives_stay c
    · split
      · exact Arrives.bind (fun next _ => Arrives.fromEnd c)
      · exact Arrives.toDay c _ _

theorem dayOfYearEq_lands (d : Int) : Lands FullHour (dayOfYearEq d) := by
  intro c
  apply Arrives.bind
  intro abs _
  split
  · exact Arrives.bind (fun next _ => arrives_startOfDay c next)
  · split
    · exact arrives_stay c
    · split
      · exact Arrives.bind (fun next _ => Arrives.fromEnd c)
      · exact Arrives.toDay c _ _

theorem monthEq_lands (m : Int) : Lands FullHour (monthEq m) := by
  intro c
  unfold monthEq
  split
  · exact Arrives.toDay c _ _
  · split
    · exact arrives_stay c
    · exact Arrives.toDay c _ _

theorem nthWeekdayOfMonthEq_lands (nth wd : Int) :
    Lands FullHour (nthWeekdayOfMonthEq nth wd) := by
  intro c
  apply Arrives.bind
  intro found _
  split
  · exact arrives_stay c
  · split
    · exact Arrives.toDay c _ _
    · exact arrives_startOfDay c found

theorem nthWeekdayOfYearEq_lands (nth wd : Int) :
    Lands FullHour (nthWeekdayOfYearEq nth wd) := by
  intro c
  apply Arrives.bind
  intro found _
  split
  · exact arrives_stay c
  · split
    · exact Arrives.toDay c _ _
    · exact arrives_startOfDay c found

theorem dayFact_lands (freq : Freq) (b : ByDay) :
    Lands FullHour (dayFact freq b) := by
  cases b with
  | every wd => exact weekdayEq_lands wd.asJiff
  | fixed nth wd =>
      cases freq with
      | monthly => exact nthWeekdayOfMonthEq_lands nth.val wd.asJiff
      | yearly => exact nthWeekdayOfYearEq_lands nth.val wd.asJiff
      | secondly | minutely | hourly | daily | weekly =>
          intro c n hrun
          cases hrun
          exact Or.inl rfl

theorem otherFilters_lands (recur : Recur) :
    Lands FullHour (runFacts (otherFilters recur)) := by
  apply lands_runFacts
  intro fact hfact
  unfold otherFilters at hfact
  rw [byDay_facts] at hfact
  simp only [List.mem_append] at hfact
  rcases hfact with (((hhour | hday) | hmonthDay) | hyearDay) | hmonth
  · exact lands_orFacts (fun h _ => hourEq_lands h.asNum) hhour
  · exact lands_orFacts (fun b _ => dayFact_lands recur.freq b) hday
  · exact lands_orFacts (fun md _ => dayEq_lands md.toInt) hmonthDay
  · exact lands_orFacts (fun yd _ => dayOfYearEq_lands yd.toInt)
      hyearDay
  · exact lands_orFacts (fun m _ => monthEq_lands m.asNum) hmonth

theorem periods_first_aligned (freq : Freq) (k : Int) :
    freq.periods.first k % 3600 = 0 := by
  cases freq with
  | weekly =>
      show (weeks.comp days).first k % 3600 = 0
      rw [comp_days_first]
      omega
  | monthly =>
      show (months.comp days).first k % 3600 = 0
      rw [comp_days_first]
      omega
  | yearly =>
      show (years.comp days).first k % 3600 = 0
      rw [comp_days_first]
      omega
  | secondly | minutely | hourly | daily =>
      show days.first k % 3600 = 0
      rw [days_first]
      omega

/-!
# The seconds of a rule
-/

theorem secondEq_eq_some {s c n : Int} (h : secondEq s c = some n) :
    (second c ≤ s ∧ n = c - c % 60 + s) ∨
      (s < second c ∧ n = c - c % 60 + 60 + s) := by
  unfold secondEq at h
  split at h
  · rename_i hlt
    exact Or.inl ⟨le_of_lt hlt, build_second h⟩
  · split at h
    · rename_i heq
      cases h
      refine Or.inl ⟨le_of_eq heq, ?_⟩
      unfold second at heq
      omega
    · rename_i hlt hne
      rcases Option.bind_eq_some_iff.mp h with ⟨x, hx, hbuild⟩
      have hadd := addMinutes_eq_some hx
      have hn := build_second hbuild
      exact Or.inr ⟨by omega, by omega⟩

/--
If a second of the rule lies before the one that the second filter has found,
the filter has stayed in the minute, with seconds of the rule on both sides.
-/
theorem secondFilters_within {recur : Recur} {c n s : Int}
    (hsupported : Supported recur) (hne : recur.bySecond ≠ [])
    (hrun : runFacts (secondFilters recur) c = some n)
    (hs : s ∈ recur.bySecond.map Bounded.asNum) (hlt : s < second n) :
    n / 60 = c / 60 ∧ c ≤ n ∧ s < second c ∧
      exists s', s' ∈ recur.bySecond.map Bounded.asNum ∧ second c ≤ s' := by
  rcases runFacts_orFacts (fun s : Second => secondEq s.asNum) hne with
    ⟨fact, hfact, hfacts⟩
  unfold secondFilters at hrun
  rw [hfacts] at hrun
  rcases orFacts_least hfact hrun with ⟨⟨u, hu, hn⟩, hleast⟩
  rcases List.mem_map.mp hs with ⟨v, hv, rfl⟩
  rcases hleast v hv with ⟨k, hk, hnk⟩
  have hu' := Bounded.asNum_bounds u
  have hu59 := hsupported.bySecond u hu
  have hv59 := hsupported.bySecond v hv
  have hv' := Bounded.asNum_bounds v
  have hsteps := secondEq_eq_some hn
  have hsteps' := secondEq_eq_some hk
  have hstay : second c ≤ u.asNum ∧ v.asNum < second c := by
    unfold second at *
    omega
  refine ⟨?_, ?_, hstay.right, u.asNum, List.mem_map_of_mem hu, hstay.left⟩
  · unfold second at *
    omega
  · unfold second at *
    omega

theorem secondFilters_aligned {recur : Recur} {c n : Int}
    (hsupported : Supported recur) (hc : c % 3600 = 0)
    (hrun : runFacts (secondFilters recur) c = some n) : minute n = 0 := by
  by_cases hne : recur.bySecond = []
  · unfold secondFilters at hrun
    rw [hne] at hrun
    cases hrun
    unfold minute
    omega
  · rcases runFacts_orFacts (fun s : Second => secondEq s.asNum) hne with
      ⟨fact, hfact, hfacts⟩
    unfold secondFilters at hrun
    rw [hfacts] at hrun
    rcases (orFacts_least hfact hrun).left with ⟨u, hu, hn⟩
    have hu' := Bounded.asNum_bounds u
    have hu59 := hsupported.bySecond u hu
    have hsteps := secondEq_eq_some hn
    unfold second at hsteps
    unfold minute
    omega

end Recurrence
end MailClient
