import MailClient.Foundation.Transition
import MailClient.Recurrence.Landing

/-!
# When a fact overshoots

The facts of a rule never pass a matching instant, but for `minute_eq`: if all
minutes of the rule are over it moves to the next hour and keeps the seconds of
the current instant, which may lie behind the first matching second there.
-/

namespace MailClient
namespace Recurrence

open Foundation

/-!
# The facts before and after the minutes
-/

def secondInvariants (recur : Recur) (start : Int) : List FactOp :=
  factIf recur.bySecond.isEmpty (secondEq (second start))

def factsBefore (recur : Recur) (start first : Int) : List FactOp :=
  instanceFrom first recur.freq recur.intervalOrOne true ::
    (secondFilters recur ++
      if recur.byMinute.isEmpty then
        otherFilters recur ++ secondInvariants recur start
      else [])

def factsAfter (recur : Recur) (start : Int) : List FactOp :=
  (if !recur.byMinute.isEmpty then
      otherFilters recur ++ secondInvariants recur start
    else []) ++
    otherInvariants recur start

theorem minuteFact_eq (recur : Recur) (start : Int) :
    minuteFact recur start =
      if recur.byMinute.isEmpty then minuteEq (minute start)
      else runFacts (minuteFilters recur) := by
  unfold minuteFact minuteFilters Recur.minutes
  split
  · rw [List.map_singleton]
    show runFacts [_] = _
    rw [runFacts_singleton]
    funext c
    exact Option.bind_fun_some _
  · rw [List.map_map]
    rfl

theorem runFacts_around (before after middle : List FactOp) (c : Int) :
    runFacts (before ++ (middle ++ after)) c =
      ((runFacts before c).bind (runFacts middle)).bind
        (runFacts after) := by
  have hrest : runFacts (middle ++ after) =
      fun x => (runFacts middle x).bind (runFacts after) := by
    funext x
    exact runFacts_append middle after x
  rw [runFacts_append, hrest, Option.bind_assoc]

theorem runFacts_andFacts_append (facts facts' : List FactOp) (c : Int) :
    runFacts ((andFacts facts).toList ++ (andFacts facts').toList) c =
      runFacts (facts ++ facts') c := by
  rw [runFacts_append, runFacts_append, runFacts_andFacts, runFacts_andFacts]

variable {recur : Recur} {start c : Int}

theorem facts_around (hfreq : recur.freq.repeatsDays = true)
    (start first c : Int) :
    runFacts (instanceFrom first recur.freq recur.intervalOrOne true ::
        (filterFacts recur ++
          (timeInvariants recur start ++ dateInvariants recur start))) c =
      ((runFacts (factsBefore recur start first) c).bind
        (minuteFact recur start)).bind
          (runFacts (factsAfter recur start)) := by
  rw [minuteFact_eq, filterFacts_eq, invariants_eq hfreq]
  unfold factsBefore factsAfter secondInvariants
  cases hminute : recur.byMinute.isEmpty with
  | true =>
      have hnone : minuteFilters recur = [] := by
        unfold minuteFilters
        rw [List.isEmpty_iff.mp hminute]
        rfl
      rw [hnone, if_pos rfl, if_pos rfl, if_neg (by decide),
        <- runFacts_singleton (minuteEq (minute start)), <- runFacts_around]
      congr 1
      simp [factIf, runFacts_singleton]
  | false =>
      rw [if_neg Bool.false_ne_true, if_neg Bool.false_ne_true,
        if_pos (show (!false) = true from rfl), <- runFacts_around]
      congr 1
      simp [factIf]

theorem byWeekNo_of_fromRecur {fact : FactOp}
    (h : fromRecur recur start = Except.ok fact) : recur.byWeekNo = [] := by
  rcases bind_eq_ok h with ⟨_, _, h⟩
  rcases bind_eq_ok h with ⟨filters, hfilters, _⟩
  unfold fromRecurFilters at hfilters
  split at hfilters
  · assumption
  · cases hfilters

theorem fromRecur_run (hfreq : recur.freq.repeatsDays = true) {fact : FactOp}
    (hfact : fromRecur recur start = Except.ok fact) :
    exists first, recur.freq.firstOf start = some first ∧
      forall c, nextOccurOf fact c =
        ((runFacts (factsBefore recur start first) c).bind
          (minuteFact recur start)).bind
            (runFacts (factsAfter recur start)) := by
  have hbyWeekNo := byWeekNo_of_fromRecur hfact
  unfold fromRecur instanceOf at hfact
  cases hfirst : recur.freq.firstOf start with
  | none =>
      rw [hfirst] at hfact
      cases hfact
  | some first =>
      refine ⟨first, rfl, ?_⟩
      rw [hfirst] at hfact
      unfold fromRecurFilters fromRecurInvariants at hfact
      rw [if_pos hbyWeekNo] at hfact
      cases hfact
      intro c
      rw [<- facts_around hfreq]
      show runFacts (_ :: _) c = _
      rw [runFacts_cons, runFacts_cons]
      congr 1
      funext x
      exact runFacts_andFacts_append _ _ x

theorem secondFilters_seeks (hsupported : Supported recur) (lo : Int) :
    Seeks lo (runFacts (secondFilters recur))
      (AnyMatches recur.bySecond (fun s d => second d = s.asNum)) :=
  orFacts_seeks (fun s hs => secondEq_seeks lo (Bounded.asNum_bounds s).left
    (hsupported.bySecond s hs))

theorem secondInvariants_seeks (recur : Recur) (start lo : Int) :
    Seeks lo (runFacts (secondInvariants recur start))
      (fun d => recur.bySecond.isEmpty = true -> second d = second start) :=
  factIf_seeks recur.bySecond.isEmpty (secondEq_seeks lo
    (second_bounds start).left (second_bounds start).right)

theorem mem_seconds_iff {d : Int} :
    second d ∈ recur.seconds start ↔
      AnyMatches recur.bySecond (fun s d => second d = s.asNum) d ∧
        (recur.bySecond.isEmpty = true -> second d = second start) := by
  unfold Recur.seconds AnyMatches
  cases hempty : recur.bySecond.isEmpty with
  | true =>
      rw [if_pos rfl, List.mem_singleton]
      constructor
      · intro h
        exact ⟨fun hne => absurd (List.isEmpty_iff.mp hempty) hne, fun _ => h⟩
      · intro h
        exact h.right rfl
  | false =>
      have hne : recur.bySecond ≠ [] := List.isEmpty_eq_false_iff.mp hempty
      rw [if_neg Bool.false_ne_true, List.mem_map]
      constructor
      · rintro ⟨s, hs, hd⟩
        exact ⟨fun _ => ⟨s, hs, hd.symm⟩, fun h => nomatch h⟩
      · rintro ⟨h, _⟩
        rcases h hne with ⟨s, hs, hd⟩
        exact ⟨s, hs, hd.symm⟩

/-- What the facts before the minutes seek. -/
structure BeforeMatches (recur : Recur) (start d : Int) : Prop where
  period : (recur.freq.periods.index d - recur.freq.periods.index start) %
    recur.effectiveInterval = 0
  seconds : AnyMatches recur.bySecond (fun s d => second d = s.asNum) d
  rest : recur.byMinute.isEmpty = true ->
    FiltersMatch recur d ∧
      (recur.bySecond.isEmpty = true -> second d = second start)

/-- What the facts after the minutes seek. -/
structure AfterMatches (recur : Recur) (start d : Int) : Prop where
  rest : (!recur.byMinute.isEmpty) = true ->
    FiltersMatch recur d ∧
      (recur.bySecond.isEmpty = true -> second d = second start)
  derived : DerivedMatch recur start d

theorem matchesEvery_iff {d : Int} :
    MatchesEvery recur.effectiveInterval recur start d ↔
      BeforeMatches recur start d ∧ minute d ∈ recur.minutes start ∧
        AfterMatches recur start d := by
  constructor
  · intro h
    have hsecond := mem_seconds_iff.mp h.second
    exact ⟨⟨h.period, hsecond.left, fun _ => ⟨h.filters, hsecond.right⟩⟩,
      h.minute, ⟨fun _ => ⟨h.filters, hsecond.right⟩, h.derived⟩⟩
  · rintro ⟨hbefore, hminute, hafter⟩
    have hrest : FiltersMatch recur d ∧
        (recur.bySecond.isEmpty = true -> second d = second start) := by
      cases hempty : recur.byMinute.isEmpty with
      | true => exact hbefore.rest hempty
      | false => exact hafter.rest (by rw [hempty]; rfl)
    exact ⟨hbefore.period, mem_seconds_iff.mpr ⟨hbefore.seconds, hrest.right⟩,
      hminute, hrest.left, hafter.derived⟩

theorem Satisfies.effective {d : Int} (h : Satisfies recur start d) :
    MatchesEvery recur.effectiveInterval recur start d where
  period := by
    unfold Recur.effectiveInterval narrow
    split
    · exact h.period
    · exact Int.emod_one _
  second := h.second
  minute := h.minute
  filters := h.filters
  derived := h.derived

/--
The instants from which the repetitions are found: those from the first period
on, and all if every period repeats.
-/
def InDomain (recur : Recur) (first lo : Int) : Prop :=
  first ≤ lo ∨ recur.effectiveInterval = 1

section Around

variable {recur : Recur} (hsupported : Supported recur)
  {start first lo : Int} (hfirst : recur.freq.firstOf start = some first)
  (hdomain : InDomain recur first lo)

include hsupported hfirst hdomain

theorem instance_next {c n : Int} (hlo : lo ≤ c)
    (hrun : instanceFrom first recur.freq recur.intervalOrOne true c =
      some n) :
    ((recur.freq.periods.index c - recur.freq.periods.index start) %
        recur.effectiveInterval = 0 ∧ n = c) ∨
      ((recur.freq.periods.index c - recur.freq.periods.index start) %
          recur.effectiveInterval ≠ 0 ∧
        n = recur.freq.periods.first (recur.freq.periods.index c +
          (recur.effectiveInterval -
            (recur.freq.periods.index c - recur.freq.periods.index start) %
              recur.effectiveInterval))) := by
  have hfirst' := firstOf_eq_some hsupported.freq hfirst
  have hc : recur.freq.periods.first (recur.freq.periods.index start) ≤ c ∨
      recur.effectiveInterval = 1 := by
    rw [<- hfirst']
    exact hdomain.imp_left (fun h => le_trans h hlo)
  rw [hfirst'] at hrun
  rcases instanceFrom_next hsupported.freq hsupported.interval hc hrun with
    ⟨hzero, _, hsame⟩ | ⟨hjump, hn⟩
  · exact Or.inl ⟨hzero, hsame⟩
  · exact Or.inr ⟨fun hzero => absurd (hjump hzero) (by decide), hn⟩

theorem instance_seeks :
    Seeks lo (instanceFrom first recur.freq recur.intervalOrOne true)
      (fun d => (recur.freq.periods.index d -
          recur.freq.periods.index start) % recur.effectiveInterval = 0) := by
  have hpos := intervalBits_narrow recur.freq hsupported.interval
  apply Seeks.of_jumps
  intro c n hlo hrun
  rcases instance_next hsupported hfirst hdomain hlo hrun with
    ⟨hzero, hsame⟩ | ⟨hne, hn⟩
  · exact Or.inl ⟨hsame, hzero⟩
  · exact Or.inr (period_jump hpos hne hn)

theorem factsBefore_seeks :
    Seeks lo (runFacts (factsBefore recur start first))
      (BeforeMatches recur start) := by
  have hrest := Seeks.append (secondFilters_seeks hsupported lo)
    (ite_seeks recur.byMinute.isEmpty
      (Seeks.append (otherFilters_seeks hsupported lo)
        (secondInvariants_seeks recur start lo)))
  have hall := (instance_seeks hsupported hfirst hdomain).andThen hrest
  refine hall.congr (fun d _ => ⟨?_, ?_⟩)
  · intro h
    exact ⟨h.period, h.seconds, h.rest⟩
  · rintro ⟨hperiod, hsecond, hrest⟩
    exact ⟨hperiod, hsecond, hrest⟩

omit hfirst hdomain in
theorem factsAfter_seeks (start lo : Int) :
    Seeks lo (runFacts (factsAfter recur start))
      (AfterMatches recur start) := by
  have hall := Seeks.append
    (ite_seeks (!recur.byMinute.isEmpty)
      (Seeks.append (otherFilters_seeks hsupported lo)
        (secondInvariants_seeks recur start lo)))
    (otherInvariants_seeks hsupported.freq lo start)
  refine hall.congr (fun d _ => ⟨?_, ?_⟩)
  · intro h
    exact ⟨h.rest, h.derived⟩
  · rintro ⟨hrest, hderived⟩
    exact ⟨hrest, hderived⟩

end Around

/-!
# Overshooting
-/

/--
The instants from which the fact of a rule overshoots.  The current instant is
in a period that repeats, all minutes of the rule are over, the second filter
stays in the minute, and there is an occurrence in the next hour.
-/
structure StaleFor (interval : Int) (recur : Recur) (start curr : Int) :
    Prop where
  period : (recur.freq.periods.index curr - recur.freq.periods.index start) %
    recur.effectiveInterval = 0
  minutes : forall m, m ∈ recur.minutes start -> m < minute curr
  earlier : exists s, s ∈ recur.seconds start ∧ s < second curr
  later : recur.bySecond ≠ [] ->
    exists s, s ∈ recur.seconds start ∧ second curr ≤ s
  filters : recur.byMinute = [] ->
    recur.bySecond ≠ [] ∧ FiltersMatch recur curr
  next : exists d, d / 3600 = curr / 3600 + 1 ∧
    MatchesEvery interval recur start d

def StaleSeconds (recur : Recur) (start curr : Int) : Prop :=
  StaleFor recur.intervalOrOne recur start curr

theorem FiltersMatch.of_same_hour {d : Int} (hhour : c / 3600 = d / 3600)
    (h : FiltersMatch recur c) :
    FiltersMatch recur d := by
  have hsame : hour c = hour d := by
    unfold hour
    rw [hhour]
  have hdate : date c = date d := by
    unfold date
    omega
  have hbyDay : forall b : ByDay, b.Matches recur.freq c ->
      b.Matches recur.freq d := by
    intro b hb
    cases b with
    | every wd => simpa only [ByDay.Matches, weekday, hdate] using hb
    | fixed nth wd => simpa only [ByDay.Matches, hdate] using hb
  refine ⟨?_, ?_, ?_, ?_, ?_⟩
  · simpa only [AnyMatches, hsame] using h.byHour
  · intro hne
    rcases h.byDay hne with ⟨b, hb, hmatches⟩
    exact ⟨b, hb, hbyDay b hmatches⟩
  · simpa only [AnyMatches, MonthDayMatches, day, month, year, hdate] using
      h.byMonthDay
  · simpa only [AnyMatches, YearDayMatches, dayOfYear, year, hdate] using
      h.byYearDay
  · simpa only [AnyMatches, month, hdate] using h.byMonth

theorem secondInvariants_second {n : Int} (hempty : recur.bySecond = [])
    (hrun : runFacts (secondInvariants recur start) c = some n) :
    second n = second start := by
  unfold secondInvariants factIf at hrun
  rw [hempty, List.isEmpty_nil, if_pos rfl, runFacts_singleton] at hrun
  have hbounds := second_bounds start
  have hsteps := secondEq_eq_some hrun
  generalize second start = s at *
  unfold second at *
  omega

theorem seconds_eq (start : Int) (hne : recur.bySecond ≠ []) :
    recur.seconds start = recur.bySecond.map Bounded.asNum := by
  unfold Recur.seconds
  rw [if_neg]
  rw [List.isEmpty_iff]
  exact hne

section Overshoot

variable {recur : Recur} (hsupported : Supported recur)
  {start first lo : Int} (hfirst : recur.freq.firstOf start = some first)
  (hdomain : InDomain recur first lo)

include hsupported

theorem rest_unmoved {x y s : Int} (hminute : 0 < minute y)
    (hs : s ∈ recur.seconds start) (hlt : s < second y)
    (hrun : runFacts (if recur.byMinute.isEmpty then
      otherFilters recur ++ secondInvariants recur start else []) x =
        some y) :
    y = x ∧
      (recur.byMinute = [] -> recur.bySecond ≠ [] ∧ FiltersMatch recur y) := by
  cases hempty : recur.byMinute.isEmpty with
  | false =>
      rw [hempty, if_neg Bool.false_ne_true, runFacts_nil] at hrun
      cases hrun
      refine ⟨rfl, fun hnil => ?_⟩
      rw [hnil] at hempty
      cases hempty
  | true =>
      rw [hempty, if_pos rfl, runFacts_append] at hrun
      rcases Option.bind_eq_some_iff.mp hrun with ⟨z, hz, hinvariant⟩
      have hne : recur.bySecond ≠ [] := by
        intro hnil
        rw [secondInvariants_second hnil hinvariant] at hlt
        unfold Recur.seconds at hs
        rw [hnil, List.isEmpty_nil, if_pos rfl, List.mem_singleton] at hs
        omega
      have hsame : y = z := by
        unfold secondInvariants factIf at hinvariant
        rw [List.isEmpty_eq_false_iff.mpr hne, if_neg Bool.false_ne_true,
          runFacts_nil] at hinvariant
        cases hinvariant
        rfl
      subst hsame
      rcases otherFilters_lands recur x y hz with rfl | haligned
      · exact ⟨rfl, fun _ => ⟨hne,
          (otherFilters_seeks hsupported y).rests y le_rfl hz⟩⟩
      · have hfull := haligned.left
        unfold minute at hminute
        omega

include hfirst hdomain

theorem instance_aligned {x : Int} (hlo : lo ≤ c)
    (hrun : instanceFrom first recur.freq recur.intervalOrOne true c =
      some x) : x = c ∨ x % 3600 = 0 := by
  rcases instance_next hsupported hfirst hdomain hlo hrun with
    ⟨_, hsame⟩ | ⟨_, hjump⟩
  · exact Or.inl hsame
  · rw [hjump]
    exact Or.inr (periods_first_aligned _ _)

/--
If the facts before the minutes end behind the first second of the rule, not in
the first minute of an hour, they have stayed in the minute.
-/
theorem before_unmoved {x s : Int} (hlo : lo ≤ c)
    (hrun : runFacts (factsBefore recur start first) c = some x)
    (hminute : 0 < minute x) (hs : s ∈ recur.seconds start) (hlt : s < second x) :
    x / 60 = c / 60 ∧ c ≤ x ∧ s < second c ∧
      (recur.freq.periods.index c - recur.freq.periods.index start) %
        recur.effectiveInterval = 0 ∧
      (recur.bySecond ≠ [] ->
        exists s', s' ∈ recur.seconds start ∧ second c ≤ s') ∧
      (recur.byMinute = [] ->
        recur.bySecond ≠ [] ∧ FiltersMatch recur x) := by
  unfold factsBefore at hrun
  rw [runFacts_cons] at hrun
  rcases Option.bind_eq_some_iff.mp hrun with ⟨y, hy, hrun⟩
  rw [runFacts_append] at hrun
  rcases Option.bind_eq_some_iff.mp hrun with ⟨z, hz, hrun⟩
  rcases rest_unmoved hsupported hminute hs hlt hrun with ⟨rfl, hrest⟩
  have hyc : y = c := by
    rcases instance_aligned hsupported hfirst hdomain hlo hy with hsame | haligned
    · exact hsame
    · rw [secondFilters_aligned hsupported haligned hz] at hminute
      omega
  subst hyc
  have hperiod := (instance_seeks hsupported hfirst hdomain).rests y hlo hy
  by_cases hne : recur.bySecond = []
  · have hsame : x = y := by
      unfold secondFilters at hz
      rw [hne] at hz
      cases hz
      rfl
    subst hsame
    exact ⟨rfl, le_rfl, hlt, hperiod, fun h => absurd hne h, hrest⟩
  · have hseconds := seconds_eq start hne
    rw [hseconds] at hs
    rcases secondFilters_within hsupported hne hz hs hlt with
      ⟨hsame, hle, hearlier, hlater⟩
    rw [<- hseconds] at hlater
    exact ⟨hsame, hle, hearlier, hperiod, fun _ => hlater, hrest⟩

omit hfirst hdomain in
theorem secondFilters_stays {x : Int} (hlater : recur.bySecond ≠ [] ->
      exists s, s ∈ recur.seconds start ∧ second c ≤ s)
    (hrun : runFacts (secondFilters recur) c = some x) :
    x / 60 = c / 60 ∧ c ≤ x := by
  by_cases hne : recur.bySecond = []
  · unfold secondFilters at hrun
    rw [hne] at hrun
    cases hrun
    exact ⟨rfl, le_rfl⟩
  · rcases hlater hne with ⟨s, hs, hle⟩
    rw [seconds_eq start hne] at hs
    rcases List.mem_map.mp hs with ⟨v, hv, rfl⟩
    rcases runFacts_orFacts (fun s : Second => secondEq s.asNum) hne with
      ⟨fact, hfact, hfacts⟩
    unfold secondFilters at hrun
    rw [hfacts] at hrun
    rcases orFacts_least hfact hrun with ⟨⟨u, hu, hn⟩, hleast⟩
    rcases hleast v hv with ⟨k, hk, hnk⟩
    have hu59 := hsupported.bySecond u hu
    have hv59 := hsupported.bySecond v hv
    have hu' := Bounded.asNum_bounds u
    have hsteps := secondEq_eq_some hn
    have hsteps' := secondEq_eq_some hk
    unfold second at *
    omega

theorem stale_before {interval x : Int} (hlo : lo ≤ c)
    (hstale : StaleFor interval recur start c)
    (hrun : runFacts (factsBefore recur start first) c = some x) :
    x / 60 = c / 60 ∧ c ≤ x := by
  unfold factsBefore at hrun
  rw [runFacts_cons] at hrun
  rcases Option.bind_eq_some_iff.mp hrun with ⟨y, hy, hfilters⟩
  rw [runFacts_append] at hfilters
  rcases Option.bind_eq_some_iff.mp hfilters with ⟨z, hz, hrest⟩
  have hyc := (instance_seeks hsupported hfirst hdomain).stays hlo hy hstale.period
  subst hyc
  have hminute := secondFilters_stays hsupported hstale.later hz
  have hzx : x = z := by
    cases hempty : recur.byMinute.isEmpty with
    | false =>
        rw [hempty, if_neg Bool.false_ne_true] at hrest
        cases hrest
        rfl
    | true =>
        rcases hstale.filters (List.isEmpty_iff.mp hempty) with ⟨hne, hmatch⟩
        unfold secondInvariants factIf at hrest
        rw [hempty, if_pos rfl, List.isEmpty_eq_false_iff.mpr hne,
          if_neg Bool.false_ne_true, List.append_nil] at hrest
        refine (otherFilters_seeks hsupported z).stays le_rfl hrest ?_
        exact hmatch.of_same_hour (by omega)
  subst hzx
  exact hminute

omit hsupported hfirst hdomain in
theorem periods_index_of_date (freq : Freq) {d : Int} (hdate : date c = date d) :
    freq.periods.index c =
      freq.periods.index d := by
  cases freq with
  | weekly =>
      show (weeks.comp days).index c = (weeks.comp days).index d
      rw [comp_days_index, comp_days_index, hdate]
  | monthly =>
      show (months.comp days).index c = (months.comp days).index d
      rw [comp_days_index, comp_days_index, hdate]
  | yearly =>
      show (years.comp days).index c = (years.comp days).index d
      rw [comp_days_index, comp_days_index, hdate]
  | secondly | minutely | hourly | daily =>
      show days.index c = days.index d
      rw [days_index, days_index, hdate]

omit hsupported hfirst hdomain in
theorem matchesEvery_of_same_hour {interval d : Int}
    (h : MatchesEvery interval recur start c) (hhour : c / 3600 = d / 3600)
    (hsecond : second d ∈ recur.seconds start)
    (hminute : minute d ∈ recur.minutes start) :
    MatchesEvery interval recur start d := by
  have hsame : hour c = hour d := by
    unfold hour
    rw [hhour]
  have hdate : date c = date d := by
    unfold date
    omega
  refine ⟨?_, hsecond, hminute, h.filters.of_same_hour hhour, ?_⟩
  · rw [<- periods_index_of_date recur.freq hdate]
    exact h.period
  · rcases h.derived with ⟨hhour, hweekday, hday, hday', hmonth⟩
    simp only [weekday, month, day] at *
    rw [hdate] at hweekday hday hday' hmonth
    rw [hsame] at hhour
    exact ⟨hhour, hweekday, hday, hday', hmonth⟩

omit hsupported hfirst hdomain in
theorem second_of_seconds (hsupported : Supported recur) {s : Int}
    (h : s ∈ recur.seconds start) : 0 ≤ s ∧ s ≤ 59 := by
  unfold Recur.seconds at h
  split at h
  · cases List.mem_singleton.mp h
    exact second_bounds start
  · rcases List.mem_map.mp h with ⟨u, hu, rfl⟩
    exact ⟨(Bounded.asNum_bounds u).left, hsupported.bySecond u hu⟩

theorem stale_overshoots {interval x y : Int} (hlo : lo ≤ c)
    (hstale : StaleFor interval recur start c)
    (hbefore : runFacts (factsBefore recur start first) c = some x)
    (hminute : minuteFact recur start x = some y) :
    exists d, c ≤ d ∧ d < y ∧ MatchesEvery interval recur start d := by
  rcases stale_before hsupported hfirst hdomain hlo hstale hbefore with ⟨hsame, hle⟩
  have hover : forall m, m ∈ recur.minutes start -> m < minute x := by
    intro m hm
    have h := hstale.minutes m hm
    unfold minute at *
    rw [hsame]
    exact h
  rcases minuteFact_over hover hminute with ⟨_, m, hm, _, hy⟩
  rcases hstale.earlier with ⟨s, hs, hlt⟩
  rcases hstale.next with ⟨d, hd, hsatisfies⟩
  have hmbounds := minutes_bounds hm
  have hsbounds := second_of_seconds hsupported hs
  refine ⟨c - c % 3600 + 3600 + 60 * m + s, by omega, ?_, ?_⟩
  · unfold second at hlt
    omega
  · refine matchesEvery_of_same_hour hsatisfies (by omega) ?_ ?_
    · have hsecond : second (c - c % 3600 + 3600 + 60 * m + s) = s := by
        unfold second
        omega
      rw [hsecond]
      exact hs
    · have hminute' : minute (c - c % 3600 + 3600 + 60 * m + s) = m := by
        unfold minute
        omega
      rw [hminute']
      exact hm

theorem stale_of_overshoot {interval x y d : Int} (hlo : lo ≤ c)
    (hbefore : runFacts (factsBefore recur start first) c = some x)
    (hminute : minuteFact recur start x = some y) (hxd : x ≤ d) (hdy : d < y)
    (hsatisfies : MatchesEvery interval recur start d) :
    StaleFor interval recur start c := by
  rcases minuteFact_cases hminute with ⟨hover, m, hm, hleast, hy⟩ | hsound
  · have hmbounds := minutes_bounds hm
    have hpositive : 0 < minute x := by
      have h := hover m hm
      omega
    have hdminute := hover (minute d) hsatisfies.minute
    have hdleast := hleast (minute d) hsatisfies.minute
    have hdhour : d / 3600 = x / 3600 + 1 ∧ second d < second x := by
      unfold minute second at *
      omega
    rcases before_unmoved hsupported hfirst hdomain hlo hbefore hpositive
      hsatisfies.second hdhour.right with
      ⟨hsame, hle, hearlier, hperiod, hlater, hrest⟩
    refine ⟨hperiod, ?_, ⟨second d, hsatisfies.second, hearlier⟩, hlater, ?_,
      ⟨d, by omega, hsatisfies⟩⟩
    · intro m' hm'
      have h := hover m' hm'
      unfold minute at *
      rw [<- hsame]
      exact h
    · intro hempty
      exact ⟨(hrest hempty).left,
        (hrest hempty).right.of_same_hour (by omega)⟩
  · exact absurd hsatisfies.minute (hsound.right.right d hxd hdy)

end Overshoot

/-!
# Never overshooting
-/

theorem passes_none_iff (hsupported : Supported recur)
    {first lo interval n : Int} {fact : FactOp}
    (hrun : forall c, nextOccurOf fact c =
      ((runFacts (factsBefore recur start first) c).bind
        (minuteFact recur start)).bind (runFacts (factsAfter recur start)))
    (hfirst : recur.freq.firstOf start = some first)
    (hdomain : InDomain recur first lo) (hlo : lo ≤ c)
    (heffective : forall d, MatchesEvery interval recur start d ->
      MatchesEvery recur.effectiveInterval recur start d)
    (hnext : nextOccurOf fact c = some n) :
    (forall d, c ≤ d -> d < n -> ¬ MatchesEvery interval recur start d) ↔
      ¬ StaleFor interval recur start c := by
  rw [hrun] at hnext
  rcases Option.bind_eq_some_iff.mp hnext with ⟨y, hy, hafter⟩
  rcases Option.bind_eq_some_iff.mp hy with ⟨x, hbefore, hminute⟩
  have hbeforeSeeks := factsBefore_seeks hsupported hfirst hdomain
  have hafterSeeks := factsAfter_seeks hsupported start y
  have hforward := hafterSeeks.forward y n le_rfl hafter
  constructor
  · intro hnone hstale
    rcases stale_overshoots hsupported hfirst hdomain hlo hstale hbefore
      hminute with ⟨d, hcd, hdy, hmatches⟩
    exact hnone d hcd (lt_of_lt_of_le hdy hforward) hmatches
  · intro hfresh d hcd hdn hmatches
    have hparts := matchesEvery_iff.mp (heffective d hmatches)
    have hxd := hbeforeSeeks.le_of_match hlo hbefore hcd hparts.left
    by_cases hyd : y ≤ d
    · exact hafterSeeks.passes y n d le_rfl hafter hyd hdn hparts.right.right
    · exact hfresh (stale_of_overshoot hsupported hfirst hdomain hlo hbefore
        hminute hxd (not_le.mp hyd) hmatches)

theorem next_occur_of_skips_none_iff {recur : Recur} (hcovered : Covered recur)
    {start curr n : Int} {fact : FactOp}
    (hfact : fromRecur recur start = Except.ok fact)
    (hcurr : forall first, recur.freq.firstOf start = some first ->
      first ≤ curr)
    (hnext : nextOccurOf fact curr = some n) :
    (forall d, curr ≤ d -> d < n -> ¬ Satisfies recur start d) ↔
      ¬ StaleSeconds recur start curr := by
  rcases fromRecur_run hcovered.freq hfact with ⟨first, hfirst, hrun⟩
  exact passes_none_iff hcovered.supported hrun hfirst (Or.inl le_rfl)
    (hcurr first hfirst) (fun d h => Satisfies.effective h) hnext

/-- Seconds 10 and 50 of 12:25 and 13:25 on every day. -/
def twiceAnHour : Recur :=
  { freq := Freq.daily
    bySecond := [⟨10, by decide⟩, ⟨50, by decide⟩]
    byMinute := [⟨25, by decide⟩]
    byHour := [⟨12, noon_bounded⟩, ⟨13, by decide⟩] }

theorem twiceAnHour_covered : Covered twiceAnHour where
  freq := rfl
  interval := by decide
  bySecond := by decide
  byDay := fun b hb => nomatch hb
  byYearDay := fun yd hyd => nomatch hyd
  byWeekNo := rfl

/-- 2018-01-01 12:25:10, the first occurrence. -/
def firstOccurrence : Int := 1514809510

theorem twiceAnHour_firstOf {first : Int}
    (h : twiceAnHour.freq.firstOf firstOccurrence = some first) :
    first = 1514764800 := by
  have hvalue : twiceAnHour.freq.firstOf firstOccurrence =
      some 1514764800 := by
    decide
  cases hvalue.symm.trans h
  rfl

/-- From 12:20:00 the fact goes to 12:25:00 and passes nothing. -/
theorem twiceAnHour_skips_none :
    exists fact, fromRecur twiceAnHour firstOccurrence = Except.ok fact ∧
      nextOccurOf fact (firstOccurrence - 310) =
        some (firstOccurrence - 10) ∧
      forall d, firstOccurrence - 310 ≤ d -> d < firstOccurrence - 10 ->
        ¬ Satisfies twiceAnHour firstOccurrence d := by
  refine ⟨_, rfl, by decide, ?_⟩
  refine (next_occur_of_skips_none_iff twiceAnHour_covered rfl ?_
    (by decide)).mpr ?_
  · intro first hfirst
    rw [twiceAnHour_firstOf hfirst]
    decide
  · intro hstale
    exact absurd (hstale.minutes 25 (by decide)) (by decide)

/-- From 12:30:45 the fact goes to 13:25:50 and passes 13:25:10. -/
theorem twiceAnHour_overshoots :
    Covered twiceAnHour ∧
      exists fact, fromRecur twiceAnHour firstOccurrence = Except.ok fact ∧
        (forall first, twiceAnHour.freq.firstOf firstOccurrence = some first ->
          first ≤ firstOccurrence + 335) ∧
        nextOccurOf fact (firstOccurrence + 335) =
          some (firstOccurrence + 3640) ∧
        firstOccurrence + 335 ≤ firstOccurrence + 3600 ∧
        firstOccurrence + 3600 < firstOccurrence + 3640 ∧
        Satisfies twiceAnHour firstOccurrence (firstOccurrence + 3600) := by
  refine ⟨twiceAnHour_covered, _, rfl, ?_, by decide, by decide, by decide, ?_⟩
  · intro first hfirst
    rw [twiceAnHour_firstOf hfirst]
    decide
  · refine ⟨by decide, by decide, by decide, ⟨?_, ?_, ?_, ?_, ?_⟩, ⟨?_, ?_, ?_, ?_, ?_⟩⟩
    · intro _
      exact ⟨⟨13, by decide⟩, by decide, by decide⟩
    · exact fun hne => absurd rfl hne
    · exact fun hne => absurd rfl hne
    · exact fun hne => absurd rfl hne
    · exact fun hne => absurd rfl hne
    · exact fun hnil => nomatch hnil
    · exact fun hfreq => nomatch hfreq
    · exact fun hfreq => nomatch hfreq
    · exact fun hfreq => nomatch hfreq
    · exact fun hfreq => nomatch hfreq

end Recurrence
end MailClient
