import MailClient.Recurrence.Jumps
import Mathlib.Data.List.Basic

/-!
# The instants that match a rule

The constraints of a rule say which instants it names: the explicit parts, the
parts taken from the start, and the repetition of its period.  The facts of a
rule are composed of facts that seek these constraints, all but `minute_eq`.
-/

namespace MailClient
namespace Recurrence

open Foundation

/-!
# Constraints
-/

/-- A part of a rule matches if it is missing or one of its values does. -/
def AnyMatches {choice : Type} (choices : List choice)
    (p : choice -> Int -> Prop) (d : Int) : Prop :=
  choices ≠ [] -> exists i, i ∈ choices ∧ p i d

def Recur.seconds (recur : Recur) (start : Int) : List Int :=
  if recur.bySecond.isEmpty then [second start]
  else recur.bySecond.map Bounded.asNum

def Recur.minutes (recur : Recur) (start : Int) : List Int :=
  if recur.byMinute.isEmpty then [minute start]
  else recur.byMinute.map Bounded.asNum

/-- The interval as `instance_of` sees it: one that is too large is one. -/
def Recur.effectiveInterval (recur : Recur) : Int :=
  narrow recur.freq.intervalBits recur.intervalOrOne

/-- The entries of `BYDAY` that make a fact under the rule's frequency. -/
def Recur.dayEntries (recur : Recur) : List ByDay :=
  recur.byDay.filter (fun b => (byDayFact recur.freq b).isSome)

/-- An ordinal weekday matches within a month only. -/
def ByDay.Matches (freq : Freq) : ByDay -> Int -> Prop
  | ByDay.every wd, d => weekday d = wd.asJiff
  | ByDay.fixed nth wd, d =>
      freq = Freq.monthly ∧
        date d = nthDayOfMonth nth.val wd.asJiff (monthOf (date d))

/-- The explicit parts of a rule, but for its seconds and minutes. -/
structure FiltersMatch (recur : Recur) (d : Int) : Prop where
  byHour : AnyMatches recur.byHour (fun h d => hour d = h.asNum) d
  byDay : AnyMatches recur.dayEntries (fun b d => b.Matches recur.freq d) d
  byMonthDay : AnyMatches recur.byMonthDay
    (fun md d => MonthDayMatches md.toInt d) d
  byYearDay : AnyMatches recur.byYearDay
    (fun yd d => YearDayMatches yd.toInt d) d
  byMonth : AnyMatches recur.byMonth (fun m d => month d = m.asNum) d

/-- The parts taken from the start, but for its seconds and minutes. -/
structure DerivedMatch (recur : Recur) (start d : Int) : Prop where
  hour : recur.byHour = [] -> hour d = hour start
  weekday : recur.freq = Freq.weekly -> recur.byDay = [] ->
    weekday d = weekday start
  dayOfMonth : recur.freq = Freq.monthly -> recur.byDay = [] ->
    recur.byMonthDay = [] -> day d = day start
  dayOfYear : recur.freq = Freq.yearly -> recur.byDay = [] ->
    recur.byMonthDay = [] -> recur.byYearDay = [] -> day d = day start
  month : recur.freq = Freq.yearly -> recur.byMonth = [] ->
    recur.byYearDay = [] -> month d = month start

/-- All constraints of a rule, with periods repeating every `interval`. -/
structure MatchesEvery (interval : Int) (recur : Recur) (start d : Int) :
    Prop where
  period : (recur.freq.periods.index d - recur.freq.periods.index start) %
    interval = 0
  second : second d ∈ recur.seconds start
  minute : minute d ∈ recur.minutes start
  filters : FiltersMatch recur d
  derived : DerivedMatch recur start d

def Satisfies (recur : Recur) (start d : Int) : Prop :=
  MatchesEvery recur.intervalOrOne recur start d

/--
The rules whose facts never go back: days or longer as frequency, no leap
second, and ordinal weekdays of a year that stay within it.
-/
structure Supported (recur : Recur) : Prop where
  freq : recur.freq.repeatsDays = true
  interval : 1 ≤ recur.intervalOrOne
  bySecond : forall s, s ∈ recur.bySecond -> s.asNum ≤ 59
  byDay : recur.freq = Freq.yearly -> forall nth wd,
    ByDay.fixed nth wd ∈ recur.byDay -> -52 ≤ nth.val
  byWeekNo : recur.byWeekNo = []

/-- Supported rules with plain weekdays and no day from the end of a year. -/
structure Covered (recur : Recur) : Prop where
  freq : recur.freq.repeatsDays = true
  interval : 1 ≤ recur.intervalOrOne
  bySecond : forall s, s ∈ recur.bySecond -> s.asNum ≤ 59
  byDay : forall b, b ∈ recur.byDay -> exists wd, b = ByDay.every wd
  byYearDay : forall yd, yd ∈ recur.byYearDay -> yd.sign = Sign.pos
  byWeekNo : recur.byWeekNo = []

theorem Covered.supported {recur : Recur} (h : Covered recur) :
    Supported recur where
  freq := h.freq
  interval := h.interval
  bySecond := h.bySecond
  byDay := by
    intro _ nth wd hmem
    rcases h.byDay _ hmem with ⟨wd', heq⟩
    cases heq
  byWeekNo := h.byWeekNo

/-!
# Composed facts
-/

theorem runFacts_nil : runFacts [] = some :=
  rfl

theorem runFacts_cons (fact : FactOp) (facts : List FactOp) (c : Int) :
    runFacts (fact :: facts) c = (fact c).bind (runFacts facts) :=
  rfl

theorem runFacts_append (facts facts' : List FactOp) (c : Int) :
    runFacts (facts ++ facts') c =
      (runFacts facts c).bind (runFacts facts') := by
  induction facts generalizing c with
  | nil =>
      rfl
  | cons fact facts ih =>
      rw [List.cons_append, runFacts_cons, runFacts_cons, Option.bind_assoc]
      congr 1
      funext x
      exact ih x

theorem runFacts_singleton (fact : FactOp) : runFacts [fact] = fact := by
  funext c
  rw [runFacts_cons, runFacts_nil]
  exact Option.bind_fun_some _

theorem runFacts_andFacts (facts : List FactOp) :
    runFacts (andFacts facts).toList = runFacts facts := by
  cases facts with
  | nil => rfl
  | cons fact rest => exact runFacts_singleton _

theorem Seeks.append {lo : Int} {facts facts' : List FactOp}
    {p q : Int -> Prop} (h : Seeks lo (runFacts facts) p)
    (h' : Seeks lo (runFacts facts') q) :
    Seeks lo (runFacts (facts ++ facts')) (fun d => p d ∧ q d) := by
  have hrun : runFacts (facts ++ facts') =
      fun c => (runFacts facts c).bind (runFacts facts') := by
    funext c
    exact runFacts_append facts facts' c
  rw [hrun]
  exact h.andThen h'

theorem ite_seeks {lo : Int} {facts : List FactOp} {p : Int -> Prop}
    (missing : Bool) (h : Seeks lo (runFacts facts) p) :
    Seeks lo (runFacts (if missing then facts else []))
      (fun d => missing = true -> p d) := by
  cases missing with
  | true =>
      rw [if_pos rfl]
      exact h.congr (fun d _ => ⟨fun hp => hp rfl, fun hp _ => hp⟩)
  | false =>
      rw [if_neg Bool.false_ne_true, runFacts_nil]
      exact (Seeks.rest lo).congr
        (fun d _ => ⟨fun _ => trivial, fun _ h => nomatch h⟩)

theorem factIf_seeks {lo : Int} {fact : FactOp} {p : Int -> Prop}
    (missing : Bool) (h : Seeks lo fact p) :
    Seeks lo (runFacts (factIf missing fact))
      (fun d => missing = true -> p d) := by
  rw [<- runFacts_singleton fact] at h
  exact ite_seeks missing h

section Choices

variable {choice : Type} {facts : choice -> FactOp}

theorem foldlM_least {choices : List choice} {c best n : Int}
    (h : (choices.map facts).foldlM
      (fun best fact => (fact c).map (min best)) best = some n) :
    (n = best ∨ exists i, i ∈ choices ∧ facts i c = some n) ∧ n ≤ best ∧
      forall i, i ∈ choices -> exists k, facts i c = some k ∧ n ≤ k := by
  induction choices generalizing best with
  | nil =>
      cases h
      exact ⟨Or.inl rfl, le_rfl, fun i hi => nomatch hi⟩
  | cons i choices ih =>
      rw [List.map_cons, List.foldlM_cons] at h
      rcases Option.bind_eq_some_iff.mp h with ⟨x, hx, hrest⟩
      rcases Option.map_eq_some_iff.mp hx with ⟨k, hk, rfl⟩
      rcases ih hrest with ⟨hfrom, hle, hall⟩
      refine ⟨?_, le_trans hle (min_le_left best k), ?_⟩
      · rcases hfrom with hmin | ⟨j, hj, hn⟩
        · rcases min_choice best k with hbest | hk'
          · exact Or.inl (hmin.trans hbest)
          · rw [hmin, hk']
            exact Or.inr ⟨i, List.mem_cons_self, hk⟩
        · exact Or.inr ⟨j, List.mem_cons_of_mem i hj, hn⟩
      · intro j hj
        rcases List.mem_cons.mp hj with rfl | hj
        · exact ⟨k, hk, le_trans hle (min_le_right best k)⟩
        · exact hall j hj

theorem orFacts_least {choices : List choice} {fact : FactOp} {c n : Int}
    (hfact : orFacts (choices.map facts) = some fact)
    (hrun : fact c = some n) :
    (exists i, i ∈ choices ∧ facts i c = some n) ∧
      forall i, i ∈ choices -> exists k, facts i c = some k ∧ n ≤ k := by
  cases choices with
  | nil => cases hfact
  | cons i choices =>
      cases hfact
      rcases Option.bind_eq_some_iff.mp hrun with ⟨best, hbest, hrest⟩
      rcases foldlM_least hrest with ⟨hfrom, hle, hall⟩
      refine ⟨?_, ?_⟩
      · rcases hfrom with rfl | ⟨j, hj, hn⟩
        · exact ⟨i, List.mem_cons_self, hbest⟩
        · exact ⟨j, List.mem_cons_of_mem i hj, hn⟩
      · intro j hj
        rcases List.mem_cons.mp hj with rfl | hj
        · exact ⟨best, hbest, hle⟩
        · exact hall j hj

theorem runFacts_orFacts (facts : choice -> FactOp) {choices : List choice}
    (hne : choices ≠ []) :
    exists fact, orFacts (choices.map facts) = some fact ∧
      runFacts (orFacts (choices.map facts)).toList = fact := by
  cases choices with
  | nil => exact absurd rfl hne
  | cons i choices => exact ⟨_, rfl, runFacts_singleton _⟩

theorem orFacts_seeks {lo : Int} {choices : List choice}
    {ps : choice -> Int -> Prop}
    (h : forall i, i ∈ choices -> Seeks lo (facts i) (ps i)) :
    Seeks lo (runFacts (orFacts (choices.map facts)).toList)
      (AnyMatches choices ps) := by
  by_cases hne : choices = []
  · rw [hne]
    exact (Seeks.rest lo).congr
      (fun d _ => ⟨fun _ => trivial, fun _ h => absurd rfl h⟩)
  · rcases runFacts_orFacts facts hne with ⟨fact, hfact, hrun⟩
    rw [hrun]
    have hleast := Seeks.least h
      (fun c n hn => (orFacts_least hfact hn).left)
      (fun c n hn => (orFacts_least hfact hn).right)
    exact hleast.congr (fun d _ => ⟨fun hany => hany hne, fun hex _ => hex⟩)

end Choices

/-!
# The facts of a rule
-/

def secondFilters (recur : Recur) : List FactOp :=
  (orFacts (recur.bySecond.map (fun s => secondEq s.asNum))).toList

def minuteFilters (recur : Recur) : List FactOp :=
  (orFacts (recur.byMinute.map (fun m => minuteEq m.asNum))).toList

/-- The filters after those of the seconds and the minutes. -/
def otherFilters (recur : Recur) : List FactOp :=
  (orFacts (recur.byHour.map (fun h => hourEq h.asNum))).toList ++
    (orFacts (recur.byDay.filterMap (byDayFact recur.freq))).toList ++
    (orFacts (recur.byMonthDay.map (fun md => dayEq md.toInt))).toList ++
    (orFacts (recur.byYearDay.map (fun yd => dayOfYearEq yd.toInt))).toList ++
    (orFacts (recur.byMonth.map (fun m => monthEq m.asNum))).toList

/-- The invariants after those of the seconds and the minutes. -/
def otherInvariants (recur : Recur) (start : Int) : List FactOp :=
  factIf recur.byHour.isEmpty (observedHourEq (hour start)) ++
    dateInvariants recur start

theorem filterFacts_eq (recur : Recur) :
    filterFacts recur =
      secondFilters recur ++ (minuteFilters recur ++ otherFilters recur) := by
  simp only [filterFacts, secondFilters, minuteFilters, otherFilters,
    List.append_assoc]

theorem invariants_eq {recur : Recur} (hfreq : recur.freq.repeatsDays = true)
    (start : Int) :
    timeInvariants recur start ++ dateInvariants recur start =
      factIf recur.bySecond.isEmpty (secondEq (second start)) ++
        (factIf recur.byMinute.isEmpty (minuteEq (minute start)) ++
          otherInvariants recur start) := by
  unfold timeInvariants otherInvariants
  cases hfreq' : recur.freq with
  | secondly => rw [hfreq'] at hfreq; cases hfreq
  | minutely => rw [hfreq'] at hfreq; cases hfreq
  | hourly => rw [hfreq'] at hfreq; cases hfreq
  | daily => simp only [List.append_assoc]
  | weekly => simp only [List.append_assoc]
  | monthly => simp only [List.append_assoc]
  | yearly => simp only [List.append_assoc]

theorem second_bounds (t : Int) : 0 ≤ second t ∧ second t ≤ 59 := by
  unfold second
  omega

theorem minute_bounds (t : Int) : 0 ≤ minute t ∧ minute t ≤ 59 := by
  unfold minute
  omega

theorem hour_bounds (t : Int) : 0 ≤ hour t ∧ hour t ≤ 23 := by
  unfold hour
  omega

theorem Bounded.asNum_bounds {lo hi : Nat} (u : Bounded lo hi) :
    (lo : Int) ≤ u.asNum ∧ u.asNum ≤ hi := by
  have h := u.property
  unfold Bounded.asNum
  omega

theorem asJiff_bounds (wd : Weekday) : 0 ≤ wd.asJiff ∧ wd.asJiff ≤ 6 := by
  cases wd <;> decide

/-- The fact of an entry of `BYDAY` that makes one. -/
def dayFact (freq : Freq) (b : ByDay) : FactOp :=
  (byDayFact freq b).getD some

theorem byDay_facts (recur : Recur) :
    recur.byDay.filterMap (byDayFact recur.freq) =
      recur.dayEntries.map (dayFact recur.freq) := by
  unfold Recur.dayEntries dayFact
  induction recur.byDay with
  | nil =>
      rfl
  | cons b rest ih =>
      cases hb : byDayFact recur.freq b with
      | none =>
          rw [List.filterMap_cons_none hb, List.filter_cons_of_neg, ih]
          rw [hb]
          exact Bool.false_ne_true
      | some fact =>
          rw [List.filterMap_cons_some hb, List.filter_cons_of_pos,
            List.map_cons, ih, hb]
          · rfl
          · rw [hb]
            rfl

theorem dayFact_seeks {recur : Recur} (hsupported : Supported recur)
    (lo : Int) {b : ByDay} (hb : b ∈ recur.dayEntries) :
    Seeks lo (dayFact recur.freq b) (fun d => b.Matches recur.freq d) := by
  rcases List.mem_filter.mp hb with ⟨hmem, hfact⟩
  cases b with
  | every wd =>
      exact weekdayEq_seeks lo (asJiff_bounds wd).left (asJiff_bounds wd).right
  | fixed nth wd =>
      cases hfreq : recur.freq with
      | monthly =>
          refine (nthWeekdayOfMonthEq_seeks lo nth.val wd.asJiff).congr
            (fun d _ => ?_)
          exact and_iff_right rfl
      | yearly =>
          refine (nthWeekdayOfYearEq_seeks lo wd.asJiff
            (hsupported.byDay hfreq nth wd hmem)).congr (fun d _ => ?_)
          exact iff_of_false (fun h => nomatch h.left) id
      | secondly => rw [hfreq] at hfact; cases hfact
      | minutely => rw [hfreq] at hfact; cases hfact
      | hourly => rw [hfreq] at hfact; cases hfact
      | daily => rw [hfreq] at hfact; cases hfact
      | weekly => rw [hfreq] at hfact; cases hfact

theorem monthDay_bounds (md : Signed Day) :
    -31 ≤ md.toInt ∧ md.toInt ≠ 0 := by
  have h := Bounded.asNum_bounds md.value
  unfold Signed.toInt
  cases md.sign with
  | neg =>
      dsimp only
      omega
  | pos =>
      dsimp only
      omega

theorem yearDay_bounds (yd : Signed DayOrdinal) :
    -366 ≤ yd.toInt ∧ yd.toInt ≠ 0 := by
  have h := Bounded.asNum_bounds yd.value
  unfold Signed.toInt
  cases yd.sign with
  | neg =>
      dsimp only
      omega
  | pos =>
      dsimp only
      omega

theorem otherFilters_seeks {recur : Recur} (hsupported : Supported recur)
    (lo : Int) :
    Seeks lo (runFacts (otherFilters recur)) (FiltersMatch recur) := by
  have hhour : Seeks lo
      (runFacts (orFacts (recur.byHour.map (fun h =>
        hourEq h.asNum))).toList)
      (AnyMatches recur.byHour (fun h d => hour d = h.asNum)) :=
    orFacts_seeks (fun h _ => hourEq_seeks lo (Bounded.asNum_bounds h).left
      (Bounded.asNum_bounds h).right)
  have hday : Seeks lo
      (runFacts (orFacts (recur.dayEntries.map (dayFact recur.freq))).toList)
      (AnyMatches recur.dayEntries (fun b d => b.Matches recur.freq d)) :=
    orFacts_seeks (fun b hb => dayFact_seeks hsupported lo hb)
  have hmonthDay : Seeks lo
      (runFacts (orFacts (recur.byMonthDay.map (fun md =>
        dayEq md.toInt))).toList)
      (AnyMatches recur.byMonthDay (fun md d => MonthDayMatches md.toInt d)) :=
    orFacts_seeks (fun md _ => dayEq_seeks lo (monthDay_bounds md).left
      (monthDay_bounds md).right)
  have hyearDay : Seeks lo
      (runFacts (orFacts (recur.byYearDay.map (fun yd =>
        dayOfYearEq yd.toInt))).toList)
      (AnyMatches recur.byYearDay (fun yd d => YearDayMatches yd.toInt d)) :=
    orFacts_seeks (fun yd _ => dayOfYearEq_seeks lo (yearDay_bounds yd).left
      (yearDay_bounds yd).right)
  have hmonth : Seeks lo
      (runFacts (orFacts (recur.byMonth.map (fun m =>
        monthEq m.asNum))).toList)
      (AnyMatches recur.byMonth (fun m d => month d = m.asNum)) :=
    orFacts_seeks (fun m _ => monthEq_seeks lo (Bounded.asNum_bounds m).left
      (Bounded.asNum_bounds m).right)
  unfold otherFilters
  rw [byDay_facts]
  have hall := Seeks.append (Seeks.append (Seeks.append
    (Seeks.append hhour hday) hmonthDay) hyearDay) hmonth
  refine hall.congr (fun d _ => ⟨?_, ?_⟩)
  · intro h
    exact ⟨⟨⟨⟨h.byHour, h.byDay⟩, h.byMonthDay⟩, h.byYearDay⟩, h.byMonth⟩
  · rintro ⟨⟨⟨⟨hhour, hday⟩, hmonthDay⟩, hyearDay⟩, hmonth⟩
    exact ⟨hhour, hday, hmonthDay, hyearDay, hmonth⟩

theorem dayEq_seeks_start (lo start : Int) :
    Seeks lo (dayEq (day start)) (fun d => day d = day start) :=
  dayEq_seeks_pos lo (dayOfMonth_bounds (date start)).left

theorem monthEq_seeks_start (lo start : Int) :
    Seeks lo (monthEq (month start)) (fun d => month d = month start) := by
  apply monthEq_seeks
  · unfold month monthOfYear
    omega
  · unfold month monthOfYear
    omega

theorem weekdayEq_seeks_start (lo start : Int) :
    Seeks lo (weekdayEq (weekday start))
      (fun d => weekday d = weekday start) := by
  apply weekdayEq_seeks
  · unfold weekday weekdayOf
    omega
  · unfold weekday weekdayOf
    omega

theorem otherInvariants_seeks {recur : Recur}
    (hfreq : recur.freq.repeatsDays = true) (lo start : Int) :
    Seeks lo (runFacts (otherInvariants recur start))
      (DerivedMatch recur start) := by
  have hhour := factIf_seeks recur.byHour.isEmpty (observedHourEq_seeks lo
    (hour_bounds start).left (hour_bounds start).right)
  unfold otherInvariants dateInvariants
  cases hfreq' : recur.freq with
  | secondly => rw [hfreq'] at hfreq; cases hfreq
  | minutely => rw [hfreq'] at hfreq; cases hfreq
  | hourly => rw [hfreq'] at hfreq; cases hfreq
  | daily =>
      rw [List.append_nil]
      refine hhour.congr (fun d _ => ⟨?_, ?_⟩)
      · intro h hempty
        exact h.hour (List.isEmpty_iff.mp hempty)
      · intro h
        constructor <;> simp_all
  | weekly =>
      have hall := Seeks.append hhour (factIf_seeks recur.byDay.isEmpty
        (weekdayEq_seeks_start lo start))
      refine hall.congr (fun d _ => ⟨?_, ?_⟩)
      · intro h
        exact ⟨fun hempty => h.hour (List.isEmpty_iff.mp hempty),
          fun hempty => h.weekday hfreq' (List.isEmpty_iff.mp hempty)⟩
      · intro h
        constructor <;> simp_all
  | monthly =>
      have hall := Seeks.append hhour
        (factIf_seeks (recur.byDay.isEmpty && recur.byMonthDay.isEmpty)
          (dayEq_seeks_start lo start))
      refine hall.congr (fun d _ => ⟨?_, ?_⟩)
      · intro h
        refine ⟨fun hempty => h.hour (List.isEmpty_iff.mp hempty), ?_⟩
        intro hempty
        have hboth := Bool.and_eq_true_iff.mp hempty
        exact h.dayOfMonth hfreq' (List.isEmpty_iff.mp hboth.left)
          (List.isEmpty_iff.mp hboth.right)
      · intro h
        constructor <;> simp_all
  | yearly =>
      have hall := Seeks.append hhour (Seeks.append
        (factIf_seeks (recur.byDay.isEmpty && recur.byMonthDay.isEmpty &&
          recur.byYearDay.isEmpty) (dayEq_seeks_start lo start))
        (factIf_seeks (recur.byMonth.isEmpty && recur.byYearDay.isEmpty)
          (monthEq_seeks_start lo start)))
      refine hall.congr (fun d _ => ⟨?_, ?_⟩)
      · intro h
        refine ⟨fun hempty => h.hour (List.isEmpty_iff.mp hempty), ?_, ?_⟩
        · intro hempty
          have hthree := Bool.and_eq_true_iff.mp hempty
          have hboth := Bool.and_eq_true_iff.mp hthree.left
          exact h.dayOfYear hfreq' (List.isEmpty_iff.mp hboth.left)
            (List.isEmpty_iff.mp hboth.right)
            (List.isEmpty_iff.mp hthree.right)
        · intro hempty
          have hboth := Bool.and_eq_true_iff.mp hempty
          exact h.month hfreq' (List.isEmpty_iff.mp hboth.left)
            (List.isEmpty_iff.mp hboth.right)
      · intro h
        constructor <;> simp_all

end Recurrence
end MailClient
