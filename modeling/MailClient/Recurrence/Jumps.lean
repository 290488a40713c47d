import MailClient.Foundation.Seek
import MailClient.Recurrence.Fact

/-!
# What the distance functions seek

Each fact is shown to seek the instants that match its part of the rule, with
one exception.  `minute_eq` keeps the seconds when it moves to the next hour,
so it goes forward and rests only on a match, but it may pass one.
-/

namespace MailClient
namespace Recurrence

open Foundation

/-!
# Time of day
-/

theorem secondEq_seeks (lo : Int) {s : Int} (hs : 0 ≤ s) (hs' : s ≤ 59) :
    Seeks lo (secondEq s) (fun d => second d = s) := by
  apply Seeks.of_jumps
  intro c n _ hrun
  unfold secondEq at hrun
  unfold second at *
  split at hrun
  · have hn := build_second hrun
    refine Or.inr ⟨by omega, ?_⟩
    intro d hcd hdn
    omega
  · split at hrun
    · rename_i heq
      cases hrun
      exact Or.inl ⟨rfl, heq⟩
    · rcases Option.bind_eq_some_iff.mp hrun with ⟨x, hx, hbuild⟩
      have hadd := addMinutes_eq_some hx
      have hn := build_second hbuild
      refine Or.inr ⟨by omega, ?_⟩
      intro d hcd hdn
      omega

theorem hourEq_seeks (lo : Int) {h : Int} (hh : 0 ≤ h) (hh' : h ≤ 23) :
    Seeks lo (hourEq h) (fun d => hour d = h) := by
  apply Seeks.of_jumps
  intro c n _ hrun
  unfold hourEq at hrun
  unfold hour at *
  split at hrun
  · have hn := build_time hrun
    refine Or.inr ⟨by omega, ?_⟩
    intro d hcd hdn
    omega
  · split at hrun
    · rename_i heq
      cases hrun
      exact Or.inl ⟨rfl, heq⟩
    · rcases Option.bind_eq_some_iff.mp hrun with ⟨x, hx, hbuild⟩
      have hadd := tomorrow_eq_some hx
      have hn := build_time hbuild
      refine Or.inr ⟨by omega, ?_⟩
      intro d hcd hdn
      omega

/-- In UTC no hour is skipped, so the observed hour is the hour itself. -/
theorem observedHourEq_seeks (lo : Int) {h : Int} (hh : 0 ≤ h)
    (hh' : h ≤ 23) :
    Seeks lo (observedHourEq h) (fun d => hour d = h) := by
  have hseeks := hourEq_seeks lo hh hh'
  have hsame : forall c n, observedHourEq h c = some n ->
      hourEq h c = some n := by
    intro c n hrun
    rcases Option.bind_eq_some_iff.mp hrun with ⟨x, hx, hrest⟩
    have hxhour : hour x = h := by
      have hn := build_time hx
      unfold hour
      omega
    rw [hxhour] at hrest
    unfold hourEq
    rw [hx]
    exact hrest
  exact
    { forward := fun c n hlo hrun => hseeks.forward c n hlo (hsame c n hrun)
      passes := fun c n d hlo hrun =>
        hseeks.passes c n d hlo (hsame c n hrun)
      rests := fun c hlo hrun => hseeks.rests c hlo (hsame c c hrun) }

/-!
# Jumps to the start of a day
-/

variable {c n d : Int}

theorem day_jump {k : Int} {p : Int -> Prop} (hn : n = 86400 * k)
    (hlt : date c < k) (hnone : forall e, date c ≤ e -> e < k -> ¬ p e) :
    c < n ∧ forall d, c ≤ d -> d < n -> ¬ p (date d) := by
  unfold date at *
  refine ⟨by omega, ?_⟩
  intro d hcd hdn
  exact hnone (d / 86400) (by omega) (by omega)

theorem startOfDay_addDays {x k : Int} (hadd : addDays k c = some x)
    (hstart : startOfDay x = some n) : n = 86400 * (date c + k) := by
  rw [startOfDay_eq_some hstart, date_addDays hadd]

theorem weekdayEq_seeks (lo : Int) {wd : Int} (hwd : 0 ≤ wd) (hwd' : wd ≤ 6) :
    Seeks lo (weekdayEq wd) (fun d => weekday d = wd) := by
  apply Seeks.of_jumps
  intro c n _ hrun
  unfold weekdayEq at hrun
  split at hrun
  · rename_i heq
    cases hrun
    exact Or.inl ⟨rfl, heq⟩
  · rename_i hne
    rcases Option.bind_eq_some_iff.mp hrun with ⟨x, hx, hstart⟩
    have hn := startOfDay_addDays hx hstart
    unfold daysUntil weekday weekdayOf at *
    refine Or.inr (day_jump (p := fun e => (e + 3) % 7 = wd) hn ?_ ?_)
    · omega
    · intro e hce hek
      omega

/-!
# Positions within a period

`day_eq` and `day_of_year_eq` with a position counted from the start are one
argument over months and over years.
-/

theorem ordinal_before {P : Partition} (hd : P.ordinal (date c) < d)
    (hn : n = 86400 * (date c + (d - P.ordinal (date c)))) :
    c < n ∧ forall t, c ≤ t -> t < n -> ¬ P.ordinal (date t) = d := by
  refine day_jump (p := fun e => P.ordinal e = d) hn (by omega) ?_
  intro e hce hek heq
  have h := P.ordinal_lt_within (d := d) hce
    (by unfold Partition.ordinal at hek; omega)
  omega

theorem ordinal_after {P : Partition} (hpos : 1 ≤ d)
    (hd : d < P.ordinal (date c))
    (hn : n = 86400 * (P.first (P.index (date c) + 1) - 1 + d)) :
    c < n ∧ forall t, c ≤ t -> t < n -> ¬ P.ordinal (date t) = d := by
  have hnext := P.lt_first_index_succ (date c)
  refine day_jump (p := fun e => P.ordinal e = d) hn (by omega) ?_
  intro e hce hek
  exact P.ordinal_ne_past hd hce hek

theorem ordinal_jump {P : Partition} (hd : 1 ≤ d) {last : Option Int}
    (hlast : forall x, last = some x ->
      date x = P.first (P.index (date c) + 1) - 1)
    (hrun : (if P.ordinal (date c) < d then
        (addDays (d - P.ordinal (date c)) c).bind startOfDay
      else if P.ordinal (date c) = d then some c
      else last.bind (fun x => (addDays d x).bind startOfDay)) = some n) :
    (n = c ∧ P.ordinal (date c) = d) ∨
      (c < n ∧ forall t, c ≤ t -> t < n -> ¬ P.ordinal (date t) = d) := by
  split at hrun
  · rename_i hlt
    rcases Option.bind_eq_some_iff.mp hrun with ⟨x, hx, hstart⟩
    exact Or.inr (ordinal_before hlt (startOfDay_addDays hx hstart))
  · split at hrun
    · rename_i heq
      cases hrun
      exact Or.inl ⟨rfl, heq⟩
    · rename_i hlt hne
      rcases Option.bind_eq_some_iff.mp hrun with ⟨x, hx, hrest⟩
      rcases Option.bind_eq_some_iff.mp hrest with ⟨y, hy, hstart⟩
      have hn := startOfDay_addDays hy hstart
      rw [hlast x hx] at hn
      have hgt : d < P.ordinal (date c) := by omega
      exact Or.inr (ordinal_after hd hgt hn)

theorem dayEq_seeks_pos (lo : Int) (hd : 1 ≤ d) :
    Seeks lo (dayEq d) (fun t => day t = d) := by
  apply Seeks.of_jumps
  intro c n _ hrun
  have hneg : ¬ d < 0 := by omega
  unfold dayEq absDay at hrun
  rw [if_neg hneg] at hrun
  simp only [Option.bind_eq_bind, Option.bind_some, if_neg hneg] at hrun
  exact ordinal_jump hd (fun x hx => date_lastOfMonth hx) hrun

theorem dayOfYearEq_seeks_pos (lo : Int) (hd : 1 ≤ d) :
    Seeks lo (dayOfYearEq d) (fun t => dayOfYear (date t) = d) := by
  apply Seeks.of_jumps
  intro c n _ hrun
  have hneg : ¬ d < 0 := by omega
  unfold dayOfYearEq absDayOfYear at hrun
  rw [if_neg hneg] at hrun
  simp only [Option.bind_eq_bind, Option.bind_some, if_neg hneg] at hrun
  exact ordinal_jump hd (fun x hx => date_lastOfYear hx) hrun

/-!
# Days counted from the end of the month
-/

/-- The day before which `-d` days of month `k` are left, if it has so many. -/
def dayFromEnd (d k : Int) : Int :=
  monthStart (k + 1) + d

/-- A `BYMONTHDAY` value, negative ones count from the end of the month. -/
def MonthDayMatches (d t : Int) : Prop :=
  if d < 0 then date t = dayFromEnd d (monthOf (date t)) else day t = d

instance (d t : Int) : Decidable (MonthDayMatches d t) := by
  unfold MonthDayMatches
  infer_instance

theorem date_daysBeforeLast {x y : Int} (hx : lastOfMonth c = some x)
    (hy : addDays (-(-d - 1)) x = some y) :
    date y = dayFromEnd d (monthOf (date c)) := by
  rw [date_addDays hy, date_lastOfMonth hx]
  unfold dayFromEnd
  omega

theorem dayFromEnd_within {k : Int} (hd : -monthLength k ≤ d) (hd' : d < 0) :
    monthOf (dayFromEnd d k) = k := by
  refine months.index_eq_iff.mpr ?_
  have hlength := monthStart_add k
  rw [months_first, months_first]
  unfold dayFromEnd
  omega

theorem dayFromEnd_before {k : Int} (hd : -31 ≤ d) (hshort : d < -monthLength k) :
    monthOf (dayFromEnd d k) = k - 1 ∧ monthLength (k - 1) = 31 ∧
      monthLength (k + 1) = 31 := by
  have hneighbours := monthLength_neighbours (k := k) (by omega)
  have hlength := monthStart_add k
  have hlength' := monthStart_add (k - 1)
  rw [Int.sub_add_cancel] at hlength'
  have hbounds := monthLength_bounds k
  refine ⟨months.index_eq_iff.mpr ?_, hneighbours⟩
  rw [months_first, months_first, Int.sub_add_cancel]
  unfold dayFromEnd
  omega

/-- No day from `c` to the one in its own month counts `-d` from an end. -/
theorem dayFromEnd_before_target {x y : Int} (hd : -31 ≤ d) (hd' : d < 0)
    (hxy : x ≤ y)
    (hy : y < x + (dayOfMonth (dayFromEnd d (monthOf x)) - dayOfMonth x)) :
    y ≠ dayFromEnd d (monthOf y) := by
  intro heq
  have hmono := months.index_mono hxy
  rw [months_index, months_index] at hmono
  have hbracket := monthOf_bracket x
  have hbracket' := monthOf_bracket y
  have hlength := monthStart_add (monthOf x)
  by_cases hfits : -monthLength (monthOf x) ≤ d
  · rw [dayOfMonth_eq, dayOfMonth_eq, dayFromEnd_within hfits hd'] at hy
    have hsame : monthOf y = monthOf x := by
      have hlt : y < months.first (monthOf x + 1) := by
        rw [months_first]
        unfold dayFromEnd at hy
        omega
      have h := months.lt_first_iff.mp hlt
      rw [months_index] at h
      omega
    rw [hsame] at heq
    omega
  · have hshort := dayFromEnd_before hd (not_le.mp hfits)
    have hlength' := monthStart_add (monthOf x - 1)
    have hlength'' := monthStart_add (monthOf x + 1)
    rw [Int.sub_add_cancel] at hlength'
    rw [dayOfMonth_eq, dayOfMonth_eq, hshort.left] at hy
    unfold dayFromEnd at hy
    have hlt : monthOf y < monthOf x + 2 := by
      refine months.lt_first_iff.mp ?_
      rw [months_first]
      have htwo : monthOf x + 2 = monthOf x + 1 + 1 := by omega
      rw [htwo]
      omega
    unfold dayFromEnd at heq
    rcases (by omega : monthOf y = monthOf x ∨ monthOf y = monthOf x + 1)
      with hsame | hnext
    · rw [hsame] at heq
      omega
    · rw [hnext] at heq
      omega

theorem dayFromEnd_past {x y : Int} (hd' : d < 0)
    (hx : dayFromEnd d (monthOf x) < x) (hxy : x ≤ y)
    (hy : y < dayFromEnd d (monthOf x + 1)) : y ≠ dayFromEnd d (monthOf y) := by
  intro heq
  have hmono := months.index_mono hxy
  rw [months_index, months_index] at hmono
  have hlt : monthOf y < monthOf x + 2 := by
    refine months.lt_first_iff.mp ?_
    have htwo : monthOf x + 2 = monthOf x + 1 + 1 := by omega
    rw [months_first, htwo]
    unfold dayFromEnd at hy
    omega
  rcases (by omega : monthOf y = monthOf x ∨ monthOf y = monthOf x + 1)
    with hsame | hnext
  · rw [hsame] at heq
    omega
  · rw [hnext] at heq
    omega

theorem dayEq_seeks_neg (lo : Int) (hd : -31 ≤ d) (hd' : d < 0) :
    Seeks lo (dayEq d)
      (fun t => date t = dayFromEnd d (monthOf (date t))) := by
  apply Seeks.of_jumps
  intro c n _ hrun
  unfold dayEq absDay at hrun
  rw [if_pos hd'] at hrun
  simp only [Option.bind_eq_bind, if_pos hd', Option.bind_assoc,
    Option.bind_some] at hrun
  rcases Option.bind_eq_some_iff.mp hrun with ⟨last, hlast, hrun⟩
  rcases Option.bind_eq_some_iff.mp hrun with ⟨target, htarget, hrun⟩
  have hday : day target = dayOfMonth (dayFromEnd d (monthOf (date c))) := by
    unfold day
    rw [date_daysBeforeLast hlast htarget]
  have hbounds := dayOfMonth_bounds (date c)
  rw [hday] at hrun
  split at hrun
  · rename_i hlt
    rcases Option.bind_eq_some_iff.mp hrun with ⟨x, hx, hstart⟩
    refine Or.inr (day_jump (p := fun e => e = dayFromEnd d (monthOf e))
      (startOfDay_addDays hx hstart) (by omega) ?_)
    intro e hce hek
    exact dayFromEnd_before_target hd hd' hce hek
  · rename_i hnlt
    -- The day of a month that is too short is larger than every day in it.
    have hfits : -monthLength (monthOf (date c)) ≤ d := by
      by_contra hshort
      have hbefore := dayFromEnd_before hd (not_le.mp hshort)
      have hlength := monthStart_add (monthOf (date c))
      have hlength' := monthStart_add (monthOf (date c) - 1)
      rw [Int.sub_add_cancel] at hlength'
      apply hnlt
      rw [dayOfMonth_eq, hbefore.left]
      unfold day dayFromEnd
      omega
    have hwithin := dayFromEnd_within hfits hd'
    rw [dayOfMonth_eq, hwithin] at hrun hnlt
    split at hrun
    · rename_i heq
      cases hrun
      refine Or.inl ⟨rfl, ?_⟩
      unfold day at heq
      rw [dayOfMonth_eq] at heq
      omega
    · rename_i hne
      have hpast : dayFromEnd d (monthOf (date c)) < date c := by
        unfold day at hne hnlt
        rw [dayOfMonth_eq] at hne hnlt
        omega
      rcases Option.bind_eq_some_iff.mp hrun with ⟨x, hx, hrun⟩
      rcases Option.bind_eq_some_iff.mp hrun with ⟨y, hy, hrun⟩
      rcases Option.bind_eq_some_iff.mp hrun with ⟨z, hz, hrun⟩
      rcases Option.bind_eq_some_iff.mp hrun with ⟨dst, hdst, hrun⟩
      have hdstDay := startOfDay_eq_some hdst
      rw [date_daysBeforeLast hy hz, monthOf_addMonths hx] at hdstDay
      have hnone : forall e, date c ≤ e ->
          e < dayFromEnd d (monthOf (date c) + 1) ->
          ¬ e = dayFromEnd d (monthOf e) :=
        fun e hce hek => dayFromEnd_past hd' hpast hce hek
      split at hrun
      · rename_i hle
        rcases Option.bind_eq_some_iff.mp hrun with ⟨u, hu, hrun⟩
        rcases Option.bind_eq_some_iff.mp hrun with ⟨v, hv, hstart⟩
        have hn := startOfDay_addDays hv hstart
        rw [date_lastOfMonth hu, Int.sub_add_cancel] at hn
        have hbracket := monthOf_bracket (date c)
        refine Or.inr (day_jump (p := fun e => e = dayFromEnd d (monthOf e))
          hn hbracket.right ?_)
        intro e hce hek heq
        have hmono := months.index_mono hce
        have hsame := months.lt_first_iff.mp
          (show e < months.first (monthOf (date c) + 1) from hek)
        rw [months_index, months_index] at *
        have hmonth : monthOf e = monthOf (date c) := by omega
        rw [hmonth] at heq
        omega
      · rename_i hgt
        cases hrun
        refine Or.inr (day_jump (p := fun e => e = dayFromEnd d (monthOf e))
          hdstDay ?_ hnone)
        have hmidnight : 86400 * date c ≤ c := by
          unfold date
          omega
        omega

theorem dayEq_seeks (lo : Int) (hd : -31 ≤ d) (hne : d ≠ 0) :
    Seeks lo (dayEq d) (MonthDayMatches d) := by
  by_cases hneg : d < 0
  · refine (dayEq_seeks_neg lo hd hneg).congr (fun t _ => ?_)
    unfold MonthDayMatches
    rw [if_pos hneg]
  · refine (dayEq_seeks_pos lo (by omega)).congr (fun t _ => ?_)
    unfold MonthDayMatches
    rw [if_neg hneg]

/-!
# Days counted from the end of the year
-/

/-- The day of the year that `day_of_year_eq` looks for in year `y`. -/
def dayOfYearFromEnd (d y : Int) : Int :=
  dayOfYear (yearStart (y + 1) + d)

/--
A `BYYEARDAY` value.  In a year that is too short a negative one denotes the
last day of the year before, and is compared with the days of this year.
-/
def YearDayMatches (d t : Int) : Prop :=
  if d < 0 then
    dayOfYear (date t) = dayOfYearFromEnd d (year t)
  else
    dayOfYear (date t) = d

theorem date_daysBeforeLastOfYear {x y : Int} (hx : lastOfYear c = some x)
    (hy : addDays (-(-d - 1)) x = some y) :
    date y = yearStart (year c + 1) + d := by
  rw [date_addDays hy, date_lastOfYear hx]
  omega

theorem yearOf_fromEnd {y : Int} (hd : -366 ≤ d) (hd' : d < 0) :
    (-yearLength y ≤ d ∧ yearOf (yearStart (y + 1) + d) = y ∧
        dayOfYearFromEnd d y = yearLength y + 1 + d) ∨
      (d < -yearLength y ∧
        dayOfYearFromEnd d y = yearLength (y - 1) ∧ yearLength y = 365) := by
  have hlength := yearStart_succ y
  have hbounds := yearLength_bounds y
  by_cases hfits : -yearLength y ≤ d
  · have hyear : yearOf (yearStart (y + 1) + d) = y := by
      refine years.index_eq_iff.mpr ?_
      rw [years_first, years_first]
      omega
    refine Or.inl ⟨hfits, hyear, ?_⟩
    unfold dayOfYearFromEnd
    rw [dayOfYear_eq, hyear]
    omega
  · have hbefore := yearStart_succ (y - 1)
    rw [Int.sub_add_cancel] at hbefore
    have hbounds' := yearLength_bounds (y - 1)
    have hyear : yearOf (yearStart (y + 1) + d) = y - 1 := by
      refine years.index_eq_iff.mpr ?_
      rw [years_first, years_first, Int.sub_add_cancel]
      omega
    refine Or.inr ⟨not_le.mp hfits, ?_, by omega⟩
    unfold dayOfYearFromEnd
    rw [dayOfYear_eq, hyear]
    omega

theorem yearDay_before {x y : Int} (hd : -366 ≤ d) (hd' : d < 0) (hxy : x ≤ y)
    (hy : y < x + (dayOfYearFromEnd d (yearOf x) - dayOfYear x)) :
    dayOfYear y ≠ dayOfYearFromEnd d (yearOf y) := by
  intro heq
  have hwithin := years.ordinal_lt_within
    (d := dayOfYearFromEnd d (yearOf x)) hxy (by
      rw [dayOfYear_eq] at hy
      rw [years_index, years_first]
      omega)
  have hsame : yearOf y = yearOf x := by
    have hmono := years.index_mono hxy
    have hlength := yearStart_succ (yearOf x)
    have hbounds := yearLength_bounds (yearOf x)
    have hbounds' := yearLength_bounds (yearOf x - 1)
    have hlt : y < years.first (yearOf x + 1) := by
      rw [years_first]
      rw [dayOfYear_eq] at hy
      rcases yearOf_fromEnd (y := yearOf x) hd hd' with
        ⟨_, _, habs⟩ | ⟨_, habs, _⟩
      · omega
      · omega
    have hle := years.lt_first_iff.mp hlt
    rw [years_index, years_index] at *
    omega
  rw [hsame] at heq
  change dayOfYear y < _ at hwithin
  omega

theorem yearDay_past {x y : Int} (hd : -366 ≤ d) (hd' : d < 0)
    (hx : dayOfYearFromEnd d (yearOf x) < dayOfYear x) (hxy : x ≤ y)
    (hy : y < yearStart (yearOf x + 1) ∨
      y < yearStart (yearOf x + 1 + 1) + d) :
    dayOfYear y ≠ dayOfYearFromEnd d (yearOf y) := by
  intro heq
  have hmono := years.index_mono hxy
  have hlt : y < years.first (yearOf x + 1 + 1) := by
    have hnext := yearStart_lt (yearOf x + 1)
    rw [years_first]
    omega
  have hle := years.lt_first_iff.mp hlt
  rw [years_index, years_index] at *
  rw [dayOfYear_eq] at heq hx
  rcases (by omega : yearOf y = yearOf x ∨ yearOf y = yearOf x + 1)
    with hsame | hnext
  · rw [hsame] at heq
    omega
  · rw [hnext] at heq
    have hbracket := yearOf_bracket y
    rw [hnext] at hbracket
    have hlength := yearStart_succ (yearOf x + 1)
    rcases yearOf_fromEnd (y := yearOf x + 1) hd hd' with
      ⟨hfits, _, habs⟩ | ⟨hshort, habs, hyear⟩
    · omega
    · omega

theorem dayOfYearEq_seeks (lo : Int) (hd : -366 ≤ d) (hne : d ≠ 0) :
    Seeks lo (dayOfYearEq d) (YearDayMatches d) := by
  by_cases hneg : d < 0
  · apply Seeks.of_jumps
    intro c n _ hrun
    unfold YearDayMatches
    simp only [if_pos hneg]
    unfold dayOfYearEq absDayOfYear at hrun
    rw [if_pos hneg] at hrun
    simp only [Option.bind_eq_bind, if_pos hneg, Option.bind_assoc,
      Option.bind_some] at hrun
    rcases Option.bind_eq_some_iff.mp hrun with ⟨last, hlast, hrun⟩
    rcases Option.bind_eq_some_iff.mp hrun with ⟨target, htarget, hrun⟩
    have habs : dayOfYear (date target) = dayOfYearFromEnd d (year c) := by
      rw [date_daysBeforeLastOfYear hlast htarget]
      rfl
    rw [habs] at hrun
    split at hrun
    · rename_i hlt
      rcases Option.bind_eq_some_iff.mp hrun with ⟨x, hx, hstart⟩
      refine Or.inr (day_jump
        (p := fun e => dayOfYear e = dayOfYearFromEnd d (yearOf e))
        (startOfDay_addDays hx hstart) (by omega) ?_)
      intro e hce hek
      exact yearDay_before hd hneg hce hek
    · split at hrun
      · rename_i heq
        cases hrun
        exact Or.inl ⟨rfl, heq⟩
      · rename_i hnlt hneq
        have hpast : dayOfYearFromEnd d (yearOf (date c)) <
            dayOfYear (date c) := by
          unfold year at hnlt hneq
          omega
        rcases Option.bind_eq_some_iff.mp hrun with ⟨x, hx, hrun⟩
        rcases Option.bind_eq_some_iff.mp hrun with ⟨y, hy, hrun⟩
        rcases Option.bind_eq_some_iff.mp hrun with ⟨z, hz, hrun⟩
        rcases Option.bind_eq_some_iff.mp hrun with ⟨dst, hdst, hrun⟩
        have hyear : year x = year c + 1 := by
          unfold year
          rw [yearOf_eq_monthOf, yearOf_eq_monthOf, monthOf_addYears hx]
          omega
        have hdstDay := startOfDay_eq_some hdst
        rw [date_daysBeforeLastOfYear hy hz, hyear] at hdstDay
        split at hrun
        · rcases Option.bind_eq_some_iff.mp hrun with ⟨u, hu, hrun⟩
          rcases Option.bind_eq_some_iff.mp hrun with ⟨v, hv, hstart⟩
          have hn := startOfDay_addDays hv hstart
          rw [date_lastOfYear hu, Int.sub_add_cancel] at hn
          refine Or.inr (day_jump
            (p := fun e => dayOfYear e = dayOfYearFromEnd d (yearOf e)) hn
            (yearOf_bracket (date c)).right ?_)
          intro e hce hek
          exact yearDay_past hd hneg hpast hce (Or.inl hek)
        · cases hrun
          have hmidnight : 86400 * date c ≤ c := by
            unfold date
            omega
          refine Or.inr (day_jump
            (p := fun e => dayOfYear e = dayOfYearFromEnd d (yearOf e))
            hdstDay (by omega) ?_)
          intro e hce hek
          exact yearDay_past hd hneg hpast hce (Or.inr hek)
  · refine (dayOfYearEq_seeks_pos lo (by omega)).congr (fun t _ => ?_)
    unfold YearDayMatches
    rw [if_neg hneg]

/-!
# Ordinal weekdays
-/

theorem nthWeekdayOfMonthEq_seeks (lo nth wd : Int) :
    Seeks lo (nthWeekdayOfMonthEq nth wd)
      (fun t => date t = nthDayOfMonth nth wd (monthOf (date t))) := by
  apply Seeks.of_jumps
  intro c n _ hrun
  rcases Option.bind_eq_some_iff.mp hrun with ⟨x, hx, hrun⟩
  rcases nthWeekdayOfMonth_eq_some hx with ⟨hdate, hmonth, htime⟩
  have hbracket := monthOf_bracket (date x)
  rw [hmonth] at hbracket
  have hdays : x = 86400 * date x + x % 86400 ∧
      c = 86400 * date c + c % 86400 := by
    unfold date
    omega
  split at hrun
  · rename_i hsame
    cases hrun
    exact Or.inl ⟨rfl, by omega⟩
  · rename_i hother
    split at hrun
    · rename_i hbefore
      rcases Option.bind_eq_some_iff.mp hrun with ⟨y, hy, hrun⟩
      rcases Option.bind_eq_some_iff.mp hrun with ⟨z, hz, hstart⟩
      rcases nthWeekdayOfMonth_eq_some hz with ⟨hdate', hmonth', _⟩
      rw [monthOf_addMonths hy] at hdate' hmonth'
      have hbracket' := monthOf_bracket (date z)
      rw [hmonth'] at hbracket'
      have hnext := monthOf_bracket (date c)
      refine Or.inr (day_jump
        (p := fun e => e = nthDayOfMonth nth wd (monthOf e))
        (startOfDay_eq_some hstart) (by omega) ?_)
      intro e hce hek heq
      have hmono := months.index_mono hce
      have hlt := months.lt_first_iff.mp
        (show e < months.first (monthOf (date c) + 1 + 1) by
          rw [months_first]
          omega)
      rw [months_index, months_index] at *
      rcases (by omega : monthOf e = monthOf (date c) ∨
        monthOf e = monthOf (date c) + 1) with hsame | hlater
      · rw [hsame] at heq
        omega
      · rw [hlater] at heq
        omega
    · rename_i hafter
      refine Or.inr (day_jump
        (p := fun e => e = nthDayOfMonth nth wd (monthOf e))
        (startOfDay_eq_some hrun) (by omega) ?_)
      intro e hce hek heq
      have hmono := months.index_mono hce
      have hlt := months.lt_first_iff.mp
        (show e < months.first (monthOf (date c) + 1) by
          rw [months_first]
          omega)
      rw [months_index, months_index] at *
      have hsame : monthOf e = monthOf (date c) := by omega
      rw [hsame] at heq
      omega

theorem date_nthWeekday {nth wd t : Int} (h : nthWeekday nth wd t = some n) :
    (0 < nth ∧ date t < date n) ∨
      (nth < 0 ∧ date n < date t ∧ date t + 7 * nth ≤ date n) := by
  unfold nthWeekday at h
  split at h
  · have hdate := date_onDate h
    exact Or.inl ⟨by omega, by omega⟩
  · split at h
    · have hdate := date_onDate h
      exact Or.inr ⟨by omega, by omega, by omega⟩
    · cases h

/--
Ordinals within the year are counted from the current day, so the fact never
rests.  It goes forward as long as the ordinal stays within a year.
-/
theorem nthWeekdayOfYearEq_seeks (lo wd : Int) {nth : Int} (hnth : -52 ≤ nth) :
    Seeks lo (nthWeekdayOfYearEq nth wd) (fun _ => False) := by
  apply Seeks.of_jumps
  intro c n _ hrun
  rcases Option.bind_eq_some_iff.mp hrun with ⟨x, hx, hrun⟩
  have hway := date_nthWeekday hx
  have hmidnight : 86400 * date c ≤ c ∧ c < 86400 * (date c + 1) := by
    unfold date
    omega
  split at hrun
  · omega
  · split at hrun
    · rename_i hbefore
      rcases Option.bind_eq_some_iff.mp hrun with ⟨y, hy, hrun⟩
      rcases Option.bind_eq_some_iff.mp hrun with ⟨z, hz, hstart⟩
      have hyear := date_addYears_one hy
      have hn := startOfDay_eq_some hstart
      have hway' := date_nthWeekday hz
      exact Or.inr ⟨by omega, fun d _ _ => id⟩
    · rename_i hafter
      have hn := startOfDay_eq_some hrun
      have hxdays : 86400 * date x ≤ x ∧ x < 86400 * (date x + 1) := by
        unfold date
        omega
      exact Or.inr ⟨by omega, fun d _ _ => id⟩

/-!
# Months
-/

theorem startOfDay_firstOfMonth {k x y : Int} (hx : addMonths k c = some x)
    (hy : firstOfMonth x = some y) (hstart : startOfDay y = some n) :
    n = 86400 * months.first (monthOf (date c) + k) := by
  rw [startOfDay_eq_some hstart, date_firstOfMonth hy, monthOf_addMonths hx,
    months_first]

theorem month_jump {k : Int} {p : Int -> Prop} (hk : 0 < k)
    (hn : n = 86400 * months.first (monthOf (date c) + k))
    (hnone : forall j, monthOf (date c) ≤ j -> j < monthOf (date c) + k ->
      ¬ p j) :
    c < n ∧ forall d, c ≤ d -> d < n -> ¬ p (monthOf (date d)) := by
  refine day_jump (p := fun e => p (monthOf e)) hn ?_ ?_
  · refine months.lt_first_iff.mpr ?_
    rw [months_index]
    omega
  · intro e hce hek
    have hmono := months.index_mono hce
    have hlt := months.lt_first_iff.mp hek
    exact hnone (monthOf e) hmono hlt

theorem monthEq_seeks (lo : Int) {m : Int} (hm : 1 ≤ m) (hm' : m ≤ 12) :
    Seeks lo (monthEq m) (fun t => month t = m) := by
  apply Seeks.of_jumps
  intro c n _ hrun
  unfold monthEq at hrun
  unfold month monthOfYear at *
  split at hrun
  · rcases Option.bind_eq_some_iff.mp hrun with ⟨x, hx, hrest⟩
    rcases Option.bind_eq_some_iff.mp hrest with ⟨y, hy, hstart⟩
    refine Or.inr (month_jump (p := fun j => j % 12 + 1 = m) ?_
      (startOfDay_firstOfMonth hx hy hstart) ?_)
    · omega
    · intro j hcj hjk
      omega
  · split at hrun
    · rename_i heq
      cases hrun
      exact Or.inl ⟨rfl, heq⟩
    · rcases Option.bind_eq_some_iff.mp hrun with ⟨x, hx, hrest⟩
      rcases Option.bind_eq_some_iff.mp hrest with ⟨y, hy, hstart⟩
      refine Or.inr (month_jump (p := fun j => j % 12 + 1 = m) ?_
        (startOfDay_firstOfMonth hx hy hstart) ?_)
      · omega
      · intro j hcj hjk
        omega

/-!
# Repetitions
-/

def Freq.repeatsDays : Freq -> Bool
  | daily | weekly | monthly | yearly => true
  | secondly | minutely | hourly => false

def days : Partition :=
  Partition.uniform 0 86400 (by decide)

/-- The periods of a frequency that repeats whole days. -/
def Freq.periods : Freq -> Partition
  | weekly => weeks.comp days
  | monthly => months.comp days
  | yearly => years.comp days
  | _ => days

/-- Numbers of months and days are `i32`, numbers of years are `i16`. -/
def Freq.intervalBits : Freq -> Nat
  | yearly => 16
  | _ => 32

theorem days_index (t : Int) : days.index t = date t := by
  show (t + 0) / 86400 = t / 86400
  rw [Int.add_zero]

theorem days_first (k : Int) : days.first k = 86400 * k := by
  show 86400 * k - 0 = 86400 * k
  omega

theorem weeks_index (n : Int) : weeks.index n = (n + 3) / 7 :=
  rfl

theorem weeks_first (k : Int) : weeks.first k = 7 * k - 3 :=
  rfl

theorem comp_days_index (P : Partition) (t : Int) :
    (P.comp days).index t = P.index (date t) := by
  show P.index (days.index t) = P.index (date t)
  rw [days_index]

theorem comp_days_first (P : Partition) (k : Int) :
    (P.comp days).first k = 86400 * P.first k := by
  show days.first (P.first k) = 86400 * P.first k
  rw [days_first]

theorem narrow_bounds (bits : Nat) {interval : Int}
    (hbits : (1 : Int) < 2 ^ (bits - 1)) (hinterval : 1 ≤ interval) :
    1 ≤ narrow bits interval ∧ narrow bits interval < 2 ^ (bits - 1) := by
  unfold narrow
  split
  · rename_i h
    exact ⟨hinterval, h⟩
  · exact ⟨le_rfl, hbits⟩

theorem wrap_eq {bits : Nat} (hbits : (2 : Int) ^ bits = 2 * 2 ^ (bits - 1))
    (hn : 0 ≤ n) (hn' : n < 2 ^ (bits - 1)) : wrap bits n = n := by
  unfold wrap
  rw [hbits, Int.emod_eq_of_lt (by omega) (by omega)]
  omega

/-- What one frequency of `instance_of` is made of. -/
structure Repeats (P : Partition) (origin : Int) (diff : Int -> Int)
    (jump : Int -> Int -> Option Int) : Prop where
  diff_eq : forall c, P.first origin ≤ c -> diff c = P.index c - origin
  jump_eq : forall k c n, jump k c = some n -> n = P.first (P.index c + k)

theorem repetition_next {P : Partition} {origin interval : Int} {bits : Nat}
    {diff : Int -> Int} {jump : Int -> Int -> Option Int}
    (hrepeats : Repeats P origin diff jump)
    (hbits : (2 : Int) ^ bits = 2 * 2 ^ (bits - 1)) (hpos : 1 ≤ interval)
    (hlt : interval < 2 ^ (bits - 1)) {inclusive : Bool}
    (hc : P.first origin ≤ c ∨ interval = 1)
    (hrun : repetition bits interval (diff c) inclusive
      (fun k => jump k c) c = some n) :
    ((P.index c - origin) % interval = 0 ∧ inclusive = true ∧ n = c) ∨
      (((P.index c - origin) % interval = 0 -> inclusive = false) ∧
        n = P.first
          (P.index c + (interval - (P.index c - origin) % interval))) := by
  have hmod := Int.emod_nonneg (P.index c - origin) (b := interval) (by omega)
  have hmod' := Int.emod_lt_of_pos (P.index c - origin) (b := interval)
    (by omega)
  have hdiff : (diff c).tmod interval = (P.index c - origin) % interval := by
    rcases hc with hc | hone
    · have horigin := P.first_le_iff.mp hc
      rw [hrepeats.diff_eq c hc, Int.tmod_eq_emod_of_nonneg (by omega)]
    · rw [hone, Int.tmod_one, Int.emod_one]
  unfold repetition at hrun
  rw [hdiff] at hrun
  dsimp only at hrun
  split at hrun
  · rename_i hrest
    cases hrun
    exact Or.inl ⟨hrest.left, hrest.right, rfl⟩
  · rename_i hjump
    rw [wrap_eq hbits (by omega) (by omega)] at hrun
    refine Or.inr ⟨?_, hrepeats.jump_eq _ _ _ hrun⟩
    intro hzero
    exact Bool.eq_false_iff.mpr (fun hinclusive => hjump ⟨hzero, hinclusive⟩)

theorem startOfDay_monday {t : Int}
    (h : (if weekday t = Weekday.monday.asJiff then startOfDay t
      else (nthWeekday (-1) Weekday.monday.asJiff t).bind startOfDay) =
        some n) :
    n = 86400 * weeks.first (weeks.index (date t)) := by
  rw [weeks_first, weeks_index]
  split at h
  · rename_i hmonday
    rw [startOfDay_eq_some h]
    unfold weekday weekdayOf at hmonday
    change _ = 0 at hmonday
    omega
  · rename_i hmonday
    rcases Option.bind_eq_some_iff.mp h with ⟨x, hx, hstart⟩
    unfold nthWeekday at hx
    rw [if_neg (by decide), if_pos (by decide)] at hx
    rw [startOfDay_eq_some hstart, date_onDate hx]
    unfold weekday weekdayOf at *
    change ¬ _ = 0 at hmonday
    show 86400 * (date t - 1 - ((date t + 3) % 7 - 1 - 0) % 7 - 7 * (- -1 - 1)) = _
    omega

theorem firstOf_eq_some {freq : Freq} (hfreq : freq.repeatsDays = true)
    {t : Int} (h : freq.firstOf t = some n) :
    n = freq.periods.first (freq.periods.index t) := by
  cases freq with
  | secondly => cases hfreq
  | minutely => cases hfreq
  | hourly => cases hfreq
  | daily =>
      show n = days.first (days.index t)
      rw [days_first, days_index]
      exact startOfDay_eq_some h
  | weekly =>
      show n = (weeks.comp days).first ((weeks.comp days).index t)
      rw [comp_days_first, comp_days_index]
      exact startOfDay_monday h
  | monthly =>
      rcases Option.bind_eq_some_iff.mp h with ⟨x, hx, hstart⟩
      show n = (months.comp days).first ((months.comp days).index t)
      rw [comp_days_first, comp_days_index, startOfDay_eq_some hstart,
        date_firstOfMonth hx, months_first, months_index]
  | yearly =>
      rcases Option.bind_eq_some_iff.mp h with ⟨x, hx, hstart⟩
      show n = (years.comp days).first ((years.comp days).index t)
      rw [comp_days_first, comp_days_index, startOfDay_eq_some hstart,
        date_firstOfYear hx, years_first, years_index]
      rfl

theorem daily_repeats (origin : Int) :
    Repeats days origin (sinceUnits 86400 (days.first origin))
      (fun k c => (addDays k c).bind startOfDay) where
  diff_eq := by
    intro c hc
    unfold sinceUnits
    rw [Int.tdiv_eq_ediv_of_nonneg (by omega)]
    rw [days_first] at *
    rw [days_index]
    unfold date
    omega
  jump_eq := by
    intro k c n h
    rcases Option.bind_eq_some_iff.mp h with ⟨x, hx, hstart⟩
    rw [days_first, days_index]
    exact startOfDay_addDays hx hstart

theorem weekly_repeats (origin : Int) :
    Repeats (weeks.comp days) origin
      (sinceUnits 604800 ((weeks.comp days).first origin))
      (fun k c => (addWeeks k c).bind (fun next =>
        if weekday next = Weekday.monday.asJiff then startOfDay next
        else (nthWeekday (-1) Weekday.monday.asJiff next).bind
          startOfDay)) where
  diff_eq := by
    intro c hc
    unfold sinceUnits
    rw [Int.tdiv_eq_ediv_of_nonneg (by omega)]
    rw [comp_days_first, weeks_first] at *
    rw [comp_days_index, weeks_index]
    unfold date
    omega
  jump_eq := by
    intro k c n h
    rcases Option.bind_eq_some_iff.mp h with ⟨x, hx, hmonday⟩
    rw [startOfDay_monday hmonday, date_addWeeks hx, comp_days_first,
      comp_days_index, weeks_index, weeks_index]
    congr 2
    omega

/-- From the first instant of a month, whole months are months begun. -/
theorem sinceMonthSteps_eq {start step k : Int}
    (hstart : start = 86400 * monthStart (monthOf (date start)))
    (hle : start ≤ c)
    (hk : monthStart (monthOf (date start) + step * k) ≤ date c) :
    sinceMonthSteps step start k c = k := by
  have hdate : date start = monthStart (monthOf (date start)) := by
    conv => lhs; rw [hstart]
    unfold date
    omega
  have hday : day start = 1 := by
    unfold day
    rw [dayOfMonth_eq]
    omega
  have hlength := monthLength_bounds (monthOf (date start) + step * k)
  have htime : timeOfDay start = 0 := by
    unfold timeOfDay
    omega
  have hbegun : 86400 * date c ≤ c := by
    unfold date
    omega
  unfold sinceMonthSteps clampDay
  rw [if_pos hle, hday, htime]
  rw [if_pos (by omega)]

theorem date_monthFirst {P : Partition} (k : Int) :
    date ((P.comp days).first k) = P.first k := by
  rw [comp_days_first]
  unfold date
  omega

theorem monthly_repeats (origin : Int) :
    Repeats (months.comp days) origin
      (sinceMonths ((months.comp days).first origin))
      (fun k c => (addMonths k c).bind (fun next =>
        (firstOfMonth next).bind startOfDay)) where
  diff_eq := by
    intro c hc
    have horigin : monthOf (date ((months.comp days).first origin)) =
        origin := by
      rw [date_monthFirst]
      exact months.index_first origin
    have hstart : (months.comp days).first origin = 86400 * monthStart
        (monthOf (date ((months.comp days).first origin))) := by
      rw [horigin, comp_days_first, months_first]
    have hsame : origin + 1 * (monthOf (date c) - origin) =
        monthOf (date c) := by
      omega
    unfold sinceMonths
    rw [sinceMonthSteps_eq hstart hc, horigin, comp_days_index, months_index]
    rw [horigin, hsame]
    exact (monthOf_bracket (date c)).left
  jump_eq := by
    intro k c n h
    rcases Option.bind_eq_some_iff.mp h with ⟨x, hx, hrest⟩
    rcases Option.bind_eq_some_iff.mp hrest with ⟨y, hy, hstart⟩
    rw [comp_days_first, comp_days_index, months_index]
    exact startOfDay_firstOfMonth hx hy hstart

theorem yearly_repeats (origin : Int) :
    Repeats (years.comp days) origin
      (sinceYears ((years.comp days).first origin))
      (fun k c => (addYears k c).bind (fun next =>
        (firstOfYear next).bind startOfDay)) where
  diff_eq := by
    intro c hc
    have hdate : date ((years.comp days).first origin) = yearStart origin :=
      date_monthFirst origin
    have horigin : monthOf (date ((years.comp days).first origin)) =
        12 * origin := by
      rw [hdate, yearStart_eq_monthStart]
      exact months.index_first (12 * origin)
    have hyear : year ((years.comp days).first origin) = origin := by
      unfold year
      rw [hdate]
      exact years.index_first origin
    have hstart : (years.comp days).first origin = 86400 * monthStart
        (monthOf (date ((years.comp days).first origin))) := by
      rw [horigin, comp_days_first, years_first, yearStart_eq_monthStart]
    have hsame : 12 * origin + 12 * (year c - origin) =
        12 * yearOf (date c) := by
      unfold year
      omega
    unfold sinceYears
    rw [sinceMonthSteps_eq hstart hc, hyear, comp_days_index, years_index]
    · rfl
    · rw [horigin, hyear, hsame, <- yearStart_eq_monthStart]
      exact (yearOf_bracket (date c)).left
  jump_eq := by
    intro k c n h
    rcases Option.bind_eq_some_iff.mp h with ⟨x, hx, hrest⟩
    rcases Option.bind_eq_some_iff.mp hrest with ⟨y, hy, hstart⟩
    have hyear : year x = yearOf (date c) + k := by
      unfold year
      rw [yearOf_eq_monthOf, yearOf_eq_monthOf, monthOf_addYears hx]
      omega
    rw [comp_days_first, comp_days_index, years_index, years_first,
      startOfDay_eq_some hstart, date_firstOfYear hy, hyear]

theorem instanceFrom_next {freq : Freq} (hfreq : freq.repeatsDays = true)
    {origin interval : Int} (hinterval : 1 ≤ interval) {inclusive : Bool}
    (hc : freq.periods.first origin ≤ c ∨
      narrow freq.intervalBits interval = 1)
    (hrun : instanceFrom (freq.periods.first origin) freq interval inclusive
      c = some n) :
    ((freq.periods.index c - origin) % narrow freq.intervalBits interval = 0 ∧
        inclusive = true ∧ n = c) ∨
      (((freq.periods.index c - origin) % narrow freq.intervalBits interval =
          0 -> inclusive = false) ∧
        n = freq.periods.first (freq.periods.index c +
          (narrow freq.intervalBits interval -
            (freq.periods.index c - origin) %
              narrow freq.intervalBits interval))) := by
  have hwide := narrow_bounds 32 (by decide) hinterval
  have hsmall := narrow_bounds 16 (by decide) hinterval
  cases freq with
  | secondly => cases hfreq
  | minutely => cases hfreq
  | hourly => cases hfreq
  | daily =>
      exact repetition_next (daily_repeats origin) (by decide) hwide.left
        hwide.right hc hrun
  | weekly =>
      exact repetition_next (weekly_repeats origin) (by decide) hwide.left
        hwide.right hc hrun
  | monthly =>
      exact repetition_next (monthly_repeats origin) (by decide) hwide.left
        hwide.right hc hrun
  | yearly =>
      exact repetition_next (yearly_repeats origin) (by decide) hsmall.left
        hsmall.right hc hrun

theorem intervalBits_narrow (freq : Freq) {interval : Int}
    (hinterval : 1 ≤ interval) : 1 ≤ narrow freq.intervalBits interval := by
  unfold narrow
  split
  · exact hinterval
  · exact le_rfl

theorem period_jump {P : Partition} {origin interval : Int}
    (hpos : 1 ≤ interval) (hne : (P.index c - origin) % interval ≠ 0)
    (hn : n = P.first
      (P.index c + (interval - (P.index c - origin) % interval))) :
    c < n ∧ forall d, c ≤ d -> d < n ->
      ¬ (P.index d - origin) % interval = 0 := by
  have hmod := Int.emod_nonneg (P.index c - origin) (b := interval) (by omega)
  have hmod' := Int.emod_lt_of_pos (P.index c - origin) (b := interval)
    (by omega)
  rw [hn]
  refine ⟨P.lt_first_iff.mpr (by omega), ?_⟩
  intro d hcd hdn hzero
  have hle := P.index_mono hcd
  have hlt := P.lt_first_iff.mp hdn
  have hsplit : P.index d - origin =
      (P.index c - origin) + (P.index d - P.index c) := by
    omega
  rw [hsplit, <- Int.emod_add_emod, Int.emod_eq_of_lt (by omega) (by omega)]
    at hzero
  omega

/-!
# Minutes
-/

theorem minuteEq_eq_some {m : Int} (h : minuteEq m c = some n) :
    (minute c < m ∧ n = c - c % 3600 + 60 * m) ∨ (minute c = m ∧ n = c) ∨
      (m < minute c ∧ n = c - c % 3600 + 3600 + 60 * m + c % 60) := by
  unfold minuteEq at h
  split at h
  · rename_i hlt
    have hn := build_minute_second h
    exact Or.inl ⟨hlt, by omega⟩
  · split at h
    · rename_i heq
      cases h
      exact Or.inr (Or.inl ⟨heq, rfl⟩)
    · rename_i hlt hne
      rcases Option.bind_eq_some_iff.mp h with ⟨x, hx, hbuild⟩
      have hadd := addHours_eq_some hx
      have hn := build_minute hbuild
      exact Or.inr (Or.inr ⟨by omega, by omega⟩)

end Recurrence
end MailClient
