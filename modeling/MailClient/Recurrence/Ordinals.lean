import MailClient.Recurrence.Monthly
import MailClient.Recurrence.Series

/-!
# Ordinal weekdays in the months of a rule

A monthly rule by weekday comes to an ordinal weekday unless its search fails
before.  It fails in the first month in which one of its ordinal weekdays is
looked for and does not exist.
-/

namespace MailClient
namespace Recurrence

open Foundation

/-!
# A search without groups
-/

namespace Cursor

theorem Leads.defined {c : Cursor} {d x : Int} (h : Leads c d x) :
    exists n, nextOccurOf c.fact x = some n := by
  cases h with
  | rests h _ => exact ⟨d, h⟩
  | goesOn h _ _ => exact ⟨x, h⟩
  | jumps h _ _ => exact ⟨_, h⟩

section Leading

variable {c : Cursor} {good occurs : Int -> Prop}
  (hfinder : Finder c good occurs) {d : Int}

include hfinder

theorem Leads.meets {x : Int} (h : Leads c d x) (hgood : good x) {e : Int}
    (hoccurs : occurs e) (hxe : x ≤ e) (hed : e ≤ d) : Leads c d e := by
  induction h with
  | rests h hadd =>
      have heq : e = d := le_antisymm hed hxe
      rw [heq]
      exact Leads.rests h hadd
  | @goesOn x h hadd hrest ih =>
      rcases eq_or_lt_of_le hxe with rfl | hlt
      · exact Leads.goesOn h hadd hrest
      · exact ih (hfinder.after x hgood (hfinder.rests x hgood h)) hlt
  | @jumps x n h hlt hrest ih =>
      have hne : n ≤ e := by
        by_contra hpast
        exact hfinder.passes x n e hgood h hxe (not_le.mp hpast) hoccurs
      exact ih (hfinder.lands x n hgood h) hne

theorem Leads.rests_on {x : Int} (h : Leads c d x) (hgood : good x)
    (hoccurs : occurs x) :
    nextOccurOf c.fact x = some x ∧ addSeconds 1 x = some (x + 1) ∧
      (x < d -> Leads c d (x + 1)) := by
  cases h with
  | rests h hadd => exact ⟨h, hadd, fun hlt => absurd hlt (lt_irrefl _)⟩
  | goesOn h hadd hrest => exact ⟨h, hadd, fun _ => hrest⟩
  | jumps h hlt _ =>
      exact absurd hoccurs (hfinder.passes x _ x hgood h le_rfl hlt)

theorem leads_of_defined (hoccurs : occurs d)
    {x : Int} (hgood : good x) (hxd : x ≤ d)
    (hadd : forall y, x ≤ y -> y ≤ d -> addSeconds 1 y = some (y + 1))
    (hdefined : forall y, good y -> x ≤ y -> y ≤ d ->
      exists n, nextOccurOf c.fact y = some n) : Leads c d x := by
  induction hn : (d - x).toNat using Nat.strong_induction_on generalizing x with
  | _ n ih =>
      rcases hdefined x hgood le_rfl hxd with ⟨m, hm⟩
      have hforward := hfinder.forward x m hgood hm
      have hmd : m ≤ d := by
        by_contra hpast
        exact hfinder.passes x m d hgood hm hxd (not_le.mp hpast) hoccurs
      rcases eq_or_lt_of_le hforward with rfl | hlt
      · rcases eq_or_lt_of_le hxd with rfl | hlt
        · exact Leads.rests hm (hadd x le_rfl le_rfl)
        · have hgood' := hfinder.after x hgood (hfinder.rests x hgood hm)
          exact Leads.goesOn hm (hadd x le_rfl hxd)
            (ih (d - (x + 1)).toNat (by omega) hgood' hlt
              (fun y hxy => hadd y (by omega))
              (fun y hy hxy => hdefined y hy (by omega)) rfl)
      · exact Leads.jumps hm hlt
          (ih (d - m).toNat (by omega) (hfinder.lands x m hgood hm) hmd
            (fun y hmy => hadd y (by omega))
            (fun y hy hmy => hdefined y hy (by omega)) rfl)

end Leading

end Cursor

/-!
# What an iterator emits
-/

namespace RecurIterator

/-- The iterator gives the date. -/
def Emits (it : RecurIterator) (d : Int) : Prop :=
  exists ds, it.Produces ds ∧ d ∈ ds

theorem mem_emitAll {start d : Int} {ds : List Int} (hd : d ∈ ds)
    (emitted : Nat) : d ∈ emitAll start none emitted ds := by
  induction ds generalizing emitted with
  | nil => cases hd
  | cons x ds ih =>
      have hopen (n : Nat) : ¬ spent none n = true := Bool.false_ne_true
      rw [emitAll, if_neg (hopen emitted), if_neg (hopen 1)]
      split
      · apply List.mem_cons_of_mem
        rcases List.mem_cons.mp hd with rfl | hd
        · exact List.mem_cons_self
        · exact List.mem_cons_of_mem _ (ih hd _)
      · rcases List.mem_cons.mp hd with rfl | hd
        · exact List.mem_cons_self
        · exact List.mem_cons_of_mem _ (ih hd _)

theorem mem_of_emitAll {start d : Int} {ds : List Int} {emitted : Nat}
    (hd : d ∈ emitAll start none emitted ds) :
    d ∈ ds ∨ d = start ∧ ds ≠ [] := by
  induction ds generalizing emitted with
  | nil => cases hd
  | cons x ds ih =>
      have hopen (n : Nat) : ¬ spent none n = true := Bool.false_ne_true
      have hrest {n : Nat} (hd : d ∈ emitAll start none n ds) :
          d ∈ x :: ds ∨ d = start ∧ x :: ds ≠ [] :=
        (ih hd).imp (List.mem_cons_of_mem x)
          (fun h => ⟨h.left, List.cons_ne_nil x ds⟩)
      have hfound {n : Nat} (hd : d ∈ x :: emitAll start none n ds) :
          d ∈ x :: ds ∨ d = start ∧ x :: ds ≠ [] := by
        rcases List.mem_cons.mp hd with rfl | hd
        · exact Or.inl List.mem_cons_self
        · exact hrest hd
      rw [emitAll, if_neg (hopen emitted), if_neg (hopen 1)] at hd
      split at hd
      · rcases List.mem_cons.mp hd with rfl | hd
        · exact Or.inr ⟨rfl, List.cons_ne_nil x ds⟩
        · exact hfound hd
      · exact hfound hd

theorem start_reliable {recur : Recur} {start first : Int}
    (hminutes : recur.byMinute = [])
    (hfirst : recur.freq.firstOf start = some first) :
    Reliable recur start first start where
  domain := Or.inl (firstOf_le hfirst)
  fresh := by
    apply Fresh.not_stale
    apply fresh_of_minute
    unfold Recur.minutes
    rw [hminutes]
    exact List.mem_singleton_self _

theorem new_untilAt {recur : Recur} {dtstart : DateOrDt UtcOrLocalForm}
    {it : RecurIterator} (huntil : recur.untilDate = none)
    (hnew : new recur dtstart = Except.ok it) : it.untilAt = none := by
  unfold new at hnew
  split at hnew
  · cases hnew
  · rcases bind_eq_ok hnew with ⟨start, _, hnew⟩
    rcases bind_eq_ok hnew with ⟨fact, _, hnew⟩
    rcases bind_eq_ok hnew with ⟨curr, _, hnew⟩
    rcases bind_eq_ok hnew with ⟨untilAt, huntilAt, hnew⟩
    rw [huntil] at huntilAt
    cases huntilAt
    cases hnew
    rfl

section Search

variable {recur : Recur} (hsupported : Supported recur)
  (hplain : recur.bySetPos = []) (huntil : recur.untilDate = none)
  (hcount : recur.count = none) {dtstart : DateOrDt UtcOrLocalForm}
  {it : RecurIterator} (hnew : new recur dtstart = Except.ok it)
  {first : Int} (hfirst : recur.freq.firstOf it.start = some first)

include hsupported hnew hfirst

theorem new_finder :
    it.toCursor.Finder (Reliable recur it.start first)
      (MatchesEvery recur.effectiveInterval recur it.start) :=
  rule_finder hsupported (new_made hnew).fact hfirst rfl

include hplain huntil hcount

theorem emits_iff (hminutes : recur.byMinute = []) {d : Int}
    (hle : it.start ≤ d)
    (hoccurs : MatchesEvery recur.effectiveInterval recur it.start d) :
    it.Emits d ↔ it.toCursor.Leads d it.start := by
  have hmade := new_made hnew
  have hreliable := start_reliable hminutes hfirst
  have hfinder := new_finder hsupported hnew hfirst
  rcases produces_due hsupported.freq hmade with ⟨ds, hproduces, _, hds⟩
  rw [hmade.count, hcount] at hproduces
  have hmem {x : Int} :
      x ∈ ds ↔ it.toCursor.Leads x it.start ∧ it.start ≤ x := by
    have hbegin := beginAt_plain hplain it.start it.start
    rw [hds, <- Cursor.meets_iff hmade.inRange]
    constructor
    · intro h
      have hmeets := h.left.meets
      rw [hbegin] at hmeets
      exact ⟨hmeets, h.right.start_le⟩
    · intro h
      refine ⟨⟨hbegin ▸ h.left, fun p r hp _ => ?_⟩, h.right, ?_⟩
      · cases ((picker_none_iff hmade).mpr hplain).symm.trans hp
      · intro u hu
        cases (new_untilAt huntil hnew).symm.trans hu
  constructor
  · intro hemits
    rcases hemits with ⟨dates, hdates, hd⟩
    rw [hdates.unique hproduces] at hd
    rcases mem_of_emitAll hd with hd | ⟨rfl, hne⟩
    · exact (hmem.mp hd).left
    · rcases List.exists_mem_of_ne_nil ds hne with ⟨x, hx⟩
      rcases (hmem.mp hx).left.rests_on hfinder hreliable hoccurs with
        ⟨hrests, hadd, _⟩
      exact Cursor.Leads.rests hrests hadd
  · intro hleads
    exact ⟨_, hproduces, mem_emitAll (hmem.mpr ⟨hleads, hle⟩) 0⟩

end Search

end RecurIterator

/-!
# The months that the search goes through
-/

/--
The ordinal weekdays of a rule exist in every month in which it repeats, up to
the month of `d`; and in the month after it if they are over before the month,
or before `d`, is.
-/
def Complete (byDay : List ByDay) (interval origin d : Int) : Prop :=
  forall nth wd, ByDay.fixed nth wd ∈ byDay ->
    forall m, origin ≤ m -> m ≤ monthOf (date d) ->
      (m - origin) % interval = 0 ->
        HasDay nth.val wd.asJiff m ∧
          (nthDayOfMonth nth.val wd.asJiff m < date d ->
            nthDayOfMonth nth.val wd.asJiff m + 1 < monthStart (m + 1) ->
              HasDay nth.val wd.asJiff (m + 1))

theorem monthOf_eq_iff {k n : Int} :
    monthOf n = k ↔ monthStart k ≤ n ∧ n < monthStart (k + 1) :=
  months.index_eq_iff

theorem monthOf_le_iff {k n : Int} : monthOf n ≤ k ↔ n < monthStart (k + 1) := by
  rw [<- Int.lt_add_one_iff]
  exact months.lt_first_iff.symm

theorem le_monthOf_iff {k n : Int} : k ≤ monthOf n ↔ monthStart k ≤ n :=
  months.first_le_iff.symm

theorem date_le {x y : Int} (h : x ≤ y) : date x ≤ date y := by
  unfold date
  omega

theorem date_days (k start : Int) :
    date (86400 * k + timeOfDay start) = k := by
  unfold date timeOfDay
  omega

theorem HasDay.monthOf_day {nth wd k : Int} (h : HasDay nth wd k) :
    monthOf (nthDayOfMonth nth wd k) = k :=
  monthOf_eq_iff.mpr h.right

theorem weekdaysFact_le {byDay : List ByDay} {nth : NonZeroI8} {wd : Weekday}
    (hmem : ByDay.fixed nth wd ∈ byDay) {c z : Int}
    (hz : weekdaysFact byDay c = some z) :
    monthOf (date z) ≤ monthOf (date c) + 1 ∧
      (date c ≤ nthDayOfMonth nth.val wd.asJiff (monthOf (date c)) ->
        monthOf (date z) = monthOf (date c)) := by
  rcases (weekdaysFact_cases (List.ne_nil_of_mem hmem) hz) with
    ⟨hcases, hleast⟩
  rcases hleast _ hmem with ⟨k, hk, hzk⟩
  have hcz : c ≤ z := by
    rcases hcases with heq | ⟨j, hj, hlt⟩
    · exact le_of_eq heq.symm
    · unfold date at hlt
      omega
  have hafter : monthOf (date c) ≤ monthOf (date z) :=
    months.index_mono (date_le hcz)
  have hbefore : monthOf (date z) ≤ monthOf (date k) :=
    months.index_mono (date_le hzk)
  rcases nthWeekdayOfMonthEq_eq_some hk with ⟨hday, hpast, hsame, hahead⟩
  have hdate {j : Int} (hj : k = 86400 * j) : date k = j := by
    unfold date
    omega
  rcases lt_trichotomy (nthDayOfMonth nth.val wd.asJiff (monthOf (date c)))
    (date c) with hlt | heq | hlt
  · rcases hpast hlt with ⟨hday', hk'⟩
    rw [hdate hk', hday'.monthOf_day] at hbefore
    exact ⟨hbefore, fun hle => absurd hle (not_le.mpr hlt)⟩
  · rw [hsame heq] at hbefore
    exact ⟨by omega, fun _ => by omega⟩
  · rw [hdate (hahead hlt), hday.monthOf_day] at hbefore
    exact ⟨by omega, fun _ => by omega⟩

/-- The three parts of the fact of a monthly rule, one after the other. -/
structure Passes (first interval start : Int) (byDay : List ByDay)
    (c y z n : Int) : Prop where
  instance_ : instanceFrom first Freq.monthly interval true c = some y
  weekdays : weekdaysFact byDay y = some z
  time : timeFact start z = some n

section Monthly

variable {interval : Option Nat} {byDay : List ByDay} {nth : NonZeroI8}
  {wd : Weekday} (hmem : ByDay.fixed nth wd ∈ byDay) {start first : Int}
  {fact : FactOp}
  (hfact : fromRecur (monthlyOn interval byDay) start = Except.ok fact)
  (hinterval : 1 ≤ (monthlyOn interval byDay).intervalOrOne)
  (hfirst : Freq.monthly.firstOf start = some first)

include hmem hfact hfirst

theorem passes_iff {c n : Int} :
    nextOccurOf fact c = some n ↔
      exists y z, Passes first (monthlyOn interval byDay).intervalOrOne start
        byDay c y z n := by
  rcases monthlyOn_run (List.ne_nil_of_mem hmem) hfact with
    ⟨first', hfirst', hrun⟩
  cases hfirst.symm.trans hfirst'
  rw [hrun]
  constructor
  · intro h
    rcases Option.bind_eq_some_iff.mp h with ⟨z, hz, hn⟩
    rcases Option.bind_eq_some_iff.mp hz with ⟨y, hy, hz⟩
    exact ⟨y, z, hy, hz, hn⟩
  · intro hpasses
    rcases hpasses with ⟨y, z, h⟩
    rw [h.instance_, Option.bind_some, h.weekdays, Option.bind_some]
    exact h.time

include hinterval

theorem next_month_le {c n m : Int} (hle : first ≤ c)
    (hn : nextOccurOf fact c = some n) (hbefore : monthOf (date c) < m)
    (hm : (m - monthOf (date start)) %
      narrow 32 (monthlyOn interval byDay).intervalOrOne = 0) :
    monthOf (date n) ≤ m := by
  rcases (passes_iff hmem hfact hfirst).mp hn with ⟨y, z, hpasses⟩
  have hweekdays := weekdaysFact_le hmem hpasses.weekdays
  have hmidnight {k : Int} (hk : z = 86400 * k) : date n = date z := by
    have htime := hpasses.time
    rw [hk] at htime
    rw [timeFact_midnight htime, hk]
    unfold date
    omega
  rcases (monthly_instance hinterval hfirst hle hpasses.instance_).right with
    rfl | ⟨_, _, hy, hleast⟩
  · rcases (weekdaysFact_cases (List.ne_nil_of_mem hmem)
      hpasses.weekdays).left with rfl | ⟨k, hk, _⟩
    · have hnear := (timeFact_near hpasses.time).right
      have hbracket := (monthOf_bracket (date z)).right
      have hlength := monthLength_bounds (monthOf (date z) + 1)
      refine le_trans (monthOf_le_iff.mpr ?_) (Int.add_one_le_iff.mpr hbefore)
      rw [monthStart_add]
      omega
    · rw [hmidnight hk]
      omega
  · have hnear : monthOf (date y) ≤ m := hleast m hbefore hm
    have hbegin : date y = monthStart (monthOf (date y)) := by
      unfold date at *
      omega
    have hday := ((answers_of_weekdaysFact hpasses.weekdays) nth wd hmem).left
    have hsame := hweekdays.right
      (le_of_eq_of_le hbegin hday.right.left)
    have hn : date n = date z := by
      rcases (weekdaysFact_cases (List.ne_nil_of_mem hmem)
        hpasses.weekdays).left with heq | ⟨k, hk, _⟩
      · exact hmidnight (heq.trans hy)
      · exact hmidnight hk
    rw [hn, hsame]
    exact hnear

theorem passes_rests {c n : Int} (hle : first ≤ c)
    (hm : (monthOf (date c) - monthOf (date start)) %
      narrow 32 (monthlyOn interval byDay).intervalOrOne = 0)
    (hn : nextOccurOf fact c = some n) :
    exists z, weekdaysFact byDay c = some z ∧ timeFact start z = some n := by
  rcases (passes_iff hmem hfact hfirst).mp hn with ⟨y, z, hpasses⟩
  rcases (monthly_instance hinterval hfirst hle hpasses.instance_).right with
    rfl | ⟨hother, _⟩
  · exact ⟨z, hpasses.weekdays, hpasses.time⟩
  · exact absurd hm hother

theorem next_after_occurrence {k n : Int}
    (hk : nthDayOfMonth nth.val wd.asJiff (monthOf k) = k)
    (hm : (monthOf k - monthOf (date start)) %
      narrow 32 (monthlyOn interval byDay).intervalOrOne = 0)
    (hle : first ≤ 86400 * k + timeOfDay start + 1)
    (hdate : date (86400 * k + timeOfDay start + 1) = k)
    (hn : nextOccurOf fact (86400 * k + timeOfDay start + 1) = some n) :
    date n = k + 1 := by
  rw [<- hdate] at hm
  rcases passes_rests hmem hfact hinterval hfirst hle hm hn with
    ⟨z, hz, htime⟩
  rcases weekdaysFact_cases (List.ne_nil_of_mem hmem) hz with ⟨hcases, hleast⟩
  rcases hleast _ hmem with ⟨j, hj, hzj⟩
  have hsame := (nthWeekdayOfMonthEq_eq_some hj).right.right.left
  rw [hdate] at hsame
  have hrests : z = 86400 * k + timeOfDay start + 1 := by
    rcases hcases with heq | ⟨i, hi, hlt⟩
    · exact heq
    · have hj' := hsame hk
      unfold date at hlt
      omega
  rw [hrests] at htime
  have hhour := hour_bounds start
  rw [timeFact_after htime]
  unfold date
  omega

end Monthly

/-!
# Ordinal weekdays are emitted
-/

namespace RecurIterator

section Ordinals

variable {interval : Option Nat} {byDay : List ByDay}
  {dtstart : DateOrDt UtcOrLocalForm} {it : RecurIterator}
  (hnew : new (monthlyOn interval byDay) dtstart = Except.ok it)

include hnew

theorem monthlyOn_supported : Supported (monthlyOn interval byDay) where
  freq := rfl
  interval := (new_made hnew).interval_pos
  bySecond := fun _ hs => nomatch hs
  byDay := fun hfreq => nomatch hfreq
  byWeekNo := rfl

/-- The month repeats. -/
def Repeats (interval : Option Nat) (byDay : List ByDay) (start m : Int) : Prop :=
  (m - monthOf (date start)) %
    (monthlyOn interval byDay).effectiveInterval = 0

omit hnew in
theorem ordinal_matches {nth : NonZeroI8} {wd : Weekday}
    (hmem : ByDay.fixed nth wd ∈ byDay) {start m : Int}
    (hm : Repeats interval byDay start m) (hday : HasDay nth.val wd.asJiff m) :
    MatchesEvery (monthlyOn interval byDay).effectiveInterval
      (monthlyOn interval byDay) start
      (86400 * nthDayOfMonth nth.val wd.asJiff m + timeOfDay start) := by
  have hdate := date_days (nthDayOfMonth nth.val wd.asJiff m) start
  have hmonth := hday.monthOf_day
  have hentries : ByDay.fixed nth wd ∈ (monthlyOn interval byDay).dayEntries :=
    List.mem_filter.mpr ⟨hmem, rfl⟩
  constructor
  · show ((months.comp days).index _ - (months.comp days).index _) % _ = 0
    rw [comp_days_index, comp_days_index, hdate]
    show (monthOf _ - monthOf _) % _ = 0
    rw [hmonth]
    exact hm
  · apply List.mem_singleton.mpr
    unfold second timeOfDay
    omega
  · apply List.mem_singleton.mpr
    unfold minute timeOfDay
    omega
  · constructor
    · exact fun hne => absurd rfl hne
    · refine fun _ => ⟨_, hentries, rfl, ?_⟩
      rw [hdate, hmonth]
    · exact fun hne => absurd rfl hne
    · exact fun hne => absurd rfl hne
    · exact fun hne => absurd rfl hne
  · constructor
    · intro _
      unfold hour timeOfDay
      omega
    · exact fun hfreq => nomatch hfreq
    · exact fun _ hnil => absurd hnil (List.ne_nil_of_mem hmem)
    · exact fun hfreq => nomatch hfreq
    · exact fun hfreq => nomatch hfreq

variable {nth : NonZeroI8} {wd : Weekday}
  (hmem : ByDay.fixed nth wd ∈ byDay) {first : Int}
  (hfirst : Freq.monthly.firstOf it.start = some first)

include hmem hfirst

theorem leads_through {m d x : Int} (h : it.toCursor.Leads d x)
    (hle : first ≤ x) (hm : Repeats interval byDay it.start m)
    (hxm : monthOf (date x) ≤ m) (hmd : m ≤ monthOf (date d)) :
    exists y, it.toCursor.Leads d y ∧ first ≤ y ∧ monthOf (date y) = m := by
  have hmade := new_made hnew
  induction h with
  | rests h hadd => exact ⟨d, Cursor.Leads.rests h hadd, hle, by omega⟩
  | @goesOn x h hadd hrest ih =>
      rcases eq_or_lt_of_le hxm with heq | hlt
      · exact ⟨x, Cursor.Leads.goesOn h hadd hrest, hle, heq⟩
      · have hnext : monthOf (date (x + 1)) ≤ m := by
          have hbracket := (monthOf_bracket (date x)).right
          have hmono := months.first_strictMono.monotone
            (Int.add_one_le_iff.mpr hlt)
          have hlater := months.first_strictMono (Int.lt_succ m)
          apply monthOf_le_iff.mpr
          change date x < months.first (monthOf (date x) + 1) at hbracket
          show date (x + 1) < months.first (m + 1)
          unfold date at *
          omega
        exact ih (by omega) hnext
  | @jumps x n h hlt hrest ih =>
      rcases eq_or_lt_of_le hxm with heq | hbefore
      · exact ⟨x, Cursor.Leads.jumps h hlt hrest, hle, heq⟩
      · exact ih (by omega) (next_month_le hmem hmade.fact hmade.interval_pos
          hfirst hle h hbefore hm)

theorem answers_of_leads {d x : Int} (h : it.toCursor.Leads d x)
    (hle : first ≤ x) (hm : Repeats interval byDay it.start (monthOf (date x))) :
    Answers byDay x := by
  have hmade := new_made hnew
  rcases h.defined with ⟨n, hn⟩
  rcases passes_rests hmem hmade.fact hmade.interval_pos hfirst hle hm hn with
    ⟨z, hz, _⟩
  exact answers_of_weekdaysFact hz

theorem leads_day_after {d k : Int}
    (h : it.toCursor.Leads d (86400 * k + timeOfDay it.start + 1))
    (hk : nthDayOfMonth nth.val wd.asJiff (monthOf k) = k)
    (hm : Repeats interval byDay it.start (monthOf k))
    (hle : first ≤ 86400 * k + timeOfDay it.start + 1) (hkd : k < date d) :
    exists y, it.toCursor.Leads d y ∧ first ≤ y ∧ date y = k + 1 := by
  have hmade := new_made hnew
  by_cases hsame : date (86400 * k + timeOfDay it.start + 1) = k
  · have hafter {n : Int} := next_after_occurrence (n := n) hmem hmade.fact
      hmade.interval_pos hfirst hk hm hle hsame
    cases h with
    | rests hn _ => omega
    | goesOn hn _ _ =>
        have hlater := hafter hn
        omega
    | jumps hn hlt hrest => exact ⟨_, hrest, by omega, hafter hn⟩
  · refine ⟨_, h, hle, ?_⟩
    unfold date timeOfDay at *
    omega

theorem complete_of_leads {d : Int} (h : it.toCursor.Leads d it.start) :
    Complete byDay (monthlyOn interval byDay).effectiveInterval
      (monthOf (date it.start)) d := by
  intro nth' wd' hmem' m horigin hmd hm
  have hle := firstOf_le hfirst
  have hfinder := new_finder (monthlyOn_supported hnew) hnew hfirst
  have hreliable : Reliable (monthlyOn interval byDay) it.start first it.start :=
    start_reliable rfl hfirst
  rcases leads_through hnew hmem hfirst h hle hm horigin hmd with
    ⟨x, hx, hxle, rfl⟩
  have hday := (answers_of_leads hnew hmem hfirst hx hxle hm nth' wd' hmem').left
  refine ⟨hday, fun hbefore hwithin => ?_⟩
  -- A visited instant of the same month after the day needs the next one.
  have hneeds {y : Int} (hy : it.toCursor.Leads d y) (hyle : first ≤ y)
      (hsame : monthOf (date y) = monthOf (date x))
      (hlt : nthDayOfMonth nth'.val wd'.asJiff (monthOf (date x)) < date y) :
      HasDay nth'.val wd'.asJiff (monthOf (date x) + 1) := by
    rw [<- hsame] at hlt hm ⊢
    exact (answers_of_leads hnew hmem hfirst hy hyle hm nth' wd' hmem').right hlt
  generalize hk : nthDayOfMonth nth'.val wd'.asJiff (monthOf (date x)) = k
    at hbefore hwithin hneeds
  have hkmonth : monthOf k = monthOf (date x) := by
    rw [<- hk]
    exact hday.monthOf_day
  by_cases hpast : 86400 * k + timeOfDay it.start < it.start
  · have hklt : k < date it.start := by
      unfold date timeOfDay at *
      omega
    have hstart : monthOf (date it.start) = monthOf (date x) := by
      have hmono := months.index_mono (le_of_lt hklt)
      rw [months_index, months_index] at hmono
      omega
    exact hneeds h hle hstart hklt
  · have hoccurs := ordinal_matches hmem' hm hday
    rw [hk] at hoccurs
    have hkd : 86400 * k + timeOfDay it.start ≤ d := by
      unfold date timeOfDay at *
      omega
    have hat := h.meets hfinder hreliable hoccurs (not_lt.mp hpast) hkd
    have hkle : first ≤ 86400 * k + timeOfDay it.start :=
      le_trans hle (not_lt.mp hpast)
    have hkreliable : Reliable (monthlyOn interval byDay) it.start first
        (86400 * k + timeOfDay it.start) :=
      ⟨Or.inl hkle, (fresh_of_minute hoccurs.minute).not_stale⟩
    have hlt : 86400 * k + timeOfDay it.start < d := by
      refine lt_of_le_of_ne hkd (fun heq => ?_)
      rw [<- heq, date_days] at hbefore
      exact lt_irrefl k hbefore
    have hnext := (hat.rests_on hfinder hkreliable hoccurs).right.right hlt
    rcases leads_day_after hnew hmem' hfirst hnext (by rw [hkmonth, hk])
      (by rw [hkmonth]; exact hm) (by omega) hbefore with ⟨y, hy, hyle, hdate⟩
    have hymonth : monthOf (date y) = monthOf (date x) := by
      have hbegin := (monthOf_bracket k).left
      rw [hkmonth] at hbegin
      rw [hdate]
      exact monthOf_eq_iff.mpr ⟨by omega, hwithin⟩
    exact hneeds hy hyle hymonth (by omega)

omit hnew hmem in
theorem origin_le {x : Int} (hle : first ≤ x) :
    monthOf (date it.start) ≤ monthOf (date x) := by
  have hmono := (months.comp days).index_mono hle
  have hfirst' := firstOf_eq_some rfl hfirst
  change first = (months.comp days).first
    ((months.comp days).index it.start) at hfirst'
  rw [hfirst', Partition.index_first, comp_days_index, comp_days_index] at hmono
  exact hmono

omit hnew hmem in
theorem answers_of_complete {d x : Int} (hxd : x ≤ d) (hle : first ≤ x)
    (hm : Repeats interval byDay it.start (monthOf (date x)))
    (hcomplete : Complete byDay (monthlyOn interval byDay).effectiveInterval
      (monthOf (date it.start)) d) : Answers byDay x := by
  intro nth' wd' hmem'
  have horigin := origin_le hfirst hle
  have hmd : monthOf (date x) ≤ monthOf (date d) :=
    months.index_mono (date_le hxd)
  rcases hcomplete nth' wd' hmem' _ horigin hmd hm with ⟨hday, hnext⟩
  refine ⟨hday, fun hlt => hnext (lt_of_lt_of_le hlt (date_le hxd)) ?_⟩
  have hbracket := (monthOf_bracket (date x)).right
  omega

omit hmem hfirst in
theorem start_month : 0 ≤ monthOf (date it.start) := by
  have hdate (d : Date) : monthStart 0 ≤ d.toDay := by
    have hmonth := d.month.property
    have hday := d.day.property
    have hmono := months.first_strictMono.monotone
      (show 0 ≤ 12 * d.year.asNum + (d.month.asNum - 1) by
        unfold Bounded.asNum
        omega)
    change monthStart 0 ≤ monthStart _ at hmono
    unfold Date.toDay dayNumber Bounded.asNum at *
    omega
  apply le_monthOf_iff.mpr
  have hstart : dtstart.toZoned = Except.ok it.start := by
    unfold new at hnew
    split at hnew
    · cases hnew
    · rcases bind_eq_ok hnew with ⟨start, hstart, hnew⟩
      rcases bind_eq_ok hnew with ⟨fact, _, hnew⟩
      rcases bind_eq_ok hnew with ⟨curr, _, hnew⟩
      rcases bind_eq_ok hnew with ⟨untilAt, _, hnew⟩
      cases hnew
      exact mapFailure_ok hstart
  cases dtstart with
  | date d =>
      rcases checked_eq_some.mp (liftJiff_ok hstart) with ⟨_, hvalue⟩
      have hd := hdate d
      unfold date
      omega
  | dateTime d t form =>
      have hhour := t.hour.property
      have hminute := t.minute.property
      have hd := hdate d
      unfold DateOrDt.toZoned at hstart
      dsimp only at hstart
      split at hstart
      · rcases checked_eq_some.mp (liftJiff_ok hstart) with ⟨_, hvalue⟩
        have hsecond := t.second.property
        unfold date Bounded.asNum at *
        omega
      · cases hstart

theorem defined_of_complete {k d : Int} (hday : HasDay nth.val wd.asJiff k)
    (hm : Repeats interval byDay it.start k)
    (hd : d = 86400 * nthDayOfMonth nth.val wd.asJiff k + timeOfDay it.start)
    (hlast : 86400 * monthStart (k + 1 + 1) ≤ maxTimestamp)
    (hcomplete : Complete byDay (monthlyOn interval byDay).effectiveInterval
      (monthOf (date it.start)) d) {x : Int} (hle : first ≤ x) (hxd : x ≤ d) :
    exists n, nextOccurOf it.fact x = some n := by
  have hmade := new_made hnew
  have hzero := start_month hnew
  have hdate : date d = nthDayOfMonth nth.val wd.asJiff k := by
    rw [hd, date_days]
  have hmonth : monthOf (date d) = k := by
    rw [hdate]
    exact hday.monthOf_day
  have hfirst' : first = 86400 * monthStart (monthOf (date it.start)) := by
    rw [firstOf_eq_some rfl hfirst]
    show (months.comp days).first ((months.comp days).index it.start) = _
    rw [comp_days_index, comp_days_first]
    rfl
  have hlo : minTimestamp ≤ 86400 * monthStart (monthOf (date it.start)) := by
    rw [<- hfirst']
    exact (firstOf_lands rfl hfirst).inRange.left
  have horigin := origin_le hfirst hle
  have hbegin {y : Int} (h : monthOf (date it.start) ≤ monthOf (date y)) :
      monthStart (monthOf (date it.start)) ≤ monthStart (monthOf (date y)) :=
    months.first_strictMono.monotone h
  have hwithin {j : Int} (h : j ≤ k) :
      monthStart (j + 1 + 1) ≤ monthStart (k + 1 + 1) :=
    months.first_strictMono.monotone (by omega)
  have hxk : monthOf (date x) ≤ k := by
    rw [<- hmonth]
    exact months.index_mono (date_le hxd)
  rcases monthly_instance_inside hmade.interval_pos hfirst hlo hlast hle
    (by omega) (hbegin horigin) hxk hm
    (months.first_strictMono.monotone (by omega)) with ⟨y, hy⟩
  rcases monthly_instance hmade.interval_pos hfirst hle hy with
    ⟨hrepeats, hcases⟩
  have hyd : first ≤ y ∧ y ≤ d := by
    rcases hcases with rfl | ⟨hother, hlt, hy', hleast⟩
    · exact ⟨hle, hxd⟩
    · have hxk' : monthOf (date x) < k := by
        refine lt_of_le_of_ne hxk ?_
        rintro rfl
        exact hother hm
      have hyk := months.first_strictMono.monotone (hleast k hxk' hm)
      have hyo := months.first_strictMono.monotone
        (show monthOf (date it.start) ≤ monthOf (date y) by omega)
      have hdstart := hday.right.left
      change monthStart (monthOf (date y)) ≤ monthStart k at hyk
      change monthStart (monthOf (date it.start)) ≤ monthStart _ at hyo
      rw [<- hdate] at hdstart
      unfold date at *
      omega
  have hyorigin := origin_le hfirst hyd.left
  have hyk : monthOf (date y) ≤ k := by
    rw [<- hmonth]
    exact months.index_mono (date_le hyd.right)
  have hanswers := answers_of_complete hfirst hyd.right hyd.left hrepeats
    hcomplete
  rcases weekdaysFact_inside hlo hlast hanswers (hbegin hyorigin)
    (hwithin hyk) with ⟨z, hz⟩
  have hzk : monthOf (date z) ≤ k := by
    have hnear := weekdaysFact_le hmem hz
    rcases eq_or_lt_of_le hyk with heq | hlt
    · have hsame := hnear.right (by
        rw [heq, <- hdate]
        exact date_le hyd.right)
      omega
    · omega
  have hyz : date y ≤ date z := by
    rcases (weekdaysFact_cases (List.ne_nil_of_mem hmem) hz).left with
      rfl | ⟨j, hj, hlt⟩
    · exact le_rfl
    · unfold date at *
      omega
  have hzlo : monthStart (monthOf (date it.start)) ≤ date z :=
    le_monthOf_iff.mp (le_trans hyorigin (months.index_mono hyz))
  have hzhi : date z + 3 ≤ monthStart (k + 1 + 1) := by
    have hlt := monthOf_le_iff.mp hzk
    have hlength := monthLength_bounds (k + 1)
    rw [monthStart_add (k + 1)]
    omega
  rcases timeFact_inside hlo hlast it.start hzlo hzhi with ⟨n, hn⟩
  exact ⟨n, (passes_iff hmem hmade.fact hfirst).mpr ⟨y, z, hy, hz, hn⟩⟩

end Ordinals

/--
A monthly rule gives an ordinal weekday if and only if no ordinal weekday of the
rule is missing in a month before it in which the rule looks for it.
-/
theorem ordinal_emits_iff {interval : Option Nat} {byDay : List ByDay}
    {dtstart : DateOrDt UtcOrLocalForm} {it : RecurIterator}
    (hnew : new (monthlyOn interval byDay) dtstart = Except.ok it)
    {nth : NonZeroI8} {wd : Weekday} (hmem : ByDay.fixed nth wd ∈ byDay)
    {k d : Int} (hday : HasDay nth.val wd.asJiff k)
    (hm : (k - monthOf (date it.start)) %
      (monthlyOn interval byDay).intervalOrOne = 0)
    (hd : d = 86400 * nthDayOfMonth nth.val wd.asJiff k + timeOfDay it.start)
    (hstart : it.start ≤ d)
    (hlast : 86400 * monthStart (k + 1 + 1) ≤ maxTimestamp) :
    it.Emits d ↔
      Complete byDay (monthlyOn interval byDay).effectiveInterval
        (monthOf (date it.start)) d := by
  have hmade := new_made hnew
  have hsupported := monthlyOn_supported hnew
  rcases fromRecur_run hsupported.freq hmade.fact with ⟨first, hfirst, _⟩
  have hrepeats : Repeats interval byDay it.start k := by
    unfold Repeats Recur.effectiveInterval narrow
    split
    · exact hm
    · exact Int.emod_one _
  have hoccurs := ordinal_matches hmem hrepeats hday
  rw [<- hd] at hoccurs
  rw [emits_iff hsupported rfl rfl rfl hnew hfirst rfl hstart hoccurs]
  constructor
  · exact complete_of_leads hnew hmem hfirst
  · intro hcomplete
    have hfinder := new_finder hsupported hnew hfirst
    have hle := firstOf_le hfirst
    refine Cursor.leads_of_defined hfinder hoccurs (start_reliable rfl hfirst)
      hstart ?_ ?_
    · intro y hy hyd
      have hrange := hmade.inRange.left
      have hlater : 86400 * (date d + 1) ≤ maxTimestamp := by
        have hbefore := hday.right.right
        have hlt := monthStart_lt (k + 1)
        rw [hd, date_days]
        omega
      show checked (y + 1) = some (y + 1)
      refine checked_eq_some.mpr ⟨⟨by omega, ?_⟩, rfl⟩
      unfold date at hlater
      omega
    · intro y _ hy hyd
      exact defined_of_complete hnew hmem hfirst hday hrepeats hd hlast
        hcomplete (le_trans hle hy) hyd

theorem hasDay_of_le_four {nth wd : Int} (hzero : nth ≠ 0) (hlo : -4 ≤ nth)
    (hhi : nth ≤ 4) (k : Int) : HasDay nth wd k := by
  have hlength := (monthLength_bounds k).left
  have hnext := monthStart_add k
  unfold HasDay nthDayOfMonth
  dsimp only
  split
  · omega
  · omega

/-- 2018-03-05. -/
def secondMonday : Int := 1520208000

def onFirstMonday : List ByDay :=
  [ByDay.fixed ⟨1, firstOrdinal_bounded⟩ Weekday.monday]

def mondaysFromFebruary : RecurIterator :=
  { start := february
    freq := Freq.monthly
    interval := 1
    fact := runFacts
      (instanceFrom february Freq.monthly 1 true ::
        ((andFacts (filterFacts (monthlyOn none onFirstMonday))).toList ++
          (fromRecurInvariants (monthlyOn none onFirstMonday)
            february).toList))
    picker := none
    repeatAt := none
    curr := february
    next := none
    since := none
    untilAt := none
    count := none
    emitted := 0 }

/-- The first Monday of the second month. -/
theorem onFirstMonday_emits : mondaysFromFebruary.Emits secondMonday := by
  have hnew : new (monthlyOn none onFirstMonday) february2018 =
      Except.ok mondaysFromFebruary := rfl
  have hday (k : Int) : HasDay 1 Weekday.monday.asJiff k :=
    hasDay_of_le_four (by decide) (by decide) (by decide) k
  refine (ordinal_emits_iff hnew List.mem_cons_self (hday 24218) rfl rfl
    (by decide) (by decide)).mpr ?_
  intro nth wd hmem m _ _ _
  cases List.mem_singleton.mp hmem
  exact ⟨hday m, fun _ _ => hday (m + 1)⟩

/-- The fifth Monday of April is lost, as February and March have none. -/
theorem fifthMonday_lost :
    new (monthlyOn none [ByDay.fixed ⟨5, by decide⟩ Weekday.monday])
        february2018 = Except.ok fifthMondays ∧
      HasDay 5 Weekday.monday.asJiff 24219 ∧
      ¬ HasDay 5 Weekday.monday.asJiff 24217 ∧
      lastMonday = 86400 * nthDayOfMonth 5 Weekday.monday.asJiff 24219 +
        timeOfDay fifthMondays.start ∧
      fifthMondays.start ≤ lastMonday ∧ ¬ fifthMondays.Emits lastMonday := by
  have hproduces : fifthMondays.Produces [] :=
    ⟨20, rfl⟩
  refine ⟨rfl, by decide, by decide, by decide, by decide, ?_⟩
  intro hemits
  rcases hemits with ⟨dates, hdates, hd⟩
  rw [hdates.unique hproduces] at hd
  cases hd

end RecurIterator

end Recurrence
end MailClient
