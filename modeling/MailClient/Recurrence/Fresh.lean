import MailClient.Recurrence.Found

/-!
# Fresh instants

An instant is fresh if a minute of the rule is still ahead in its hour, or no
second of the rule is behind it in its minute.  The fact of a rule overshoots
from no fresh instant and ends on one, and the second after an occurrence is
fresh.  So a search that begins on an instant that is not stale finds every
occurrence.
-/

namespace MailClient
namespace Recurrence

open Foundation

def Fresh (recur : Recur) (start c : Int) : Prop :=
  (exists m, m ∈ recur.minutes start ∧ minute c ≤ m) ∨
    forall s, s ∈ recur.seconds start -> second c ≤ s

variable {recur : Recur} {start n : Int}

theorem Fresh.not_stale {interval c : Int} (h : Fresh recur start c) :
    ¬ StaleFor interval recur start c := by
  intro hstale
  rcases h with ⟨m, hm, hle⟩ | hseconds
  · exact absurd hle (not_le.mpr (hstale.minutes m hm))
  · rcases hstale.earlier with ⟨s, hs, hlt⟩
    exact absurd (hseconds s hs) (not_le.mpr hlt)

theorem fresh_of_minute {c : Int} (h : minute c ∈ recur.minutes start) :
    Fresh recur start c :=
  Or.inl ⟨minute c, h, le_rfl⟩

theorem fresh_of_fullHour (start : Int) {c : Int} (h : c % 3600 = 0) :
    Fresh recur start c := by
  rcases List.exists_mem_of_ne_nil _ (minutes_ne_nil recur start) with ⟨m, hm⟩
  refine Or.inl ⟨m, hm, ?_⟩
  have hbounds := minutes_bounds hm
  unfold minute
  omega

theorem fresh_after (hsupported : Supported recur) {interval d : Int}
    (h : MatchesEvery interval recur start d) :
    Fresh recur start (d + 1) := by
  by_cases hlast : second d = 59
  · right
    intro s hs
    have hbounds := second_of_seconds hsupported hs
    unfold second at *
    omega
  · have hbounds := second_bounds d
    have hsame : minute (d + 1) = minute d := by
      unfold minute second at *
      omega
    apply fresh_of_minute
    rw [hsame]
    exact h.minute

/-!
# Where the fact of a rule ends
-/

theorem Lands.andThen {q : Int -> Prop} {f g : FactOp} (hf : Lands q f)
    (hg : Lands q g) : Lands q (fun c => (f c).bind g) := by
  intro c n hrun
  rcases Option.bind_eq_some_iff.mp hrun with ⟨x, hx, hn⟩
  rcases hg x n hn with rfl | hlands
  · exact hf c n hx
  · exact Or.inr hlands

theorem FullHour.inRange (h : FullHour n) : inRange n :=
  h.right

theorem secondEq_lands (s : Int) : Lands inRange (secondEq s) := by
  intro c n hrun
  unfold secondEq at hrun
  split at hrun
  · exact Or.inr (build_inRange hrun)
  · split at hrun
    · cases hrun
      exact Or.inl rfl
    · rcases Option.bind_eq_some_iff.mp hrun with ⟨x, _, hbuild⟩
      exact Or.inr (build_inRange hbuild)

theorem minuteEq_lands (m : Int) : Lands inRange (minuteEq m) := by
  intro c n hrun
  unfold minuteEq at hrun
  split at hrun
  · exact Or.inr (build_inRange hrun)
  · split at hrun
    · cases hrun
      exact Or.inl rfl
    · rcases Option.bind_eq_some_iff.mp hrun with ⟨x, _, hbuild⟩
      exact Or.inr (build_inRange hbuild)

theorem repetition_lands {q : Int -> Prop} {bits : Nat} {interval diff c : Int}
    {inclusive : Bool} {jump : Int -> Option Int}
    (hjump : forall k m, jump k = some m -> q m)
    (hrun : repetition bits interval diff inclusive jump c = some n) :
    inclusive = true ∧ n = c ∨ q n := by
  unfold repetition at hrun
  dsimp only at hrun
  split at hrun
  · rename_i hrest
    cases hrun
    exact Or.inl ⟨hrest.right, rfl⟩
  · exact Or.inr (hjump _ n hrun)

theorem bind_startOfDay {x : Option Int} (h : x.bind startOfDay = some n) :
    FullHour n := by
  rcases Option.bind_eq_some_iff.mp h with ⟨y, _, hn⟩
  exact startOfDay_lands hn

theorem instanceFrom_lands {freq : Freq} (hfreq : freq.repeatsDays = true)
    {interval c : Int} {inclusive : Bool}
    (hrun : instanceFrom start freq interval inclusive c = some n) :
    inclusive = true ∧ n = c ∨ FullHour n := by
  unfold instanceFrom at hrun
  cases freq with
  | secondly => cases hfreq
  | minutely => cases hfreq
  | hourly => cases hfreq
  | daily => exact repetition_lands (fun k m hm => bind_startOfDay hm) hrun
  | weekly =>
      refine repetition_lands (fun k m hm => ?_) hrun
      rcases Option.bind_eq_some_iff.mp hm with ⟨x, _, hm⟩
      split at hm
      · exact startOfDay_lands hm
      · exact bind_startOfDay hm
  | monthly =>
      refine repetition_lands (fun k m hm => ?_) hrun
      rcases Option.bind_eq_some_iff.mp hm with ⟨x, _, hm⟩
      exact bind_startOfDay hm
  | yearly =>
      refine repetition_lands (fun k m hm => ?_) hrun
      rcases Option.bind_eq_some_iff.mp hm with ⟨x, _, hm⟩
      exact bind_startOfDay hm

theorem instanceFrom_inRange {freq : Freq} {interval c : Int} {inclusive : Bool}
    (hrun : instanceFrom start freq interval inclusive c = some n) :
    inclusive = true ∧ n = c ∨ inRange n := by
  cases hfreq : freq.repeatsDays with
  | true => exact (instanceFrom_lands hfreq hrun).imp_right FullHour.inRange
  | false =>
      unfold instanceFrom at hrun
      cases freq with
      | secondly =>
          exact repetition_lands (fun k m hm => (addSeconds_eq_some hm).left)
            hrun
      | minutely =>
          refine repetition_lands (fun k m hm => ?_) hrun
          unfold addMinutes at hm
          have hspan := trySpan_bind hm
          rcases checked_eq_some.mp hspan with ⟨hrange, rfl⟩
          exact hrange
      | hourly =>
          refine repetition_lands (fun k m hm => ?_) hrun
          unfold addHours at hm
          have hspan := trySpan_bind hm
          rcases checked_eq_some.mp hspan with ⟨hrange, rfl⟩
          exact hrange
      | daily | weekly | monthly | yearly => cases hfreq

theorem factIf_lands {q : Int -> Prop} {fact : FactOp} (missing : Bool)
    (h : Lands q fact) : Lands q (runFacts (factIf missing fact)) := by
  cases missing with
  | true =>
      unfold factIf
      rw [if_pos rfl, runFacts_singleton]
      exact h
  | false =>
      intro c n hrun
      cases hrun
      exact Or.inl rfl

theorem Lands.append {q : Int -> Prop} {facts facts' : List FactOp}
    (h : Lands q (runFacts facts)) (h' : Lands q (runFacts facts')) :
    Lands q (runFacts (facts ++ facts')) := by
  intro c n hrun
  rw [runFacts_append] at hrun
  exact h.andThen h' c n hrun

theorem dateInvariants_lands (recur : Recur) (start : Int) :
    Lands FullHour (runFacts (dateInvariants recur start)) := by
  unfold dateInvariants
  cases recur.freq with
  | weekly => exact factIf_lands _ (weekdayEq_lands _)
  | monthly => exact factIf_lands _ (dayEq_lands _)
  | yearly =>
      exact (factIf_lands _ (dayEq_lands _)).append
        (factIf_lands _ (monthEq_lands _))
  | secondly | minutely | hourly | daily =>
      intro c n hrun
      cases hrun
      exact Or.inl rfl

theorem otherInvariants_lands (recur : Recur) (start : Int) :
    Lands FullHour (runFacts (otherInvariants recur start)) :=
  (factIf_lands recur.byHour.isEmpty (observedHourEq_lands (hour start))).append
    (dateInvariants_lands recur start)

theorem timeInvariants_lands (recur : Recur) (start : Int) :
    Lands inRange (runFacts (timeInvariants recur start)) := by
  have hseconds := factIf_lands recur.bySecond.isEmpty
    (secondEq_lands (second start))
  have hminutes := factIf_lands recur.byMinute.isEmpty
    (minuteEq_lands (minute start))
  have hhours := factIf_lands recur.byHour.isEmpty
    ((observedHourEq_lands (hour start)).weaken (fun n => FullHour.inRange))
  unfold timeInvariants
  cases recur.freq with
  | secondly =>
      intro c n hrun
      cases hrun
      exact Or.inl rfl
  | minutely => exact hseconds
  | hourly => exact hseconds.append hminutes
  | daily | weekly | monthly | yearly =>
      exact (hseconds.append hminutes).append hhours

theorem filterFacts_lands (recur : Recur) :
    Lands inRange (runFacts (filterFacts recur)) := by
  have hsecond : Lands inRange (runFacts (secondFilters recur)) :=
    lands_runFacts (fun _ hfact => lands_orFacts (fun s _ =>
      secondEq_lands s.asNum) hfact)
  have hminute : Lands inRange (runFacts (minuteFilters recur)) :=
    lands_runFacts (fun _ hfact => lands_orFacts (fun m _ =>
      minuteEq_lands m.asNum) hfact)
  have hother := (otherFilters_lands recur).weaken (fun n => FullHour.inRange)
  rw [filterFacts_eq]
  exact hsecond.append (hminute.append hother)

/-- Within the range of jiff, unless it rests. -/
theorem nextOccurOf_lands {fact : FactOp}
    (hfact : fromRecur recur start = Except.ok fact) :
    Lands inRange (nextOccurOf fact) := by
  have hbyWeekNo := byWeekNo_of_fromRecur hfact
  unfold fromRecur instanceOf at hfact
  cases hfirst : recur.freq.firstOf start with
  | none =>
      rw [hfirst] at hfact
      cases hfact
  | some first =>
      rw [hfirst] at hfact
      unfold fromRecurFilters fromRecurInvariants at hfact
      rw [if_pos hbyWeekNo] at hfact
      cases hfact
      have hinstance : Lands inRange
          (instanceFrom first recur.freq recur.intervalOrOne true) :=
        fun c n hrun => (instanceFrom_inRange hrun).imp_left And.right
      have hrest : Lands inRange (runFacts ((andFacts (filterFacts recur)).toList ++
          (andFacts (timeInvariants recur start ++
            dateInvariants recur start)).toList)) := by
        refine Lands.append ?_ ?_
        · rw [runFacts_andFacts]
          exact filterFacts_lands recur
        · rw [runFacts_andFacts]
          exact (timeInvariants_lands recur start).append
            ((dateInvariants_lands recur start).weaken
              (fun n => FullHour.inRange))
      exact hinstance.andThen hrest

theorem minuteFact_minute {c : Int} (h : minuteFact recur start c = some n) :
    minute n ∈ recur.minutes start := by
  rcases runFacts_orFacts minuteEq (minutes_ne_nil recur start) with
    ⟨fact, hfact, hrun⟩
  unfold minuteFact at h
  rw [hrun] at h
  rcases (orFacts_least hfact h).left with ⟨m, hm, hn⟩
  have hbounds := minutes_bounds hm
  have hsteps := minuteEq_eq_some hn
  have hsame : minute n = m := by
    unfold minute at *
    omega
  rw [hsame]
  exact hm

/-- Behind the minutes the facts return to a full hour or set the seconds. -/
theorem factsAfter_fresh {c : Int} (hminute : minute c ∈ recur.minutes start)
    (hrun : runFacts (factsAfter recur start) c = some n) :
    Fresh recur start n := by
  unfold factsAfter at hrun
  rw [runFacts_append] at hrun
  rcases Option.bind_eq_some_iff.mp hrun with ⟨z, hz, hn⟩
  rcases otherInvariants_lands recur start z n hn with rfl | hfull
  · cases hempty : recur.byMinute.isEmpty with
    | true =>
        rw [hempty] at hz
        cases hz
        exact fresh_of_minute hminute
    | false =>
        rw [hempty, if_pos (show (!false) = true from rfl), runFacts_append]
          at hz
        rcases Option.bind_eq_some_iff.mp hz with ⟨w, hw, hz⟩
        by_cases hsecond : recur.bySecond = []
        · right
          intro s hs
          unfold Recur.seconds at hs
          rw [hsecond, List.isEmpty_nil, if_pos rfl, List.mem_singleton] at hs
          rw [secondInvariants_second hsecond hz, hs]
        · have hsame : n = w := by
            unfold secondInvariants factIf at hz
            rw [List.isEmpty_eq_false_iff.mpr hsecond,
              if_neg Bool.false_ne_true, runFacts_nil] at hz
            cases hz
            rfl
          subst hsame
          rcases otherFilters_lands recur c n hw with rfl | hfull
          · exact fresh_of_minute hminute
          · exact fresh_of_fullHour start hfull.left
  · exact fresh_of_fullHour start hfull.left

/-!
# The search of a rule
-/

/-- The instants from which the fact of a rule overshoots nothing. -/
structure Reliable (recur : Recur) (start first c : Int) : Prop where
  domain : InDomain recur first c
  fresh : ¬ StaleFor recur.effectiveInterval recur start c

theorem nextInstanceOf_eq_some (hfreq : recur.freq.repeatsDays = true)
    (hinterval : 1 ≤ recur.intervalOrOne) {first r : Int}
    (hfirst : recur.freq.firstOf start = some first)
    (hdomain : InDomain recur first n)
    (hnext : nextInstanceOf start recur.freq recur.intervalOrOne n = some r) :
    r = nextRepeat recur.freq.periods (recur.freq.periods.index start)
        recur.effectiveInterval n ∧ r ≤ maxTimestamp := by
  unfold nextInstanceOf instanceOf at hnext
  rw [hfirst] at hnext
  change instanceFrom first recur.freq recur.intervalOrOne false n = some r
    at hnext
  have hrange : r ≤ maxTimestamp := by
    rcases instanceFrom_lands hfreq hnext with ⟨hfalse, _⟩ | hfull
    · cases hfalse
    · exact hfull.inRange.right
  have hfirst' := firstOf_eq_some hfreq hfirst
  unfold InDomain at hdomain
  rw [hfirst'] at hdomain hnext
  rcases instanceFrom_next hfreq hinterval hdomain hnext
    with ⟨_, hfalse, _⟩ | ⟨_, hr⟩
  · cases hfalse
  · exact ⟨hr, hrange⟩

theorem firstOf_le {freq : Freq} {t first : Int}
    (h : freq.firstOf t = some first) : first ≤ t := by
  cases hfreq : freq.repeatsDays with
  | true =>
      rw [firstOf_eq_some hfreq h]
      exact freq.periods.first_index_le t
  | false =>
      cases freq with
      | secondly | minutely | hourly =>
          cases h
          exact le_rfl
      | daily | weekly | monthly | yearly => cases hfreq

theorem repetition_after {bits : Nat} {interval diff c : Int}
    {jump : Int -> Option Int} (hbits : (2 : Int) ^ bits = 2 * 2 ^ (bits - 1))
    (hpos : 1 ≤ interval) (hlt : interval < 2 ^ (bits - 1)) (hdiff : 0 ≤ diff)
    (hjump : forall k m, 1 ≤ k -> jump k = some m -> c < m)
    (hrun : repetition bits interval diff false jump c = some n) : c < n := by
  have hmod := Int.emod_nonneg diff (b := interval) (by omega)
  have hmod' := Int.emod_lt_of_pos diff (b := interval) (by omega)
  unfold repetition at hrun
  dsimp only at hrun
  rw [if_neg (fun h => nomatch h.right),
    Int.tmod_eq_emod_of_nonneg hdiff,
    wrap_eq hbits (by omega) (by omega)] at hrun
  exact hjump _ n (by omega) hrun

/-- A repetition lies after the instant that it is asked for. -/
theorem nextInstanceOf_after (hinterval : 1 ≤ recur.intervalOrOne)
    (hsmall : recur.freq.repeatsDays = true ∨ recur.intervalOrOne < 2 ^ 32)
    {first r : Int} (hfirst : recur.freq.firstOf start = some first)
    (hle : first ≤ n)
    (hnext : nextInstanceOf start recur.freq recur.intervalOrOne n = some r) :
    n < r := by
  cases hfreq : recur.freq.repeatsDays with
  | true =>
      rw [(nextInstanceOf_eq_some hfreq hinterval hfirst (Or.inl hle)
        hnext).left]
      exact lt_nextRepeat (intervalBits_narrow recur.freq hinterval) n
  | false =>
      rw [hfreq, or_iff_right Bool.false_ne_true] at hsmall
      have hnarrow := narrow_bounds 32 (by decide) hinterval
      unfold nextInstanceOf instanceOf at hnext
      rw [hfirst] at hnext
      change instanceFrom first recur.freq recur.intervalOrOne false n = some r
        at hnext
      have hsince (length : Int) (hlength : 0 ≤ length) :
          0 ≤ sinceUnits length first n :=
        Int.tdiv_nonneg (by omega) hlength
      unfold instanceFrom at hnext
      cases hcase : recur.freq with
      | secondly =>
          rw [hcase] at hnext
          refine repetition_after (by decide) hinterval (by omega)
            (hsince 1 (by decide)) ?_ hnext
          intro k m hk hm
          have hm' := (addSeconds_eq_some hm).right
          omega
      | minutely =>
          rw [hcase] at hnext
          refine repetition_after (by decide) hinterval (by omega)
            (hsince 60 (by decide)) ?_ hnext
          intro k m hk hm
          have hm' := addMinutes_eq_some hm
          omega
      | hourly =>
          rw [hcase] at hnext
          refine repetition_after (by decide) hnarrow.left hnarrow.right
            (hsince 3600 (by decide)) ?_ hnext
          intro k m hk hm
          have hm' := addHours_eq_some hm
          omega
      | daily | weekly | monthly | yearly =>
          rw [hcase] at hfreq
          cases hfreq

section Rule

variable {recur : Recur} (hsupported : Supported recur) {start : Int}
  {fact : FactOp} (hfact : fromRecur recur start = Except.ok fact)
  {first : Int} (hfirst : recur.freq.firstOf start = some first)

include hsupported hfact hfirst

theorem reliable_next {c : Int} (hc : Reliable recur start first c)
    (hnext : nextOccurOf fact c = some n) :
    c ≤ n ∧
      (forall d, c ≤ d -> d < n ->
        ¬ MatchesEvery recur.effectiveInterval recur start d) ∧
      (n = c -> MatchesEvery recur.effectiveInterval recur start c) ∧
      Reliable recur start first n := by
  rcases fromRecur_run hsupported.freq hfact with ⟨first', hfirst', hrun⟩
  cases hfirst.symm.trans hfirst'
  have hpasses := (passes_none_iff hsupported hrun hfirst hc.domain le_rfl
    (fun d h => h) hnext).mpr hc.fresh
  rw [hrun] at hnext
  rcases Option.bind_eq_some_iff.mp hnext with ⟨y, hy, hafter⟩
  rcases Option.bind_eq_some_iff.mp hy with ⟨x, hbefore, hminute⟩
  have hbeforeSeeks := factsBefore_seeks hsupported hfirst hc.domain
  have hafterSeeks := factsAfter_seeks hsupported start y
  have hcx := hbeforeSeeks.forward c x le_rfl hbefore
  have hxy := minuteFact_forward hminute
  have hyn := hafterSeeks.forward y n le_rfl hafter
  refine ⟨by omega, hpasses, ?_, ⟨?_, ?_⟩⟩
  · rintro rfl
    have hxn : x = n := by omega
    have hyn' : y = n := by omega
    rw [hxn] at hbefore hminute
    rw [hyn'] at hminute hafter
    refine matchesEvery_iff.mpr ⟨hbeforeSeeks.rests n le_rfl hbefore,
      minuteFact_minute hminute, ?_⟩
    exact (factsAfter_seeks hsupported start n).rests n le_rfl hafter
  · exact hc.domain.imp_left (fun h => by omega)
  · exact (factsAfter_fresh (minuteFact_minute hminute) hafter).not_stale

theorem rule_finder {c : Cursor} (hcfact : c.fact = fact) :
    c.Finder (Reliable recur start first)
      (MatchesEvery recur.effectiveInterval recur start) := by
  rw [<- hcfact] at hfact
  constructor
  · intro x n hx hnext
    exact (reliable_next hsupported hfact hfirst hx hnext).left
  · intro x n d hx hnext
    exact (reliable_next hsupported hfact hfirst hx hnext).right.left d
  · intro x hx hnext
    exact (reliable_next hsupported hfact hfirst hx hnext).right.right.left rfl
  · intro x n hx hnext
    exact (reliable_next hsupported hfact hfirst hx hnext).right.right.right
  · intro x hx hoccurs
    exact ⟨hx.domain.imp_left (fun h => by omega),
      (fresh_after hsupported hoccurs).not_stale⟩

end Rule

end Recurrence
end MailClient
