import MailClient.Recurrence.Begin
import MailClient.Recurrence.Groups

/-!
# The start of a series

`next` puts the start in front of the dates of a rule, but only once it has
found a date that is not after the end of the rule.  If there is none the start
is not produced either.
-/

namespace MailClient
namespace Recurrence

open Foundation

namespace RecurIterator

/-!
# What is emitted
-/

theorem mem_accepted {start : Int} {untilAt : Option Int} {ds : List Int}
    (hordered : ds.Pairwise (· < ·)) {d : Int} (hd : d ∈ ds)
    (hwithin : Within start untilAt d) : d ∈ accepted start none untilAt ds := by
  induction ds with
  | nil => cases hd
  | cons x ds ih =>
      rcases List.pairwise_cons.mp hordered with ⟨hlater, hordered'⟩
      unfold accepted
      split
      · rename_i hskips
        have hx : x < start := by simpa using hskips
        rcases List.mem_cons.mp hd with rfl | hd
        · exact absurd hwithin.start_le (not_le.mpr hx)
        · exact ih hordered' hd
      · split
        · rename_i hover
          rcases (Option.any_eq_true _ _).mp hover with ⟨u, hu, hlt⟩
          have hle := hwithin.le_until u hu
          have hlt' := of_decide_eq_true hlt
          rcases List.mem_cons.mp hd with rfl | hd
          · exact absurd hle (not_le.mpr hlt')
          · exact absurd hle (not_le.mpr (lt_trans hlt' (hlater d hd)))
        · rcases List.mem_cons.mp hd with rfl | hd
          · exact List.mem_cons_self
          · exact List.mem_cons_of_mem x (ih hordered' hd)

/-!
# The dates of a rule
-/

/--
Where the group of an instant ends: at the first repetition `r`, and behind it
at the next period that repeats.
-/
def groupEnd (recur : Recur) (start r x : Int) : Int :=
  if x < r then
    r
  else
    nextRepeat recur.freq.periods (recur.freq.periods.index start)
      recur.effectiveInterval x

/--
The search for the dates of a rule comes to the occurrence `d`, and with
`BYSETPOS` it is selected from its group.
-/
structure IsDate (recur : Recur) (it : RecurIterator) (d : Int) : Prop where
  meets : Cursor.Meets it.toCursor (beginAt recur it.start it.start).curr d
  selects : forall p r, it.picker = some p ->
    (beginAt recur it.start it.start).repeatAt = some r ->
      Cursor.Selects it.toCursor (beginAt recur it.start it.start).curr r
        (groupEnd recur it.start r) p d

/-- The dates between the start and the end of a rule. -/
def due (recur : Recur) (it : RecurIterator) : Set Int :=
  { d | IsDate recur it d ∧ Within it.start it.untilAt d }

section Made

variable {recur : Recur} (hfreq : recur.freq.repeatsDays = true)
  {it : RecurIterator} (hmade : Made recur it)

include hfreq hmade

theorem groupEnd_divides {first r : Int}
    (hfirst : recur.freq.firstOf it.start = some first) (hle : first ≤ r) :
    Cursor.Divides it.toCursor r (groupEnd recur it.start r) := by
  have hpos := intervalBits_narrow recur.freq hmade.interval_pos
  constructor
  · intro x
    unfold groupEnd
    split
    · assumption
    · exact lt_nextRepeat hpos x
  · intro x y hxy hlt
    unfold groupEnd at hlt ⊢
    by_cases hx : x < r
    · rw [if_pos hx] at hlt ⊢
      rw [if_pos hlt]
    · rw [if_neg hx] at hlt ⊢
      rw [if_neg (by omega)]
      exact nextRepeat_within hpos hxy hlt
  · intro x hx
    exact if_pos hx
  · intro n r' hn hnext
    rw [hmade.freq, hmade.interval] at hnext
    unfold groupEnd
    rw [if_neg (not_lt.mpr hn)]
    exact (nextInstanceOf_eq_some hfreq hmade.interval_pos hfirst
      (Or.inl (le_trans hle hn)) hnext).left.symm

theorem found_iff_isDate {d : Int} :
    Cursor.Found it.toCursor it.picker (beginAt recur it.start it.start, []) d ↔
      IsDate recur it d := by
  by_cases hnil : recur.bySetPos = []
  · have hpicker := (picker_none_iff hmade).mpr hnil
    have hbegin := beginAt_plain hnil it.start it.start
    have hfound : Cursor.Found it.toCursor it.picker
        (beginAt recur it.start it.start, []) d ↔
          Cursor.Leads it.toCursor d it.start := by
      rw [hpicker, hbegin]
      exact ⟨fun h => Cursor.leads_of_found h rfl,
        fun h => Cursor.found_of_leads h []⟩
    rw [hfound, <- Cursor.meets_iff hmade.inRange]
    constructor
    · intro h
      refine ⟨hbegin ▸ h, fun p r hp _ => ?_⟩
      cases hpicker.symm.trans hp
    · intro h
      have hmeets := h.meets
      rw [hbegin] at hmeets
      exact hmeets
  · rcases Option.ne_none_iff_exists'.mp
      (fun hnone => hnil ((picker_none_iff hmade).mp hnone)) with ⟨p, hp⟩
    have hgrouped := hmade.grouped hnil
    have hbegin := beginAt_grouped hnil it.start it.start
    rw [<- hgrouped.left, hgrouped.right, Option.getD_some] at hbegin
    rcases Option.isSome_iff_exists.mp
      (show it.repeatAt.isSome = true by rw [hgrouped.left]; rfl) with ⟨r, hr⟩
    have hle : it.curr ≤ r := by
      refine beginAt_repeatAt hmade.interval_pos (Or.inl hfreq)
        hgrouped.right ?_
      rw [hbegin, hr]
    have hdivides := groupEnd_divides hfreq hmade hgrouped.right hle
    have hfound := Cursor.found_selects hdivides hle (p := p) (d := d)
    unfold Cursor.grouped at hfound
    rw [<- Cursor.meets_iff (firstOf_lands hfreq hgrouped.right).inRange]
      at hfound
    rw [hp, hbegin, hr, hfound]
    constructor
    · rintro ⟨hmeets, hselects⟩
      refine ⟨hbegin ▸ hmeets, fun p' r' hp' hr' => ?_⟩
      cases hp.symm.trans hp'
      rw [hbegin] at hr' ⊢
      cases hr.symm.trans hr'
      exact hselects
    · intro h
      have hmeets := h.meets
      have hselects := h.selects p r hp (by rw [hbegin, hr])
      rw [hbegin] at hmeets hselects
      exact ⟨hmeets, hselects⟩

theorem produces_due :
    exists ds, it.Produces (emitAll it.start it.count 0 ds) ∧
      ds.Pairwise (· < ·) ∧ forall d, d ∈ ds ↔ d ∈ due recur it := by
  rcases Cursor.raws_walk (made_steady hmade (Or.inl hfreq))
    (fun p hp => (picker_sound hmade p hp).capacity)
    (beginAt_fromFirst hmade (Or.inl hfreq))
    (beginAt_matched hmade it.start) (Cursor.Gathered.nil _) with
    ⟨ds, hraws, hordered, hfound, _⟩
  rw [standing_start hmade] at hraws
  have hsub := accepted_sublist it.start none it.untilAt ds
  refine ⟨accepted it.start none it.untilAt ds, ?_, hordered.sublist hsub, ?_⟩
  · have hready : it.Ready := fun found hnext => nomatch hmade.next.symm.trans hnext
    have hproduces := hready.produces hraws
    unfold rest at hproduces
    rw [hmade.next, hmade.since, hmade.emitted] at hproduces
    exact hproduces
  · intro d
    have hdate := (hfound d).trans (found_iff_isDate hfreq hmade)
    constructor
    · intro hd
      exact ⟨hdate.mp (hsub.subset hd), accepted_within hd⟩
    · rintro ⟨hd, hwithin⟩
      exact mem_accepted hordered (hdate.mpr hd) hwithin

end Made

/-!
# The start is the first date
-/

/-- 2018-02-01. -/
def february : Int := 1517443200

def february2018 : DateOrDt UtcOrLocalForm :=
  DateOrDt.date
    { newYearsDay2018 with
      month := ⟨2, by decide⟩
      valid := by decide }

/-- 2018-04-30. -/
def lastMonday : Int := 1525046400

def onFifthMonday : Recur :=
  { freq := Freq.monthly
    byDay := [ByDay.fixed ⟨5, by decide⟩ Weekday.monday] }

def fifthMondays : RecurIterator :=
  { start := february
    freq := Freq.monthly
    interval := 1
    fact := runFacts
      (instanceFrom february Freq.monthly 1 true ::
        ((andFacts (filterFacts onFifthMonday)).toList ++
          (fromRecurInvariants onFifthMonday february).toList))
    picker := none
    repeatAt := none
    curr := february
    next := none
    since := none
    untilAt := none
    count := none
    emitted := 0 }

end RecurIterator

end Recurrence
end MailClient
