import MailClient.Foundation.Calendar
import MailClient.Vcard.Digits

/-!
# The instant of a timestamp

A timestamp is a civil time and an offset.  The sign of an offset is read with
its hours and not carried over to its minutes, so that every timestamp denotes
its instant but those with minutes behind a minus sign.
-/

namespace MailClient
namespace Vcard

open Foundation

/-!
# Civil times
-/

/-- A calendar date with a time of day. -/
structure CivilTime where
  year : Nat
  month : Nat
  day : Nat
  hour : Nat
  minute : Nat
  second : Nat
  year_lt : year < 10000
  month_pos : 0 < month
  month_le : month ≤ 12
  day_pos : 0 < day
  day_le : (day : Int) ≤ monthLength (12 * year + (month - 1))
  hour_lt : hour < 24
  minute_lt : minute < 60
  second_lt : second < 60

/-- Seconds from the beginning of 1970, as if the civil time was UTC. -/
def civilSeconds (year : Int) (month day hour minute second : Nat) : Int :=
  (monthStart (12 * year + (month - 1)) + (day - 1)) * 86400 + hour * 3600 +
    minute * 60 + second

def CivilTime.seconds (time : CivilTime) : Int :=
  civilSeconds time.year time.month time.day time.hour time.minute time.second

theorem CivilTime.day_lt (time : CivilTime) : time.day < 100 := by
  have hbounds := monthLength_bounds (12 * time.year + (time.month - 1))
  have hday := time.day_le
  omega

/-!
# Offsets as they are written
-/

/-- No offset, `Z`, hours, or hours and minutes. -/
inductive WrittenOffset where
  | none
  | utc
  | hours (negative : Bool) (hour : Nat)
  | minutes (negative : Bool) (hour minute : Nat)
  deriving DecidableEq, Repr

namespace WrittenOffset

def Valid : WrittenOffset -> Prop
  | none => True
  | utc => True
  | hours _ hour => hour < 24
  | minutes _ hour minute => hour < 24 ∧ minute < 60

def text : WrittenOffset -> List Char
  | none => []
  | utc => ['Z']
  | hours negative hour => sign negative :: twoDigits hour
  | minutes negative hour minute =>
      sign negative :: (twoDigits hour ++ twoDigits minute)

end WrittenOffset

/-!
# The date library
-/

/-- What is known of the date library: the seconds of an offset, the instants. -/
structure Chrono.Exact {offset dateTime : Type} (chrono : Chrono offset dateTime)
    (seconds : offset -> Int) (instant : dateTime -> Int) : Prop where
  /-- Offsets of less than a day. -/
  east : forall s, -86400 < s -> s < 86400 ->
    exists o, chrono.eastOpt s = some o ∧ seconds o = s
  /-- The local time of an offset. -/
  localTime : forall (o : offset) (time : CivilTime),
    exists t, chrono.withYmdAndHms o time.year time.month time.day time.hour
        time.minute time.second = some t ∧
      instant t = time.seconds - seconds o
  eq_iff : forall t t', chrono.eq t t' = true ↔ instant t = instant t'

/-!
# What is written
-/

namespace WrittenOffset

/-- The seconds east of Greenwich: a minus sign is for hours and minutes. -/
def seconds : WrittenOffset -> Int
  | none => 0
  | utc => 0
  | hours negative hour => signed negative (hour * 3600)
  | minutes negative hour minute =>
      signed negative (hour * 3600 + minute * 60)

/-- What the conversion makes of an offset. -/
def readSeconds : WrittenOffset -> Int
  | none => 0
  | utc => 0
  | hours negative hour => signed negative hour * Timestamp.hourSeconds
  | minutes negative hour minute =>
      signed negative hour * Timestamp.hourSeconds +
        minute * Timestamp.minuteSeconds

/-- Minutes behind a minus sign, that are not zero. -/
def MinusMinutes : WrittenOffset -> Prop
  | minutes true _ minute => minute ≠ 0
  | _ => False

theorem readSeconds_eq_iff (offset : WrittenOffset) :
    offset.readSeconds = offset.seconds ↔ ¬ offset.MinusMinutes := by
  cases offset with
  | none => simp [readSeconds, seconds, MinusMinutes]
  | utc => simp [readSeconds, seconds, MinusMinutes]
  | hours negative hour =>
      refine iff_of_true ?_ (fun h => h)
      unfold readSeconds seconds signed Timestamp.hourSeconds
        Timestamp.minuteSeconds
      cases negative with
      | true =>
          simp only [if_true]
          push_cast
          omega
      | false =>
          simp only [Bool.false_eq_true, if_false]
          push_cast
          omega
  | minutes negative hour minute =>
      unfold readSeconds seconds signed Timestamp.hourSeconds
        Timestamp.minuteSeconds
      cases negative with
      | true =>
          unfold MinusMinutes
          simp only [if_true]
          push_cast
          omega
      | false =>
          refine iff_of_true ?_ (fun h => h)
          simp only [Bool.false_eq_true, if_false]
          push_cast
          omega

theorem readSeconds_bounds {offset : WrittenOffset} (h : offset.Valid) :
    -86400 < offset.readSeconds ∧ offset.readSeconds < 86400 := by
  cases offset with
  | none => simp [readSeconds]
  | utc => simp [readSeconds]
  | hours negative hour =>
      change hour < 24 at h
      simp only [readSeconds, signed, Timestamp.hourSeconds,
        Timestamp.minuteSeconds]
      cases negative with
      | true =>
          simp only [if_true]
          omega
      | false =>
          simp only [Bool.false_eq_true, if_false]
          omega
  | minutes negative hour minute =>
      change hour < 24 ∧ minute < 60 at h
      simp only [readSeconds, signed, Timestamp.hourSeconds,
        Timestamp.minuteSeconds]
      cases negative with
      | true =>
          simp only [if_true]
          omega
      | false =>
          simp only [Bool.false_eq_true, if_false]
          omega

end WrittenOffset

structure WrittenTimestamp where
  time : CivilTime
  offset : WrittenOffset
  offset_valid : offset.Valid

namespace WrittenTimestamp

def text (w : WrittenTimestamp) : List Char :=
  fourDigits w.time.year ++
    (twoDigits w.time.month ++
      (twoDigits w.time.day ++
        'T' :: (twoDigits w.time.hour ++
          (twoDigits w.time.minute ++
            (twoDigits w.time.second ++ w.offset.text)))))

/-- The instant that is written. -/
def instant (w : WrittenTimestamp) : Int :=
  w.time.seconds - w.offset.seconds

theorem singleBytes_offset (offset : WrittenOffset) :
    SingleBytes offset.text := by
  have hsign : forall negative, SingleBytes [sign negative] := by
    intro negative c hc
    rw [List.mem_singleton.mp hc]
    cases negative with
    | true => rfl
    | false => rfl
  cases offset with
  | none =>
      intro c hc
      cases hc
  | utc =>
      intro c hc
      rw [List.mem_singleton.mp hc]
      rfl
  | hours negative hour =>
      exact singleBytes_append (hsign negative) (singleBytes_twoDigits hour)
  | minutes negative hour minute =>
      exact singleBytes_append (hsign negative)
        (singleBytes_append (singleBytes_twoDigits hour)
          (singleBytes_twoDigits minute))

theorem singleBytes_text (w : WrittenTimestamp) : SingleBytes w.text := by
  have hT : SingleBytes ['T'] := by
    intro c hc
    rw [List.mem_singleton.mp hc]
    rfl
  unfold text
  refine singleBytes_append (singleBytes_fourDigits _) ?_
  refine singleBytes_append (singleBytes_twoDigits _) ?_
  refine singleBytes_append (singleBytes_twoDigits _) ?_
  refine singleBytes_append hT ?_
  refine singleBytes_append (singleBytes_twoDigits _) ?_
  refine singleBytes_append (singleBytes_twoDigits _) ?_
  refine singleBytes_append (singleBytes_twoDigits _) ?_
  exact singleBytes_offset w.offset

theorem length_text (w : WrittenTimestamp) :
    w.text.length = 15 + w.offset.text.length := by
  unfold text
  simp only [List.length_append, List.length_cons, twoDigits, fourDigits,
    List.length_nil]
  omega

end WrittenTimestamp

/-!
# Reading
-/

theorem slice_singleBytes {value part : List Char} (h : SingleBytes value)
    {start stop : Nat} (hle : start ≤ stop) (hstop : stop ≤ value.length)
    (hpart : (value.take stop).drop start = part) :
    slice value start stop = Except.ok part := by
  rw [slice_eq_ok, sliceBytes_singleBytes h hle hstop, hpart]

theorem Timestamp.number_ok {result : Type} {value part : List Char}
    (h : SingleBytes value) {start stop : Nat} (hle : start ≤ stop)
    (hstop : stop ≤ value.length) (hpart : (value.take stop).drop start = part)
    {parse : List Char -> Option result} {n : result}
    (hparse : parse part = some n) :
    Timestamp.number value parse start stop = Except.ok n := by
  unfold Timestamp.number parsePart
  rw [slice_singleBytes h hle hstop hpart]
  simp only [bind, Except.bind, hparse]
  rfl

section Reading

variable {offset dateTime : Type} {chrono : Chrono offset dateTime}
  {seconds : offset -> Int} {instant : dateTime -> Int}
  (hexact : chrono.Exact seconds instant)

include hexact

theorem Timestamp.offsetOf_text (w : WrittenTimestamp) :
    exists o, Timestamp.offsetOf chrono w.text = Except.ok o ∧
      seconds o = w.offset.readSeconds := by
  have hsingle := w.singleBytes_text
  have hlength := w.length_text
  have hbounds := WrittenOffset.readSeconds_bounds w.offset_valid
  rcases hexact.east w.offset.readSeconds hbounds.left hbounds.right with
    ⟨o, ho, hseconds⟩
  have heast : Timestamp.east chrono w.text w.offset.readSeconds =
      Except.ok o := by
    unfold Timestamp.east
    rw [ho]
  refine ⟨o, ?_, hseconds⟩
  rcases w with ⟨time, zone, hvalid⟩
  unfold Timestamp.offsetOf
  rw [byteLength_singleBytes hsingle, hlength]
  cases zone with
  | none => exact heast
  | utc =>
      have hz : sliceIs (WrittenTimestamp.text
          ⟨time, WrittenOffset.utc, hvalid⟩) 15 16 ['Z'] = Except.ok true := by
        unfold sliceIs
        rw [slice_singleBytes hsingle (by decide)
          (by rw [hlength]; exact Nat.le_refl 16) rfl]
        rfl
      change Checked.branch (sliceIs _ 15 16 ['Z']) _ _ = _
      rw [hz]
      exact heast
  | hours negative hour =>
      change hour < 24 at hvalid
      have hread : parseI32 (sign negative :: twoDigits hour) =
          some (signed negative hour) :=
        parseSigned_signed negative (by omega) (by omega)
      have hhours := @Timestamp.number_ok _ _ _ hsingle 15 18 (by decide)
        (by rw [hlength]; exact Nat.le_refl 18) rfl _ _ hread
      change (Timestamp.number _ parseI32 15 18 >>= fun hours =>
        Timestamp.east chrono _ (hours * Timestamp.hourSeconds)) = _
      rw [hhours]
      exact heast
  | minutes negative hour minute =>
      change hour < 24 ∧ minute < 60 at hvalid
      have hread : parseI32 (sign negative :: twoDigits hour) =
          some (signed negative hour) :=
        parseSigned_signed negative (by omega) (by omega)
      have hreadMinute : parseI32 (twoDigits minute) = some (minute : Int) :=
        parseSigned_digit (parseDigits_twoDigits (by omega)) (by omega)
      have hhours := @Timestamp.number_ok _ _ _ hsingle 15 18 (by decide)
        (by rw [hlength]; exact (by decide : 18 ≤ 20)) rfl _ _ hread
      have hminutes := @Timestamp.number_ok _ _ _ hsingle 18 20 (by decide)
        (by rw [hlength]; exact Nat.le_refl 20) rfl _ _ hreadMinute
      change (Timestamp.number _ parseI32 15 18 >>= fun hours =>
        Timestamp.number _ parseI32 18 20 >>= fun minutes =>
          Timestamp.east chrono _ (hours * Timestamp.hourSeconds +
            minutes * Timestamp.minuteSeconds)) = _
      rw [hhours]
      change (Timestamp.number _ parseI32 18 20 >>= _) = _
      rw [hminutes]
      exact heast

theorem Timestamp.tryFrom_text (w : WrittenTimestamp) :
    exists t, Timestamp.tryFrom chrono w.text = Except.ok t ∧
      instant t = w.time.seconds - w.offset.readSeconds := by
  have hsingle := w.singleBytes_text
  have hlength := w.length_text
  have hday := w.time.day_lt
  have hstop {n : Nat} (hn : n ≤ 15) : n ≤ w.text.length := by omega
  rcases Timestamp.offsetOf_text hexact w with ⟨o, hoffset, hseconds⟩
  rcases hexact.localTime o w.time with ⟨t, ht, hinstant⟩
  rw [hseconds] at hinstant
  refine ⟨t, ?_, hinstant⟩
  have hT : sliceIs w.text 8 9 ['T'] = Except.ok true := by
    unfold sliceIs
    rw [slice_singleBytes hsingle (by decide) (hstop (by decide)) rfl]
    rfl
  have hyear : Timestamp.number w.text parseI32 0 4 =
      Except.ok (w.time.year : Int) :=
    Timestamp.number_ok hsingle (by decide) (hstop (by decide)) rfl
      (parseSigned_fourDigits w.time.year_lt
        (Nat.lt_trans w.time.year_lt (by decide)))
  have hmonth : Timestamp.number w.text parseU32 4 6 = Except.ok w.time.month :=
    Timestamp.number_ok hsingle (by decide) (hstop (by decide)) rfl
      (parseUnsigned_twoDigits
        (Nat.lt_of_le_of_lt w.time.month_le (by decide))
        (Nat.lt_of_le_of_lt w.time.month_le (by decide)))
  have hdays : Timestamp.number w.text parseU32 6 8 = Except.ok w.time.day :=
    Timestamp.number_ok hsingle (by decide) (hstop (by decide)) rfl
      (parseUnsigned_twoDigits hday (Nat.lt_trans hday (by decide)))
  have hhour : Timestamp.number w.text parseU32 9 11 = Except.ok w.time.hour :=
    Timestamp.number_ok hsingle (by decide) (hstop (by decide)) rfl
      (parseUnsigned_twoDigits (Nat.lt_trans w.time.hour_lt (by decide))
        (Nat.lt_trans w.time.hour_lt (by decide)))
  have hminute : Timestamp.number w.text parseU32 11 13 =
      Except.ok w.time.minute :=
    Timestamp.number_ok hsingle (by decide) (hstop (by decide)) rfl
      (parseUnsigned_twoDigits (Nat.lt_trans w.time.minute_lt (by decide))
        (Nat.lt_trans w.time.minute_lt (by decide)))
  have hsecond : Timestamp.number w.text parseU32 13 15 =
      Except.ok w.time.second :=
    Timestamp.number_ok hsingle (by decide) (hstop (by decide)) rfl
      (parseUnsigned_twoDigits (Nat.lt_trans w.time.second_lt (by decide))
        (Nat.lt_trans w.time.second_lt (by decide)))
  unfold Timestamp.tryFrom Checked.branch
  simp only [hT, hyear, hmonth, hdays, hhour, hminute, hsecond, hoffset]
  change Timestamp.localTime chrono w.text o w.time.year w.time.month
    w.time.day w.time.hour w.time.minute w.time.second = Except.ok t
  unfold Timestamp.localTime
  rw [ht]

/-!
# The right instant
-/

section Instants

variable (chrono instant)

/-- A timestamp is read as the instant that is written. -/
def ReadRight (w : WrittenTimestamp) : Prop :=
  exists t, Timestamp.tryFrom chrono w.text = Except.ok t ∧
    instant t = w.instant

/-- Two timestamps compare as the instants that are written. -/
def ComparedRight (w w' : WrittenTimestamp) : Prop :=
  forall t t', Timestamp.tryFrom chrono w.text = Except.ok t ->
    Timestamp.tryFrom chrono w'.text = Except.ok t' ->
    (Timestamp.eq chrono t t' = true ↔ w.instant = w'.instant)

end Instants

theorem readRight_iff (w : WrittenTimestamp) :
    ReadRight chrono instant w ↔ ¬ w.offset.MinusMinutes := by
  rcases Timestamp.tryFrom_text hexact w with ⟨t, ht, hinstant⟩
  rw [<- WrittenOffset.readSeconds_eq_iff]
  unfold ReadRight WrittenTimestamp.instant
  constructor
  · intro h
    rcases h with ⟨t', ht', hright⟩
    have hsame : t' = t := Except.ok.inj (ht'.symm.trans ht)
    rw [hsame, hinstant] at hright
    omega
  · intro h
    refine ⟨t, ht, ?_⟩
    rw [hinstant, h]

theorem comparedRight_of_readRight {w w' : WrittenTimestamp}
    (h : ReadRight chrono instant w) (h' : ReadRight chrono instant w') :
    ComparedRight chrono w w' := by
  intro t t' ht ht'
  rcases h with ⟨r, hr, hinstant⟩
  rcases h' with ⟨r', hr', hinstant'⟩
  have hsame : r = t := Except.ok.inj (hr.symm.trans ht)
  have hsame' : r' = t' := Except.ok.inj (hr'.symm.trans ht')
  rw [hsame] at hinstant
  rw [hsame'] at hinstant'
  rw [<- hinstant, <- hinstant']
  exact hexact.eq_iff t t'

theorem timestamps_right_iff (w w' : WrittenTimestamp) :
    (ReadRight chrono instant w ∧ ReadRight chrono instant w' ∧
        ComparedRight chrono w w') ↔
      ¬ w.offset.MinusMinutes ∧ ¬ w'.offset.MinusMinutes := by
  rw [<- readRight_iff hexact w, <- readRight_iff hexact w']
  constructor
  · intro h
    exact ⟨h.left, h.right.left⟩
  · intro h
    exact ⟨h.left, h.right,
      comparedRight_of_readRight hexact h.left h.right⟩

end Reading

/-!
# A date library
-/

/-- Instants are seconds, offsets are seconds east. -/
def secondsChrono : Chrono Int Int where
  fromYmdOpt := fun year month day =>
    decide (0 < month ∧ month ≤ 12 ∧ 0 < day ∧
      (day : Int) ≤ monthLength (12 * year + (month - 1)))
  eastOpt := fun seconds =>
    if -86400 < seconds ∧ seconds < 86400 then some seconds else none
  withYmdAndHms := fun offset year month day hour minute second =>
    if (0 < month ∧ month ≤ 12 ∧ 0 < day ∧
        (day : Int) ≤ monthLength (12 * year + (month - 1))) ∧
        hour < 24 ∧ minute < 60 ∧ second < 60 then
      some (civilSeconds year month day hour minute second - offset)
    else
      none
  eq := fun left right => decide (left = right)

theorem secondsChrono_exact :
    secondsChrono.Exact (fun offset => offset) (fun instant => instant) where
  east := by
    intro s hlow hhigh
    exact ⟨s, if_pos ⟨hlow, hhigh⟩, rfl⟩
  localTime := by
    intro o time
    refine ⟨time.seconds - o, if_pos ?_, rfl⟩
    exact ⟨⟨time.month_pos, time.month_le, time.day_pos, time.day_le⟩,
      time.hour_lt, time.minute_lt, time.second_lt⟩
  eq_iff := by
    intro t t'
    exact decide_eq_true_iff

def callTime (hour : Nat) (h : hour < 24) : CivilTime where
  year := 1996
  month := 10
  day := 22
  hour := hour
  minute := 0
  second := 0
  year_lt := by decide
  month_pos := by decide
  month_le := by decide
  day_pos := by decide
  day_le := by decide
  hour_lt := h
  minute_lt := by decide
  second_lt := by decide

/-- `19961022T140000-0500`. -/
def fiveWest : WrittenTimestamp :=
  ⟨callTime 14 (by decide), WrittenOffset.minutes true 5 0,
    ⟨by decide, by decide⟩⟩

/-- `19961022T140000-0530`. -/
def fiveAndHalfWest : WrittenTimestamp :=
  ⟨callTime 14 (by decide), WrittenOffset.minutes true 5 30,
    ⟨by decide, by decide⟩⟩

/-- `19961022T190000Z`. -/
def sevenUtc : WrittenTimestamp :=
  ⟨callTime 19 (by decide), WrittenOffset.utc, trivial⟩

theorem fiveWest_read_right :
    ReadRight secondsChrono (fun instant => instant) fiveWest ∧
      ReadRight secondsChrono (fun instant => instant) sevenUtc ∧
      ComparedRight secondsChrono fiveWest sevenUtc :=
  (timestamps_right_iff secondsChrono_exact fiveWest sevenUtc).mpr
    ⟨fun h => h rfl, fun h => h⟩

/-- The offset is read as four hours and a half. -/
theorem fiveAndHalfWest_not_read_right :
    fiveAndHalfWest.text = "19961022T140000-0530".toList ∧
      ¬ ReadRight secondsChrono (fun instant => instant) fiveAndHalfWest := by
  refine ⟨by decide, ?_⟩
  intro h
  rcases h with ⟨t, ht, hinstant⟩
  have hread : Timestamp.tryFrom secondsChrono fiveAndHalfWest.text =
      Except.ok 846009000 := by decide
  have hsame : t = 846009000 := Except.ok.inj (ht.symm.trans hread)
  rw [hsame] at hinstant
  exact absurd hinstant (by decide)

end Vcard
end MailClient
