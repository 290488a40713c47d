import MailClient.Vcard.Checked

/-!
# Where the parsers panic

A parser panics at the first slice that is out of range or ends inside a
character.  The slices that it makes depend on the length of the value and on
the fields that it could read before.
-/

namespace MailClient
namespace Vcard

open Foundation

/-!
# Dates
-/

variable {value : List Char}

theorem DateValue.noPanic_read {year month day : Option (Nat × Nat)} :
    NoPanic (DateValue.read value year month day) ↔
      InRange value year ∧
        (Readable value DateValue.intoYear year ->
          InRange value month ∧
            (Readable value DateValue.intoMonth month ->
              InRange value day)) := by
  unfold DateValue.read
  refine noPanic_field_bind noPanic_into (fun year => ?_)
  refine noPanic_field_bind noPanic_into (fun month => ?_)
  rw [noPanic_bind]
  exact (and_iff_left (fun day _ => noPanic_ok _)).trans
    (noPanic_field noPanic_into day)

/-- No slice of a date is cut. -/
def DateValue.Uncut (value : List Char) : Prop :=
  match byteLength value with
  | 4 => Boundary value 2
  | 5 => Boundary value 3
  | 6 => Boundary value 2 ∧ (['-', '-'] <+: value -> Boundary value 4)
  | 7 => Boundary value 4 ∧ Boundary value 5
  | 8 =>
      Boundary value 4 ∧
        (Readable value DateValue.intoYear (some (0, 4)) -> Boundary value 6)
  | _ => True

theorem DateValue.noPanic_tryFrom (value : List Char) :
    NoPanic (DateValue.tryFrom value) ↔ DateValue.Uncut value := by
  have hend := boundary_byteLength value
  have hinvalid : NoPanic (Except.error (Fault.invalid
      ⟨ValueType.date, value⟩) : Checked DateValue) := noPanic_invalid _
  have htwo : sliceIs value 0 2 ['-', '-'] = Except.ok true ↔
      ['-', '-'] <+: value := starts_eq_true rfl
  unfold DateValue.tryFrom DateValue.Uncut
  generalize byteLength value = n at hend ⊢
  split
  · simp only [noPanic_branch, noPanic_sliceIs, DateValue.noPanic_read,
      InRange, boundary_zero]
    simp
    tauto
  · simp only [noPanic_branch, noPanic_sliceIs, DateValue.noPanic_read,
      InRange, boundary_zero]
    simp
    tauto
  · simp only [noPanic_branch, noPanic_sliceIs, DateValue.noPanic_read,
      InRange, boundary_zero, htwo]
    simp
    tauto
  · simp only [noPanic_branch, noPanic_sliceIs, DateValue.noPanic_read,
      InRange, boundary_zero]
    simp
    tauto
  · simp only [DateValue.noPanic_read, InRange, boundary_zero]
    simp
    tauto
  · refine iff_of_true hinvalid ?_
    simp_all

/-!
# Zones and offsets
-/

theorem noPanic_parsePart {result : Type} {valueType : ValueType}
    {parse : List Char -> Option result} {part : Checked (List Char)} :
    NoPanic (parsePart valueType value parse part) ↔ NoPanic part := by
  unfold parsePart
  rw [noPanic_bind]
  refine and_iff_left ?_
  intro piece _
  cases parse piece with
  | none => exact noPanic_invalid _
  | some n => exact noPanic_ok n

/-- Only a zone with minutes is cut in two. -/
def ZoneValue.Uncut (value : List Char) : Prop :=
  byteLength value = 5 -> Boundary value 3

theorem noPanic_hourAndMinute {valueType : ValueType}
    {minutes : Checked (List Char)}
    (hminutes : byteLength value = 5 -> Boundary value 3 -> NoPanic minutes) :
    NoPanic (hourAndMinute valueType value minutes) ↔ ZoneValue.Uncut value := by
  unfold hourAndMinute ZoneValue.Uncut
  generalize byteLength value = n at hminutes ⊢
  split
  · refine iff_of_true ?_ (fun heq => by cases heq)
    rw [noPanic_bind, noPanic_parsePart]
    exact ⟨noPanic_ok value, fun hour _ => noPanic_ok _⟩
  · rw [noPanic_bind, noPanic_parsePart, noPanic_slice]
    constructor
    · intro h _
      exact h.left.right.right
    · intro h
      refine ⟨⟨Nat.zero_le 3, boundary_zero value, h rfl⟩, ?_⟩
      intro hour _
      rw [noPanic_bind, noPanic_parsePart]
      exact ⟨hminutes rfl (h rfl), fun minute _ => noPanic_ok _⟩
  · rename_i hfive
    exact iff_of_true (noPanic_invalid _) (fun heq => absurd heq hfive)

theorem noPanic_minutes (hlength : byteLength value = 5)
    (hthree : Boundary value 3) : NoPanic (slice value 3 5) :=
  noPanic_slice.mpr ⟨by decide, hthree, hlength ▸ boundary_byteLength value⟩

theorem ZoneValue.noPanic_tryFrom (value : List Char) :
    NoPanic (ZoneValue.tryFrom value) ↔ ZoneValue.Uncut value := by
  unfold ZoneValue.tryFrom
  split
  · rename_i hutc
    refine iff_of_true (noPanic_ok _) ?_
    intro hlength
    rcases hutc with rfl | rfl
    · exact absurd hlength (by decide)
    · exact absurd hlength (by decide)
  · rw [noPanic_bind, noPanic_hourAndMinute noPanic_minutes]
    exact and_iff_left (fun r _ => noPanic_ok _)

theorem UTCOffset.noPanic_tryFrom (value : List Char) :
    NoPanic (UTCOffset.tryFrom value) ↔ ZoneValue.Uncut value := by
  unfold UTCOffset.tryFrom
  rw [noPanic_bind, noPanic_hourAndMinute]
  · exact and_iff_left (fun r _ => noPanic_ok _)
  · intro hlength hthree
    unfold sliceFrom
    rw [hlength]
    exact noPanic_minutes hlength hthree

/-!
# Times
-/

namespace TimeValue

/-- The zone is not cut, nor its hour. -/
def ZoneInRange (value : List Char) : ZoneAt -> Prop
  | ZoneAt.none => True
  | ZoneAt.utc => True
  | ZoneAt.range start stop =>
      InRange value (some (start, stop)) ∧
        (stop = start + 5 -> Boundary value (start + 3))

theorem noPanic_zoneField (zone : ZoneAt) :
    NoPanic (zoneField value zone) ↔ ZoneInRange value zone := by
  cases zone with
  | none => exact iff_of_true (noPanic_ok _) trivial
  | utc => exact iff_of_true (noPanic_ok _) trivial
  | range start stop =>
      unfold zoneField ZoneInRange InRange
      dsimp only
      rw [noPanic_bind, noPanic_slice]
      refine and_congr_right ?_
      intro hrange
      rcases Option.isSome_iff_exists.mp (isSome_sliceBytes.mpr hrange) with
        ⟨part, hpart⟩
      have hlength := byteLength_sliceBytes hpart
      have hpartPanics : NoPanic (ZoneValue.tryFrom part >>= fun zone =>
          pure (some zone)) ↔ ZoneValue.Uncut part := by
        rw [noPanic_bind, ZoneValue.noPanic_tryFrom]
        exact and_iff_left (fun zone _ => noPanic_ok _)
      have huncut : ZoneValue.Uncut part ↔
          (stop = start + 5 -> Boundary value (start + 3)) := by
        unfold ZoneValue.Uncut
        constructor
        · intro h heq
          exact (boundary_sliceBytes hpart (by omega)).mp (h (by omega))
        · intro h heq
          exact (boundary_sliceBytes hpart (by omega)).mpr (h (by omega))
      rw [<- huncut, <- hpartPanics]
      constructor
      · intro h
        exact h part (slice_eq_ok.mpr hpart)
      · intro h part' hpart'
        have hsame := slice_eq_ok.mp hpart'
        rw [hpart] at hsame
        cases hsame
        exact h

theorem noPanic_read {hour minute second : Option (Nat × Nat)} {zone : ZoneAt} :
    NoPanic (read value hour minute second zone) ↔
      InRange value hour ∧
        (Readable value intoHour hour -> InRange value minute ∧
          (Readable value intoMinute minute -> InRange value second ∧
            (Readable value intoSecond second ->
              ZoneInRange value zone))) := by
  unfold read
  refine noPanic_field_bind noPanic_into (fun hour => ?_)
  refine noPanic_field_bind noPanic_into (fun minute => ?_)
  refine noPanic_field_bind noPanic_into (fun second => ?_)
  rw [noPanic_bind, noPanic_zoneField]
  exact and_iff_left (fun zone _ => noPanic_ok _)

/-- The letter Z in one byte. -/
def HasZ (value : List Char) (position : Nat) : Prop :=
  sliceBytes value position (position + 1) = some ['Z']

def HasSign (value : List Char) (position : Nat) : Prop :=
  sliceBytes value position (position + 1) = some ['-'] ∨
    sliceBytes value position (position + 1) = some ['+']

theorem hasSign_iff {position : Nat} :
    sliceTest value position (position + 1) isSign = Except.ok true ↔
      HasSign value position := by
  unfold HasSign
  rw [sliceTest_eq_ok]
  constructor
  · intro ⟨part, hpart, hsign⟩
    unfold isSign at hsign
    rw [hpart]
    simpa using hsign
  · intro h
    rcases h with h | h
    · exact ⟨_, h, rfl⟩
    · exact ⟨_, h, rfl⟩

theorem noPanic_branch_startsWith {result : Type} {c : Char}
    (hc : c.utf8Size = 1) {yes no : Checked result} :
    NoPanic (Checked.branch (startsWith value c) yes no) ↔
      Boundary value 1 ∧ ([c] <+: value -> NoPanic yes) ∧
        (¬ [c] <+: value -> NoPanic no) := by
  have hlength : byteLength [c] = 1 := by
    rw [byteLength_cons, byteLength_nil, hc]
  have hstarts : startsWith value c = Except.ok true ↔ [c] <+: value :=
    starts_eq_true hlength
  unfold startsWith
  refine (noPanic_branch_test hstarts).trans ?_
  simp

theorem noPanic_branch_startsWithTwo {result : Type} {yes no : Checked result} :
    NoPanic (Checked.branch (startsWithTwo value '-' '-') yes no) ↔
      Boundary value 2 ∧ (['-', '-'] <+: value -> NoPanic yes) ∧
        (¬ ['-', '-'] <+: value -> NoPanic no) := by
  have hlength : byteLength ['-', '-'] = 2 := rfl
  have hstarts : startsWithTwo value '-' '-' = Except.ok true ↔
      ['-', '-'] <+: value := starts_eq_true hlength
  unfold startsWithTwo
  refine (noPanic_branch_test hstarts).trans ?_
  simp

theorem noPanic_branch_hasZ {result : Type} {position : Nat}
    {yes no : Checked result} :
    NoPanic (Checked.branch (hasZ value position) yes no) ↔
      (Boundary value position ∧ Boundary value (position + 1)) ∧
        (HasZ value position -> NoPanic yes) ∧
        (¬ HasZ value position -> NoPanic no) := by
  have hzone : hasZ value position = Except.ok true ↔
      sliceBytes value position (position + 1) = some ['Z'] := sliceIs_eq_true
  unfold hasZ
  refine (noPanic_branch_test hzone).trans ?_
  simp [HasZ]

theorem noPanic_branch_sign {result : Type} {position : Nat}
    {yes no : Checked result} :
    NoPanic (Checked.branch (sliceTest value position (position + 1) isSign)
        yes no) ↔
      (Boundary value position ∧ Boundary value (position + 1)) ∧
        (HasSign value position -> NoPanic yes) ∧
        (¬ HasSign value position -> NoPanic no) := by
  rw [noPanic_branch_test hasSign_iff]
  simp

/-- No slice of a time is cut. -/
def Uncut (value : List Char) : Prop :=
  match byteLength value with
  | 3 => Boundary value 1 ∧ (¬ ['-'] <+: value -> Boundary value 2)
  | 4 =>
      Boundary value 1 ∧ Boundary value 2 ∧
        (['-'] <+: value -> ¬ ['-', '-'] <+: value -> Boundary value 3)
  | 5 =>
      Boundary value 1 ∧ Boundary value 2 ∧
        (['-', '-'] <+: value ->
          Boundary value 4 ∧ (HasZ value 4 ∨ Boundary value 3)) ∧
        (['-'] <+: value -> ¬ ['-', '-'] <+: value -> Boundary value 3) ∧
        (¬ ['-'] <+: value -> Boundary value 4)
  | 6 =>
      Boundary value 1 ∧
        (['-'] <+: value -> Boundary value 3 ∧ Boundary value 5) ∧
        (¬ ['-'] <+: value -> Boundary value 2 ∧
          (Readable value intoHour (some (0, 2)) -> Boundary value 4))
  | 7 =>
      Boundary value 2 ∧
        (['-', '-'] <+: value -> Boundary value 4) ∧
        (¬ ['-', '-'] <+: value -> Boundary value 6 ∧
          (HasZ value 6 -> Readable value intoHour (some (0, 2)) ->
            Boundary value 4) ∧
          (¬ HasZ value 6 -> Boundary value 4 ∧ Boundary value 5))
  | 8 =>
      Boundary value 1 ∧
        (['-'] <+: value -> Boundary value 3 ∧
          (Readable value intoMinute (some (1, 3)) -> Boundary value 6))
  | 9 =>
      Boundary value 2 ∧ Boundary value 4 ∧
        (['-', '-'] <+: value ->
          Readable value intoSecond (some (2, 4)) -> Boundary value 7) ∧
        (¬ ['-', '-'] <+: value -> Boundary value 5 ∧
          (Readable value intoHour (some (0, 2)) ->
            Readable value intoMinute (some (2, 4)) ->
            (HasSign value 4 -> Boundary value 7) ∧
            (¬ HasSign value 4 -> Boundary value 6)))
  | 10 =>
      Boundary value 1 ∧
        (['-'] <+: value -> Boundary value 3 ∧
          (Readable value intoMinute (some (1, 3)) -> Boundary value 5 ∧
            (Readable value intoSecond (some (3, 5)) -> Boundary value 8)))
  | 11 =>
      Boundary value 2 ∧
        (Readable value intoHour (some (0, 2)) -> Boundary value 4 ∧
          (Readable value intoMinute (some (2, 4)) -> Boundary value 6 ∧
            (Readable value intoSecond (some (4, 6)) -> Boundary value 9)))
  | _ => True

theorem noPanic_tryFrom (value : List Char) :
    NoPanic (tryFrom value) ↔ Uncut value := by
  have hend := boundary_byteLength value
  have hinvalid : NoPanic (Except.error (Fault.invalid
      ⟨ValueType.time, value⟩) : Checked TimeValue) := noPanic_invalid _
  have hboth : ['-', '-'] <+: value -> ['-'] <+: value :=
    fun h => (List.prefix_append ['-'] ['-']).trans h
  have hfirst : ['-'] <+: value -> Boundary value 1 :=
    fun ⟨rest, hrest⟩ => boundary_iff.mpr ⟨['-'], rest, hrest.symm, rfl⟩
  have hdash : '-'.utf8Size = 1 := rfl
  unfold tryFrom Uncut
  generalize byteLength value = n at hend ⊢
  split
  · refine iff_of_true ?_ trivial
    simp only [noPanic_read, InRange, ZoneInRange, boundary_zero, hend]
    simp
  · simp only [noPanic_branch_startsWith hdash, noPanic_read, InRange,
      ZoneInRange, boundary_zero]
    simp
    tauto
  · simp only [noPanic_branch_and, noPanic_branch_startsWith hdash,
      noPanic_branch_startsWithTwo, noPanic_branch_hasZ, noPanic_read, InRange,
      ZoneInRange, boundary_zero]
    by_cases htwo : ['-', '-'] <+: value
    · simp [htwo, hboth htwo, hfirst (hboth htwo), hend]
    · by_cases hone : ['-'] <+: value
      · simp [htwo, hone, hend]
        tauto
      · simp [htwo, hone, hend]
        tauto
  · simp only [noPanic_branch_and, noPanic_branch_startsWith hdash,
      noPanic_branch_startsWithTwo, noPanic_branch_hasZ, noPanic_read, InRange,
      ZoneInRange, boundary_zero]
    by_cases htwo : ['-', '-'] <+: value
    · by_cases hz : HasZ value 4
      · simp [htwo, hz, hboth htwo, hfirst (hboth htwo), hend]
        tauto
      · simp [htwo, hz, hboth htwo, hfirst (hboth htwo), hend]
        tauto
    · by_cases hone : ['-'] <+: value
      · simp [htwo, hone, hend]
        tauto
      · simp [htwo, hone, hend]
        tauto
  · simp only [noPanic_branch_and, noPanic_branch_startsWith hdash,
      noPanic_branch_hasZ, noPanic_read, InRange, ZoneInRange, boundary_zero]
    by_cases hone : ['-'] <+: value
    · simp [hone, hend]
      tauto
    · simp [hone, hend]
      tauto
  · simp only [noPanic_branch_startsWithTwo, noPanic_branch_hasZ,
      noPanic_branch_sign, noPanic_read, InRange, ZoneInRange, boundary_zero]
    by_cases htwo : ['-', '-'] <+: value
    · simp [htwo, hend]
      tauto
    · by_cases hz : HasZ value 6
      · simp [htwo, hz, hend]
        tauto
      · simp [htwo, hz, hend]
        tauto
  · simp only [noPanic_branch_startsWith hdash, noPanic_read, InRange,
      ZoneInRange]
    by_cases hone : ['-'] <+: value
    · simp [hone, hend, hfirst hone]
      tauto
    · simp [hone, hinvalid]
  · simp only [noPanic_branch_startsWithTwo, noPanic_branch_sign,
      noPanic_read, InRange, ZoneInRange, boundary_zero]
    by_cases htwo : ['-', '-'] <+: value
    · simp [htwo, hend]
      tauto
    · by_cases hsign : HasSign value 4
      · simp [htwo, hsign, hend]
        tauto
      · simp [htwo, hsign, hend]
        tauto
  · simp only [noPanic_branch_startsWith hdash, noPanic_read, InRange,
      ZoneInRange]
    by_cases hone : ['-'] <+: value
    · simp [hone, hend, hfirst hone]
      tauto
    · simp [hone, hinvalid]
  · simp only [noPanic_read, InRange, ZoneInRange, boundary_zero]
    simp [hend]
    tauto
  · refine iff_of_true hinvalid ?_
    simp_all

end TimeValue

/-!
# Predicates
-/

/-- A part of a value is there and passes a test. -/
def Passes (value : List Char) (start stop : Nat)
    (test : List Char -> Bool) : Prop :=
  sliceTest value start stop test = Except.ok true

theorem noPanic_isMonthAndDayValue (value : List Char) :
    NoPanic (isMonthAndDayValue value) ↔
      (byteLength value = 4 -> Boundary value 2) := by
  have hend := boundary_byteLength value
  unfold isMonthAndDayValue
  by_cases hlength : byteLength value ≠ 4
  · rw [if_pos hlength]
    exact iff_of_true (noPanic_ok _) (fun heq => absurd heq hlength)
  · rw [if_neg hlength, noPanic_bind, noPanic_slice]
    have hfour := not_not.mp hlength
    rw [hfour] at hend
    constructor
    · intro h _
      exact h.left.right.right
    · intro h
      have htwo := h hfour
      refine ⟨⟨Nat.zero_le 2, boundary_zero value, htwo⟩, ?_⟩
      have hday : forall bound, NoPanic (sliceTest value 2 4 (dayBelow bound)) :=
        fun bound => noPanic_sliceTest.mpr ⟨by omega, htwo, hend⟩
      intro month _
      split
      · exact hday 32
      · split
        · exact hday 30
        · split
          · exact hday 31
          · exact noPanic_ok false

section Predicates

variable {offset dateTime : Type} (chrono : Chrono offset dateTime)

theorem noPanic_isDateCompleteValue (value : List Char) :
    NoPanic (isDateCompleteValue chrono value) ↔
      (byteLength value = 8 -> Boundary value 4 ∧
        (Passes value 0 4 (fun year => (parseI32 year).isSome) ->
          Boundary value 6)) := by
  have hend := boundary_byteLength value
  unfold isDateCompleteValue sliceFrom
  by_cases hlength : byteLength value ≠ 8
  · rw [if_pos hlength]
    exact iff_of_true (noPanic_ok _) (fun heq => absurd heq hlength)
  · have height := not_not.mp hlength
    rw [if_neg hlength, noPanic_bind, noPanic_slice, height]
    rw [height] at hend
    simp only [Nat.zero_le, boundary_zero, true_and, true_implies]
    refine and_congr_right ?_
    intro hfour
    constructor
    · intro h hyear
      rcases sliceTest_eq_ok.mp hyear with ⟨year, hslice, hsome⟩
      rcases Option.isSome_iff_exists.mp hsome with ⟨y, hy⟩
      have hrest := h year (slice_eq_ok.mpr hslice)
      rw [hy] at hrest
      exact (noPanic_slice.mp (noPanic_bind.mp hrest).left).right.right
    · intro h year hslice
      cases hy : parseI32 year with
      | none => exact noPanic_ok false
      | some y =>
          have hsix := h (sliceTest_eq_ok.mpr
            ⟨year, slice_eq_ok.mp hslice, by rw [hy]; rfl⟩)
          dsimp only
          rw [noPanic_bind, noPanic_slice]
          refine ⟨⟨by omega, hfour, hsix⟩, ?_⟩
          intro month _
          cases parseU32 month with
          | none => exact noPanic_ok false
          | some m =>
              dsimp only
              rw [noPanic_bind, noPanic_slice]
              refine ⟨⟨by omega, hsix, hend⟩, ?_⟩
              intro day _
              cases parseU32 day with
              | none => exact noPanic_ok false
              | some d => exact noPanic_ok _

theorem noPanic_truncated (hlength : byteLength value = 6)
    (htwo : Boundary value 2) :
    NoPanic (slice value 2 6 >>= isMonthAndDayValue) ↔ Boundary value 4 := by
  have hend := boundary_byteLength value
  rw [hlength] at hend
  have hrange : 2 ≤ 6 ∧ Boundary value 2 ∧ Boundary value 6 :=
    ⟨by omega, htwo, hend⟩
  rcases Option.isSome_iff_exists.mp (isSome_sliceBytes.mpr hrange) with
    ⟨part, hpart⟩
  have hfour : byteLength part = 4 := by
    have hsum := byteLength_sliceBytes hpart
    omega
  rw [slice_eq_ok.mpr hpart]
  change NoPanic (isMonthAndDayValue part) ↔ _
  have hinside := boundary_sliceBytes hpart (n := 2) (by omega)
  rw [noPanic_isMonthAndDayValue, hinside]
  exact ⟨fun h => h hfour, fun h _ => h⟩

/-- No slice that the predicate makes of a date is cut. -/
def IsDateUncut (value : List Char) : Prop :=
  match byteLength value with
  | 4 => isYearValue value = false -> Boundary value 2
  | 5 => Boundary value 3
  | 6 => Boundary value 2 ∧ (['-', '-'] <+: value -> Boundary value 4)
  | 7 =>
      Boundary value 4 ∧ (Passes value 0 4 isYearValue -> Boundary value 5)
  | 8 =>
      Boundary value 4 ∧
        (Passes value 0 4 (fun year => (parseI32 year).isSome) ->
          Boundary value 6)
  | _ => True

theorem noPanic_isDateValue (value : List Char) :
    NoPanic (isDateValue chrono value) ↔ IsDateUncut value := by
  have hend := boundary_byteLength value
  have hcomplete := noPanic_isDateCompleteValue chrono value
  have htruncated := @noPanic_truncated value
  have htwo : sliceIs value 0 2 ['-', '-'] = Except.ok true ↔
      ['-', '-'] <+: value := starts_eq_true rfl
  unfold isDateValue IsDateUncut sliceFrom
  generalize byteLength value = n at hend hcomplete htruncated ⊢
  split
  · have hok := noPanic_ok (isYearValue value)
    simp only [noPanic_or, noPanic_and, noPanic_sliceIs, noPanic_sliceTest,
      hok, Except.ok.injEq, boundary_zero]
    simp
    exact imp_congr_right (fun _ =>
      and_iff_left_of_imp (fun htwo _ => ⟨htwo, hend⟩))
  · simp only [noPanic_and, noPanic_sliceIs, noPanic_sliceTest, boundary_zero]
    simp
    exact fun hthree _ => ⟨hthree, hend⟩
  · simp only [noPanic_and, noPanic_sliceIs, boundary_zero, htwo]
    simp only [Nat.zero_le, true_and]
    refine and_congr_right ?_
    intro hboundary
    rw [htruncated rfl hboundary]
  · simp only [noPanic_and, noPanic_sliceIs, noPanic_sliceTest, boundary_zero,
      Passes]
    simp
    refine fun hfour => imp_congr_right (fun _ => ⟨fun h => h.left.right, ?_⟩)
    exact fun h => ⟨⟨hfour, h⟩, fun _ => ⟨h, hend⟩⟩
  · rw [hcomplete]
    simp
  · refine iff_of_true (noPanic_ok false) ?_
    simp_all

/-!
# Predicates on times
-/

/-- No slice that the predicate makes of a zone is cut. -/
def IsZoneUncut (value : List Char) : Prop :=
  match byteLength value with
  | 3 => Boundary value 1
  | 5 => Boundary value 1 ∧ (TimeValue.HasSign value 0 -> Boundary value 3)
  | _ => True

theorem noPanic_isZoneValue (value : List Char) :
    NoPanic (isZoneValue value) ↔ IsZoneUncut value := by
  have hend := boundary_byteLength value
  have hsign : sliceTest value 0 1 isSign = Except.ok true ↔
      TimeValue.HasSign value 0 := TimeValue.hasSign_iff
  unfold isZoneValue IsZoneUncut
  generalize byteLength value = n at hend ⊢
  split
  · exact iff_of_true (noPanic_ok _) trivial
  · simp only [noPanic_and, noPanic_sliceTest, boundary_zero]
    simp
    tauto
  · simp only [noPanic_and, noPanic_sliceTest, boundary_zero, hsign]
    simp
    tauto
  · refine iff_of_true (noPanic_ok false) ?_
    simp_all

/-- The rest of a value is nothing, or its slices as a zone are not cut. -/
def RestUncut (value : List Char) (start : Nat) : Prop :=
  byteLength value = start ∨
    forall rest, sliceBytes value start (byteLength value) = some rest ->
      IsZoneUncut rest

theorem noPanic_isZoneFrom {start : Nat} (hstart : Boundary value start) :
    NoPanic (isZoneFrom value start) ↔ RestUncut value start := by
  have hle : start ≤ byteLength value := by
    rcases boundary_iff.mp hstart with ⟨u, v, hs, hu⟩
    rw [hs, byteLength_append]
    omega
  unfold isZoneFrom RestUncut sliceFrom
  rw [noPanic_or, and_iff_right (noPanic_ok _), noPanic_bind, noPanic_slice]
  by_cases hend : byteLength value = start
  · simp [hend]
  · simp only [hend, decide_false, true_implies, hle, hstart, true_and,
      boundary_byteLength, false_or]
    simp only [noPanic_isZoneValue, slice_eq_ok]

/-- No slice that the predicate makes of a time is cut. -/
def IsTimeUncut (value : List Char) : Prop :=
  value = [] ∨ Boundary value 1 ∧
    (['-', '-'] <+: value -> Boundary value 4 ∧
      (Passes value 2 4 isSecondValue -> RestUncut value 4)) ∧
    (['-'] <+: value -> ¬ ['-', '-'] <+: value ->
      Boundary value 2 ∧ Boundary value 3 ∧
      (Passes value 1 3 isMinuteValue -> RestUncut value 3 ∧
        (isZoneFrom value 3 = Except.ok false -> Boundary value 5 ∧
          (Passes value 3 5 isSecondValue -> RestUncut value 5)))) ∧
    (¬ ['-'] <+: value -> Boundary value 2 ∧
      (Passes value 0 2 isHourValue -> RestUncut value 2 ∧
        (isZoneFrom value 2 = Except.ok false -> Boundary value 4 ∧
          (Passes value 2 4 isMinuteValue -> RestUncut value 4 ∧
            (isZoneFrom value 4 = Except.ok false -> Boundary value 6 ∧
              (Passes value 4 6 isSecondValue -> RestUncut value 6))))))

theorem startsWithTwo_iff (hone : ['-'] <+: value) :
    sliceIs value 1 2 ['-'] = Except.ok true ↔ ['-', '-'] <+: value := by
  rcases hone with ⟨rest, hrest⟩
  subst hrest
  rw [sliceIs_eq_true, sliceBytes_append (by decide) (by decide)]
  change sliceBytes rest 0 1 = some ['-'] ↔ ['-'] ++ ['-'] <+: ['-'] ++ rest
  refine (starts_iff (n := 1) rfl).trans ?_
  rw [List.prefix_append_right_inj]

theorem noPanic_passes_and {start stop : Nat} {test : List Char -> Bool}
    {right : Checked Bool} {Q : Prop} (hle : start ≤ stop)
    (hstart : Boundary value start)
    (hright : Boundary value stop -> (NoPanic right ↔ Q)) :
    NoPanic (Checked.and (sliceTest value start stop test) right) ↔
      Boundary value stop ∧ (Passes value start stop test -> Q) := by
  rw [noPanic_and, noPanic_sliceTest, and_iff_right hle, and_iff_right hstart]
  refine and_congr_right ?_
  intro hstop
  exact forall_congr' fun _ => hright hstop

theorem noPanic_zone_or {start : Nat} {right : Checked Bool} {Q : Prop}
    (hstart : Boundary value start) (hright : NoPanic right ↔ Q) :
    NoPanic (Checked.or (isZoneFrom value start) right) ↔
      RestUncut value start ∧
        (isZoneFrom value start = Except.ok false -> Q) := by
  rw [noPanic_or, noPanic_isZoneFrom hstart, hright]

theorem noPanic_isTimeValue (value : List Char) :
    NoPanic (isTimeValue value) ↔ IsTimeUncut value := by
  unfold isTimeValue IsTimeUncut
  by_cases hnil : value = []
  · rw [if_pos hnil]
    exact iff_of_true (noPanic_ok false) (Or.inl hnil)
  · have hone : sliceTest value 0 1 (fun part => part = ['-']) =
        Except.ok true ↔ ['-'] <+: value := starts_eq_true rfl
    have htwo : ['-', '-'] <+: value -> ['-'] <+: value ∧ Boundary value 2 := by
      intro ⟨rest, hrest⟩
      exact ⟨⟨'-' :: rest, hrest⟩,
        boundary_iff.mpr ⟨['-', '-'], rest, hrest.symm, rfl⟩⟩
    rw [if_neg hnil, or_iff_right hnil]
    refine (noPanic_branch_test hone).trans ?_
    rw [and_iff_right (Nat.zero_le 1), and_iff_right (boundary_zero value)]
    refine and_congr_right ?_
    intro hfirst
    have hzone {stop : Nat} (h : Boundary value stop) :=
      noPanic_isZoneFrom h
    have hhour : NoPanic (Checked.and (sliceTest value 0 2 isHourValue)
        (Checked.or (isZoneFrom value 2)
          (Checked.and (sliceTest value 2 4 isMinuteValue)
            (Checked.or (isZoneFrom value 4)
              (Checked.and (sliceTest value 4 6 isSecondValue)
                (isZoneFrom value 6)))))) ↔ _ :=
      noPanic_passes_and (Nat.zero_le 2) (boundary_zero value) fun h =>
        noPanic_zone_or h (noPanic_passes_and (by decide) h fun h =>
          noPanic_zone_or h (noPanic_passes_and (by decide) h hzone))
    by_cases hprefix : ['-'] <+: value
    · have hdash : NoPanic (Checked.branch (sliceIs value 1 2 ['-'])
          (Checked.and (sliceTest value 2 4 isSecondValue) (isZoneFrom value 4))
          (Checked.and (sliceTest value 1 3 isMinuteValue)
            (Checked.or (isZoneFrom value 3)
              (Checked.and (sliceTest value 3 5 isSecondValue)
                (isZoneFrom value 5))))) ↔ _ :=
        noPanic_branch_test (startsWithTwo_iff hprefix)
      have hminute : NoPanic (Checked.and (sliceTest value 1 3 isMinuteValue)
          (Checked.or (isZoneFrom value 3)
            (Checked.and (sliceTest value 3 5 isSecondValue)
              (isZoneFrom value 5)))) ↔ _ :=
        noPanic_passes_and (by decide) hfirst fun h =>
          noPanic_zone_or h (noPanic_passes_and (by decide) h hzone)
      simp only [ hprefix, true_implies, not_true, false_implies, and_true,
        hdash, hminute]
      by_cases hboth : ['-', '-'] <+: value
      · have hsecond : NoPanic (Checked.and (sliceTest value 2 4 isSecondValue)
            (isZoneFrom value 4)) ↔ _ :=
          noPanic_passes_and (by decide) (htwo hboth).right hzone
        simp [hboth, hfirst, (htwo hboth).right, hsecond]
      · simp [hboth, hfirst]
    · have hboth : ¬ ['-', '-'] <+: value := fun h => hprefix (htwo h).left
      simp only [ hprefix, hboth, false_implies, true_and, not_false_eq_true,
        true_implies]
      exact hhour

end Predicates

/-!
# Dates and times
-/

theorem findChar_eq_some {c : Char} {position : Nat} :
    findChar c value = some position ↔
      exists before after, value = before ++ c :: after ∧ c ∉ before ∧
        byteLength before = position := by
  induction value generalizing position with
  | nil =>
      constructor
      · intro h
        cases h
      · intro ⟨before, after, heq, _⟩
        cases before with
        | nil => cases heq
        | cons d before => cases heq
  | cons d rest ih =>
      rw [findChar]
      by_cases hd : d = c
      · rw [if_pos hd]
        constructor
        · intro h
          cases h
          exact ⟨[], rest, by rw [hd]; rfl, List.not_mem_nil, rfl⟩
        · intro ⟨before, after, heq, hmem, hlength⟩
          cases before with
          | nil => exact congrArg some hlength
          | cons d' before =>
              cases heq
              exact absurd List.mem_cons_self (hd ▸ hmem)
      · rw [if_neg hd, Option.map_eq_some_iff]
        constructor
        · intro ⟨p, hp, hposition⟩
          rcases ih.mp hp with ⟨before, after, heq, hmem, hlength⟩
          refine ⟨d :: before, after, by rw [heq]; rfl, ?_, ?_⟩
          · rw [List.mem_cons, not_or]
            exact ⟨Ne.symm hd, hmem⟩
          · rw [byteLength_cons, hlength]
            exact hposition
        · intro ⟨before, after, heq, hmem, hlength⟩
          cases before with
          | nil =>
              cases heq
              exact absurd rfl hd
          | cons d' before =>
              cases heq
              rw [List.mem_cons, not_or] at hmem
              rw [byteLength_cons] at hlength
              exact ⟨byteLength before,
                ih.mpr ⟨before, after, rfl, hmem.right, rfl⟩, hlength⟩

theorem findChar_eq_none {c : Char} :
    findChar c value = none ↔ c ∉ value := by
  induction value with
  | nil => simp [findChar]
  | cons d rest ih =>
      rw [findChar, List.mem_cons, not_or, <- ih]
      by_cases hd : d = c
      · simp [hd]
      · simp [hd, Ne.symm hd]

theorem sliceFrom_append (before rest : List Char) {start : Nat}
    (h : byteLength before = start) :
    sliceFrom (before ++ rest) start = Except.ok rest := by
  unfold sliceFrom
  rw [slice_eq_ok, sliceBytes_eq_some]
  refine ⟨before, [], by rw [List.append_nil], h, ?_⟩
  rw [byteLength_append]

theorem slice_prefix (before rest : List Char) {stop : Nat}
    (h : byteLength before = stop) :
    slice (before ++ rest) 0 stop = Except.ok before := by
  rw [slice_eq_ok, <- h]
  exact sliceBytes_prefix

theorem byteLength_append_T (before : List Char) :
    byteLength (before ++ ['T']) = byteLength before + 1 := by
  rw [byteLength_append]
  rfl

/-- No slice of the date or the time is cut. -/
structure DateAndOrTimeValue.Uncut (value : List Char) : Prop where
  first : value ≠ [] -> Boundary value 1
  time : forall time, value = 'T' :: time -> TimeValue.Uncut time
  both : forall date time, value = date ++ 'T' :: time -> 'T' ∉ date ->
    date ≠ [] -> DateValue.Uncut date ∧
      ((exists dateValue, DateValue.tryFrom date = Except.ok dateValue) ->
        TimeValue.Uncut time)
  date : 'T' ∉ value -> value ≠ [] -> DateValue.Uncut value

theorem DateAndOrTimeValue.noPanic_tryFrom (value : List Char) :
    NoPanic (DateAndOrTimeValue.tryFrom value) ↔
      DateAndOrTimeValue.Uncut value := by
  unfold DateAndOrTimeValue.tryFrom
  by_cases hnil : value = []
  · rw [if_pos hnil]
    refine iff_of_true (noPanic_invalid _) ?_
    subst hnil
    refine ⟨fun h => absurd rfl h, ?_, ?_, fun _ h => absurd rfl h⟩
    · intro time h
      cases h
    · intro date time h
      cases date with
      | nil => cases h
      | cons d date => cases h
  · have hone : sliceTest value 0 1 (fun part => part = ['T']) =
        Except.ok true ↔ ['T'] <+: value := starts_eq_true rfl
    rw [if_neg hnil]
    refine (noPanic_branch_test hone).trans ?_
    rw [and_iff_right (Nat.zero_le 1), and_iff_right (boundary_zero value)]
    by_cases hprefix : ['T'] <+: value
    · rcases hprefix with ⟨time, rfl⟩
      have hfirst : Boundary (['T'] ++ time) 1 :=
        boundary_iff.mpr ⟨['T'], time, rfl, rfl⟩
      have htail : sliceFrom (['T'] ++ time) 1 = Except.ok time :=
        sliceFrom_append ['T'] time rfl
      rw [and_iff_right hfirst, htail]
      have hpanics : NoPanic ((Except.ok time : Checked (List Char)) >>=
          fun part => TimeValue.tryFrom part >>= fun time =>
            pure (DateTimeValue.ofTime time)) ↔ TimeValue.Uncut time := by
        change NoPanic (TimeValue.tryFrom time >>= _) ↔ _
        rw [noPanic_bind, TimeValue.noPanic_tryFrom]
        exact and_iff_left (fun t _ => noPanic_ok _)
      constructor
      · intro h
        refine ⟨fun _ => hfirst, ?_, ?_, ?_⟩
        · intro time' heq
          cases heq
          exact hpanics.mp (h.left (List.prefix_append ['T'] time))
        · intro date time' heq hdate hne
          cases date with
          | nil => exact absurd rfl hne
          | cons d date =>
              cases heq
              exact absurd List.mem_cons_self hdate
        · intro hmem
          exact absurd List.mem_cons_self hmem
      · intro h
        exact ⟨fun _ => hpanics.mpr (h.time time rfl),
          fun hno => absurd (List.prefix_append ['T'] time) hno⟩
    · have hno : forall time, value ≠ 'T' :: time :=
        fun time heq => hprefix ⟨time, heq.symm⟩
      simp only [ hprefix, false_implies, true_and, not_false_eq_true,
        true_implies]
      cases hfind : findChar 'T' value with
      | none =>
          have hmem := findChar_eq_none.mp hfind
          dsimp only
          rw [noPanic_bind, DateValue.noPanic_tryFrom]
          constructor
          · intro ⟨hfirst, huncut, _⟩
            refine ⟨fun _ => hfirst, fun time heq => absurd heq (hno time), ?_,
              fun _ _ => huncut⟩
            intro date time heq _ _
            rw [heq] at hmem
            exact absurd (List.mem_append_right date List.mem_cons_self) hmem
          · intro h
            exact ⟨h.first hnil, h.date hmem hnil, fun d _ => noPanic_ok _⟩
      | some position =>
          rcases findChar_eq_some.mp hfind with ⟨date, time, rfl, hmem, hlength⟩
          have hne : date ≠ [] := by
            intro heq
            subst heq
            exact hno time rfl
          have hslice := slice_prefix date ('T' :: time) hlength
          have hrest : sliceFrom (date ++ 'T' :: time) (position + 1) =
              Except.ok time := by
            have happend := sliceFrom_append (date ++ ['T']) time
              (byteLength_append_T date)
            rw [hlength, List.append_assoc] at happend
            exact happend
          have hpanics : NoPanic (DateValue.tryFrom date >>= fun d =>
              sliceFrom (date ++ 'T' :: time) (position + 1) >>= fun part =>
                TimeValue.tryFrom part >>= fun t =>
                  pure (DateTimeValue.fromDateAndTime d t)) ↔
              DateValue.Uncut date ∧ ((exists dateValue,
                DateValue.tryFrom date = Except.ok dateValue) ->
                  TimeValue.Uncut time) := by
            rw [noPanic_bind, DateValue.noPanic_tryFrom, hrest]
            refine and_congr_right ?_
            intro _
            rw [forall_exists_index]
            refine forall₂_congr ?_
            intro d _
            change NoPanic (TimeValue.tryFrom time >>= _) ↔ _
            rw [noPanic_bind, TimeValue.noPanic_tryFrom]
            exact and_iff_left (fun t _ => noPanic_ok _)
          dsimp only
          rw [hslice]
          constructor
          · intro ⟨hfirst, h⟩
            refine ⟨fun _ => hfirst, fun time' heq => absurd heq (hno time'), ?_,
              fun hno _ => absurd (List.mem_append_right date
                List.mem_cons_self) hno⟩
            intro date' time' heq hmem' _
            have hfind' := findChar_eq_some.mpr ⟨date', time', heq, hmem', rfl⟩
            rw [hfind] at hfind'
            have hsame : date ++ 'T' :: time = date' ++ 'T' :: time' ∧
                byteLength date = byteLength date' :=
              ⟨heq, hlength.trans (Option.some.inj hfind')⟩
            have hcut := splitAtByte_append date ('T' :: time)
            rw [hsame.left, hsame.right, splitAtByte_append] at hcut
            cases hcut
            exact hpanics.mp h
          · intro h
            exact ⟨h.first hnil, hpanics.mpr (h.both date time rfl hmem hne)⟩

/-!
# Timestamps
-/

namespace Timestamp

section Timestamps

variable {offset dateTime : Type} (chrono : Chrono offset dateTime)

/-- A number can be read from a part of a value. -/
def Reads {result : Type} (value : List Char)
    (parse : List Char -> Option result) (start stop : Nat) : Prop :=
  exists n, number value parse start stop = Except.ok n

theorem noPanic_number {result : Type} {parse : List Char -> Option result}
    {start stop : Nat} :
    NoPanic (number value parse start stop) ↔
      start ≤ stop ∧ Boundary value start ∧ Boundary value stop := by
  unfold number
  rw [noPanic_parsePart, noPanic_slice]

theorem noPanic_east (value : List Char) (seconds : Int) :
    NoPanic (east chrono value seconds) := by
  unfold east
  cases chrono.eastOpt seconds with
  | none => exact noPanic_invalid _
  | some offset => exact noPanic_ok offset

theorem noPanic_offsetOf (h : Boundary value 15) :
    NoPanic (offsetOf chrono value) ↔
      (byteLength value = 20 -> Boundary value 18) := by
  have hend := boundary_byteLength value
  have heast := noPanic_east chrono value
  unfold offsetOf
  generalize byteLength value = n at hend ⊢
  split
  · exact iff_of_true (heast 0) (fun heq => by cases heq)
  · refine iff_of_true ?_ (fun heq => by cases heq)
    rw [noPanic_branch, noPanic_sliceIs]
    exact ⟨⟨by decide, h, hend⟩, fun _ => heast 0, fun _ => noPanic_invalid _⟩
  · refine iff_of_true ?_ (fun heq => by cases heq)
    rw [noPanic_bind, noPanic_number]
    exact ⟨⟨by decide, h, hend⟩, fun hours _ => heast _⟩
  · rw [noPanic_bind, noPanic_number]
    constructor
    · intro hall _
      exact hall.left.right.right
    · intro height
      refine ⟨⟨by decide, h, height rfl⟩, ?_⟩
      intro hours _
      rw [noPanic_bind, noPanic_number]
      exact ⟨⟨by decide, height rfl, hend⟩, fun minutes _ => heast _⟩
  · rename_i htwenty
    exact iff_of_true (noPanic_invalid _) (fun heq => absurd heq htwenty)

theorem noPanic_number_bind {arg result : Type}
    {parse : List Char -> Option arg} {start stop : Nat}
    {next : arg -> Checked result} {Q : Prop} (hle : start ≤ stop)
    (hstart : Boundary value start)
    (hnext : Boundary value stop -> forall n, NoPanic (next n) ↔ Q) :
    NoPanic (number value parse start stop >>= next) ↔
      Boundary value stop ∧ (Reads value parse start stop -> Q) := by
  rw [noPanic_bind, noPanic_number, and_iff_right hle, and_iff_right hstart]
  refine and_congr_right ?_
  intro hstop
  unfold Reads
  rw [forall_exists_index]
  exact forall₂_congr fun n _ => hnext hstop n

/-- No slice of a timestamp is cut, and there are nine bytes at least. -/
def Uncut (value : List Char) : Prop :=
  Boundary value 8 ∧ Boundary value 9 ∧
    (sliceBytes value 8 9 = some ['T'] -> Boundary value 4 ∧
      (Reads value parseI32 0 4 -> Boundary value 6 ∧
        (Reads value parseU32 4 6 -> Reads value parseU32 6 8 ->
          Boundary value 11 ∧
          (Reads value parseU32 9 11 -> Boundary value 13 ∧
            (Reads value parseU32 11 13 -> Boundary value 15 ∧
              (Reads value parseU32 13 15 -> byteLength value = 20 ->
                Boundary value 18))))))

theorem noPanic_tryFrom (value : List Char) :
    NoPanic (tryFrom chrono value) ↔ Uncut value := by
  have htest : sliceTest value 8 9 (fun part => part = ['T']) =
      Except.ok true ↔ sliceBytes value 8 9 = some ['T'] := sliceIs_eq_true
  unfold tryFrom
  refine (noPanic_branch_test htest).trans ?_
  unfold Uncut
  rw [and_iff_right (by decide : 8 ≤ 9), and_assoc]
  refine and_congr_right ?_
  intro height
  refine and_congr_right ?_
  intro hnine
  have herror : NoPanic (intoError value : Checked dateTime) :=
    noPanic_invalid _
  rw [and_iff_left (fun _ => herror)]
  refine forall_congr' ?_
  intro _
  refine noPanic_number_bind (by decide) (boundary_zero value) ?_
  intro hfour year
  refine noPanic_number_bind (by decide) hfour ?_
  intro hsix month
  refine (noPanic_number_bind (by decide) hsix ?_).trans (and_iff_right height)
  intro _ day
  refine noPanic_number_bind (by decide) hnine ?_
  intro heleven hour
  refine noPanic_number_bind (by decide) heleven ?_
  intro hthirteen minute
  refine (noPanic_number_bind (by decide) hthirteen ?_)
  intro hfifteen second
  rw [noPanic_bind, noPanic_offsetOf chrono hfifteen]
  refine and_iff_left ?_
  intro offset _
  unfold localTime
  cases chrono.withYmdAndHms offset year month day hour minute second with
  | none => exact noPanic_invalid _
  | some t => exact noPanic_ok t

end Timestamps

end Timestamp

/-!
# All parsers
-/

/-- Each parser gets through exactly the values whose slices are not cut. -/
theorem noPanic_iff {offset dateTime : Type} (chrono : Chrono offset dateTime)
    (value : List Char) :
    (NoPanic (DateValue.tryFrom value) ↔ DateValue.Uncut value) ∧
      (NoPanic (TimeValue.tryFrom value) ↔ TimeValue.Uncut value) ∧
      (NoPanic (DateAndOrTimeValue.tryFrom value) ↔
        DateAndOrTimeValue.Uncut value) ∧
      (NoPanic (Timestamp.tryFrom chrono value) ↔ Timestamp.Uncut value) ∧
      (NoPanic (ZoneValue.tryFrom value) ↔ ZoneValue.Uncut value) ∧
      (NoPanic (UTCOffset.tryFrom value) ↔ ZoneValue.Uncut value) ∧
      (NoPanic (isDateValue chrono value) ↔ IsDateUncut value) ∧
      (NoPanic (isTimeValue value) ↔ IsTimeUncut value) :=
  ⟨DateValue.noPanic_tryFrom value, TimeValue.noPanic_tryFrom value,
    DateAndOrTimeValue.noPanic_tryFrom value,
    Timestamp.noPanic_tryFrom chrono value, ZoneValue.noPanic_tryFrom value,
    UTCOffset.noPanic_tryFrom value, noPanic_isDateValue chrono value,
    noPanic_isTimeValue value⟩

/-- One digit is too short for the first slice of an hour. -/
theorem isTimeValue_panics : ¬ NoPanic (isTimeValue ['1']) := by
  have hpanic : isTimeValue ['1'] = Except.error Fault.panic := rfl
  exact fun h => h hpanic

end Vcard
end MailClient
