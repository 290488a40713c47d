import Mathlib.Order.GaloisConnection.Basic
import Mathlib.Data.Int.ConditionallyCompleteOrder
import Mathlib.Order.Monotone.Basic
import Mathlib.Tactic.IntervalCases

/-!
# The proleptic Gregorian calendar

Days, months and years are numbered by integers.  A partition of time into
periods is a strictly increasing sequence of first instants together with the
index of the period of an instant; that the two form a Galois connection is all
that later proofs need to know about a calendar.  Day zero is 1970-01-01.
-/

namespace MailClient
namespace Foundation

/-!
# Periods
-/

structure Partition where
  first : Int -> Int
  index : Int -> Int
  first_lt : forall k, first k < first (k + 1)
  gc : GaloisConnection first index

namespace Partition

variable (P : Partition)

theorem first_strictMono : StrictMono P.first :=
  strictMono_int_of_lt_succ P.first_lt

theorem first_le_iff {k x : Int} : P.first k ≤ x ↔ k ≤ P.index x :=
  P.gc k x

theorem lt_first_iff {k x : Int} : x < P.first k ↔ P.index x < k := by
  rw [<- not_le, P.first_le_iff, not_le]

theorem first_index_le (x : Int) : P.first (P.index x) ≤ x :=
  P.gc.l_u_le x

theorem lt_first_index_succ (x : Int) : x < P.first (P.index x + 1) :=
  P.lt_first_iff.mpr (Int.lt_succ _)

theorem index_mono {x y : Int} (h : x ≤ y) : P.index x ≤ P.index y :=
  P.gc.monotone_u h

@[simp] theorem index_first (k : Int) : P.index (P.first k) = k := by
  apply le_antisymm
  · have h := P.lt_first_iff.mp (P.first_lt k)
    omega
  · exact P.first_le_iff.mp le_rfl

theorem index_eq_iff {k x : Int} :
    P.index x = k ↔ P.first k ≤ x ∧ x < P.first (k + 1) := by
  rw [P.first_le_iff, P.lt_first_iff]
  omega

/-- The position of an instant within its period, from one. -/
def ordinal (x : Int) : Int :=
  x - P.first (P.index x) + 1

theorem ordinal_le {x : Int} {k : Int} (h : P.first k ≤ x) :
    P.ordinal x ≤ x - P.first k + 1 := by
  have hk := P.first_strictMono.monotone (P.first_le_iff.mp h)
  unfold ordinal
  omega

theorem ordinal_lt_within {x y d : Int} (hxy : x ≤ y)
    (hy : y < P.first (P.index x) + d - 1) : P.ordinal y < d := by
  have h := P.ordinal_le (le_trans (P.first_index_le x) hxy)
  omega

theorem ordinal_ne_past {x y d : Int} (hx : d < P.ordinal x) (hxy : x ≤ y)
    (hy : y < P.first (P.index x + 1) - 1 + d) : P.ordinal y ≠ d := by
  by_cases hnext : P.first (P.index x + 1) ≤ y
  · have h := P.ordinal_le hnext
    omega
  · have hindex : P.index y = P.index x := by
      have hle := P.index_mono hxy
      have hlt := P.lt_first_iff.mp (not_le.mp hnext)
      omega
    unfold ordinal at *
    rw [hindex]
    omega

/-- A partition is given by brackets around every instant. -/
def ofBracket (first index : Int -> Int)
    (hfirst : forall k, first k < first (k + 1))
    (hle : forall x, first (index x) ≤ x)
    (hlt : forall x, x < first (index x + 1)) : Partition where
  first := first
  index := index
  first_lt := hfirst
  gc := by
    have hmono := strictMono_int_of_lt_succ hfirst
    intro k x
    constructor
    · intro h
      have hk : k < index x + 1 := hmono.lt_iff_lt.mp (lt_of_le_of_lt h (hlt x))
      omega
    · intro h
      exact le_trans (hmono.monotone h) (hle x)

/-- Periods of a fixed length, counted from an offset. -/
def uniform (offset length : Int) (hlength : 0 < length) : Partition :=
  ofBracket (fun k => length * k - offset) (fun x => (x + offset) / length)
    (fun k => by
      show length * k - offset < length * (k + 1) - offset
      rw [Int.mul_add, Int.mul_one]
      omega)
    (fun x => by
      have h := Int.mul_ediv_self_le (x := x + offset) (k := length) (by omega)
      omega)
    (fun x => by
      have h := Int.lt_mul_ediv_self_add (x := x + offset) hlength
      show x < length * ((x + offset) / length + 1) - offset
      rw [Int.mul_add, Int.mul_one]
      omega)

/-- Instants refine the periods of a coarser partition. -/
def comp (P Q : Partition) : Partition where
  first := fun k => Q.first (P.first k)
  index := fun x => P.index (Q.index x)
  first_lt := fun k => Q.first_strictMono (P.first_lt k)
  gc := P.gc.compose Q.gc

end Partition

/-!
# Years
-/

def isLeap (y : Int) : Bool :=
  y % 4 == 0 && (y % 100 != 0 || y % 400 == 0)

def yearLength (y : Int) : Int :=
  if isLeap y then 366 else 365

/-- The first day of a year. -/
def yearStart (y : Int) : Int :=
  365 * (y - 1970) + (y - 1) / 4 - (y - 1) / 100 + (y - 1) / 400 - 477

theorem isLeap_iff (y : Int) :
    isLeap y = true ↔ y % 4 = 0 ∧ (y % 100 ≠ 0 ∨ y % 400 = 0) := by
  simp [isLeap]

theorem yearLength_bounds (y : Int) :
    365 ≤ yearLength y ∧ yearLength y ≤ 366 := by
  unfold yearLength
  split
  · omega
  · omega

theorem yearStart_succ (y : Int) :
    yearStart (y + 1) = yearStart y + yearLength y := by
  unfold yearStart yearLength
  split
  · rename_i h
    have hleap := (isLeap_iff y).mp h
    omega
  · rename_i h
    rw [isLeap_iff] at h
    omega

/-- An estimate from the mean length of a year is off by at most one. -/
def yearOf (n : Int) : Int :=
  let y := 400 * n / 146097 + 1970
  if n < yearStart y then y - 1
  else if yearStart (y + 1) ≤ n then y + 1
  else y

theorem yearStart_lt (y : Int) : yearStart y < yearStart (y + 1) := by
  have h := yearStart_succ y
  have hlength := yearLength_bounds y
  omega

theorem yearOf_bracket (n : Int) :
    yearStart (yearOf n) ≤ n ∧ n < yearStart (yearOf n + 1) := by
  unfold yearOf
  dsimp only
  split
  · rename_i h
    refine ⟨?_, ?_⟩
    · unfold yearStart at *
      omega
    · rw [Int.sub_add_cancel]
      exact h
  · split
    · rename_i h
      refine ⟨h, ?_⟩
      unfold yearStart at *
      omega
    · omega

def years : Partition :=
  Partition.ofBracket yearStart yearOf yearStart_lt
    (fun n => (yearOf_bracket n).left) (fun n => (yearOf_bracket n).right)

theorem years_first (y : Int) : years.first y = yearStart y :=
  rfl

theorem years_index (n : Int) : years.index n = yearOf n :=
  rfl

/-!
# Months

Month `k` is month `k % 12 + 1` of year `k / 12`.  The lengths of the months
from March on follow the line `(153 * m + 2) / 5`.
-/

def leapDays (y : Int) : Int :=
  if isLeap y then 1 else 0

/-- Days of a year before its month `m`, counted from zero. -/
def daysBefore (leap m : Int) : Int :=
  if m < 2 then 31 * m else 59 + leap + (153 * (m - 2) + 2) / 5

/-- The month of a day, both counted from zero. -/
def monthWithin (leap day : Int) : Int :=
  if day < 59 + leap then day / 31 else 2 + (5 * (day - 59 - leap) + 2) / 153

theorem leapDays_bounds (y : Int) : 0 ≤ leapDays y ∧ leapDays y ≤ 1 := by
  unfold leapDays
  split
  · omega
  · omega

theorem yearLength_eq (y : Int) : yearLength y = 365 + leapDays y := by
  unfold yearLength leapDays
  split
  · rfl
  · rfl

def monthStart (k : Int) : Int :=
  yearStart (k / 12) + daysBefore (leapDays (k / 12)) (k % 12)

def monthOf (n : Int) : Int :=
  12 * yearOf n + monthWithin (leapDays (yearOf n)) (n - yearStart (yearOf n))

theorem daysBefore_lt {leap : Int} (hleap : 0 ≤ leap) {m : Int}
    (hm : 0 ≤ m) :
    daysBefore leap m < daysBefore leap (m + 1) := by
  unfold daysBefore
  split
  · split
    · omega
    · omega
  · split
    · omega
    · omega

theorem monthStart_of_year (y m : Int) (hm : 0 ≤ m) (hm' : m ≤ 12) :
    monthStart (12 * y + m) = yearStart y + daysBefore (leapDays y) m := by
  unfold monthStart
  by_cases h : m = 12
  · have hdiv : (12 * y + m) / 12 = y + 1 := by omega
    have hmod : (12 * y + m) % 12 = 0 := by omega
    rw [hdiv, hmod, yearStart_succ, yearLength_eq, h]
    unfold daysBefore
    rw [if_pos (by decide), if_neg (by decide)]
    omega
  · have hdiv : (12 * y + m) / 12 = y := by omega
    have hmod : (12 * y + m) % 12 = m := by omega
    rw [hdiv, hmod]

theorem month_cases (k : Int) :
    exists y m : Int, 0 ≤ m ∧ m < 12 ∧ k = 12 * y + m :=
  ⟨k / 12, k % 12, by omega, by omega, by omega⟩

theorem monthStart_lt (k : Int) : monthStart k < monthStart (k + 1) := by
  rcases month_cases k with ⟨y, m, hm, hm', rfl⟩
  have hdays := daysBefore_lt (leapDays_bounds y).left hm
  rw [Int.add_assoc, monthStart_of_year _ _ (by omega) (by omega),
    monthStart_of_year _ _ (by omega) (by omega)]
  omega

theorem monthWithin_bracket {leap : Int} (day : Int) (hleap : 0 ≤ leap)
    (hleap' : leap ≤ 1) (hday : 0 ≤ day) (hday' : day < 365 + leap) :
    0 ≤ monthWithin leap day ∧ monthWithin leap day < 12 ∧
      daysBefore leap (monthWithin leap day) ≤ day ∧
      day < daysBefore leap (monthWithin leap day + 1) := by
  unfold monthWithin
  split
  · unfold daysBefore
    refine ⟨by omega, by omega, ?_, ?_⟩
    · rw [if_pos (by omega)]
      omega
    · split
      · omega
      · omega
  · unfold daysBefore
    refine ⟨by omega, by omega, ?_, ?_⟩
    · rw [if_neg (by omega)]
      omega
    · rw [if_neg (by omega)]
      omega

theorem monthOf_bracket (n : Int) :
    monthStart (monthOf n) ≤ n ∧ n < monthStart (monthOf n + 1) := by
  have hyear := yearOf_bracket n
  have hleap := leapDays_bounds (yearOf n)
  rw [yearStart_succ, yearLength_eq] at hyear
  have hmonth := monthWithin_bracket (n - yearStart (yearOf n)) hleap.left
    hleap.right (by omega) (by omega)
  unfold monthOf
  rw [Int.add_assoc, monthStart_of_year _ _ (by omega) (by omega),
    monthStart_of_year _ _ (by omega) (by omega)]
  omega

def months : Partition :=
  Partition.ofBracket monthStart monthOf monthStart_lt
    (fun n => (monthOf_bracket n).left) (fun n => (monthOf_bracket n).right)

theorem months_first (k : Int) : months.first k = monthStart k :=
  rfl

theorem months_index (n : Int) : months.index n = monthOf n :=
  rfl

theorem yearStart_eq_monthStart (y : Int) :
    yearStart y = monthStart (12 * y) := by
  have h := monthStart_of_year y 0 (by decide) (by decide)
  rw [Int.add_zero] at h
  rw [h]
  unfold daysBefore
  rw [if_pos (by decide)]
  omega

theorem yearOf_eq_monthOf (n : Int) : yearOf n = monthOf n / 12 := by
  have hyear := yearOf_bracket n
  have hleap := leapDays_bounds (yearOf n)
  rw [yearStart_succ, yearLength_eq] at hyear
  have hmonth := monthWithin_bracket (n - yearStart (yearOf n)) hleap.left
    hleap.right (by omega) (by omega)
  unfold monthOf
  omega

def monthLength (k : Int) : Int :=
  monthStart (k + 1) - monthStart k

theorem monthLength_of_year (y : Int) {m : Int} (hm : 0 ≤ m) (hm' : m < 12) :
    monthLength (12 * y + m) =
      daysBefore (leapDays y) (m + 1) - daysBefore (leapDays y) m := by
  unfold monthLength
  rw [Int.add_assoc, monthStart_of_year _ _ (by omega) (by omega),
    monthStart_of_year _ _ (by omega) (by omega)]
  omega

theorem monthLength_bounds (k : Int) :
    28 ≤ monthLength k ∧ monthLength k ≤ 31 := by
  rcases month_cases k with ⟨y, m, hm, hm', rfl⟩
  have hleap := leapDays_bounds y
  rw [monthLength_of_year y hm hm']
  unfold daysBefore
  split
  · split
    · omega
    · omega
  · split
    · omega
    · omega

theorem monthStart_add (k : Int) :
    monthStart (k + 1) = monthStart k + monthLength k := by
  unfold monthLength
  omega

theorem monthLength_neighbours {k : Int} (h : monthLength k < 31) :
    monthLength (k - 1) = 31 ∧ monthLength (k + 1) = 31 := by
  rcases month_cases k with ⟨y, m, hm, hm', rfl⟩
  have hleap := leapDays_bounds y
  rw [monthLength_of_year y hm hm'] at h
  have hinner : 1 ≤ m ∧ m ≤ 10 := by
    unfold daysBefore at h
    split at h
    · split at h
      · omega
      · omega
    · split at h
      · omega
      · omega
  rw [Int.add_sub_assoc, Int.add_assoc,
    monthLength_of_year y (by omega) (by omega),
    monthLength_of_year y (by omega) (by omega)]
  unfold daysBefore at *
  interval_cases m
  all_goals
    simp at h ⊢
    try omega

/-!
# Fields of a day
-/

/-- The day of the month, from one. -/
def dayOfMonth (n : Int) : Int :=
  months.ordinal n

/-- The day of the year, from one. -/
def dayOfYear (n : Int) : Int :=
  years.ordinal n

/-- The month of the year, from one. -/
def monthOfYear (n : Int) : Int :=
  monthOf n % 12 + 1

/-- The day of the week, Monday is zero. -/
def weekdayOf (n : Int) : Int :=
  (n + 3) % 7

/-- Weeks start on Monday. -/
def weeks : Partition :=
  Partition.uniform 3 7 (by decide)

theorem dayOfMonth_eq (n : Int) :
    dayOfMonth n = n - monthStart (monthOf n) + 1 :=
  rfl

theorem dayOfYear_eq (n : Int) :
    dayOfYear n = n - yearStart (yearOf n) + 1 :=
  rfl

theorem dayOfMonth_bounds (n : Int) :
    1 ≤ dayOfMonth n ∧ dayOfMonth n ≤ monthLength (monthOf n) := by
  have h := monthOf_bracket n
  rw [dayOfMonth_eq]
  unfold monthLength
  omega

example : (monthOf 17897, dayOfMonth 17897) = (12 * 2019, 1) := by
  decide

end Foundation
end MailClient
