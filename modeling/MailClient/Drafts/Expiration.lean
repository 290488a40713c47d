import Mathlib.Algebra.Ring.Nat
import MailClient.Drafts.Metadata
import MailClient.Messages.Ids

/-!
# The expiration time of a draft

A requested time is compared with the clock and with a date derived from it, and
is then stored in two columns of the row of the draft.
-/

namespace MailClient
namespace Drafts

/-!
# Dates
-/

def minTimestamp : Int := -8334601228800

def maxTimestamp : Int := 8210266876799

def daySeconds : Int := 86400

/-- An instant that `chrono` can represent. -/
structure DateTime where
  timestamp : Int
  nanos : Nat
  inRange : minTimestamp ≤ timestamp ∧ timestamp ≤ maxTimestamp
  deriving DecidableEq, Repr

namespace DateTime

def Later (t t' : DateTime) : Prop :=
  t'.timestamp < t.timestamp ∨
    t'.timestamp = t.timestamp ∧ t'.nanos < t.nanos

instance (t t' : DateTime) : Decidable (Later t t') :=
  inferInstanceAs (Decidable (_ ∨ _))

/-- The instant is at most so many seconds after 1970. -/
def AtMost (t : DateTime) (seconds : Int) : Prop :=
  t.timestamp < seconds ∨ t.timestamp = seconds ∧ t.nanos = 0

instance (t : DateTime) (seconds : Int) : Decidable (AtMost t seconds) :=
  inferInstanceAs (Decidable (_ ∨ _))

def toTheSecond (t : DateTime) : DateTime :=
  { t with nanos := 0 }

/-- `UnixTimestamp::from`: a date before 1970 loses its sign. -/
def toUnix (t : DateTime) : Nat :=
  t.timestamp.natAbs

end DateTime

def timestampOpt (seconds : Int) : Option DateTime :=
  if h : minTimestamp ≤ seconds ∧ seconds ≤ maxTimestamp then
    some { timestamp := seconds, nanos := 0, inRange := h }
  else none

/-- `UnixTimestamp::to_date_time` -/
def toDateTime (seconds : Nat) : Option DateTime :=
  if 2 ^ 63 - 1 ≤ seconds then none else timestampOpt seconds

/-- The sum of two `u64`, which stops at their maximum. -/
def saturatingAdd (a b : Nat) : Nat :=
  min (a + b) (2 ^ 64 - 1)

theorem toDateTime_toUnix {t : DateTime} (h : 0 ≤ t.timestamp) :
    toDateTime t.toUnix = some t.toTheSecond := by
  have hrange := t.inRange
  have habs : (t.timestamp.natAbs : Int) = t.timestamp := Int.natAbs_of_nonneg h
  have hsmall : ¬ 2 ^ 63 - 1 ≤ t.timestamp.natAbs := by
    unfold maxTimestamp at hrange
    omega
  unfold toDateTime DateTime.toUnix timestampOpt
  rw [if_neg hsmall]
  simp only [habs, dif_pos hrange]
  rfl

/-!
# Requests
-/

/-- What is requested, before it is stored as a `DraftExpirationTime`. -/
inductive RequestedExpiration where
  | never
  | oneHour
  | oneDay
  | threeDays
  | custom (time : DateTime)
  deriving DecidableEq, Repr

namespace RequestedExpiration

def stored : RequestedExpiration -> DraftExpirationTime
  | never => DraftExpirationTime.never
  | oneHour => DraftExpirationTime.oneHour
  | oneDay => DraftExpirationTime.oneDay
  | threeDays => DraftExpirationTime.threeDays
  | custom t => DraftExpirationTime.custom t.toUnix

def toTheSecond : RequestedExpiration -> RequestedExpiration
  | custom t => custom t.toTheSecond
  | e => e

end RequestedExpiration

/-- `DraftMetadata::expiration_time` -/
def DraftMetadata.readExpirationTime (m : DraftMetadata) :
    RequestedExpiration :=
  match m.expirationOption with
  | DraftExpirationOption.never => RequestedExpiration.never
  | DraftExpirationOption.oneHour => RequestedExpiration.oneHour
  | DraftExpirationOption.oneDay => RequestedExpiration.oneDay
  | DraftExpirationOption.threeDays => RequestedExpiration.threeDays
  | DraftExpirationOption.custom =>
      match m.expirationTime with
      | none => RequestedExpiration.never
      | some v =>
          match toDateTime v with
          | none => RequestedExpiration.never
          | some t => RequestedExpiration.custom t

inductive ExpirationError where
  | metadataNotFound (id : MetadataId)
  | expirationTimeInThePast
  | expirationTimeLessThan15Min
  | expirationTimeExceeds28Days
  deriving DecidableEq, Repr

def minExpirationTimeSeconds : Nat := 15 * 60

abbrev MetadataRows := MetadataId -> Option DraftMetadata

section Requests

-- `ScheduleSendOptions::calculate_next`
variable (calculateNext : DateTime -> Nat -> Option DateTime)

def checkCustom (now : Nat) (t : DateTime) : Except ExpirationError Unit :=
  -- The request is compared with itself here.
  if t.toUnix > t.toUnix then
    Except.error ExpirationError.expirationTimeInThePast
  else if t.toUnix < saturatingAdd now minExpirationTimeSeconds then
    Except.error ExpirationError.expirationTimeLessThan15Min
  else
    match calculateNext t 28 with
    | none => Except.error ExpirationError.expirationTimeExceeds28Days
    | some in28Days =>
        if t.Later in28Days then
          Except.error ExpirationError.expirationTimeExceeds28Days
        else Except.ok ()

def checkExpirationTime (now : Nat) :
    RequestedExpiration -> Except ExpirationError Unit
  | RequestedExpiration.custom t => checkCustom calculateNext now t
  | _ => Except.ok ()

def setExpirationTimeById (now : Nat) (rows : MetadataRows) (id : MetadataId)
    (e : RequestedExpiration) : Except ExpirationError Unit × MetadataRows :=
  match checkExpirationTime calculateNext now e with
  | Except.error err => (Except.error err, rows)
  | Except.ok () =>
      match rows id with
      | none => (Except.error (ExpirationError.metadataNotFound id), rows)
      | some m =>
          (Except.ok (),
            Function.update rows id (some (m.setExpirationTime e.stored)))

/--
The result is the date so many days later, if there is such a date.  The source
also sets its time to 08:00, which is left out: the date that is 28 days later
comes after the one it is compared with at any time of the day.
-/
structure ReturnsDaysAfter : Prop where
  later : forall (d : DateTime) (n : Nat), d.timestamp + n * daySeconds ≤ maxTimestamp ->
    exists d', calculateNext d n = some d' ∧
      d'.timestamp = d.timestamp + n * daySeconds ∧ d'.nanos = d.nanos
  none : forall (d : DateTime) (n : Nat), ¬ d.timestamp + n * daySeconds ≤ maxTimestamp ->
    calculateNext d n = none

end Requests

def daysAfter (d : DateTime) (n : Nat) : Option DateTime :=
  if h : d.timestamp + n * daySeconds ≤ maxTimestamp then
    some {
      timestamp := d.timestamp + n * daySeconds
      nanos := d.nanos
      inRange := by
        have hrange := d.inRange
        have hdays : 0 ≤ (n : Int) * daySeconds :=
          Int.mul_nonneg (Int.natCast_nonneg n) (by decide)
        omega }
  else none

theorem daysAfter_returns : ReturnsDaysAfter daysAfter where
  later _ _ h := ⟨_, dif_pos h, rfl, rfl⟩
  none _ _ h := dif_neg h

/-!
# What a request should do
-/

def Allowed (now : Nat) : RequestedExpiration -> Prop
  | RequestedExpiration.custom t =>
      now + (minExpirationTimeSeconds : Int) ≤ t.timestamp ∧
        t.AtMost (now + 28 * daySeconds)
  | _ => True

def InThePast (now : Nat) : RequestedExpiration -> Prop
  | RequestedExpiration.custom t => t.timestamp < now
  | _ => False

/-- A result of a request that is as the limits and the columns want it. -/
structure ExpirationRight (now : Nat) (rows : MetadataRows) (id : MetadataId)
    (row : DraftMetadata) (e : RequestedExpiration)
    (result : Except ExpirationError Unit × MetadataRows) : Prop where
  accepts : result.1 = Except.ok () ↔ Allowed now e
  past : result.1 = Except.error ExpirationError.expirationTimeInThePast ↔
    InThePast now e
  failure : result.1 ≠ Except.ok () -> result.2 = rows
  success : result.1 = Except.ok () ->
    exists row', result.2 = Function.update rows id (some row') ∧
      row'.readExpirationTime = e.toTheSecond ∧
      forall c, c ≠ Column.expirationTime -> c ≠ Column.expirationOption ->
        row'.column c = row.column c

/--
The time is not before now, and if it is at least fifteen minutes away, then it
is within 28 days just if there still is a date 28 days after it.
-/
def KeepsLimits (now : Nat) : RequestedExpiration -> Prop
  | RequestedExpiration.custom t =>
      (now : Int) ≤ t.timestamp ∧
        (t.timestamp < now + (minExpirationTimeSeconds : Int) ∨
          (t.AtMost (now + 28 * daySeconds) ↔
            t.timestamp + 28 * daySeconds ≤ maxTimestamp))
  | _ => True

/-!
# Requests and their results
-/

section Results

variable {calculateNext : DateTime -> Nat -> Option DateTime}
  (hnext : ReturnsDaysAfter calculateNext) {now : Nat} {t : DateTime}

include hnext

theorem checkCustom_eq :
    checkCustom calculateNext now t =
      if t.toUnix < saturatingAdd now minExpirationTimeSeconds then
        Except.error ExpirationError.expirationTimeLessThan15Min
      else if t.timestamp + 28 * daySeconds ≤ maxTimestamp then Except.ok ()
      else Except.error ExpirationError.expirationTimeExceeds28Days := by
  unfold checkCustom
  rw [if_neg (Nat.lt_irrefl _)]
  by_cases hend : t.timestamp + 28 * daySeconds ≤ maxTimestamp
  · rcases hnext.later t 28 hend with ⟨d, hd, htimestamp, _⟩
    have hlater : ¬ t.Later d := by
      unfold DateTime.Later
      unfold daySeconds at htimestamp
      omega
    rw [hd, if_pos hend]
    dsimp only
    rw [if_neg hlater]
  · rw [hnext.none t 28 hend, if_neg hend]

theorem checkCustom_eq_ok :
    checkCustom calculateNext now t = Except.ok () ↔
      ¬ t.toUnix < saturatingAdd now minExpirationTimeSeconds ∧
        t.timestamp + 28 * daySeconds ≤ maxTimestamp := by
  rw [checkCustom_eq hnext]
  split
  · simp_all
  · split <;> simp_all

theorem checkExpirationTime_ne_past (e : RequestedExpiration) :
    checkExpirationTime calculateNext now e ≠
      Except.error ExpirationError.expirationTimeInThePast := by
  cases e with
  | custom t =>
      change checkCustom calculateNext now t ≠ _
      rw [checkCustom_eq hnext]
      split
      · exact fun h => nomatch h
      · split <;> exact fun h => nomatch h
  | _ => exact fun h => nomatch h

end Results

theorem setExpirationTimeById_found
    {calculateNext : DateTime -> Nat -> Option DateTime} (now : Nat)
    {rows : MetadataRows} {id : MetadataId} {row : DraftMetadata}
    (hrow : rows id = some row) (e : RequestedExpiration) :
    setExpirationTimeById calculateNext now rows id e =
      (checkExpirationTime calculateNext now e,
        if checkExpirationTime calculateNext now e = Except.ok () then
          Function.update rows id (some (row.setExpirationTime e.stored))
        else rows) := by
  unfold setExpirationTimeById
  cases checkExpirationTime calculateNext now e with
  | error err => rfl
  | ok u =>
      dsimp only
      rw [hrow, if_pos rfl]

theorem toUnix_lt_iff {now : Nat} {t : DateTime} (h : 0 ≤ t.timestamp) :
    t.toUnix < saturatingAdd now minExpirationTimeSeconds ↔
      t.timestamp < now + (minExpirationTimeSeconds : Int) := by
  have hrange := t.inRange
  unfold maxTimestamp at hrange
  unfold DateTime.toUnix saturatingAdd minExpirationTimeSeconds
  omega

theorem readExpirationTime_setExpirationTime (m : DraftMetadata)
    {e : RequestedExpiration}
    (h : forall t, e = RequestedExpiration.custom t -> 0 ≤ t.timestamp) :
    (m.setExpirationTime e.stored).readExpirationTime = e.toTheSecond := by
  cases e with
  | custom t =>
      change (match toDateTime t.toUnix with
        | none => RequestedExpiration.never
        | some t => RequestedExpiration.custom t) = _
      rw [toDateTime_toUnix (h t rfl)]
      rfl
  | _ => rfl

theorem column_setExpirationTime (m : DraftMetadata) (e : DraftExpirationTime)
    {c : Column} (htime : c ≠ Column.expirationTime)
    (hoption : c ≠ Column.expirationOption) :
    (m.setExpirationTime e).column c = m.column c := by
  have hnot : c ∉ (Change.setExpirationTime e).columns m := by
    simp [Change.columns, htime, hoption]
  exact Change.edit_of_not_mem hnot

/-- A request does as it should just if its time keeps the limits by itself. -/
theorem expirationRight_iff {calculateNext : DateTime -> Nat -> Option DateTime}
    (hnext : ReturnsDaysAfter calculateNext) (now : Nat) (rows : MetadataRows)
    (id : MetadataId) (row : DraftMetadata) (hrow : rows id = some row)
    (e : RequestedExpiration) :
    ExpirationRight now rows id row e
        (setExpirationTimeById calculateNext now rows id e) ↔
      KeepsLimits now e := by
  rw [setExpirationTimeById_found now hrow e]
  constructor
  · intro h
    cases e with
    | custom t =>
        have hpast : (now : Int) ≤ t.timestamp := by
          by_contra hlt
          exact checkExpirationTime_ne_past hnext
            (RequestedExpiration.custom t) (h.past.mpr (Int.not_le.mp hlt))
        refine ⟨hpast, ?_⟩
        have haccepts := h.accepts
        change checkCustom calculateNext now t = Except.ok () ↔ _ at haccepts
        rw [checkCustom_eq_ok hnext, toUnix_lt_iff (by omega)] at haccepts
        unfold Allowed at haccepts
        by_cases hsoon : t.timestamp < now + (minExpirationTimeSeconds : Int)
        · exact Or.inl hsoon
        · have hfar := Int.not_lt.mp hsoon
          simp only [hsoon, hfar, not_false_eq_true, true_and] at haccepts
          exact Or.inr haccepts.symm
    | _ => trivial
  · intro h
    constructor
    · cases e with
      | custom t =>
          change checkCustom calculateNext now t = Except.ok () ↔ _
          rw [checkCustom_eq_ok hnext, toUnix_lt_iff (by have := h.left; omega)]
          change _ ↔ _ ≤ t.timestamp ∧ t.AtMost _
          rcases h.right with hsoon | hfar
          · exact iff_of_false (fun hno => hno.left hsoon)
              (fun hno => Int.not_le.mpr hsoon hno.left)
          · rw [hfar, Int.not_lt]
      | _ => exact iff_of_true rfl trivial
    · refine iff_of_false (checkExpirationTime_ne_past hnext e) ?_
      intro hpast
      cases e with
      | custom t => exact absurd h.left (Int.not_le.mpr hpast)
      | _ => exact hpast
    · exact fun hfail => if_neg hfail
    · intro hok
      refine ⟨_, if_pos hok, readExpirationTime_setExpirationTime row ?_, ?_⟩
      · intro t heq
        subst heq
        have hnow := h.left
        omega
      · exact fun c => column_setExpirationTime row e.stored

def inDays (days : Nat) (h : days ≤ 365) : RequestedExpiration :=
  RequestedExpiration.custom {
    timestamp := 1700000000 + days * daySeconds
    nanos := 0
    inRange := by
      unfold minTimestamp maxTimestamp daySeconds
      omega }

/-- A time of tomorrow is accepted and read back. -/
theorem tomorrow_right :
    ReturnsDaysAfter daysAfter ∧
      ExpirationRight 1700000000 (fun _ => some {}) 1 {} (inDays 1 (by decide))
        (setExpirationTimeById daysAfter 1700000000 (fun _ => some {}) 1
          (inDays 1 (by decide))) := by
  refine ⟨daysAfter_returns, (expirationRight_iff daysAfter_returns 1700000000
    (fun _ => some {}) 1 {} rfl (inDays 1 (by decide))).mpr ?_⟩
  exact ⟨by decide, Or.inr (by decide)⟩

/-- A time that is 29 days away is accepted. -/
theorem twentyNineDays_accepted :
    ¬ forall now rows id row e, rows id = some row ->
      ExpirationRight now rows id row e
        (setExpirationTimeById daysAfter now rows id e) := by
  intro h
  have hright := h 1700000000 (fun _ => some {}) 1 {} (inDays 29 (by decide)) rfl
  have hallowed := hright.accepts.mp rfl
  exact absurd hallowed.right (by decide)

end Drafts
end MailClient
