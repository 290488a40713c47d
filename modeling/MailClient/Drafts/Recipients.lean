import Mathlib.Data.List.Nodup

/-!
# The recipients of a draft

A list of single recipients and of groups, which are known by their names.  An
address is compared with what is in the list before it is added.
-/

namespace MailClient
namespace Drafts

abbrev NonEmptyString := { s : String // s ≠ "" }

inductive ValidationState where
  | valid (official proton : Bool)
  | doesNotExist
  | invalidEmail
  | unchecked
  | validating
  | unknown
  deriving DecidableEq, Repr

inductive LockIcon where
  | closedLock
  | closedLockWithTick
  | closedLockWithPen
  | closedLockWarning
  | openLockWithPen
  | openLockWithTick
  | openLockWarning
  deriving DecidableEq, Repr

inductive LockColor where
  | black
  | green
  | blue
  deriving DecidableEq, Repr

structure UiLock where
  icon : LockIcon
  color : LockColor
  deriving DecidableEq, Repr

inductive PrivacyLockState where
  | default
  | calculating
  | calculated (lock : Option UiLock)
  deriving DecidableEq, Repr

def PrivacyLockState.shouldRecalculate (lock : PrivacyLockState) : Bool :=
  lock = PrivacyLockState.default

structure SingleRecipient where
  displayName : Option String
  email : String
  state : ValidationState
  privacyLock : PrivacyLockState := PrivacyLockState.default
  deriving DecidableEq, Repr

structure GroupRecipient where
  recipients : List SingleRecipient
  groupName : NonEmptyString
  totalInGroup : Nat
  deriving DecidableEq, Repr

inductive Recipient where
  | single (recipient : SingleRecipient)
  | group (group : GroupRecipient)
  deriving DecidableEq, Repr

structure RecipientEntry where
  name : Option String
  email : String
  deriving DecidableEq, Repr

/-- The list and an address that it has already. -/
inductive RecipientError where
  | duplicateAddress (email : String)
  deriving DecidableEq, Repr

structure RecipientList where
  recipients : List Recipient
  deriving DecidableEq, Repr

def Recipient.all : Recipient -> List SingleRecipient
  | single recipient => [recipient]
  | group g => g.recipients

def Recipient.mapAll (f : SingleRecipient -> SingleRecipient) :
    Recipient -> Recipient
  | single recipient => single (f recipient)
  | group g => group { g with recipients := g.recipients.map f }

namespace RecipientList

def new : RecipientList :=
  ⟨[]⟩

/-!
# Finding
-/

def isDuplicateAddress (email : String) (list : RecipientList) : Bool :=
  list.recipients.any (fun r => r.all.any (fun s => s.email = email))

def isGroup (name : NonEmptyString) : Recipient -> Bool
  | Recipient.single _ => false
  | Recipient.group g => g.groupName = name

/-- What is done to the group that `find_group_mut` finds. -/
def modifyGroup (name : NonEmptyString)
    (f : GroupRecipient -> GroupRecipient) : List Recipient -> List Recipient
  | [] => []
  | Recipient.group g :: rest =>
      if g.groupName = name then Recipient.group (f g) :: rest
      else Recipient.group g :: modifyGroup name f rest
  | Recipient.single s :: rest =>
      Recipient.single s :: modifyGroup name f rest

/-- The list in which `get_or_create_group` finds the group. -/
def getOrCreateGroup (name : NonEmptyString) (list : RecipientList) :
    RecipientList :=
  if list.recipients.any (isGroup name) then
    list
  else
    ⟨list.recipients ++ [Recipient.group
      { recipients := [], groupName := name, totalInGroup := 0 }]⟩

def modifyFirst (email : String) (f : SingleRecipient -> SingleRecipient) :
    List SingleRecipient -> List SingleRecipient
  | [] => []
  | s :: rest =>
      if s.email = email then f s :: rest else s :: modifyFirst email f rest

/-- What is done to the recipient that `find_recipient_by_email_mut` finds. -/
def modifyRecipient (email : String) (f : SingleRecipient -> SingleRecipient) :
    List Recipient -> List Recipient
  | [] => []
  | Recipient.single s :: rest =>
      if s.email = email then Recipient.single (f s) :: rest
      else Recipient.single s :: modifyRecipient email f rest
  | Recipient.group g :: rest =>
      if g.recipients.any (fun s => s.email = email) then
        Recipient.group
          { g with recipients := modifyFirst email f g.recipients } :: rest
      else Recipient.group g :: modifyRecipient email f rest

/-!
# Adding

`isValid` is the check of the form of an address.
-/

section Adding

variable (isValid : String -> Bool)

def singleRecipient (state : ValidationState) (entry : RecipientEntry) :
    SingleRecipient where
  displayName := entry.name
  email := entry.email
  state := if isValid entry.email then state else ValidationState.invalidEmail

def addSingleWithState (entry : RecipientEntry) (state : ValidationState)
    (list : RecipientList) : Except RecipientError RecipientList :=
  if list.isDuplicateAddress entry.email then
    Except.error (RecipientError.duplicateAddress entry.email)
  else
    Except.ok ⟨list.recipients ++
      [Recipient.single (singleRecipient isValid state entry)]⟩

def addSingle (entry : RecipientEntry) (list : RecipientList) :
    Except RecipientError RecipientList :=
  addSingleWithState isValid entry ValidationState.unchecked list

/-- The entries that are not in the list. -/
def freshEntries (entries : List RecipientEntry) (list : RecipientList) :
    List RecipientEntry :=
  entries.filter (fun entry => !list.isDuplicateAddress entry.email)

def duplicateEntries (entries : List RecipientEntry) (list : RecipientList) :
    List RecipientEntry :=
  entries.filter (fun entry => list.isDuplicateAddress entry.email)

/-- The list, and the duplicates. -/
def addGroupWithState (name : NonEmptyString) (entries : List RecipientEntry)
    (total : Nat) (state : ValidationState) (list : RecipientList) :
    RecipientList × List RecipientEntry :=
  let recipients :=
    (list.freshEntries entries).map (singleRecipient isValid state)
  (⟨modifyGroup name (fun g =>
      { g with
        totalInGroup := total
        recipients := g.recipients ++ recipients })
      (list.getOrCreateGroup name).recipients⟩,
    list.duplicateEntries entries)

def addGroup (name : NonEmptyString) (entries : List RecipientEntry)
    (total : Nat) (list : RecipientList) :
    RecipientList × List RecipientEntry :=
  addGroupWithState isValid name entries total ValidationState.unchecked list

end Adding

/-!
# Removing
-/

def removeSingle (email : String) (list : RecipientList) : RecipientList :=
  ⟨list.recipients.filter (fun
    | Recipient.single s => s.email ≠ email
    | Recipient.group _ => true)⟩

def removeGroup (name : NonEmptyString) (list : RecipientList) :
    RecipientList :=
  ⟨list.recipients.filter (fun r => !isGroup name r)⟩

def removeGroupRecipients (name : NonEmptyString) (emails : List String)
    (list : RecipientList) : RecipientList :=
  ⟨modifyGroup name (fun g =>
    { g with
      recipients := emails.foldl (fun recipients email =>
        recipients.filter (fun s => s.email ≠ email)) g.recipients })
    list.recipients⟩

def removeGroupRecipient (name : NonEmptyString) (email : String) :
    RecipientList -> RecipientList :=
  removeGroupRecipients name [email]

/-!
# Validation and privacy locks
-/

/-- `RecipientValidationUpdate::apply`. -/
def updateValidation (updates : List (String × ValidationState))
    (list : RecipientList) : RecipientList :=
  updates.foldl (fun list update =>
    ⟨modifyRecipient update.1 (fun s => { s with state := update.2 })
      list.recipients⟩) list

/-- `RecipientPrivacyLockUpdate::apply`. -/
def updatePrivacyLocks (updates : List (String × PrivacyLockState))
    (list : RecipientList) : RecipientList :=
  updates.foldl (fun list update =>
    ⟨modifyRecipient update.1 (fun s => { s with privacyLock := update.2 })
      list.recipients⟩) list

/-- What `check_all` does to a recipient. -/
def checkRecipient (s : SingleRecipient) : SingleRecipient :=
  { s with
    state :=
      if s.state = ValidationState.unchecked then ValidationState.validating
      else s.state
    privacyLock :=
      if s.privacyLock.shouldRecalculate then PrivacyLockState.calculating
      else s.privacyLock }

def checkAll (list : RecipientList) : RecipientList :=
  ⟨list.recipients.map (Recipient.mapAll checkRecipient)⟩

def recalculateAllPrivacyLocks (list : RecipientList) : RecipientList :=
  ⟨list.recipients.map (Recipient.mapAll (fun s =>
    { s with privacyLock := PrivacyLockState.calculating }))⟩

end RecipientList

/-!
# Lists that are validated in the background
-/

namespace ValidatingRecipientList

open RecipientList

variable (isValid : String -> Bool)

def addSingle (entry : RecipientEntry) (list : RecipientList) :
    Except RecipientError RecipientList :=
  (RecipientList.addSingle isValid entry list).map (fun list =>
    ⟨list.recipients.modifyLast (Recipient.mapAll checkRecipient)⟩)

def addGroup (name : NonEmptyString) (entries : List RecipientEntry)
    (total : Nat) (list : RecipientList) :
    RecipientList × List RecipientEntry :=
  let added := RecipientList.addGroup isValid name entries total list
  (⟨modifyGroup name (fun g =>
    { g with recipients := g.recipients.map checkRecipient })
    added.1.recipients⟩, added.2)

end ValidatingRecipientList

namespace RecipientList

/-!
# What is in a list
-/

def all (list : RecipientList) : List SingleRecipient :=
  list.recipients.flatMap Recipient.all

def emails (list : RecipientList) : List String :=
  list.all.map SingleRecipient.email

def groupNames (list : RecipientList) : List NonEmptyString :=
  list.recipients.filterMap (fun
    | Recipient.single _ => none
    | Recipient.group g => some g.groupName)

theorem isDuplicateAddress_iff {email : String} {list : RecipientList} :
    list.isDuplicateAddress email = true ↔ email ∈ list.emails := by
  unfold isDuplicateAddress emails all
  simp only [List.any_eq_true, decide_eq_true_eq, List.mem_map,
    List.mem_flatMap]
  constructor
  · intro h
    rcases h with ⟨r, hr, s, hs, heq⟩
    exact ⟨s, ⟨r, hr, hs⟩, heq⟩
  · intro h
    rcases h with ⟨s, ⟨r, hr, hs⟩, heq⟩
    exact ⟨r, hr, s, hs, heq⟩

end RecipientList

end Drafts
end MailClient
