import Mathlib.Data.List.Range
import Mathlib.Logic.Function.Basic

/-!
# Answering an invitation

An `RsvpEvent` holds the event of an invitation as it was fetched, together with
the single edits of the series.  Answering it plans a list of steps from the
statuses, keys and alerts that are held and executes them one by one.  Every step
is one call of the server or one mail; a call that fails stops the answer, and the
steps before it stay done.
-/

namespace MailClient
namespace Rsvp

abbrev CalendarId := String

abbrev CalendarEventId := String

abbrev CalendarAttendeeId := String

abbrev CalendarAttendeeToken := String

abbrev CalendarColor := String

inductive CalendarAttendeeStatus where
  | unanswered
  | maybe
  | no
  | yes
  deriving DecidableEq, Repr

namespace CalendarAttendeeStatus

def isUnanswered : CalendarAttendeeStatus -> Bool
  | unanswered => true
  | _ => false

/-- The status warrants notifying the user. -/
def shouldNotify : CalendarAttendeeStatus -> Bool
  | maybe => true
  | yes => true
  | _ => false

end CalendarAttendeeStatus

inductive RsvpAnswer where
  | maybe
  | no
  | yes
  deriving DecidableEq, Repr

def RsvpAnswer.status : RsvpAnswer -> CalendarAttendeeStatus
  | maybe => CalendarAttendeeStatus.maybe
  | no => CalendarAttendeeStatus.no
  | yes => CalendarAttendeeStatus.yes

structure CalendarAttendee where
  id : CalendarAttendeeId
  token : CalendarAttendeeToken
  status : CalendarAttendeeStatus
  deriving DecidableEq, Repr

inductive CalendarNotificationType where
  | email
  | push
  deriving DecidableEq, Repr

structure CalendarNotification where
  ty : CalendarNotificationType
  trigger : String
  deriving DecidableEq, Repr

inductive CalendarNotificationsUpdate where
  | skip
  | setTo (notifications : List CalendarNotification)
  | setToDefault
  deriving DecidableEq, Repr

/-- What the request leaves of the notifications: `skip` leaves the field out and
`setToDefault` sends a null. -/
def CalendarNotificationsUpdate.apply :
    CalendarNotificationsUpdate -> Option (List CalendarNotification) ->
      Option (List CalendarNotification)
  | skip, notifications => notifications
  | setTo notifications, _ => some notifications
  | setToDefault, _ => none

structure CalendarEventPayload where
  data : String
  deriving DecidableEq, Repr

structure CalendarEvent where
  id : CalendarEventId
  calendarEvents : List CalendarEventPayload := []
  calendarId : CalendarId
  addressKeyPacket : Option String := none
  sharedKeyPacket : Option String := none
  attendees : List CalendarAttendee
  notifications : Option (List CalendarNotification)
  color : Option CalendarColor := none
  isProtonProtonInvite : Bool := false
  deriving DecidableEq, Repr

inductive IcalStatus where
  | tentative
  | confirmed
  | cancelled
  deriving DecidableEq, Repr

abbrev SessionKey := String

/-- What the address keys of the user and the key of the calendar decrypt.  A
session key that was read with the address keys and encrypted for the calendar
is read back with the key of the calendar. -/
structure CalendarDecryptorKeys where
  forAddress : String -> Option SessionKey
  forCalendar : String -> Option SessionKey
  encryptSessionKey : SessionKey -> String
  decryptAndParse : SessionKey -> CalendarEventPayload ->
    Option (Option IcalStatus)
  reads_encrypted : forall packet key, forAddress packet = some key ->
    forCalendar (encryptSessionKey key) = some key

namespace CalendarDecryptorKeys

/-- The session key of an event: the address packet goes first. -/
def createDecryptor (keys : CalendarDecryptorKeys) (event : CalendarEvent) :
    Option SessionKey :=
  match event.addressKeyPacket with
  | some packet => keys.forAddress packet
  | none => event.sharedKeyPacket.bind keys.forCalendar

def upgrade (keys : CalendarDecryptorKeys) (keyPacket : String) :
    Option String :=
  (keys.forAddress keyPacket).map keys.encryptSessionKey

end CalendarDecryptorKeys

structure RsvpAttendee where
  id : Option CalendarAttendeeId
  token : Option CalendarAttendeeToken
  status : Option CalendarAttendeeStatus
  deriving DecidableEq, Repr

inductive RsvpRelation where
  | organizer
  | attendee (attendeeIdx : Nat)
  | partyCrasher
  deriving DecidableEq, Repr

inductive RsvpProgress where
  | pending
  | ongoing
  | ended
  | cancelled
  deriving DecidableEq, Repr

inductive RsvpRecency where
  | fresh
  | outdated
  | unknown
  deriving DecidableEq, Repr

inductive RsvpIntent where
  | invite
  | reminder
  deriving DecidableEq, Repr

structure RsvpEvent where
  attendees : List RsvpAttendee
  relation : RsvpRelation
  progress : RsvpProgress
  recency : RsvpRecency
  intent : RsvpIntent
  raw : Option CalendarEvent
  children : List CalendarEvent
  deriving DecidableEq, Repr

namespace RsvpEvent

def userAttendee (event : RsvpEvent) : Option RsvpAttendee :=
  match event.relation with
  | RsvpRelation.attendee attendeeIdx => event.attendees[attendeeIdx]?
  | _ => none

def canBeAnswered (event : RsvpEvent) : Bool :=
  event.intent = RsvpIntent.invite && event.recency = RsvpRecency.fresh &&
    event.progress ≠ RsvpProgress.cancelled && event.userAttendee.isSome &&
    event.raw.isSome

/-- The series has no index, a single edit has its place in `children`. -/
def getEvent (event : RsvpEvent) : Option Nat -> Option CalendarEvent
  | none => event.raw
  | some idx => event.children[idx]?

def modifyEvent (event : RsvpEvent) (f : CalendarEvent -> CalendarEvent) :
    Option Nat -> RsvpEvent
  | none => { event with raw := event.raw.map f }
  | some idx => { event with children := event.children.modify idx f }

end RsvpEvent

/-!
# Planning
-/

inductive Step where
  | upgradeEvent (keyPacket : String)
  | updateAttendee (eventIdx : Option Nat) (attId : CalendarAttendeeId)
      (attOldStatus attNewStatus : CalendarAttendeeStatus)
  | updateEvent (eventIdx : Option Nat) (eventColor : Option CalendarColor)
      (eventNotifs : CalendarNotificationsUpdate)
  | notifyOrganizer
  deriving DecidableEq, Repr

inductive EventType where
  | parent
  | child
  deriving DecidableEq, Repr

/-- The payloads are read in order, and the first cancelled one decides. -/
def anyCancelled (keys : CalendarDecryptorKeys) (decryptor : SessionKey) :
    List CalendarEventPayload -> Option Bool
  | [] => some false
  | payload :: rest =>
      match keys.decryptAndParse decryptor payload with
      | none => none
      | some status =>
          if status = some IcalStatus.cancelled then some true
          else anyCancelled keys decryptor rest

def CalendarEvent.cancelled (keys : CalendarDecryptorKeys)
    (event : CalendarEvent) : Option Bool :=
  if event.calendarEvents.isEmpty then some false
  else
    match keys.createDecryptor event with
    | none => none
    | some decryptor => anyCancelled keys decryptor event.calendarEvents

def CalendarEvent.attendee (event : CalendarEvent)
    (token : CalendarAttendeeToken) : Option CalendarAttendee :=
  event.attendees.find? (fun att => att.token = token)

def CalendarEvent.hasNotifs (event : CalendarEvent) : Bool :=
  event.notifications.any (fun notifs => !notifs.isEmpty)

/-- The status an event gets, if the answer concerns it at all. -/
def attNewStatus (eventTy : EventType) (answer : RsvpAnswer)
    (attOldStatus : CalendarAttendeeStatus) : Option CalendarAttendeeStatus :=
  match eventTy with
  | EventType.parent => some answer.status
  | EventType.child =>
      if attOldStatus = answer.status then none
      else if attOldStatus.isUnanswered then none
      else some CalendarAttendeeStatus.unanswered

def planEventNotifications (oldStatus newStatus : CalendarAttendeeStatus)
    (hasNotifs : Bool) : CalendarNotificationsUpdate :=
  if oldStatus.shouldNotify = newStatus.shouldNotify then
    CalendarNotificationsUpdate.skip
  else if newStatus.shouldNotify then
    if hasNotifs then CalendarNotificationsUpdate.skip
    else CalendarNotificationsUpdate.setToDefault
  else
    CalendarNotificationsUpdate.setTo []

/-- The steps for an event whose attendee gets a new status. -/
def eventSteps (event : CalendarEvent) (eventIdx : Option Nat)
    (att : CalendarAttendee) (newStatus : CalendarAttendeeStatus) : List Step :=
  (match event.addressKeyPacket with
    | some keyPacket => [Step.upgradeEvent keyPacket]
    | none => []) ++
  [Step.updateAttendee eventIdx att.id att.status newStatus,
    Step.updateEvent eventIdx event.color
      (planEventNotifications att.status newStatus event.hasNotifs)]

/-- There is no plan when the event cannot be decrypted, when it does not list
the user, and when the assertion on an encrypted single edit fails. -/
def planEvent (keys : CalendarDecryptorKeys) (event : CalendarEvent)
    (eventTy : EventType) (eventIdx : Option Nat) (answer : RsvpAnswer)
    (token : CalendarAttendeeToken) : Option (List Step) := do
  if <- event.cancelled keys then
    return []
  let att <- event.attendee token
  match attNewStatus eventTy answer att.status with
  | none => return []
  | some newStatus =>
      if event.addressKeyPacket.isSome && eventTy ≠ EventType.parent then
        none
      else
        return eventSteps event eventIdx att newStatus

structure PlannedEvent where
  event : CalendarEvent
  eventTy : EventType
  eventIdx : Option Nat

def RsvpEvent.events (event : RsvpEvent) (raw : CalendarEvent) :
    List PlannedEvent :=
  PlannedEvent.mk raw EventType.parent none ::
    event.children.zipIdx.map
      (fun child => PlannedEvent.mk child.1 EventType.child (some child.2))

/-- An event of another calendar is left alone.  The mail goes last for an
invitation between two accounts and first for an external one. -/
def plan (keys : CalendarDecryptorKeys) (event : RsvpEvent)
    (answer : RsvpAnswer) : Option (List Step) := do
  let user <- event.userAttendee
  let token <- user.token
  let raw <- event.raw
  let events := (event.events raw).filter
    (fun planned => planned.event.calendarId = raw.calendarId)
  let steps <- events.mapM (fun planned =>
    planEvent keys planned.event planned.eventTy planned.eventIdx answer token)
  if raw.isProtonProtonInvite then
    return steps.flatten ++ [Step.notifyOrganizer]
  else
    return Step.notifyOrganizer :: steps.flatten

/-!
# Executing

The server keeps its own copy of each event.  A call that returns has taken effect
there, and the held copy then follows in what the answer needs later on: the
alerts and the color are not among it.
-/

structure World where
  event : RsvpEvent
  server : CalendarEventId -> CalendarEvent

def CalendarEvent.upgraded (keyPacket : String) (event : CalendarEvent) :
    CalendarEvent :=
  { event with
    addressKeyPacket := none
    sharedKeyPacket := some keyPacket }

def CalendarEvent.setStatus (attId : CalendarAttendeeId)
    (status : CalendarAttendeeStatus) (event : CalendarEvent) : CalendarEvent :=
  { event with
    attendees := event.attendees.map (fun att =>
      if att.id = attId then { att with status := status } else att) }

def CalendarEvent.setPersonalPart (color : Option CalendarColor)
    (notifs : CalendarNotificationsUpdate) (event : CalendarEvent) :
    CalendarEvent :=
  { event with
    color := color
    notifications := notifs.apply event.notifications }

/-- A call about an event changes the copy of the server and the held copy. -/
def World.call (w : World) (eventIdx : Option Nat)
    (stored held : CalendarEvent -> CalendarEvent) : World :=
  match w.event.getEvent eventIdx with
  | none => w
  | some event =>
      { server := Function.update w.server event.id (stored (w.server event.id))
        event := w.event.modifyEvent held eventIdx }

/-- Only the series is shown to the user. -/
def RsvpEvent.showStatus (event : RsvpEvent) (attId : CalendarAttendeeId)
    (status : CalendarAttendeeStatus) : Option Nat -> RsvpEvent
  | none =>
      { event with
        attendees := event.attendees.map (fun att =>
          if att.id = some attId then { att with status := some status }
          else att) }
  | some _ => event

def execUpgradeEvent (keys : CalendarDecryptorKeys) (keyPacket : String)
    (w : World) : World :=
  match keys.upgrade keyPacket with
  | none => w
  | some keyPacket =>
      w.call none (CalendarEvent.upgraded keyPacket)
        (CalendarEvent.upgraded keyPacket)

def execUpdateAttendee (eventIdx : Option Nat) (attId : CalendarAttendeeId)
    (newStatus : CalendarAttendeeStatus) (w : World) : World :=
  let called := w.call eventIdx (CalendarEvent.setStatus attId newStatus)
    (CalendarEvent.setStatus attId newStatus)
  { called with event := called.event.showStatus attId newStatus eventIdx }

def execUpdateEvent (eventIdx : Option Nat) (color : Option CalendarColor)
    (notifs : CalendarNotificationsUpdate) (w : World) : World :=
  w.call eventIdx (CalendarEvent.setPersonalPart color notifs) id

def execStep (keys : CalendarDecryptorKeys) (w : World) : Step -> World
  | Step.upgradeEvent keyPacket => execUpgradeEvent keys keyPacket w
  | Step.updateAttendee eventIdx attId _ newStatus =>
      execUpdateAttendee eventIdx attId newStatus w
  | Step.updateEvent eventIdx color notifs =>
      execUpdateEvent eventIdx color notifs w
  | Step.notifyOrganizer => w

/-- The calls an attempt can fail at. -/
inductive Call where
  | getCalendarBootstrap
  | upgradeEvent
  | updateAttendee (eventIdx : Option Nat)
  | updateEvent (eventIdx : Option Nat)
  | notifyOrganizer
  deriving DecidableEq, Repr

def Step.call : Step -> Call
  | upgradeEvent _ => Call.upgradeEvent
  | updateAttendee eventIdx _ _ _ => Call.updateAttendee eventIdx
  | updateEvent eventIdx _ _ => Call.updateEvent eventIdx
  | notifyOrganizer => Call.notifyOrganizer

/-- A step is not done when its call fails, nor when the key packet it is to
upgrade cannot be read. -/
def Step.goes (keys : CalendarDecryptorKeys) (failing : Option Call)
    (step : Step) : Bool :=
  some step.call ≠ failing &&
    match step with
    | upgradeEvent keyPacket => (keys.upgrade keyPacket).isSome
    | _ => true

/-- The steps up to the first that does not go, and whether all of them were
done. -/
def exec (keys : CalendarDecryptorKeys) (failing : Option Call) :
    List Step -> World -> World × Bool
  | [], w => (w, true)
  | step :: rest, w =>
      if step.goes keys failing then exec keys failing rest (execStep keys w step)
      else (w, false)

def run (keys : CalendarDecryptorKeys) (answer : RsvpAnswer)
    (failing : Option Call) (w : World) : World × Bool :=
  if !w.event.canBeAnswered then (w, false)
  else if failing = some Call.getCalendarBootstrap then (w, false)
  else
    match plan keys w.event answer with
    | none => (w, false)
    | some steps => exec keys failing steps w

end Rsvp
end MailClient
