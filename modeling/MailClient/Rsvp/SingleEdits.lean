import Mathlib.Data.List.TakeWhile
import MailClient.Foundation.Transition
import MailClient.Rsvp.Answer

/-!
# Single edits of a series

The series and its single edits are planned by the same function.  It fails for an
event that does not list the user, and an assertion in it says that no single edit
is encrypted with an address key; either ends the answer of the series.
-/

namespace MailClient
namespace Rsvp

open Foundation

inductive PlanError where
  | unreadable
  | unknownAttendee
  /-- The assertion on a single edit has failed. -/
  | panicked
  deriving DecidableEq, Repr

def planEventResult (keys : CalendarDecryptorKeys) (answer : RsvpAnswer)
    (token : CalendarAttendeeToken) (planned : PlannedEvent) :
    Except PlanError (List Step) :=
  match planned.event.cancelled keys with
  | none => Except.error PlanError.unreadable
  | some true => Except.ok []
  | some false =>
      match planned.event.attendee token with
      | none => Except.error PlanError.unknownAttendee
      | some att =>
          match attNewStatus planned.eventTy answer att.status with
          | none => Except.ok []
          | some newStatus =>
              if planned.event.addressKeyPacket.isSome &&
                  planned.eventTy ≠ EventType.parent then
                Except.error PlanError.panicked
              else
                Except.ok
                  (eventSteps planned.event planned.eventIdx att newStatus)

theorem planEvent_eq (keys : CalendarDecryptorKeys) (answer : RsvpAnswer)
    (token : CalendarAttendeeToken) (planned : PlannedEvent) :
    planEvent keys planned.event planned.eventTy planned.eventIdx answer token =
      (planEventResult keys answer token planned).toOption := by
  unfold planEvent planEventResult
  cases planned.event.cancelled keys with
  | none => rfl
  | some cancelled =>
      cases cancelled with
      | true => rfl
      | false =>
          cases planned.event.attendee token with
          | none => rfl
          | some att =>
              cases hstatus : attNewStatus planned.eventTy answer att.status with
              | none => simp [hstatus, Except.toOption]
              | some newStatus =>
                  simp only [Option.bind_eq_bind, Option.bind_some, hstatus,
                    Bool.false_eq_true, if_false]
                  rw [apply_ite Except.toOption]
                  rfl

/-- The events of the series' calendar. -/
def RsvpEvent.planned (event : RsvpEvent) (raw : CalendarEvent) :
    List PlannedEvent :=
  (event.events raw).filter
    (fun planned => planned.event.calendarId = raw.calendarId)

def RsvpEvent.token (event : RsvpEvent) : Option CalendarAttendeeToken :=
  event.userAttendee.bind RsvpAttendee.token

def withNotify (raw : CalendarEvent) (steps : List Step) : List Step :=
  if raw.isProtonProtonInvite then steps ++ [Step.notifyOrganizer]
  else Step.notifyOrganizer :: steps

def planResult (keys : CalendarDecryptorKeys) (event : RsvpEvent)
    (answer : RsvpAnswer) : Except PlanError (List Step) :=
  match event.token, event.raw with
  | some token, some raw =>
      ((event.planned raw).mapM (planEventResult keys answer token)).map
        (fun parts => withNotify raw parts.flatten)
  | _, _ => Except.error PlanError.unknownAttendee

theorem mapM_toOption {α β : Type} (f : α -> Except PlanError β)
    (l : List α) :
    l.mapM (fun a => (f a).toOption) = (l.mapM f).toOption := by
  induction l with
  | nil => rfl
  | cons a rest ih =>
      rw [List.mapM_cons, List.mapM_cons, ih]
      cases f a with
      | error e => rfl
      | ok b =>
          cases rest.mapM f with
          | error e => rfl
          | ok bs => rfl

theorem plan_eq (keys : CalendarDecryptorKeys) (event : RsvpEvent)
    (answer : RsvpAnswer) :
    plan keys event answer = (planResult keys event answer).toOption := by
  unfold plan planResult RsvpEvent.token
  cases event.userAttendee with
  | none => rfl
  | some user =>
      cases htoken : user.token with
      | none => simp [htoken, Except.toOption]
      | some token =>
          cases event.raw with
          | none => simp [htoken, Except.toOption]
          | some raw =>
              have hparts := mapM_toOption (planEventResult keys answer token)
                (event.planned raw)
              simp only [Option.bind_eq_bind, Option.bind_some, htoken,
                planEvent_eq]
              rw [RsvpEvent.planned] at hparts ⊢
              rw [hparts]
              cases (List.filter _ (event.events raw)).mapM
                  (planEventResult keys answer token) with
              | error e => rfl
              | ok parts =>
                  simp only [Except.toOption, Option.bind_some, Except.map,
                    withNotify]
                  split
                  · rfl
                  · rfl

/-!
# Answering
-/

inductive Outcome where
  | done (steps : List Step)
  /-- The answer fails after these steps. -/
  | failed (steps : List Step)
  | panicked
  deriving DecidableEq, Repr

def Outcome.steps : Outcome -> List Step
  | done steps => steps
  | failed steps => steps
  | panicked => []

/-- What becomes of an answer when no call of the server fails. -/
def answerEvent (keys : CalendarDecryptorKeys) (event : RsvpEvent)
    (answer : RsvpAnswer) : Outcome :=
  match planResult keys event answer with
  | Except.error PlanError.panicked => Outcome.panicked
  | Except.error _ => Outcome.failed []
  | Except.ok steps =>
      if steps.all (fun step => step.goes keys none) then Outcome.done steps
      else Outcome.failed (steps.takeWhile (fun step => step.goes keys none))

theorem exec_eq (keys : CalendarDecryptorKeys) (failing : Option Call)
    (steps : List Step) (w : World) :
    exec keys failing steps w =
      ((steps.takeWhile (fun step => step.goes keys failing)).foldl
        (execStep keys) w, steps.all (fun step => step.goes keys failing)) := by
  induction steps generalizing w with
  | nil => rfl
  | cons step rest ih =>
      rw [exec, List.takeWhile_cons, List.all_cons]
      split
      · rename_i hgoes
        rw [ih, hgoes]
        rfl
      · rename_i hgoes
        rw [Bool.not_eq_true] at hgoes
        rw [hgoes]
        rfl

theorem run_eq (keys : CalendarDecryptorKeys) (answer : RsvpAnswer) (w : World)
    (h : w.event.canBeAnswered = true) :
    run keys answer none w =
      ((answerEvent keys w.event answer).steps.foldl (execStep keys) w,
        match answerEvent keys w.event answer with
        | Outcome.done _ => true
        | _ => false) := by
  unfold run answerEvent
  rw [h, plan_eq]
  cases planResult keys w.event answer with
  | error e => cases e <;> rfl
  | ok steps =>
      show exec keys none steps w = _
      rw [exec_eq]
      dsimp only
      split
      · rename_i hall
        rw [hall, List.takeWhile_eq_self_iff.mpr (List.all_eq_true.mp hall)]
        rfl
      · rename_i hall
        rw [Bool.not_eq_true] at hall
        rw [hall]
        rfl

/-!
# The rule
-/

namespace Step

/-- The event that the call of a step is about. -/
def about : Step -> Option (Option Nat)
  | upgradeEvent _ => some none
  | updateAttendee eventIdx _ _ _ => some eventIdx
  | updateEvent eventIdx _ _ => some eventIdx
  | notifyOrganizer => none

def setsStatus (eventIdx : Option Nat) : Step -> Bool
  | updateAttendee idx _ _ _ => idx = eventIdx
  | _ => false

end Step

section Rule

variable (keys : CalendarDecryptorKeys) (answer : RsvpAnswer)
  (token : CalendarAttendeeToken) (raw : CalendarEvent)

/-- The single edits that are to be reset. -/
def Resets (child : CalendarEvent) : Prop :=
  child.calendarId = raw.calendarId ∧ child.cancelled keys = some false ∧
    exists att, child.attendee token = some att ∧
      att.status ≠ CalendarAttendeeStatus.unanswered ∧
      att.status ≠ answer.status

/-- The only status that is set on the event is this one of the user. -/
def SetsStatus (steps : List Step) (event : CalendarEvent)
    (eventIdx : Option Nat) (status : CalendarAttendeeStatus) : Prop :=
  exists att, event.attendee token = some att ∧
    forall step, step ∈ steps ∧ step.setsStatus eventIdx = true ↔
      step = Step.updateAttendee eventIdx att.id att.status status

structure ByRule (children : List CalendarEvent) (steps : List Step) :
    Prop where
  series : SetsStatus token steps raw none answer.status
  edits : forall idx child, children[idx]? = some child ->
    Resets keys answer token raw child ->
    SetsStatus token steps child (some idx) CalendarAttendeeStatus.unanswered
  others : forall step idx, step ∈ steps -> step.about = some (some idx) ->
    exists child, children[idx]? = some child ∧
      Resets keys answer token raw child
  once : steps.count Step.notifyOrganizer = 1
  order : if raw.isProtonProtonInvite then
      steps.getLast? = some Step.notifyOrganizer
    else steps.head? = some Step.notifyOrganizer

/-- The series can be read and lists the user, and is not cancelled. -/
structure SeriesInOrder : Prop where
  active : raw.cancelled keys = some false
  listed : (raw.attendee token).isSome = true
  readable : forall packet, raw.addressKeyPacket = some packet ->
    (keys.forAddress packet).isSome = true

/--
A single edit can be read, and it is cancelled or lists the user; if it is to be
reset then it has no packet for an address key.
-/
def EditInOrder (child : CalendarEvent) : Prop :=
  child.cancelled keys = some true ∨
    child.cancelled keys = some false ∧
      exists att, child.attendee token = some att ∧
        (att.status = CalendarAttendeeStatus.unanswered ∨
          att.status = answer.status ∨ child.addressKeyPacket = none)

end Rule

/-- What the answer leaves of the statuses that are held. -/
structure StatusesByRule (keys : CalendarDecryptorKeys) (answer : RsvpAnswer)
    (token : CalendarAttendeeToken) (raw : CalendarEvent)
    (event event' : RsvpEvent) : Prop where
  series : exists (raw' : CalendarEvent) (att : CalendarAttendee), event'.raw = some raw' ∧
    raw'.attendee token = some att ∧ att.status = answer.status
  edits : forall (idx : Nat) (child : CalendarEvent),
    event.children[idx]? = some child ->
    Resets keys answer token raw child ->
    exists (child' : CalendarEvent) (att : CalendarAttendee),
      event'.children[idx]? = some child' ∧ child'.attendee token = some att ∧
        att.status = CalendarAttendeeStatus.unanswered
  others : forall (idx : Nat) (child : CalendarEvent),
    event.children[idx]? = some child ->
    ¬ Resets keys answer token raw child ->
    exists child' : CalendarEvent, event'.children[idx]? = some child' ∧
      child'.attendees = child.attendees

/-- The answer is given by the rule. -/
def Answered (keys : CalendarDecryptorKeys) (w : World) (answer : RsvpAnswer) :
    Prop :=
  exists token raw steps w', w.event.token = some token ∧
    w.event.raw = some raw ∧
    answerEvent keys w.event answer = Outcome.done steps ∧
    ByRule keys answer token raw w.event.children steps ∧
    run keys answer none w = (w', true) ∧
    StatusesByRule keys answer token raw w.event w'.event

/-- The series and all single edits of its calendar are in order. -/
def InOrder (keys : CalendarDecryptorKeys) (event : RsvpEvent)
    (answer : RsvpAnswer) : Prop :=
  exists token raw, event.token = some token ∧ event.raw = some raw ∧
    SeriesInOrder keys token raw ∧
    forall child, child ∈ event.children ->
      child.calendarId = raw.calendarId -> EditInOrder keys answer token child

section Planned

variable {keys : CalendarDecryptorKeys} {answer : RsvpAnswer}
  {token : CalendarAttendeeToken} {raw child : CalendarEvent}
  {event : RsvpEvent} {planned : PlannedEvent} {steps : List Step}
  {step : Step} {idx : Nat}

theorem mem_planned :
    planned ∈ event.planned raw ↔
      planned = ⟨raw, EventType.parent, none⟩ ∨
        exists idx child, event.children[idx]? = some child ∧
          child.calendarId = raw.calendarId ∧
          planned = ⟨child, EventType.child, some idx⟩ := by
  unfold RsvpEvent.planned RsvpEvent.events
  rw [List.mem_filter, List.mem_cons, List.mem_map]
  constructor
  · rintro ⟨rfl | ⟨⟨child, idx⟩, hmem, rfl⟩, hcalendar⟩
    · exact Or.inl rfl
    · exact Or.inr ⟨idx, child, List.mk_mem_zipIdx_iff_getElem?.mp hmem,
        of_decide_eq_true hcalendar, rfl⟩
  · rintro (rfl | ⟨idx, child, hget, hcalendar, rfl⟩)
    · exact ⟨Or.inl rfl, by simp⟩
    · exact ⟨Or.inr ⟨(child, idx), List.mk_mem_zipIdx_iff_getElem?.mpr hget,
        rfl⟩, by simp [hcalendar]⟩

theorem attNewStatus_child (status : CalendarAttendeeStatus) :
    attNewStatus EventType.child answer status =
      if status = CalendarAttendeeStatus.unanswered ∨ status = answer.status
      then none else some CalendarAttendeeStatus.unanswered := by
  unfold attNewStatus
  cases status <;> simp [CalendarAttendeeStatus.isUnanswered, eq_comm]

theorem planEventResult_parent {part : List Step} :
    planEventResult keys answer token ⟨raw, EventType.parent, none⟩ =
        Except.ok part ↔
      raw.cancelled keys = some true ∧ part = [] ∨
        raw.cancelled keys = some false ∧
          exists att, raw.attendee token = some att ∧
            part = eventSteps raw none att answer.status := by
  unfold planEventResult
  dsimp only
  split
  · rename_i hcancelled
    simp [hcancelled]
  · rename_i hcancelled
    simp [hcancelled, @eq_comm (List Step)]
  · rename_i hcancelled
    cases hattendee : raw.attendee token with
    | none => simp [hcancelled]
    | some att => simp [hcancelled, attNewStatus, @eq_comm (List Step)]

theorem planEventResult_child {part : List Step} :
    planEventResult keys answer token ⟨child, EventType.child, some idx⟩ =
        Except.ok part ↔
      child.cancelled keys = some true ∧ part = [] ∨
        child.cancelled keys = some false ∧
          exists att, child.attendee token = some att ∧
            if att.status = CalendarAttendeeStatus.unanswered ∨
                att.status = answer.status then part = []
            else child.addressKeyPacket = none ∧
              part = eventSteps child (some idx) att
                CalendarAttendeeStatus.unanswered := by
  unfold planEventResult
  dsimp only
  split
  · rename_i hcancelled
    simp [hcancelled]
  · rename_i hcancelled
    simp [hcancelled, @eq_comm (List Step)]
  · rename_i hcancelled
    cases hattendee : child.attendee token with
    | none => simp [hcancelled]
    | some att =>
        simp only [attNewStatus_child, hcancelled]
        by_cases hkeeps : att.status = CalendarAttendeeStatus.unanswered ∨
          att.status = answer.status
        · simp [hkeeps, @eq_comm (List Step)]
        · cases hpacket : child.addressKeyPacket with
          | none => simp [hkeeps, @eq_comm (List Step)]
          | some packet => simp [hkeeps]

theorem editInOrder_iff :
    EditInOrder keys answer token child ↔
      exists part, planEventResult keys answer token
        ⟨child, EventType.child, some idx⟩ = Except.ok part := by
  simp only [planEventResult_child]
  constructor
  · rintro (hcancelled | ⟨hactive, att, hatt, hstatus⟩)
    · exact ⟨[], Or.inl ⟨hcancelled, rfl⟩⟩
    · by_cases hkeeps : att.status = CalendarAttendeeStatus.unanswered ∨
          att.status = answer.status
      · exact ⟨[], Or.inr ⟨hactive, att, hatt, by rw [if_pos hkeeps]⟩⟩
      · refine ⟨eventSteps child (some idx) att
          CalendarAttendeeStatus.unanswered, Or.inr ⟨hactive, att, hatt, ?_⟩⟩
        rw [if_neg hkeeps]
        rw [<- or_assoc] at hstatus
        exact ⟨hstatus.resolve_left hkeeps, rfl⟩
  · rintro ⟨part, ⟨hcancelled, _⟩ | ⟨hactive, att, hatt, hpart⟩⟩
    · exact Or.inl hcancelled
    · refine Or.inr ⟨hactive, att, hatt, ?_⟩
      split at hpart
      · rename_i hkeeps
        rw [<- or_assoc]
        exact Or.inl hkeeps
      · exact Or.inr (Or.inr hpart.left)

theorem mem_withNotify :
    step ∈ withNotify raw steps ↔
      step = Step.notifyOrganizer ∨ step ∈ steps := by
  unfold withNotify
  split
  · rw [List.mem_append, List.mem_singleton, or_comm]
  · exact List.mem_cons

theorem mem_flatten_parts {α : Type} {f : α -> Except PlanError (List Step)}
    {l : List α} {parts : List (List Step)}
    (h : List.Forall₂ (fun a part => f a = Except.ok part) l parts) :
    step ∈ parts.flatten ↔
      exists a part, a ∈ l ∧ f a = Except.ok part ∧ step ∈ part := by
  induction h with
  | nil => simp
  | @cons a part l parts hfirst hrest ih =>
      rw [List.flatten_cons, List.mem_append, ih]
      constructor
      · rintro (hmem | ⟨a', part', ha', hpart', hmem⟩)
        · exact ⟨a, part, List.mem_cons_self, hfirst, hmem⟩
        · exact ⟨a', part', List.mem_cons_of_mem _ ha', hpart', hmem⟩
      · rintro ⟨a', part', ha', hpart', hmem⟩
        rcases List.mem_cons.mp ha' with rfl | ha'
        · rw [hfirst] at hpart'
          cases hpart'
          exact Or.inl hmem
        · exact Or.inr ⟨a', part', ha', hpart', hmem⟩

theorem planResult_eq_ok (htoken : event.token = some token)
    (hraw : event.raw = some raw) :
    planResult keys event answer = Except.ok steps ↔
      exists parts, List.Forall₂ (fun planned part =>
        planEventResult keys answer token planned = Except.ok part)
          (event.planned raw) parts ∧ steps = withNotify raw parts.flatten := by
  unfold planResult
  rw [htoken, hraw]
  dsimp only
  constructor
  · intro h
    cases hparts : (event.planned raw).mapM
        (planEventResult keys answer token) with
    | error e =>
        rw [hparts] at h
        cases h
    | ok parts =>
        rw [hparts] at h
        cases h
        exact ⟨parts, mapM_eq_ok hparts, rfl⟩
  · rintro ⟨parts, hparts, rfl⟩
    rw [mapM_eq_ok_iff.mpr hparts]
    rfl

theorem mem_of_planResult (htoken : event.token = some token)
    (hraw : event.raw = some raw)
    (hplan : planResult keys event answer = Except.ok steps) :
    step ∈ steps ↔ step = Step.notifyOrganizer ∨
      exists planned part, planned ∈ event.planned raw ∧
        planEventResult keys answer token planned = Except.ok part ∧
        step ∈ part := by
  rcases (planResult_eq_ok htoken hraw).mp hplan with ⟨parts, hparts, rfl⟩
  rw [mem_withNotify, mem_flatten_parts hparts]

theorem planned_ok (htoken : event.token = some token)
    (hraw : event.raw = some raw)
    (hplan : planResult keys event answer = Except.ok steps)
    (hplanned : planned ∈ event.planned raw) :
    exists part, planEventResult keys answer token planned = Except.ok part := by
  rcases (planResult_eq_ok htoken hraw).mp hplan with ⟨parts, hparts, _⟩
  exact ok_of_mapM_eq_ok (mapM_eq_ok_iff.mpr hparts) hplanned

theorem mem_eventSteps {eventIdx : Option Nat} {att : CalendarAttendee}
    {status : CalendarAttendeeStatus} :
    step ∈ eventSteps child eventIdx att status ↔
      (exists packet, child.addressKeyPacket = some packet ∧
        step = Step.upgradeEvent packet) ∨
      step = Step.updateAttendee eventIdx att.id att.status status ∨
      step = Step.updateEvent eventIdx child.color
        (planEventNotifications att.status status child.hasNotifs) := by
  unfold eventSteps
  cases child.addressKeyPacket with
  | none => simp
  | some packet => simp

theorem mem_plan_iff (htoken : event.token = some token)
    (hraw : event.raw = some raw)
    (hplan : planResult keys event answer = Except.ok steps) :
    step ∈ steps ↔ step = Step.notifyOrganizer ∨
      (raw.cancelled keys = some false ∧ exists att,
        raw.attendee token = some att ∧
        step ∈ eventSteps raw none att answer.status) ∨
      exists idx child, event.children[idx]? = some child ∧
        Resets keys answer token raw child ∧
        child.addressKeyPacket = none ∧ exists att,
          child.attendee token = some att ∧
          step ∈ eventSteps child (some idx) att
            CalendarAttendeeStatus.unanswered := by
  rw [mem_of_planResult htoken hraw hplan]
  refine or_congr_right ?_
  constructor
  · rintro ⟨planned, part, hplanned, hpart, hmem⟩
    rcases mem_planned.mp hplanned with rfl | ⟨idx, child, hget, hcalendar, rfl⟩
    · rcases planEventResult_parent.mp hpart with
        ⟨_, rfl⟩ | ⟨hactive, att, hatt, rfl⟩
      · cases hmem
      · exact Or.inl ⟨hactive, att, hatt, hmem⟩
    · rcases planEventResult_child.mp hpart with
        ⟨_, rfl⟩ | ⟨hactive, att, hatt, hstatus⟩
      · cases hmem
      · split at hstatus
        · rw [hstatus] at hmem
          cases hmem
        · rename_i hresets
          rw [not_or] at hresets
          rw [hstatus.right] at hmem
          exact Or.inr ⟨idx, child, hget, ⟨hcalendar, hactive, att, hatt,
            hresets⟩, hstatus.left, att, hatt, hmem⟩
  · rintro (⟨hactive, att, hatt, hmem⟩ |
      ⟨idx, child, hget, hresets, hpacket, att, hatt, hmem⟩)
    · exact ⟨_, _, mem_planned.mpr (Or.inl rfl),
        planEventResult_parent.mpr (Or.inr ⟨hactive, att, hatt, rfl⟩), hmem⟩
    · refine ⟨_, _, mem_planned.mpr
        (Or.inr ⟨idx, child, hget, hresets.left, rfl⟩), ?_, hmem⟩
      rcases hresets with ⟨_, hactive, att', hatt', hstatus⟩
      rw [hatt] at hatt'
      cases hatt'
      refine planEventResult_child.mpr (Or.inr ⟨hactive, att, hatt, ?_⟩)
      rw [if_neg (not_or.mpr hstatus)]
      exact ⟨hpacket, rfl⟩

theorem answerEvent_eq_done :
    answerEvent keys event answer = Outcome.done steps ↔
      planResult keys event answer = Except.ok steps ∧
        forall step, step ∈ steps -> step.goes keys none = true := by
  unfold answerEvent
  split
  · rename_i hplan
    simp [hplan]
  · rename_i hplan
    simp [hplan]
  · rename_i steps' hplan
    rw [hplan]
    split
    · rename_i hall
      rw [List.all_eq_true] at hall
      constructor
      · intro h
        cases h
        exact ⟨rfl, hall⟩
      · rintro ⟨h, _⟩
        cases h
        rfl
    · rename_i hall
      rw [List.all_eq_true] at hall
      constructor
      · intro h
        cases h
      · rintro ⟨h, hgoes⟩
        cases h
        exact absurd hgoes hall

theorem about_eventSteps {eventIdx : Option Nat} {att : CalendarAttendee}
    {status : CalendarAttendeeStatus}
    (h : child.addressKeyPacket = none ∨ eventIdx = none)
    (hmem : step ∈ eventSteps child eventIdx att status) :
    step.about = some eventIdx := by
  rcases mem_eventSteps.mp hmem with ⟨packet, hpacket, rfl⟩ | rfl | rfl
  · rw [h.resolve_left (by rw [hpacket]; simp)]
    rfl
  · rfl
  · rfl

theorem setsStatus_about {eventIdx : Option Nat}
    (h : step.setsStatus eventIdx = true) : step.about = some eventIdx := by
  cases step with
  | updateAttendee idx attId old new =>
      exact congrArg some (of_decide_eq_true h)
  | upgradeEvent packet => cases h
  | updateEvent idx color notifs => cases h
  | notifyOrganizer => cases h

theorem setsStatus_eventSteps {eventIdx : Option Nat} {att : CalendarAttendee}
    {status : CalendarAttendeeStatus} :
    step ∈ eventSteps child eventIdx att status ∧
        step.setsStatus eventIdx = true ↔
      step = Step.updateAttendee eventIdx att.id att.status status := by
  rw [mem_eventSteps]
  constructor
  · rintro ⟨⟨packet, _, rfl⟩ | rfl | rfl, hsets⟩
    · cases hsets
    · rfl
    · cases hsets
  · rintro rfl
    exact ⟨Or.inr (Or.inl rfl), by simp [Step.setsStatus]⟩

theorem notify_not_mem {part : List Step}
    (hplanned : planned ∈ event.planned raw)
    (hpart : planEventResult keys answer token planned = Except.ok part) :
    Step.notifyOrganizer ∉ part := by
  have hsteps : forall event eventIdx att status,
      Step.notifyOrganizer ∉ eventSteps event eventIdx att status := by
    intro event eventIdx att status hmem
    rcases mem_eventSteps.mp hmem with ⟨_, _, h⟩ | h | h <;> cases h
  rcases mem_planned.mp hplanned with rfl | ⟨idx, child, _, _, rfl⟩
  · rcases planEventResult_parent.mp hpart with ⟨_, rfl⟩ | ⟨_, att, _, rfl⟩
    · exact List.not_mem_nil
    · exact hsteps _ _ _ _
  · rcases planEventResult_child.mp hpart with ⟨_, rfl⟩ | ⟨_, att, _, hstatus⟩
    · exact List.not_mem_nil
    · split at hstatus
      · rw [hstatus]
        exact List.not_mem_nil
      · rw [hstatus.right]
        exact hsteps _ _ _ _

theorem notify_not_mem_flatten {parts : List (List Step)}
    (hparts : List.Forall₂ (fun planned part =>
      planEventResult keys answer token planned = Except.ok part)
        (event.planned raw) parts) :
    Step.notifyOrganizer ∉ parts.flatten := by
  intro hmem
  rcases (mem_flatten_parts hparts).mp hmem with
    ⟨planned, part, hplanned, hpart, hmem⟩
  exact notify_not_mem hplanned hpart hmem

theorem listed_of_plan (htoken : event.token = some token)
    (hraw : event.raw = some raw)
    (hplan : planResult keys event answer = Except.ok steps)
    (hactive : raw.cancelled keys = some false) :
    exists att, raw.attendee token = some att := by
  rcases planned_ok htoken hraw hplan (mem_planned.mpr (Or.inl rfl)) with
    ⟨part, hpart⟩
  rcases planEventResult_parent.mp hpart with ⟨hcancelled, _⟩ | ⟨_, att, hatt, _⟩
  · rw [hactive] at hcancelled
    cases hcancelled
  · exact ⟨att, hatt⟩

theorem packet_of_plan (htoken : event.token = some token)
    (hraw : event.raw = some raw)
    (hplan : planResult keys event answer = Except.ok steps)
    (hget : event.children[idx]? = some child)
    (hresets : Resets keys answer token raw child) :
    child.addressKeyPacket = none := by
  rcases planned_ok htoken hraw hplan (mem_planned.mpr
    (Or.inr ⟨idx, child, hget, hresets.left, rfl⟩)) with ⟨part, hpart⟩
  rcases hresets with ⟨_, hactive, att, hatt, hstatus⟩
  rcases planEventResult_child.mp hpart with
    ⟨hcancelled, _⟩ | ⟨_, att', hatt', hsteps⟩
  · rw [hactive] at hcancelled
    cases hcancelled
  · rw [hatt] at hatt'
    cases hatt'
    rw [if_neg (not_or.mpr hstatus)] at hsteps
    exact hsteps.left

theorem byRule_of_plan (htoken : event.token = some token)
    (hraw : event.raw = some raw)
    (hplan : planResult keys event answer = Except.ok steps)
    (hactive : raw.cancelled keys = some false) :
    ByRule keys answer token raw event.children steps where
  series := by
    rcases listed_of_plan htoken hraw hplan hactive with ⟨att, hatt⟩
    refine ⟨att, hatt, fun step => ?_⟩
    rw [mem_plan_iff htoken hraw hplan]
    constructor
    · rintro ⟨rfl | ⟨_, att', hatt', hmem⟩ |
        ⟨idx, child, _, _, hpacket, att', _, hmem⟩, hsets⟩
      · cases hsets
      · rw [hatt] at hatt'
        cases hatt'
        exact setsStatus_eventSteps.mp ⟨hmem, hsets⟩
      · have habout := about_eventSteps (Or.inl hpacket) hmem
        rw [setsStatus_about hsets] at habout
        cases habout
    · intro hstep
      rcases setsStatus_eventSteps.mpr hstep with ⟨hmem, hsets⟩
      exact ⟨Or.inr (Or.inl ⟨hactive, att, hatt, hmem⟩), hsets⟩
  edits := by
    intro idx child hget hresets
    have hpacket := packet_of_plan htoken hraw hplan hget hresets
    have hatt := hresets.right.right
    rcases hatt with ⟨att, hatt, _⟩
    refine ⟨att, hatt, fun step => ?_⟩
    rw [mem_plan_iff htoken hraw hplan]
    constructor
    · rintro ⟨rfl | ⟨_, att', _, hmem⟩ |
        ⟨idx', child', hget', _, hpacket', att', hatt', hmem⟩, hsets⟩
      · cases hsets
      · have habout := about_eventSteps (Or.inr rfl) hmem
        rw [setsStatus_about hsets] at habout
        cases habout
      · have habout := about_eventSteps (Or.inl hpacket') hmem
        rw [setsStatus_about hsets] at habout
        cases habout
        rw [hget] at hget'
        cases hget'
        rw [hatt] at hatt'
        cases hatt'
        exact setsStatus_eventSteps.mp ⟨hmem, hsets⟩
    · intro hstep
      rcases setsStatus_eventSteps.mpr hstep with ⟨hmem, hsets⟩
      exact ⟨Or.inr (Or.inr
        ⟨idx, child, hget, hresets, hpacket, att, hatt, hmem⟩), hsets⟩
  others := by
    intro step idx hstep habout
    rcases (mem_plan_iff htoken hraw hplan).mp hstep with
      rfl | ⟨_, att, _, hmem⟩ | ⟨idx', child, hget, hresets, hpacket, att, _, hmem⟩
    · cases habout
    · rw [about_eventSteps (Or.inr rfl) hmem] at habout
      cases habout
    · rw [about_eventSteps (Or.inl hpacket) hmem] at habout
      cases habout
      exact ⟨child, hget, hresets⟩
  once := by
    rcases (planResult_eq_ok htoken hraw).mp hplan with ⟨parts, hparts, rfl⟩
    have hcount := List.count_eq_zero.mpr (notify_not_mem_flatten hparts)
    unfold withNotify
    split
    · rw [List.count_append, hcount]
      rfl
    · rw [List.count_cons_self, hcount]
  order := by
    rcases (planResult_eq_ok htoken hraw).mp hplan with ⟨parts, _, rfl⟩
    unfold withNotify
    split
    · exact List.getLast?_concat
    · rfl

theorem plan_of_inOrder (htoken : event.token = some token)
    (hraw : event.raw = some raw) (hseries : SeriesInOrder keys token raw)
    (hedits : forall child, child ∈ event.children ->
      child.calendarId = raw.calendarId -> EditInOrder keys answer token child) :
    exists steps, answerEvent keys event answer = Outcome.done steps := by
  have hplan : exists steps, planResult keys event answer = Except.ok steps := by
    cases hparts : (event.planned raw).mapM
        (planEventResult keys answer token) with
    | ok parts =>
        exact ⟨_, (planResult_eq_ok htoken hraw).mpr
          ⟨parts, mapM_eq_ok hparts, rfl⟩⟩
    | error e =>
        rcases mapM_eq_error hparts with ⟨planned, hplanned, herror⟩
        rcases mem_planned.mp hplanned with rfl | ⟨idx, child, hget, hcalendar, rfl⟩
        · rcases Option.isSome_iff_exists.mp hseries.listed with ⟨att, hatt⟩
          rw [planEventResult_parent.mpr
            (Or.inr ⟨hseries.active, att, hatt, rfl⟩)] at herror
          cases herror
        · rcases editInOrder_iff.mp (hedits child
            (List.mem_of_getElem? hget) hcalendar) with ⟨part, hpart⟩
          rw [hpart] at herror
          cases herror
  rcases hplan with ⟨steps, hplan⟩
  refine ⟨steps, answerEvent_eq_done.mpr ⟨hplan, fun step hstep => ?_⟩⟩
  cases step with
  | upgradeEvent packet =>
      rcases (mem_plan_iff htoken hraw hplan).mp hstep with
        h | ⟨_, att, _, hmem⟩ | ⟨idx, child, _, _, hpacket, att, _, hmem⟩
      · cases h
      · rcases mem_eventSteps.mp hmem with ⟨packet', hpacket', h⟩ | h | h
        · cases h
          have hread := hseries.readable packet hpacket'
          simp only [Step.goes, Step.call, CalendarDecryptorKeys.upgrade,
            Option.isSome_map, hread]
          rfl
        · cases h
        · cases h
      · have habout := about_eventSteps (Or.inl hpacket) hmem
        cases habout
  | updateAttendee idx attId old new => simp [Step.goes, Step.call]
  | updateEvent idx color notifs => simp [Step.goes, Step.call]
  | notifyOrganizer => rfl

theorem inOrder_of_answered {w : World} (h : Answered keys w answer) :
    InOrder keys w.event answer := by
  rcases h with ⟨token, raw, steps, _, htoken, hraw, hdone, hrule, _⟩
  rcases answerEvent_eq_done.mp hdone with ⟨hplan, hgoes⟩
  rcases hrule.series with ⟨att, hatt, hsets⟩
  -- The status of the series is set, so it is not cancelled.
  have hactive : raw.cancelled keys = some false := by
    rcases (hsets _).mpr rfl with ⟨hmem, _⟩
    rcases (mem_plan_iff htoken hraw hplan).mp hmem with
      h | ⟨hactive, _⟩ | ⟨idx, child, _, _, hpacket, att', _, hmem⟩
    · cases h
    · exact hactive
    · have habout := about_eventSteps (Or.inl hpacket) hmem
      cases habout
  refine ⟨token, raw, htoken, hraw, ⟨hactive, by rw [hatt]; rfl, ?_⟩, ?_⟩
  · intro packet hpacket
    have hmem := (mem_plan_iff htoken hraw hplan).mpr (Or.inr (Or.inl
      ⟨hactive, att, hatt, mem_eventSteps.mpr (Or.inl ⟨packet, hpacket, rfl⟩)⟩))
    have hstep := hgoes _ hmem
    simpa [Step.goes, CalendarDecryptorKeys.upgrade] using hstep
  · intro child hchild hcalendar
    rcases List.mem_iff_getElem?.mp hchild with ⟨idx, hget⟩
    exact editInOrder_iff.mpr (planned_ok htoken hraw hplan
      (mem_planned.mpr (Or.inr ⟨idx, child, hget, hcalendar, rfl⟩)))

end Planned

/-!
# The statuses that are held
-/

section Held

variable {keys : CalendarDecryptorKeys} {answer : RsvpAnswer}
  {token : CalendarAttendeeToken} {raw : CalendarEvent} {w : World}
  {eventIdx : Option Nat} {steps : List Step} {step : Step}

/-- The attendees of the series or of a single edit. -/
def RsvpEvent.attendeesOf (event : RsvpEvent) (eventIdx : Option Nat) :
    Option (List CalendarAttendee) :=
  (event.getEvent eventIdx).map CalendarEvent.attendees

def setAttendee (attId : CalendarAttendeeId) (status : CalendarAttendeeStatus)
    (attendees : List CalendarAttendee) : List CalendarAttendee :=
  attendees.map (fun att =>
    if att.id = attId then { att with status := status } else att)

theorem setAttendee_setAttendee (attId : CalendarAttendeeId)
    (status : CalendarAttendeeStatus) (attendees : List CalendarAttendee) :
    setAttendee attId status (setAttendee attId status attendees) =
      setAttendee attId status attendees := by
  unfold setAttendee
  rw [List.map_map]
  refine List.map_congr_left (fun att _ => ?_)
  simp only [Function.comp_apply]
  by_cases h : att.id = attId
  · simp [h]
  · simp [h]

theorem find_setAttendee {attendees : List CalendarAttendee}
    {att : CalendarAttendee} (status : CalendarAttendeeStatus)
    (h : attendees.find? (fun att => att.token = token) = some att) :
    (setAttendee att.id status attendees).find? (fun att => att.token = token) =
      some { att with status := status } := by
  unfold setAttendee
  rw [List.find?_map]
  have hfind : attendees.find? ((fun att => decide (att.token = token)) ∘
      fun a => if a.id = att.id then { a with status := status } else a) =
        some att := by
    rw [<- h]
    congr 1
    funext a
    simp only [Function.comp_apply]
    split <;> rfl
  rw [hfind, Option.map_some, if_pos rfl]

theorem getEvent_modifyEvent (event : RsvpEvent)
    (f : CalendarEvent -> CalendarEvent) (idx : Option Nat) :
    (event.modifyEvent f idx).getEvent eventIdx =
      if idx = eventIdx then (event.getEvent eventIdx).map f
      else event.getEvent eventIdx := by
  cases idx with
  | none =>
      cases eventIdx with
      | none => rfl
      | some j => rfl
  | some i =>
      cases eventIdx with
      | none => rfl
      | some j =>
          show (event.children.modify i f)[j]? = _
          rw [List.getElem?_modify]
          by_cases h : i = j
          · simp [h, RsvpEvent.getEvent]
          · simp [h, RsvpEvent.getEvent]

theorem attendeesOf_call (w : World) (idx : Option Nat)
    (stored held : CalendarEvent -> CalendarEvent)
    (f : List CalendarAttendee -> List CalendarAttendee)
    (hheld : forall event, (held event).attendees = f event.attendees) :
    (w.call idx stored held).event.attendeesOf eventIdx =
      if idx = eventIdx then (w.event.attendeesOf eventIdx).map f
      else w.event.attendeesOf eventIdx := by
  unfold World.call RsvpEvent.attendeesOf
  split
  · rename_i hnone
    split
    · rename_i heq
      rw [<- heq, hnone]
      rfl
    · rfl
  · rw [getEvent_modifyEvent]
    split
    · rw [Option.map_map, Option.map_map]
      exact congrArg (fun g => Option.map g (w.event.getEvent eventIdx))
        (funext hheld)
    · rfl

theorem attendeesOf_call_same (w : World) (idx : Option Nat)
    (stored held : CalendarEvent -> CalendarEvent)
    (hheld : forall event, (held event).attendees = event.attendees) :
    (w.call idx stored held).event.attendeesOf eventIdx =
      w.event.attendeesOf eventIdx := by
  rw [attendeesOf_call w idx stored held (fun attendees => attendees) hheld,
    Option.map_id', ite_self]

theorem getEvent_showStatus (event : RsvpEvent) (attId : CalendarAttendeeId)
    (status : CalendarAttendeeStatus) (idx : Option Nat) :
    (event.showStatus attId status idx).getEvent eventIdx =
      event.getEvent eventIdx := by
  cases idx <;> cases eventIdx <;> rfl

theorem attendeesOf_execStep (h : step.setsStatus eventIdx = false) :
    (execStep keys w step).event.attendeesOf eventIdx =
      w.event.attendeesOf eventIdx := by
  cases step with
  | upgradeEvent packet =>
      unfold execStep execUpgradeEvent
      dsimp only
      split
      · rfl
      · exact attendeesOf_call_same w none _ _ (fun _ => rfl)
  | updateAttendee idx attId old new =>
      have hne : idx ≠ eventIdx := of_decide_eq_false h
      unfold execStep execUpdateAttendee RsvpEvent.attendeesOf
      dsimp only
      rw [getEvent_showStatus]
      exact (attendeesOf_call w idx _ _ (setAttendee attId new)
        (fun _ => rfl)).trans (if_neg hne)
  | updateEvent idx color notifs =>
      exact attendeesOf_call_same w idx _ _ (fun _ => rfl)
  | notifyOrganizer => rfl

theorem attendeesOf_update (attId : CalendarAttendeeId)
    (old new : CalendarAttendeeStatus) :
    (execStep keys w (Step.updateAttendee eventIdx attId old
        new)).event.attendeesOf eventIdx =
      (w.event.attendeesOf eventIdx).map (setAttendee attId new) := by
  unfold execStep execUpdateAttendee RsvpEvent.attendeesOf
  dsimp only
  rw [getEvent_showStatus]
  exact (attendeesOf_call w eventIdx _ _ (setAttendee attId new)
    (fun _ => rfl)).trans (if_pos rfl)

theorem attendeesOf_untouched (keys : CalendarDecryptorKeys) (w : World)
    (h : forall step, step ∈ steps -> step.setsStatus eventIdx = false) :
    (steps.foldl (execStep keys) w).event.attendeesOf eventIdx =
      w.event.attendeesOf eventIdx := by
  induction steps generalizing w with
  | nil => rfl
  | cons step rest ih =>
      rw [List.foldl_cons, ih _ (fun s hs => h s (List.mem_cons_of_mem _ hs))]
      exact attendeesOf_execStep (h step List.mem_cons_self)

theorem attendeesOf_updated (keys : CalendarDecryptorKeys) (w : World)
    {attId : CalendarAttendeeId} {old new : CalendarAttendeeStatus}
    (honly : forall step, step ∈ steps -> step.setsStatus eventIdx = true ->
      step = Step.updateAttendee eventIdx attId old new)
    (hmem : Step.updateAttendee eventIdx attId old new ∈ steps) :
    (steps.foldl (execStep keys) w).event.attendeesOf eventIdx =
      (w.event.attendeesOf eventIdx).map (setAttendee attId new) := by
  induction steps generalizing w with
  | nil => cases hmem
  | cons step rest ih =>
      have hrest := fun s hs => honly s (List.mem_cons_of_mem step hs)
      rw [List.foldl_cons]
      by_cases hagain : Step.updateAttendee eventIdx attId old new ∈ rest
      · rw [ih _ hrest hagain]
        cases hsets : step.setsStatus eventIdx with
        | false => rw [attendeesOf_execStep hsets]
        | true =>
            rw [honly step List.mem_cons_self hsets, attendeesOf_update,
              Option.map_map]
            exact congrArg (fun g => Option.map g (w.event.attendeesOf eventIdx))
              (funext (setAttendee_setAttendee attId new))
      · rw [attendeesOf_untouched]
        · rw [(List.mem_cons.mp hmem).resolve_right hagain |>.symm,
            attendeesOf_update]
        · intro s hs
          rw [<- Bool.not_eq_true]
          intro hsets
          exact hagain (hrest s hs hsets ▸ hs)

theorem attendee_of_setsStatus {event : CalendarEvent}
    {status : CalendarAttendeeStatus}
    (hget : w.event.getEvent eventIdx = some event)
    (h : SetsStatus token steps event eventIdx status) :
    exists event' att, (steps.foldl (execStep keys) w).event.getEvent eventIdx =
        some event' ∧ event'.attendee token = some att ∧
      att.status = status := by
  rcases h with ⟨att, hatt, hsets⟩
  have hmem := (hsets _).mpr rfl
  have hheld := attendeesOf_updated keys w
    (fun step hstep hset => (hsets step).mp ⟨hstep, hset⟩) hmem.left
  unfold RsvpEvent.attendeesOf at hheld
  rw [hget] at hheld
  rcases Option.map_eq_some_iff.mp hheld with ⟨event', hevent', hattendees⟩
  refine ⟨event', { att with status := status }, hevent', ?_, rfl⟩
  unfold CalendarEvent.attendee at hatt ⊢
  rw [hattendees]
  exact find_setAttendee status hatt

theorem statusesByRule (hraw : w.event.raw = some raw)
    (hrule : ByRule keys answer token raw w.event.children steps) :
    StatusesByRule keys answer token raw w.event
      (steps.foldl (execStep keys) w).event where
  series := by
    have hget : w.event.getEvent none = some raw := hraw
    exact attendee_of_setsStatus hget hrule.series
  edits := by
    intro idx child hget hresets
    have hget' : w.event.getEvent (some idx) = some child := hget
    exact attendee_of_setsStatus hget' (hrule.edits idx child hget hresets)
  others := by
    intro idx child hget hkeeps
    have hnone : forall step, step ∈ steps ->
        step.setsStatus (some idx) = false := by
      intro step hstep
      rw [<- Bool.not_eq_true]
      intro hsets
      rcases hrule.others step idx hstep (setsStatus_about hsets) with
        ⟨child', hget', hresets⟩
      rw [hget] at hget'
      cases hget'
      exact hkeeps hresets
    have hheld := attendeesOf_untouched keys w hnone
    have hget' : w.event.getEvent (some idx) = some child := hget
    unfold RsvpEvent.attendeesOf at hheld
    rw [hget'] at hheld
    exact Option.map_eq_some_iff.mp hheld

end Held

/--
An answer of a series goes by the rule just if the series and the single edits
of its calendar are in order; and without a plan nothing is sent.
-/
theorem series_answered_iff (keys : CalendarDecryptorKeys) (w : World)
    (answer : RsvpAnswer) (h : w.event.canBeAnswered = true) :
    (Answered keys w answer ↔ InOrder keys w.event answer) ∧
    forall e, planResult keys w.event answer = Except.error e ->
      (answerEvent keys w.event answer).steps = [] := by
  refine ⟨⟨inOrder_of_answered, ?_⟩, ?_⟩
  · rintro ⟨token, raw, htoken, hraw, hseries, hedits⟩
    rcases plan_of_inOrder htoken hraw hseries hedits with ⟨steps, hdone⟩
    have hplan := (answerEvent_eq_done.mp hdone).left
    have hrule := byRule_of_plan htoken hraw hplan hseries.active
    have hrun := run_eq keys answer w h
    rw [hdone] at hrun
    exact ⟨token, raw, steps, _, htoken, hraw, hdone, hrule, hrun,
      statusesByRule hraw hrule⟩
  · intro e hplan
    unfold answerEvent
    rw [hplan]
    cases e <;> rfl

/-- Packets are keys, and a payload with nothing in it is cancelled. -/
def plainKeys : CalendarDecryptorKeys where
  forAddress := some
  forCalendar := some
  encryptSessionKey := id
  decryptAndParse := fun _ payload =>
    some (if payload.data = "" then some IcalStatus.cancelled else none)
  reads_encrypted := fun _ _ _ => rfl

def userOf (status : CalendarAttendeeStatus) : CalendarAttendee where
  id := "id"
  token := "token"
  status := status

def series : CalendarEvent where
  id := "series"
  calendarId := "calendar"
  attendees := [userOf CalendarAttendeeStatus.unanswered]
  notifications := none

/-- A series with these single edits. -/
def worldOf (children : List CalendarEvent) : World where
  event :=
    { attendees := [{ id := some "id", token := some "token", status := none }]
      relation := RsvpRelation.attendee 0
      progress := RsvpProgress.pending
      recency := RsvpRecency.fresh
      intent := RsvpIntent.invite
      raw := some series
      children := children }
  server := fun _ => series

/-- One single edit has been accepted, one is cancelled. -/
def editedSeries : World :=
  worldOf [
    { series with
      id := "edit"
      attendees := [userOf CalendarAttendeeStatus.yes] },
    { series with
      id := "cancelled"
      calendarEvents := [{ data := "" }]
      sharedKeyPacket := some "key"
      attendees := [] }]

theorem edited_series_answered : Answered plainKeys editedSeries RsvpAnswer.no := by
  refine (series_answered_iff plainKeys editedSeries RsvpAnswer.no rfl).left.mpr
    ⟨"token", series, rfl, rfl, ⟨rfl, rfl, fun _ h => nomatch h⟩, ?_⟩
  intro child hchild _
  rcases List.mem_cons.mp hchild with rfl | hchild
  · exact Or.inr ⟨rfl, _, rfl, Or.inr (Or.inr rfl)⟩
  · rw [List.mem_singleton.mp hchild]
    exact Or.inl rfl

/-- The user is not invited to a single edit. -/
theorem uninvited_edit_ends_answer :
    (worldOf [{ series with id := "edit", attendees := [] }]).event.canBeAnswered =
        true ∧
      ¬ Answered plainKeys
        (worldOf [{ series with id := "edit", attendees := [] }])
        RsvpAnswer.yes := by
  refine ⟨rfl, fun h => ?_⟩
  rcases inOrder_of_answered h with ⟨token, raw, htoken, hraw, _, hedits⟩
  cases hraw
  rcases hedits _ List.mem_cons_self rfl with h | ⟨_, att, hatt, _⟩
  · cases h
  · cases hatt

end Rsvp
end MailClient
