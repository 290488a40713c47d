import Mathlib.Data.List.Basic
import Mathlib.Logic.Function.Basic
import MailClient.Foundation.Transition

/-!
# The task service

`TaskService` pauses and resumes the tasks that are spawned through it.  It has
two channels to them: the flag `active`, which a task loads whenever it is
polled, and the commands that a thread of its own takes from a queue.  Both are
changed one after the other, and tasks run, report and end in between.
-/

namespace MailClient
namespace TaskService

open Foundation

/-!
# The service thread
-/

/--
A guarded future.  `id` is the address of its box, which is unique among the
futures that are alive and may be used again afterwards; `serial` tells the
futures apart that had the same address one after another.
-/
structure FutureRef where
  id : Nat
  serial : Nat
  deriving DecidableEq, Repr

/--
The sender that `pause_and_wait` puts into its command.  It is described by the
call: how often `resume` had been called when it started, and how many tasks
had been spawned.
-/
structure Awaiter where
  call : Nat
  resumes : Nat
  spawned : Nat
  deriving DecidableEq, Repr

/-- The service reads the address only; the waker is the one of the future. -/
inductive Command where
  | pause (sender : Option Awaiter)
  | resume
  | futureCreated (future : FutureRef)
  | futurePaused (future : FutureRef)
  | futureDropped (future : FutureRef)
  deriving DecidableEq, Repr

/--
The variables of `run`.  The addresses of living futures are distinct, so their
number never reaches the bound at which `num_futures` saturates.
-/
structure Service where
  wakers : List FutureRef := []
  paused : Bool := false
  numFutures : Nat := 0
  pauseAwaiters : List Awaiter := []
  deriving DecidableEq, Repr

/-- What the handling of a command does outside of the thread. -/
structure Reaction where
  notified : List Awaiter := []
  woken : List FutureRef := []
  deriving DecidableEq, Repr

namespace Service

def removeWaker (id : Nat) (wakers : List FutureRef) : List FutureRef :=
  wakers.filter (fun w => w.id ≠ id)

def insertWaker (future : FutureRef) (wakers : List FutureRef) :
    List FutureRef :=
  future :: removeWaker future.id wakers

def notifyAwaiters (s : Service) : Service × Reaction :=
  if s.wakers.length = s.numFutures then
    ({ s with pauseAwaiters := [] }, { notified := s.pauseAwaiters })
  else
    (s, {})

/-- The body of the loop in `run`. -/
def handle (s : Service) : Command -> Service × Reaction
  | Command.pause sender =>
      notifyAwaiters
        { s with
          paused := true
          pauseAwaiters := s.pauseAwaiters ++ sender.toList }
  | Command.resume =>
      ({ s with paused := false, pauseAwaiters := [], wakers := [] },
        { notified := s.pauseAwaiters, woken := s.wakers })
  | Command.futureCreated _ =>
      ({ s with numFutures := s.numFutures + 1 }, {})
  | Command.futurePaused future =>
      if s.paused then
        notifyAwaiters { s with wakers := insertWaker future s.wakers }
      else
        (s, { woken := [future] })
  | Command.futureDropped future =>
      notifyAwaiters
        { s with
          wakers := removeWaker future.id s.wakers
          numFutures := s.numFutures - 1 }

end Service

/-!
# Tasks and their controller
-/

/-- `polling` is a poll of the inner future, `refusing` one that is refused. -/
inductive Phase where
  | idle
  | polling
  | refusing
  deriving DecidableEq, Repr

inductive LastPoll where
  | never
  | accepted
  | refused
  deriving DecidableEq, Repr

/-- `fired` is set from a call of the waker to the next poll. -/
structure Task where
  id : Nat
  phase : Phase := Phase.idle
  lastPoll : LastPoll := LastPoll.never
  fired : Bool := false
  deriving DecidableEq, Repr

structure System where
  active : Bool := true
  queue : List Command := []
  service : Service := {}
  tasks : Nat -> Option Task := fun _ => none
  spawned : Nat := 0
  /-- What the controller sends next; it has stored the flag already. -/
  sending : Option Command := none
  calls : Nat := 0
  resumes : Nat := 0
  /-- Calls of `pause_and_wait` that have not returned. -/
  waiting : List Awaiter := []
  notified : List Awaiter := []
  /-- Calls of `pause_and_wait` that have returned `Ok`. -/
  returned : List Awaiter := []

inductive Event where
  | pause
  | pauseAndWait
  | resume
  | send
  | returnOk (a : Awaiter)
  | timeout (a : Awaiter)
  | handle
  | spawn (id : Nat)
  | poll (serial : Nat)
  | finishPoll (serial : Nat)
  | report (serial : Nat)
  | drop (serial : Nat)

namespace System

def enqueue (s : System) (c : Command) : System :=
  { s with queue := s.queue ++ [c] }

def setTask (s : System) (serial : Nat) (t : Task) : System :=
  { s with tasks := Function.update s.tasks serial (some t) }

def store (s : System) (active : Bool) (c : Command) : System :=
  { s with active := active, sending := some c }

def awaiter (s : System) : Awaiter :=
  { call := s.calls, resumes := s.resumes, spawned := s.spawned }

def startWait (s : System) : System :=
  { s.store false (Command.pause (some s.awaiter)) with
    calls := s.calls + 1
    waiting := s.waiting ++ [s.awaiter] }

def startResume (s : System) : System :=
  { s.store true Command.resume with resumes := s.resumes + 1 }

def wake (s : System) (woken : List FutureRef) : System :=
  { s with
    tasks := fun n => (s.tasks n).map (fun t =>
      if { id := t.id, serial := n } ∈ woken then { t with fired := true }
      else t) }

/-- The service thread takes the command `c` out of the queue. -/
def handled (s : System) (c : Command) (rest : List Command) : System :=
  let (service, reaction) := s.service.handle c
  { s.wake reaction.woken with
    queue := rest
    service := service
    notified := s.notified ++ reaction.notified }

def freeAddress (s : System) (id : Nat) : Prop :=
  forall n, n < s.spawned -> forall t, t ∈ s.tasks n -> t.id ≠ id

instance (s : System) (id : Nat) : Decidable (s.freeAddress id) :=
  inferInstanceAs (Decidable (forall n, n < s.spawned ->
    forall t, t ∈ s.tasks n -> t.id ≠ id))

/-- `guard` announces the future before the runtime gets to see it. -/
def spawn (s : System) (id : Nat) : System :=
  { (s.enqueue (Command.futureCreated { id := id, serial := s.spawned })).setTask
      s.spawned { id := id } with
    spawned := s.spawned + 1 }

/-- `can_continue` up to the load of the flag. -/
def startPoll (s : System) (serial : Nat) (t : Task) : System :=
  if s.active then
    s.setTask serial
      { t with
        phase := Phase.polling
        lastPoll := LastPoll.accepted
        fired := false }
  else
    s.setTask serial
      { t with
        phase := Phase.refusing
        lastPoll := LastPoll.refused
        fired := false }

/-- The rest of `can_continue` when the flag was not set. -/
def sendPaused (s : System) (serial : Nat) (t : Task) : System :=
  (s.enqueue (Command.futurePaused { id := t.id, serial := serial })).setTask
    serial { t with phase := Phase.idle }

def dropTask (s : System) (serial : Nat) (t : Task) : System :=
  { s.enqueue (Command.futureDropped { id := t.id, serial := serial }) with
    tasks := Function.update s.tasks serial none }

/-- The task of a number, if it is in the given phase. -/
def inPhase (s : System) (serial : Nat) (p : Phase) : Option Task :=
  (s.tasks serial).filter (fun t => t.phase = p)

def next (s : System) : Event -> Option System
  | Event.pause =>
      if s.sending = none then some (s.store false (Command.pause none))
      else none
  | Event.pauseAndWait =>
      if s.sending = none then some s.startWait else none
  | Event.resume =>
      if s.sending = none then some s.startResume else none
  | Event.send =>
      match s.sending with
      | none => none
      | some c => some { s.enqueue c with sending := none }
  | Event.returnOk a =>
      if a ∈ s.waiting ∧ a ∈ s.notified then
        some
          { s with
            waiting := s.waiting.filter (fun b => b ≠ a)
            returned := s.returned ++ [a] }
      else none
  | Event.timeout a =>
      some { s with waiting := s.waiting.filter (fun b => b ≠ a) }
  | Event.handle =>
      match s.queue with
      | [] => none
      | c :: rest => some (s.handled c rest)
  | Event.spawn id => if s.freeAddress id then some (s.spawn id) else none
  | Event.poll serial => (s.inPhase serial Phase.idle).map (s.startPoll serial)
  | Event.finishPoll serial =>
      (s.inPhase serial Phase.polling).map (fun t =>
        s.setTask serial { t with phase := Phase.idle })
  | Event.report serial =>
      (s.inPhase serial Phase.refusing).map (s.sendPaused serial)
  | Event.drop serial => (s.inPhase serial Phase.idle).map (s.dropTask serial)

end System

/-- One controller, any number of tasks, and the thread of the service. -/
def TaskRuns : TransitionSystem System Event where
  init := fun s => s = {}
  step := fun s e s' => s.next e = some s'

end TaskService
end MailClient
