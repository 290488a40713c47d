import Mathlib.Logic.Function.Basic
import MailClient.Foundation.Transition

/-!
# The sync service

A worker starts and stops the backward sync.  It owns the cancellation token of
the task that it has spawned and learns from the event service that a task has
completed.  Messages and events reach it on two channels, and it takes from
either; the channel of events keeps the newest four.
-/

namespace MailClient
namespace BackwardSync

open Foundation

inductive SyncOutcome where
  | success
  | retryableFailure (error : String)
  | criticalFailure (error : String)
  deriving DecidableEq, Repr

inductive SyncEvent where
  | started
  | stopped
  | completed (outcome : SyncOutcome)
  deriving DecidableEq, Repr

inductive SyncServiceMessage where
  | startSync
  | stopSync
  deriving DecidableEq, Repr

/-- An event in the channel; `origin` records the task that has published it. -/
structure Published where
  event : SyncEvent
  origin : Option Nat
  deriving DecidableEq, Repr

/--
A task runs the loop, marks the sync complete if that has succeeded, and then
publishes the outcome.
-/
inductive TaskPhase where
  | looping
  | marking
  | publishing (outcome : SyncOutcome)
  | ended
  deriving DecidableEq, Repr

structure SyncTask where
  phase : TaskPhase
  cancelled : Bool
  deriving DecidableEq, Repr

inductive WorkerPhase where
  | selecting
  | starting
  deriving DecidableEq, Repr

/--
`backSyncToken` names the task whose token the worker holds, and tasks are
numbered in the order in which they are spawned.  `stoppedRuns` records how many
had been spawned when a stop was answered last.
-/
structure SyncService where
  messages : List SyncServiceMessage
  events : List Published
  backSyncToken : Option Nat
  phase : WorkerPhase
  backwardSyncComplete : Bool
  runs : Nat
  tasks : Nat -> SyncTask
  stoppedRuns : Nat

inductive ServiceEvent where
  | send (message : SyncServiceMessage)
  /-- The worker takes a message; a start then reads the settings. -/
  | onMessage (settingsRead : Bool)
  /-- A start that goes on looks for the oldest batch and spawns the task. -/
  | spawn (batchRead : Bool)
  | onEvent
  | loopReturns (run : Nat) (outcome : SyncOutcome)
  | markComplete (run : Nat) (written : Bool)
  | publish (run : Nat)
  | dropTask (run : Nat)
  deriving DecidableEq, Repr

def messageCapacity : Nat :=
  4

def eventCapacity : Nat :=
  4

namespace SyncService

/-- The channel drops its oldest events. -/
def publish (s : SyncService) (p : Published) : SyncService :=
  { s with
    events := (s.events ++ [p]).drop (s.events.length + 1 - eventCapacity) }

def setTask (s : SyncService) (r : Nat) (task : SyncTask) : SyncService :=
  { s with tasks := Function.update s.tasks r task }

def cancel (s : SyncService) (r : Nat) : SyncService :=
  s.setTask r { s.tasks r with cancelled := true }

def setPhase (s : SyncService) (r : Nat) (phase : TaskPhase) : SyncService :=
  s.setTask r { s.tasks r with phase := phase }

def startSync (s : SyncService) (settingsRead : Bool) : SyncService :=
  if s.backSyncToken.isSome then s
  else if !settingsRead then s
  else if s.backwardSyncComplete then s
  else { s.publish ⟨SyncEvent.started, none⟩ with phase := WorkerPhase.starting }

def spawnTask (s : SyncService) (batchRead : Bool) : SyncService :=
  if batchRead then
    { s.setTask s.runs ⟨TaskPhase.looping, false⟩ with
      runs := s.runs + 1
      backSyncToken := some s.runs
      phase := WorkerPhase.selecting }
  else { s with phase := WorkerPhase.selecting }

def stopSync (s : SyncService) : SyncService :=
  match s.backSyncToken with
  | some r =>
      ({ s with backSyncToken := none }.cancel r).publish
        ⟨SyncEvent.stopped, none⟩
  | none => s

/-- The worker does not know which task an event comes from. -/
def onEvent (s : SyncService) : SyncEvent -> SyncService
  | SyncEvent.started => s
  | SyncEvent.stopped => s
  | SyncEvent.completed SyncOutcome.success => { s with backSyncToken := none }
  | SyncEvent.completed (SyncOutcome.retryableFailure _) => s.stopSync
  | SyncEvent.completed (SyncOutcome.criticalFailure _) => s.stopSync

def onMessage (s : SyncService) (settingsRead : Bool) :
    SyncServiceMessage -> SyncService
  | SyncServiceMessage.startSync => s.startSync settingsRead
  | SyncServiceMessage.stopSync => { s.stopSync with stoppedRuns := s.runs }

def loopReturns (s : SyncService) (r : Nat) : SyncOutcome -> SyncService
  | SyncOutcome.success => s.setPhase r TaskPhase.marking
  | SyncOutcome.retryableFailure e =>
      s.setPhase r (TaskPhase.publishing (SyncOutcome.retryableFailure e))
  | SyncOutcome.criticalFailure e =>
      s.setPhase r (TaskPhase.publishing (SyncOutcome.criticalFailure e))

/--
A cancelled task is dropped where it waits, but a step that it is taking when
it is cancelled goes on to its end.
-/
def next (s : SyncService) : ServiceEvent -> Option SyncService
  | ServiceEvent.send message =>
      if s.messages.length < messageCapacity then
        some { s with messages := s.messages ++ [message] }
      else none
  | ServiceEvent.onMessage settingsRead =>
      match s.phase, s.messages with
      | WorkerPhase.selecting, message :: rest =>
          some ({ s with messages := rest }.onMessage settingsRead message)
      | _, _ => none
  | ServiceEvent.spawn batchRead =>
      match s.phase with
      | WorkerPhase.starting => some (s.spawnTask batchRead)
      | WorkerPhase.selecting => none
  | ServiceEvent.onEvent =>
      match s.phase, s.events with
      | WorkerPhase.selecting, p :: rest =>
          some ({ s with events := rest }.onEvent p.event)
      | _, _ => none
  | ServiceEvent.loopReturns r outcome =>
      if (s.tasks r).phase = TaskPhase.looping then
        some (s.loopReturns r outcome)
      else none
  | ServiceEvent.markComplete r written =>
      if (s.tasks r).phase = TaskPhase.marking then
        some { s.setPhase r (TaskPhase.publishing SyncOutcome.success) with
          backwardSyncComplete := s.backwardSyncComplete || written }
      else none
  | ServiceEvent.publish r =>
      match (s.tasks r).phase with
      | TaskPhase.publishing outcome =>
          some ((s.setPhase r TaskPhase.ended).publish
            ⟨SyncEvent.completed outcome, some r⟩)
      | _ => none
  | ServiceEvent.dropTask r =>
      if (s.tasks r).cancelled then some (s.setPhase r TaskPhase.ended)
      else none

def new (backwardSyncComplete : Bool) : SyncService where
  messages := []
  events := []
  backSyncToken := none
  phase := WorkerPhase.selecting
  backwardSyncComplete := backwardSyncComplete
  runs := 0
  tasks := fun _ => ⟨TaskPhase.ended, false⟩
  stoppedRuns := 0

/-- The loop of the task runs and nobody has told it to stop. -/
def Running (s : SyncService) (r : Nat) : Prop :=
  (s.tasks r).phase = TaskPhase.looping ∧ (s.tasks r).cancelled = false

/-- The task has not ended and nobody has told it to stop. -/
def Alive (s : SyncService) (r : Nat) : Prop :=
  (s.tasks r).phase ≠ TaskPhase.ended ∧ (s.tasks r).cancelled = false

/--
At most one loop runs; none of those that were there when a stop was answered;
the event that is handled next does not concern an older run than the token;
and in a quiet state the worker holds a token exactly if there is a task.
-/
structure Orderly (s : SyncService) : Prop where
  one : forall r r', s.Running r -> s.Running r' -> r = r'
  stopped : forall r, r < s.stoppedRuns -> ¬ s.Running r
  own : forall outcome r r' rest,
    s.events = ⟨SyncEvent.completed outcome, some r⟩ :: rest ->
    s.backSyncToken = some r' -> r' <= r
  quiet : s.phase = WorkerPhase.selecting -> s.messages = [] -> s.events = [] ->
    (s.backSyncToken.isSome = true <-> exists r, s.Alive r)

end SyncService

def syncServiceSystem : TransitionSystem SyncService ServiceEvent where
  init := fun s => exists complete, s = SyncService.new complete
  step := fun s e s' => s.next e = some s'

namespace SyncService

/--
A task is spawned when no outcome of an earlier one is waiting to be handled,
and a task publishes its outcome only while no later one has been spawned.
-/
def InTurn (s : SyncService) : ServiceEvent -> Prop
  | ServiceEvent.spawn _ => forall p, p ∈ s.events -> p.origin = none
  | ServiceEvent.publish r => s.runs = r + 1
  | _ => True

instance (s : SyncService) (e : ServiceEvent) : Decidable (s.InTurn e) :=
  match e with
  | ServiceEvent.spawn _ =>
      inferInstanceAs (Decidable (forall p, p ∈ s.events -> p.origin = none))
  | ServiceEvent.publish r => inferInstanceAs (Decidable (s.runs = r + 1))
  | ServiceEvent.send _ => isTrue True.intro
  | ServiceEvent.onMessage _ => isTrue True.intro
  | ServiceEvent.onEvent => isTrue True.intro
  | ServiceEvent.loopReturns _ _ => isTrue True.intro
  | ServiceEvent.markComplete _ _ => isTrue True.intro
  | ServiceEvent.dropTask _ => isTrue True.intro

/-!
# Operations
-/

@[simp] theorem setTask_tasks (s : SyncService) (r r' : Nat) (task : SyncTask) :
    (s.setTask r task).tasks r' = if r' = r then task else s.tasks r' :=
  Function.update_apply _ _ _ _

variable {s : SyncService}

theorem mem_publish {p q : Published} (h : q ∈ (s.publish p).events) :
    q ∈ s.events ∨ q = p := by
  have hmem := List.mem_of_mem_drop h
  rcases List.mem_append.mp hmem with hold | hnew
  · exact Or.inl hold
  · exact Or.inr (List.mem_singleton.mp hnew)

theorem publish_last (s : SyncService) (p : Published) :
    exists before, (s.publish p).events = before ++ [p] := by
  refine ⟨s.events.drop (s.events.length + 1 - eventCapacity), ?_⟩
  apply List.drop_append_of_le_length
  unfold eventCapacity
  omega

/-!
# The invariant

Everything that is alive belongs to the token, and every outcome that is waiting
belongs to the newest task.
-/

structure Tracked (s : SyncService) : Prop where
  alive : forall r, s.Alive r -> s.backSyncToken = some r
  token : forall r, s.backSyncToken = some r ->
    s.runs = r + 1 ∧ (s.tasks r).cancelled = false ∧
      ((s.tasks r).phase ≠ TaskPhase.ended ∨ exists before outcome,
        s.events = before ++ [⟨SyncEvent.completed outcome, some r⟩])
  origin : forall p, p ∈ s.events -> forall r, p.origin = some r ->
    s.runs = r + 1 ∧ (s.tasks r).phase = TaskPhase.ended
  known : forall p, p ∈ s.events -> forall outcome,
    p.event = SyncEvent.completed outcome -> exists r, p.origin = some r
  starting : s.phase = WorkerPhase.starting -> s.backSyncToken = none
  unspawned : forall r, s.runs <= r -> (s.tasks r).phase = TaskPhase.ended
  stopped : s.stoppedRuns <= s.runs ∧ forall r, r < s.stoppedRuns -> ¬ s.Alive r

theorem Running.alive {r : Nat} (h : s.Running r) :
    s.Alive r := by
  refine ⟨?_, h.right⟩
  rw [h.left]
  intro hended
  cases hended

theorem Tracked.orderly (hs : Tracked s) : Orderly s where
  one := by
    intro r r' hr hr'
    have htoken := hs.alive r hr.alive
    rw [hs.alive r' hr'.alive] at htoken
    exact (Option.some.inj htoken).symm
  stopped := by
    intro r hr hrunning
    exact hs.stopped.right r hr hrunning.alive
  own := by
    intro outcome r r' rest hevents htoken
    have hr := hs.origin _ (by rw [hevents]; exact List.mem_cons_self) r rfl
    have hr' := hs.token r' htoken
    omega
  quiet := by
    intro _ _ hevents
    constructor
    · intro hsome
      rcases Option.isSome_iff_exists.mp hsome with ⟨r, hr⟩
      rcases hs.token r hr with ⟨_, hcancelled, hphase | ⟨before, outcome, hlast⟩⟩
      · exact ⟨r, hphase, hcancelled⟩
      · rw [hevents] at hlast
        simp at hlast
    · rintro ⟨r, hr⟩
      rw [hs.alive r hr]
      rfl

theorem tracked_new (complete : Bool) : Tracked (new complete) := by
  refine ⟨?_, ?_, ?_, ?_, ?_, ?_, ?_⟩ <;> simp [new, Alive]

theorem Tracked.publish (hs : Tracked s) (htoken : s.backSyncToken = none)
    {p : Published} (horigin : p.origin = none)
    (hevent : forall outcome, p.event ≠ SyncEvent.completed outcome) :
    Tracked (s.publish p) where
  alive := hs.alive
  token := by
    intro r hr
    rw [show (s.publish p).backSyncToken = none from htoken] at hr
    cases hr
  origin := by
    intro q hq r hr
    rcases mem_publish hq with hold | hnew
    · exact hs.origin q hold r hr
    · rw [hnew, horigin] at hr
      cases hr
  known := by
    intro q hq outcome houtcome
    rcases mem_publish hq with hold | hnew
    · exact hs.known q hold outcome houtcome
    · rw [hnew] at houtcome
      exact absurd houtcome (hevent outcome)
  starting := hs.starting
  unspawned := hs.unspawned
  stopped := hs.stopped

theorem Tracked.setTask (hs : Tracked s) {r : Nat} {task : SyncTask}
    (halive : task.phase ≠ TaskPhase.ended -> task.cancelled = false -> s.Alive r)
    (htoken : s.backSyncToken = some r -> task.cancelled = false ∧
      task.phase ≠ TaskPhase.ended)
    (hended : (s.tasks r).phase = TaskPhase.ended ->
      task.phase = TaskPhase.ended) : Tracked (s.setTask r task) where
  alive := by
    intro r' hr'
    by_cases hrr : r' = r
    · rw [hrr] at hr' ⊢
      have htask : task.phase ≠ TaskPhase.ended ∧ task.cancelled = false := by
        simpa [Alive] using hr'
      exact hs.alive r (halive htask.left htask.right)
    · exact hs.alive r' (by simpa [Alive, hrr] using hr')
  token := by
    intro r' hr'
    rcases hs.token r' hr' with ⟨hruns, hcancelled, hphase⟩
    refine ⟨hruns, ?_⟩
    by_cases hrr : r' = r
    · have htask := htoken (hrr ▸ hr')
      simp only [setTask_tasks, hrr, if_true]
      exact ⟨htask.left, Or.inl htask.right⟩
    · simp only [setTask_tasks, hrr, if_false]
      exact ⟨hcancelled, hphase⟩
  origin := by
    intro p hp r' hr'
    rcases hs.origin p hp r' hr' with ⟨hruns, hphase⟩
    refine ⟨hruns, ?_⟩
    by_cases hrr : r' = r
    · simp only [setTask_tasks, hrr, if_true]
      exact hended (hrr ▸ hphase)
    · simpa [hrr] using hphase
  known := hs.known
  starting := hs.starting
  unspawned := by
    intro r' hr'
    have hold := hs.unspawned r' hr'
    by_cases hrr : r' = r
    · simp only [setTask_tasks, hrr, if_true]
      exact hended (hrr ▸ hold)
    · simpa [hrr] using hold
  stopped := by
    refine ⟨hs.stopped.left, ?_⟩
    intro r' hr' hr''
    apply hs.stopped.right r' hr'
    by_cases hrr : r' = r
    · rw [hrr] at hr'' ⊢
      have htask : task.phase ≠ TaskPhase.ended ∧ task.cancelled = false := by
        simpa [Alive] using hr''
      exact halive htask.left htask.right
    · simpa [Alive, hrr] using hr''

theorem Tracked.clear (hs : Tracked s) (hdead : forall r, ¬ s.Alive r)
    {events : List Published} (hsub : events ⊆ s.events) :
    Tracked { s with events := events, backSyncToken := none } where
  alive := fun r hr => absurd hr (hdead r)
  token := fun _ hr => (nomatch hr)
  origin := fun p hp => hs.origin p (hsub hp)
  known := fun p hp => hs.known p (hsub hp)
  starting := fun _ => rfl
  unspawned := hs.unspawned
  stopped := hs.stopped

theorem Tracked.cancelled (hs : Tracked s) (hnone : s.backSyncToken = none)
    (r : Nat) : Tracked (s.cancel r) := by
  apply hs.setTask
  · intro _ hcancelled
    cases hcancelled
  · intro htoken
    rw [hnone] at htoken
    cases htoken
  · intro hended
    exact hended

theorem Tracked.cancel (hs : Tracked s) {r : Nat}
    (htoken : s.backSyncToken = some r) :
    Tracked ({ s with backSyncToken := none }.cancel r) := by
  have hdead : forall r', ¬ ({ s with backSyncToken := none }.cancel r).Alive r' := by
    intro r' hr'
    by_cases hrr : r' = r
    · simp [Alive, SyncService.cancel, hrr] at hr'
    · have hold : s.Alive r' := by
        simpa [Alive, SyncService.cancel, hrr] using hr'
      have hsame := hs.alive r' hold
      rw [htoken] at hsame
      exact hrr (Option.some.inj hsame).symm
  have hphase : forall r', (({ s with backSyncToken := none }.cancel r).tasks r').phase =
      (s.tasks r').phase := by
    intro r'
    by_cases hrr : r' = r
    · simp [SyncService.cancel, hrr]
    · simp [SyncService.cancel, hrr]
  exact {
    alive := fun r' hr' => absurd hr' (hdead r')
    token := fun r' hr' => (nomatch hr')
    origin := by
      intro p hp r' hr'
      rw [hphase]
      exact hs.origin p hp r' hr'
    known := hs.known
    starting := fun _ => rfl
    unspawned := by
      intro r' hr'
      rw [hphase]
      exact hs.unspawned r' hr'
    stopped := ⟨hs.stopped.left, fun r' _ => hdead r'⟩ }

theorem Tracked.stopSync (hs : Tracked s) :
    Tracked s.stopSync ∧ s.stopSync.backSyncToken = none := by
  unfold SyncService.stopSync
  split
  · rename_i r htoken
    exact ⟨(hs.cancel htoken).publish rfl rfl (fun _ h => (nomatch h)), rfl⟩
  · rename_i htoken
    exact ⟨hs, htoken⟩

theorem stopSync_frame (s : SyncService) :
    s.stopSync.runs = s.runs ∧ s.stopSync.phase = s.phase ∧
      s.stopSync.stoppedRuns = s.stoppedRuns := by
  unfold SyncService.stopSync
  split <;> exact ⟨rfl, rfl, rfl⟩

theorem Tracked.startSync (hs : Tracked s) (settingsRead : Bool) :
    Tracked (s.startSync settingsRead) := by
  unfold SyncService.startSync
  split
  · exact hs
  · rename_i htoken
    have hnone : s.backSyncToken = none := by simpa using htoken
    split
    · exact hs
    · split
      · exact hs
      · have hpub := hs.publish hnone (p := ⟨SyncEvent.started, none⟩) rfl
          (fun _ h => (nomatch h))
        exact { hpub with starting := fun _ => hnone }

theorem Tracked.onMessage (hs : Tracked s) (settingsRead : Bool)
    (message : SyncServiceMessage) :
    Tracked (s.onMessage settingsRead message) := by
  cases message with
  | startSync => exact hs.startSync settingsRead
  | stopSync =>
      rcases hs.stopSync with ⟨hstop, hnone⟩
      refine { hstop with stopped := ⟨?_, ?_⟩ }
      · exact Nat.le_of_eq (stopSync_frame s).left.symm
      · intro r _ hr
        have htoken := hstop.alive r hr
        rw [hnone] at htoken
        cases htoken

theorem Tracked.spawnTask (hs : Tracked s)
    (hstarting : s.phase = WorkerPhase.starting)
    (hturn : forall p, p ∈ s.events -> p.origin = none) (batchRead : Bool) :
    Tracked (s.spawnTask batchRead) := by
  have hnone := hs.starting hstarting
  unfold SyncService.spawnTask
  split
  · exact {
      alive := by
        intro r hr
        by_cases hrr : r = s.runs
        · rw [hrr]
        · have hold : s.Alive r := by simpa [Alive, hrr] using hr
          have htoken := hs.alive r hold
          rw [hnone] at htoken
          cases htoken
      token := by
        intro r hr
        cases hr
        exact ⟨rfl, by simp, Or.inl (by simp)⟩
      origin := by
        intro p hp r hr
        rw [hturn p hp] at hr
        cases hr
      known := hs.known
      starting := fun h => (nomatch h)
      unspawned := by
        intro r hr
        have hne : r ≠ s.runs := Nat.ne_of_gt hr
        simpa [hne] using hs.unspawned r (Nat.le_of_succ_le hr)
      stopped := by
        refine ⟨Nat.le_succ_of_le hs.stopped.left, ?_⟩
        intro r hr hr'
        have hlt : r < s.runs := Nat.lt_of_lt_of_le hr hs.stopped.left
        exact hs.stopped.right r hr
          (by simpa [Alive, Nat.ne_of_lt hlt] using hr') }
  · exact { hs with starting := fun h => (nomatch h) }

theorem Tracked.takeEvent (hs : Tracked s) {p : Published}
    {rest : List Published} (hevents : s.events = p :: rest)
    (hother : forall outcome, p.event ≠ SyncEvent.completed outcome) :
    Tracked { s with events := rest } := by
  have hsub : forall q, q ∈ rest -> q ∈ s.events := by
    intro q hq
    rw [hevents]
    exact List.mem_cons_of_mem p hq
  refine { hs with
    token := ?_
    origin := fun q hq => hs.origin q (hsub q hq)
    known := fun q hq => hs.known q (hsub q hq) }
  intro r hr
  rcases hs.token r hr with ⟨hruns, hcancelled, hphase | ⟨before, outcome, hlast⟩⟩
  · exact ⟨hruns, hcancelled, Or.inl hphase⟩
  · refine ⟨hruns, hcancelled, Or.inr ?_⟩
    rw [hevents] at hlast
    cases before with
    | nil =>
        have hp : p = ⟨SyncEvent.completed outcome, some r⟩ :=
          (List.cons.inj hlast).left
        exact absurd (by rw [hp]) (hother outcome)
    | cons q before => exact ⟨before, outcome, (List.cons.inj hlast).right⟩

theorem Tracked.dead_of_completed (hs : Tracked s) {p : Published}
    {outcome : SyncOutcome} (hp : p ∈ s.events)
    (houtcome : p.event = SyncEvent.completed outcome) (r : Nat) :
    ¬ s.Alive r := by
  intro hr
  rcases hs.known p hp outcome houtcome with ⟨r', horigin⟩
  rcases hs.origin p hp r' horigin with ⟨hruns, hended⟩
  have htoken := hs.token r (hs.alive r hr)
  have hsame : r = r' := by omega
  rw [<- hsame] at hended
  exact hr.left hended

theorem Tracked.onEvent (hs : Tracked s) {p : Published} {rest : List Published}
    (hevents : s.events = p :: rest) :
    Tracked ({ s with events := rest }.onEvent p.event) := by
  have hmem : p ∈ s.events := by
    rw [hevents]
    exact List.mem_cons_self
  cases hevent : p.event with
  | started =>
      exact hs.takeEvent hevents (fun _ h => by rw [hevent] at h; cases h)
  | stopped =>
      exact hs.takeEvent hevents (fun _ h => by rw [hevent] at h; cases h)
  | completed outcome =>
      -- The task of this outcome has ended, so the token can go in any case.
      have hclear : Tracked { s with events := rest, backSyncToken := none } := by
        apply hs.clear (hs.dead_of_completed hmem hevent)
        intro q hq
        rw [hevents]
        exact List.mem_cons_of_mem p hq
      have hstop : Tracked { s with events := rest }.stopSync := by
        unfold SyncService.stopSync
        split
        · rename_i r _
          exact (hclear.cancelled rfl r).publish rfl rfl (fun _ h => (nomatch h))
        · rename_i hnone
          have hsame : { s with events := rest } =
              { s with events := rest, backSyncToken := none } := by
            rw [show s.backSyncToken = none from hnone]
          rw [hsame]
          exact hclear
      cases outcome with
      | success => exact hclear
      | retryableFailure e => exact hstop
      | criticalFailure e => exact hstop

theorem Tracked.setPhase (hs : Tracked s) {r : Nat} {phase : TaskPhase}
    (hbefore : (s.tasks r).phase ≠ TaskPhase.ended)
    (hafter : phase ≠ TaskPhase.ended) : Tracked (s.setPhase r phase) := by
  apply hs.setTask
  · intro _ hcancelled
    exact ⟨hbefore, hcancelled⟩
  · intro htoken
    exact ⟨(hs.token r htoken).right.left, hafter⟩
  · intro hended
    exact absurd hended hbefore

theorem Tracked.dropTask (hs : Tracked s) {r : Nat}
    (hcancelled : (s.tasks r).cancelled = true) :
    Tracked (s.setPhase r TaskPhase.ended) := by
  apply hs.setTask
  · intro hphase _
    exact absurd rfl hphase
  · intro htoken
    rw [(hs.token r htoken).right.left] at hcancelled
    cases hcancelled
  · intro _
    rfl

theorem Tracked.publishOutcome (hs : Tracked s) {r : Nat}
    (hruns : s.runs = r + 1) (outcome : SyncOutcome) :
    Tracked ((s.setPhase r TaskPhase.ended).publish
      ⟨SyncEvent.completed outcome, some r⟩) := by
  have hold : forall r', r' ≠ r ->
      ((s.setPhase r TaskPhase.ended).publish
        ⟨SyncEvent.completed outcome, some r⟩).tasks r' = s.tasks r' := by
    intro r' hrr
    simp [SyncService.publish, SyncService.setPhase, hrr]
  have hnew : ((s.setPhase r TaskPhase.ended).publish
      ⟨SyncEvent.completed outcome, some r⟩).tasks r =
        { s.tasks r with phase := TaskPhase.ended } := by
    simp [SyncService.publish, SyncService.setPhase]
  have halive : forall r', ((s.setPhase r TaskPhase.ended).publish
      ⟨SyncEvent.completed outcome, some r⟩).Alive r' -> s.Alive r' := by
    intro r' hr'
    by_cases hrr : r' = r
    · have hphase := hr'.left
      rw [hrr, hnew] at hphase
      exact absurd rfl hphase
    · unfold Alive at hr' ⊢
      rw [hold r' hrr] at hr'
      exact hr'
  exact {
    alive := fun r' hr' => hs.alive r' (halive r' hr')
    token := by
      intro r' htoken
      rcases hs.token r' htoken with ⟨hruns', hcancelled, _⟩
      have hrr : r' = r := by omega
      rcases publish_last (s.setPhase r TaskPhase.ended)
        ⟨SyncEvent.completed outcome, some r⟩ with ⟨before, hlast⟩
      refine ⟨hruns', ?_, Or.inr ⟨before, outcome, by rw [hrr]; exact hlast⟩⟩
      rw [hrr] at hcancelled ⊢
      rw [hnew]
      exact hcancelled
    origin := by
      intro p hp r' hr'
      have hrr : r' = r := by
        rcases mem_publish hp with hpold | hpnew
        · have horigin := hs.origin p hpold r' hr'
          omega
        · rw [hpnew] at hr'
          exact (Option.some.inj hr').symm
      rw [hrr, hnew]
      exact ⟨hruns, rfl⟩
    known := by
      intro p hp outcome' houtcome
      rcases mem_publish hp with hpold | hpnew
      · exact hs.known p hpold outcome' houtcome
      · exact ⟨r, by rw [hpnew]⟩
    starting := hs.starting
    unspawned := by
      intro r' hr'
      have hrr : r' ≠ r := by
        intro heq
        have hle : s.runs <= r' := hr'
        omega
      rw [hold r' hrr]
      exact hs.unspawned r' hr'
    stopped := ⟨hs.stopped.left, fun r' hr' hr'' =>
      hs.stopped.right r' hr' (halive r' hr'')⟩ }

theorem Tracked.next {s' : SyncService} {e : ServiceEvent} (hs : Tracked s)
    (hturn : s.InTurn e) (h : s.next e = some s') : Tracked s' := by
  cases e with
  | send message =>
      simp only [SyncService.next] at h
      split at h
      · cases h
        exact { hs with }
      · cases h
  | onMessage settingsRead =>
      simp only [SyncService.next] at h
      split at h
      · rename_i message rest _ _
        cases h
        have hrest : Tracked { s with messages := rest } := { hs with }
        exact hrest.onMessage settingsRead message
      · cases h
  | spawn batchRead =>
      simp only [SyncService.next] at h
      split at h
      · rename_i hstarting
        cases h
        exact hs.spawnTask hstarting hturn batchRead
      · cases h
  | onEvent =>
      simp only [SyncService.next] at h
      split at h
      · rename_i p rest _ hevents
        cases h
        exact hs.onEvent hevents
      · cases h
  | loopReturns r outcome =>
      simp only [SyncService.next] at h
      split at h
      · rename_i hlooping
        have hbefore : (s.tasks r).phase ≠ TaskPhase.ended := by
          rw [hlooping]
          exact fun h => (nomatch h)
        cases h
        cases outcome with
        | success => exact hs.setPhase hbefore (fun h => (nomatch h))
        | retryableFailure e => exact hs.setPhase hbefore (fun h => (nomatch h))
        | criticalFailure e => exact hs.setPhase hbefore (fun h => (nomatch h))
      · cases h
  | markComplete r written =>
      simp only [SyncService.next] at h
      split at h
      · rename_i hmarking
        have hbefore : (s.tasks r).phase ≠ TaskPhase.ended := by
          rw [hmarking]
          exact fun h => (nomatch h)
        have hphase : Tracked
            (s.setPhase r (TaskPhase.publishing SyncOutcome.success)) :=
          hs.setPhase hbefore (fun h => (nomatch h))
        cases h
        exact { hphase with }
      · cases h
  | publish r =>
      simp only [SyncService.next] at h
      split at h
      · rename_i outcome _
        cases h
        exact hs.publishOutcome hturn outcome
      · cases h
  | dropTask r =>
      simp only [SyncService.next] at h
      split at h
      · rename_i hcancelled
        cases h
        exact hs.dropTask hcancelled
      · cases h

/--
In every run in which a task is spawned only when no outcome of an earlier one
is waiting, and no task publishes its outcome after a later one was spawned,
every state reached is orderly.
-/
theorem orderly_of_inTurn {s : SyncService}
    (hreach : syncServiceSystem.ReachableWhen InTurn s) : Orderly s := by
  have htracked : Tracked s := by
    refine TransitionSystem.invariant_when Tracked ?_ ?_ hreach
    · rintro s ⟨complete, rfl⟩
      exact tracked_new complete
    · intro s e s' _ hs hturn hstep
      exact hs.next hturn hstep
  exact htracked.orderly

/-- A start that is answered by a new task. -/
def startRun : List ServiceEvent :=
  [ServiceEvent.send SyncServiceMessage.startSync, ServiceEvent.onMessage true,
    ServiceEvent.spawn true]

/-- The loop of a task ends in success, which cannot be written down. -/
def succeed (run : Nat) : List ServiceEvent :=
  [ServiceEvent.loopReturns run SyncOutcome.success,
    ServiceEvent.markComplete run false, ServiceEvent.publish run]

/-- Every event is handled before the next start. -/
def restart : List ServiceEvent :=
  startRun ++ succeed 0 ++ [ServiceEvent.onEvent, ServiceEvent.onEvent] ++ startRun

theorem restart_orderly :
    exists s, restart.foldlM
        (fun s e => if s.InTurn e then s.next e else none) (new false) = some s ∧
      s.Running 1 ∧ s.backSyncToken = some 1 ∧ Orderly s := by
  refine ⟨_, rfl, ⟨rfl, rfl⟩, rfl, ?_⟩
  have hrun : restart.foldlM (fun s e => if s.InTurn e then s.next e else none)
      (new false) = some _ := rfl
  exact orderly_of_inTurn (TransitionSystem.ReachableWhen.replay
    (fun _ _ _ h => h) (TransitionSystem.ReachableWhen.start ⟨false, rfl⟩) hrun)

/-- The outcome of the first task waits while it is stopped and another starts. -/
def staleOutcome : List ServiceEvent :=
  startRun ++ succeed 0 ++
    [ServiceEvent.send SyncServiceMessage.stopSync, ServiceEvent.onMessage true] ++
    startRun ++ [ServiceEvent.onEvent]

/--
The outcome of task 0 makes the worker forget task 1, and the next start spawns
task 2 beside it.
-/
theorem stale_outcome_forgets_task :
    exists s t u, staleOutcome.foldlM next (new false) = some s ∧
      s.backSyncToken = some 1 ∧ s.Running 1 ∧
      s.next ServiceEvent.onEvent = some t ∧
      t.backSyncToken = none ∧ t.Running 1 ∧
      startRun.foldlM next t = some u ∧ syncServiceSystem.Reachable u ∧
      u.Running 1 ∧ u.Running 2 ∧ ¬ Orderly s ∧ ¬ Orderly u := by
  refine ⟨_, _, _, rfl, rfl, ⟨rfl, rfl⟩, rfl, rfl, ⟨rfl, rfl⟩, rfl, ?_,
    ⟨rfl, rfl⟩, ⟨rfl, rfl⟩, ?_, ?_⟩
  · have hrun : (staleOutcome ++ [ServiceEvent.onEvent] ++ startRun).foldlM next
        (new false) = some _ := rfl
    exact TransitionSystem.Reachable.replay (fun _ _ _ h => h)
      (TransitionSystem.ReachableWhen.start ⟨false, rfl⟩) hrun
  · intro h
    exact absurd (h.own SyncOutcome.success 0 1 _ rfl rfl) (by decide)
  · intro h
    cases h.one 1 2 ⟨rfl, rfl⟩ ⟨rfl, rfl⟩

end SyncService

end BackwardSync
end MailClient
