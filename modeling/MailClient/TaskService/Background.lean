import Mathlib.Order.Basic
import MailClient.TaskService.Pausing

/-!
# The background aware task service

`BackgroundAwareTaskService` shares one task service between the application
and its background jobs.  Every call decides under a lock whether the tasks are
to be paused or resumed.  A resume is carried out under the lock as well, but a
pause only after the lock has been released.
-/

namespace MailClient
namespace TaskService

open Foundation

/-!
# Transitions under the lock
-/

inductive ServiceState where
  | active
  | suspended
  deriving DecidableEq, Repr

structure BackgroundAwareTaskState where
  main : ServiceState := ServiceState.active
  background : ServiceState := ServiceState.suspended
  backgroundTasks : Nat := 0
  deriving DecidableEq, Repr

def usizeMax : Nat := 18446744073709551615

namespace BackgroundAwareTaskState

def pauseMain (s : BackgroundAwareTaskState) :
    Bool × BackgroundAwareTaskState :=
  (s.main = ServiceState.active ∧ s.background = ServiceState.suspended,
    { s with main := ServiceState.suspended })

def pauseBackground (s : BackgroundAwareTaskState) :
    Bool × BackgroundAwareTaskState :=
  let tasks := s.backgroundTasks - 1
  (s.main = ServiceState.suspended ∧ s.background = ServiceState.active ∧
      s.backgroundTasks = 1,
    { s with
      backgroundTasks := tasks
      background :=
        if tasks = 0 then ServiceState.suspended else s.background })

def resumeBackground (s : BackgroundAwareTaskState) :
    Bool × BackgroundAwareTaskState :=
  (s.main = ServiceState.suspended ∧ s.background = ServiceState.suspended ∧
      s.backgroundTasks = 0,
    { s with
      backgroundTasks := min (s.backgroundTasks + 1) usizeMax
      background := ServiceState.active })

def resumeMain (s : BackgroundAwareTaskState) :
    Bool × BackgroundAwareTaskState :=
  (s.main = ServiceState.suspended ∧ s.background = ServiceState.suspended,
    { s with main := ServiceState.active })

/-- Neither the application nor a background job is active. -/
def Suspended (s : BackgroundAwareTaskState) : Prop :=
  s.main = ServiceState.suspended ∧ s.backgroundTasks = 0

instance (s : BackgroundAwareTaskState) : Decidable s.Suspended :=
  inferInstanceAs (Decidable (_ ∧ _))

/-- The background state only says whether there are background jobs. -/
def Consistent (s : BackgroundAwareTaskState) : Prop :=
  s.background = ServiceState.suspended ↔ s.backgroundTasks = 0

end BackgroundAwareTaskState

inductive PauseCall where
  | pauseMain
  | pauseBackground
  deriving DecidableEq, Repr

inductive ResumeCall where
  | resumeMain
  | resumeBackground
  deriving DecidableEq, Repr

def PauseCall.apply : PauseCall -> BackgroundAwareTaskState ->
    Bool × BackgroundAwareTaskState
  | pauseMain, s => s.pauseMain
  | pauseBackground, s => s.pauseBackground

def ResumeCall.apply : ResumeCall -> BackgroundAwareTaskState ->
    Bool × BackgroundAwareTaskState
  | resumeMain, s => s.resumeMain
  | resumeBackground, s => s.resumeBackground

/-!
# Concurrent calls
-/

/-- What the resume that holds the lock does next. -/
inductive Holding where
  | store
  | send
  deriving DecidableEq, Repr

structure BackgroundAwareTaskService where
  state : BackgroundAwareTaskState := {}
  active : Bool := true
  queue : List Command := []
  service : Service := {}
  holder : Option Holding := none
  /-- Pauses that have decided and are about to store the flag. -/
  storing : List (Option Awaiter) := []
  /-- Pauses that have stored the flag and are about to send their command. -/
  sending : List (Option Awaiter) := []
  deriving DecidableEq, Repr

/-- `sender` tells the calls that wait from those that do not. -/
inductive CallEvent where
  | pause (call : PauseCall) (sender : Option Awaiter)
  | storePause (sender : Option Awaiter)
  | sendPause (sender : Option Awaiter)
  | resume (call : ResumeCall)
  | storeResume
  | sendResume
  | task (c : Command)
  | handle
  deriving DecidableEq, Repr

namespace BackgroundAwareTaskService

def pause (s : BackgroundAwareTaskService) (call : PauseCall)
    (sender : Option Awaiter) : BackgroundAwareTaskService :=
  let (shouldPause, state) := call.apply s.state
  { s with
    state := state
    storing := if shouldPause then sender :: s.storing else s.storing }

def storePause (s : BackgroundAwareTaskService) (sender : Option Awaiter) :
    BackgroundAwareTaskService :=
  { s with
    active := false
    storing := s.storing.erase sender
    sending := sender :: s.sending }

def sendPause (s : BackgroundAwareTaskService) (sender : Option Awaiter) :
    BackgroundAwareTaskService :=
  { s with
    queue := s.queue ++ [Command.pause sender]
    sending := s.sending.erase sender }

def resume (s : BackgroundAwareTaskService) (call : ResumeCall) :
    BackgroundAwareTaskService :=
  let (doResume, state) := call.apply s.state
  { s with
    state := state
    holder := if doResume then some Holding.store else none }

def storeResume (s : BackgroundAwareTaskService) :
    BackgroundAwareTaskService :=
  { s with active := true, holder := some Holding.send }

def sendResume (s : BackgroundAwareTaskService) : BackgroundAwareTaskService :=
  { s with queue := s.queue ++ [Command.resume], holder := none }

def next (s : BackgroundAwareTaskService) :
    CallEvent -> Option BackgroundAwareTaskService
  | CallEvent.pause call sender =>
      if s.holder = none then some (s.pause call sender) else none
  | CallEvent.storePause sender =>
      if sender ∈ s.storing then some (s.storePause sender) else none
  | CallEvent.sendPause sender =>
      if sender ∈ s.sending then some (s.sendPause sender) else none
  | CallEvent.resume call =>
      if s.holder = none then some (s.resume call) else none
  | CallEvent.storeResume =>
      if s.holder = some Holding.store then some s.storeResume else none
  | CallEvent.sendResume =>
      if s.holder = some Holding.send then some s.sendResume else none
  | CallEvent.task c =>
      -- Futures announce, report and drop themselves at any time.
      if c.future = none then none
      else some { s with queue := s.queue ++ [c] }
  | CallEvent.handle =>
      match s.queue with
      | [] => none
      | c :: rest =>
          some { s with queue := rest, service := (s.service.handle c).1 }

/-- All calls have returned and all commands are processed. -/
def Quiescent (s : BackgroundAwareTaskService) : Prop :=
  s.queue = [] ∧ s.holder = none ∧ s.storing = [] ∧ s.sending = []

end BackgroundAwareTaskService

def CallRuns : TransitionSystem BackgroundAwareTaskService CallEvent where
  init := fun s => s = {}
  step := fun s e s' => s.next e = some s'

/--
A pause takes effect only as long as everything is still suspended, or while a
resume that holds the lock has the same channel still to write.
-/
def InTime (s : BackgroundAwareTaskService) : CallEvent -> Prop
  | CallEvent.storePause _ =>
      s.state.Suspended ∨ s.holder = some Holding.store
  | CallEvent.sendPause _ => s.state.Suspended ∨ s.holder ≠ none
  | _ => True

instance (s : BackgroundAwareTaskService) (e : CallEvent) :
    Decidable (InTime s e) :=
  match e with
  | CallEvent.storePause _ => inferInstanceAs (Decidable (_ ∨ _))
  | CallEvent.sendPause _ => inferInstanceAs (Decidable (_ ∨ _))
  | CallEvent.pause _ _ | CallEvent.resume _ | CallEvent.storeResume
  | CallEvent.sendResume | CallEvent.task _ | CallEvent.handle =>
      inferInstanceAs (Decidable True)

/-!
# What the calls decide
-/

namespace BackgroundAwareTaskState

variable {s : BackgroundAwareTaskState}

theorem Consistent.active_iff (h : s.Consistent) :
    s.background = ServiceState.active ↔ s.backgroundTasks ≠ 0 := by
  unfold Consistent at h
  rw [Ne, <- h]
  cases s.background <;> decide

theorem Consistent.pauseMain (h : s.Consistent) :
    (s.pauseMain.1 = true -> s.pauseMain.2.Suspended) ∧
      (s.pauseMain.1 = false -> (s.pauseMain.2.Suspended ↔ s.Suspended)) := by
  unfold BackgroundAwareTaskState.pauseMain Suspended
  simp only [decide_eq_true_eq, decide_eq_false_iff_not, true_and]
  constructor
  · intro hpause
    exact h.mp hpause.right
  · intro hnot
    constructor
    · intro htasks
      refine ⟨?_, htasks⟩
      cases hmain : s.main with
      | suspended => rfl
      | active => exact absurd ⟨hmain, h.mpr htasks⟩ hnot
    · exact And.right

theorem Consistent.pauseBackground (h : s.Consistent) :
    s.pauseBackground.2.Consistent ∧
      (s.pauseBackground.1 = true -> s.pauseBackground.2.Suspended) ∧
      (s.pauseBackground.1 = false ->
        (s.pauseBackground.2.Suspended ↔ s.Suspended)) := by
  unfold BackgroundAwareTaskState.pauseBackground Suspended
  simp only [decide_eq_true_eq, decide_eq_false_iff_not]
  refine ⟨?_, ?_, ?_⟩
  · unfold Consistent
    by_cases hlast : s.backgroundTasks - 1 = 0
    · simp [hlast]
    · have hbackground : s.background = ServiceState.active := by
        rw [h.active_iff]
        intro hzero
        rw [hzero] at hlast
        exact hlast rfl
      simp [hlast, hbackground]
  · intro hpause
    refine ⟨hpause.left, ?_⟩
    rw [hpause.right.right]
  · intro hnot
    constructor
    · intro hsuspended
      refine ⟨hsuspended.left, ?_⟩
      by_contra htasks
      -- The job that has ended was the only one, so the pause is called for.
      have hone : s.backgroundTasks = 1 := by omega
      exact hnot ⟨hsuspended.left, h.active_iff.mpr htasks, hone⟩
    · intro hsuspended
      refine ⟨hsuspended.left, ?_⟩
      rw [hsuspended.right]

theorem Consistent.resumeMain (h : s.Consistent) :
    ¬ s.resumeMain.2.Suspended ∧
      (s.resumeMain.1 = false -> ¬ s.Suspended) := by
  unfold BackgroundAwareTaskState.resumeMain Suspended
  simp only [decide_eq_false_iff_not]
  constructor
  · intro hsuspended
    cases hsuspended.left
  · intro hnot hsuspended
    exact hnot ⟨hsuspended.left, h.mpr hsuspended.right⟩

theorem Consistent.resumeBackground (h : s.Consistent) :
    s.resumeBackground.2.Consistent ∧ ¬ s.resumeBackground.2.Suspended ∧
      (s.resumeBackground.1 = false -> ¬ s.Suspended) := by
  have hmore : min (s.backgroundTasks + 1) usizeMax ≠ 0 := by
    unfold usizeMax
    omega
  unfold BackgroundAwareTaskState.resumeBackground Suspended
  simp only [decide_eq_false_iff_not]
  refine ⟨?_, ?_, ?_⟩
  · unfold Consistent
    simp [hmore]
  · intro hsuspended
    exact hmore hsuspended.right
  · intro hnot hsuspended
    exact hnot ⟨hsuspended.left, h.mpr hsuspended.right, hsuspended.right⟩

theorem Consistent.pause (h : s.Consistent) (call : PauseCall) :
    (call.apply s).2.Consistent ∧
      ((call.apply s).1 = true -> (call.apply s).2.Suspended) ∧
      ((call.apply s).1 = false ->
        ((call.apply s).2.Suspended ↔ s.Suspended)) := by
  cases call with
  | pauseMain => exact ⟨h, h.pauseMain⟩
  | pauseBackground => exact h.pauseBackground

theorem Consistent.resume (h : s.Consistent) (call : ResumeCall) :
    (call.apply s).2.Consistent ∧ ¬ (call.apply s).2.Suspended ∧
      ((call.apply s).1 = false -> ¬ s.Suspended) := by
  cases call with
  | resumeMain => exact ⟨h, h.resumeMain⟩
  | resumeBackground => exact h.resumeBackground

end BackgroundAwareTaskState

/-!
# The invariant

Each channel says what the state says, up to calls that still have to write it.
-/

namespace BackgroundAwareTaskService

/-- What the thread will have made of the commands in the queue. -/
def effective (s : BackgroundAwareTaskService) : Bool :=
  pausedAfter s.service.paused s.queue

end BackgroundAwareTaskService

structure InStep (s : BackgroundAwareTaskService) : Prop where
  consistent : s.state.Consistent
  holding : s.holder ≠ none -> ¬ s.state.Suspended
  flag_running : ¬ s.state.Suspended ->
    s.active = true ∨ s.holder = some Holding.store
  flag_suspended : s.state.Suspended -> s.active = false ∨ s.storing ≠ []
  queue_running : ¬ s.state.Suspended ->
    s.effective = false ∨ s.holder ≠ none
  queue_suspended : s.state.Suspended ->
    s.effective = true ∨ s.storing ≠ [] ∨ s.sending ≠ []

namespace InStep

variable {s s' : BackgroundAwareTaskService}

theorem pause (h : InStep s) (hholder : s.holder = none) (call : PauseCall)
    (sender : Option Awaiter) : InStep (s.pause call sender) := by
  rcases h.consistent.pause call with ⟨hconsistent, hcalled, hnot⟩
  cases hpause : (call.apply s.state).1 with
  | true =>
      have hsuspended : (s.pause call sender).state.Suspended := hcalled hpause
      have hstoring : (s.pause call sender).storing ≠ [] := by
        simp [BackgroundAwareTaskService.pause, hpause]
      refine ⟨hconsistent, ?_, ?_, ?_, ?_, ?_⟩
      · intro hheld
        exact absurd hholder hheld
      · intro hrunning
        exact absurd hsuspended hrunning
      · intro _
        exact Or.inr hstoring
      · intro hrunning
        exact absurd hsuspended hrunning
      · intro _
        exact Or.inr (Or.inl hstoring)
  | false =>
      have hsame : (s.pause call sender).state.Suspended ↔ s.state.Suspended :=
        hnot hpause
      have hstoring : (s.pause call sender).storing = s.storing := by
        simp [BackgroundAwareTaskService.pause, hpause]
      refine ⟨hconsistent, ?_, ?_, ?_, ?_, ?_⟩
      · rw [hsame]
        exact h.holding
      · rw [hsame]
        exact h.flag_running
      · rw [hsame, hstoring]
        exact h.flag_suspended
      · rw [hsame]
        exact h.queue_running
      · rw [hsame, hstoring]
        exact h.queue_suspended

theorem storePause (h : InStep s) (sender : Option Awaiter)
    (htime : s.state.Suspended ∨ s.holder = some Holding.store) :
    InStep (s.storePause sender) where
  consistent := h.consistent
  holding := h.holding
  flag_running := by
    intro hrunning
    exact Or.inr (htime.resolve_left hrunning)
  flag_suspended := fun _ => Or.inl rfl
  queue_running := h.queue_running
  queue_suspended := fun _ => Or.inr (Or.inr (List.cons_ne_nil _ _))

theorem sendPause (h : InStep s) (sender : Option Awaiter)
    (htime : s.state.Suspended ∨ s.holder ≠ none) :
    InStep (s.sendPause sender) where
  consistent := h.consistent
  holding := h.holding
  flag_running := h.flag_running
  flag_suspended := h.flag_suspended
  queue_running := by
    intro hrunning
    exact Or.inr (htime.resolve_left hrunning)
  queue_suspended := by
    intro _
    refine Or.inl ?_
    show pausedAfter s.service.paused (s.queue ++ [Command.pause sender]) = true
    rw [pausedAfter_append]
    rfl

theorem resume (h : InStep s) (hholder : s.holder = none)
    (call : ResumeCall) : InStep (s.resume call) := by
  rcases h.consistent.resume call with ⟨hconsistent, hrunning, hnot⟩
  have hstill : (call.apply s.state).1 = false -> s.active = true ∧
      s.effective = false := by
    intro hresume
    have hbefore := hnot hresume
    constructor
    · refine (h.flag_running hbefore).resolve_right ?_
      rw [hholder]
      exact fun heq => nomatch heq
    · exact (h.queue_running hbefore).resolve_right (fun hheld => hheld hholder)
  refine ⟨hconsistent, fun _ => hrunning, ?_, ?_, ?_, ?_⟩
  · intro _
    cases hresume : (call.apply s.state).1 with
    | true =>
        refine Or.inr ?_
        simp [BackgroundAwareTaskService.resume, hresume]
    | false => exact Or.inl (hstill hresume).left
  · intro hsuspended
    exact absurd hsuspended hrunning
  · intro _
    cases hresume : (call.apply s.state).1 with
    | true =>
        refine Or.inr ?_
        simp [BackgroundAwareTaskService.resume, hresume]
    | false => exact Or.inl (hstill hresume).right
  · intro hsuspended
    exact absurd hsuspended hrunning

theorem storeResume (h : InStep s) (hholder : s.holder = some Holding.store) :
    InStep s.storeResume := by
  have hrunning : ¬ s.state.Suspended := by
    apply h.holding
    rw [hholder]
    exact fun heq => nomatch heq
  refine ⟨h.consistent, fun _ => hrunning, fun _ => Or.inl rfl, ?_, ?_, ?_⟩
  · intro hsuspended
    exact absurd hsuspended hrunning
  · intro _
    exact Or.inr (fun heq => nomatch heq)
  · intro hsuspended
    exact absurd hsuspended hrunning

theorem sendResume (h : InStep s) (hholder : s.holder = some Holding.send) :
    InStep s.sendResume := by
  have hrunning : ¬ s.state.Suspended := by
    apply h.holding
    rw [hholder]
    exact fun heq => nomatch heq
  refine ⟨h.consistent, fun _ => hrunning, ?_, ?_, ?_, ?_⟩
  · intro _
    refine Or.inl ((h.flag_running hrunning).resolve_right ?_)
    rw [hholder]
    exact fun heq => nomatch heq
  · intro hsuspended
    exact absurd hsuspended hrunning
  · intro _
    refine Or.inl ?_
    show pausedAfter s.service.paused (s.queue ++ [Command.resume]) = false
    rw [pausedAfter_append]
    rfl
  · intro hsuspended
    exact absurd hsuspended hrunning

theorem of_effective (h : InStep s) (hstate : s'.state = s.state)
    (hactive : s'.active = s.active) (hholder : s'.holder = s.holder)
    (hstoring : s'.storing = s.storing) (hsending : s'.sending = s.sending)
    (heffective : s'.effective = s.effective) : InStep s' where
  consistent := by
    rw [hstate]
    exact h.consistent
  holding := by
    rw [hstate, hholder]
    exact h.holding
  flag_running := by
    rw [hstate, hactive, hholder]
    exact h.flag_running
  flag_suspended := by
    rw [hstate, hactive, hstoring]
    exact h.flag_suspended
  queue_running := by
    rw [hstate, heffective, hholder]
    exact h.queue_running
  queue_suspended := by
    rw [hstate, heffective, hstoring, hsending]
    exact h.queue_suspended

theorem next (h : InStep s) {e : CallEvent} (htime : InTime s e)
    (hstep : s.next e = some s') : InStep s' := by
  cases e with
  | pause call sender =>
      simp only [BackgroundAwareTaskService.next] at hstep
      split at hstep
      · rename_i hholder
        cases hstep
        exact h.pause hholder call sender
      · cases hstep
  | storePause sender =>
      simp only [BackgroundAwareTaskService.next] at hstep
      split at hstep
      · cases hstep
        exact h.storePause sender htime
      · cases hstep
  | sendPause sender =>
      simp only [BackgroundAwareTaskService.next] at hstep
      split at hstep
      · cases hstep
        exact h.sendPause sender htime
      · cases hstep
  | resume call =>
      simp only [BackgroundAwareTaskService.next] at hstep
      split at hstep
      · rename_i hholder
        cases hstep
        exact h.resume hholder call
      · cases hstep
  | storeResume =>
      simp only [BackgroundAwareTaskService.next] at hstep
      split at hstep
      · rename_i hholder
        cases hstep
        exact h.storeResume hholder
      · cases hstep
  | sendResume =>
      simp only [BackgroundAwareTaskService.next] at hstep
      split at hstep
      · rename_i hholder
        cases hstep
        exact h.sendResume hholder
      · cases hstep
  | task c =>
      simp only [BackgroundAwareTaskService.next] at hstep
      split at hstep
      · cases hstep
      · rename_i hfuture
        cases hstep
        refine h.of_effective rfl rfl rfl rfl rfl ?_
        show pausedAfter s.service.paused (s.queue ++ [c]) = s.effective
        rw [pausedAfter_append]
        cases c with
        | pause sender => exact absurd rfl hfuture
        | resume => exact absurd rfl hfuture
        | futureCreated f => rfl
        | futurePaused f => rfl
        | futureDropped f => rfl
  | handle =>
      cases hqueue : s.queue with
      | nil =>
          simp only [BackgroundAwareTaskService.next, hqueue] at hstep
          cases hstep
      | cons c rest =>
          simp only [BackgroundAwareTaskService.next, hqueue] at hstep
          cases hstep
          refine h.of_effective rfl rfl rfl rfl rfl ?_
          show pausedAfter (s.service.handle c).1.paused rest = s.effective
          rw [Service.handle_paused, BackgroundAwareTaskService.effective,
            hqueue]
          rfl

end InStep

/-!
# Main result
-/

theorem paused_iff_suspended {s : BackgroundAwareTaskService}
    (h : CallRuns.ReachableWhen InTime s) (hquiescent : s.Quiescent) :
    (s.active = false ↔ s.state.main = ServiceState.suspended ∧
        s.state.backgroundTasks = 0) ∧
      (s.service.paused = true ↔ s.state.main = ServiceState.suspended ∧
        s.state.backgroundTasks = 0) := by
  have hinv : InStep s := by
    refine TransitionSystem.invariant_when InStep ?_ ?_ h
    · intro s hinit
      rw [show s = {} from hinit]
      refine ⟨Iff.intro (fun _ => rfl) (fun _ => rfl), fun hheld => absurd rfl hheld,
        fun _ => Or.inl rfl, ?_, fun _ => Or.inl rfl, ?_⟩
      · intro hsuspended
        cases hsuspended.left
      · intro hsuspended
        cases hsuspended.left
    · intro s e s' _ hinv htime hstep
      exact hinv.next htime hstep
  rcases hquiescent with ⟨hqueue, hholder, hstoring, hsending⟩
  have heffective : s.effective = s.service.paused := by
    rw [BackgroundAwareTaskService.effective, hqueue]
    rfl
  by_cases hsuspended : s.state.Suspended
  · have hactive : s.active = false :=
      (hinv.flag_suspended hsuspended).resolve_right (fun hne => hne hstoring)
    have hpaused : s.service.paused = true := by
      rw [<- heffective]
      refine (hinv.queue_suspended hsuspended).resolve_right ?_
      intro hpending
      rcases hpending with hne | hne
      · exact hne hstoring
      · exact hne hsending
    exact ⟨⟨fun _ => hsuspended, fun _ => hactive⟩,
      ⟨fun _ => hsuspended, fun _ => hpaused⟩⟩
  · have hactive : s.active = true := by
      refine (hinv.flag_running hsuspended).resolve_right ?_
      rw [hholder]
      exact fun heq => nomatch heq
    have hpaused : s.service.paused = false := by
      rw [<- heffective]
      exact (hinv.queue_running hsuspended).resolve_right
        (fun hheld => hheld hholder)
    rw [hactive, hpaused]
    exact ⟨⟨(fun heq => nomatch heq), fun hboth => absurd hboth hsuspended⟩,
      ⟨(fun heq => nomatch heq), fun hboth => absurd hboth hsuspended⟩⟩

/-- The application is suspended while a background job runs, then it ends. -/
def backgroundJob : List CallEvent :=
  [CallEvent.resume ResumeCall.resumeBackground,
    CallEvent.pause PauseCall.pauseMain none,
    CallEvent.pause PauseCall.pauseBackground none,
    CallEvent.storePause none, CallEvent.sendPause none, CallEvent.handle]

theorem backgroundJob_paused :
    exists s : BackgroundAwareTaskService, s.Quiescent ∧
      s.state.main = ServiceState.suspended ∧ s.state.backgroundTasks = 0 ∧
      s.active = false ∧ s.service.paused = true := by
  have hrun : exists s : BackgroundAwareTaskService,
      List.foldlM (fun s e => if InTime s e then s.next e else none) {}
        backgroundJob = some s ∧
      s.Quiescent ∧ s.state.main = ServiceState.suspended ∧
      s.state.backgroundTasks = 0 :=
    ⟨_, rfl, ⟨rfl, rfl, rfl, rfl⟩, rfl, rfl⟩
  rcases hrun with ⟨s, hs, hquiescent, hmain, htasks⟩
  have hreach : CallRuns.ReachableWhen InTime s :=
    TransitionSystem.ReachableWhen.replay (fun _ _ _ h => h)
      (TransitionSystem.ReachableWhen.start rfl) hs
  have hpaused := paused_iff_suspended hreach hquiescent
  exact ⟨s, hquiescent, hmain, htasks, hpaused.left.mpr ⟨hmain, htasks⟩,
    hpaused.right.mpr ⟨hmain, htasks⟩⟩

/-- A pause of the application that is overtaken by its resume. -/
def overtaken : List CallEvent :=
  [CallEvent.pause PauseCall.pauseMain none,
    CallEvent.resume ResumeCall.resumeMain, CallEvent.storeResume,
    CallEvent.sendResume, CallEvent.storePause none, CallEvent.sendPause none,
    CallEvent.handle, CallEvent.handle]

theorem overtaken_paused :
    exists s : BackgroundAwareTaskService, CallRuns.Reachable s ∧
      List.foldlM BackgroundAwareTaskService.next {} overtaken = some s ∧
      s.Quiescent ∧ s.active = false ∧ s.service.paused = true ∧
      s.state.main = ServiceState.active := by
  have hrun : exists s : BackgroundAwareTaskService,
      List.foldlM BackgroundAwareTaskService.next {} overtaken = some s ∧
      s.Quiescent ∧ s.active = false ∧ s.service.paused = true ∧
      s.state.main = ServiceState.active :=
    ⟨_, rfl, ⟨rfl, rfl, rfl, rfl⟩, rfl, rfl, rfl⟩
  rcases hrun with ⟨s, hs, hrest⟩
  refine ⟨s, ?_, hs, hrest⟩
  exact TransitionSystem.Reachable.replay (fun _ _ _ h => h)
    (TransitionSystem.ReachableWhen.start rfl) hs

end TaskService
end MailClient
