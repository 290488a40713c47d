import Mathlib.Order.Basic
import MailClient.Foundation.Transition

/-!
# The network monitor

The network monitor combines what the operating system says about the network
with what requests have met.  Both arrive through watch channels, which keep
only the latest value.  While the combined status is not online, a tester task
is to look for the moment at which the network is back.
-/

namespace MailClient
namespace NetworkMonitor

open Foundation

inductive RequestNetworkStatus where
  | online
  | serverUnreachable
  | offline
  deriving DecidableEq, Repr

inductive OsNetworkStatus where
  | online
  | offline
  deriving DecidableEq, Repr

def RequestNetworkStatus.combine (osStatus : OsNetworkStatus)
    (requestStatus : RequestNetworkStatus) : RequestNetworkStatus :=
  if osStatus = OsNetworkStatus.offline then RequestNetworkStatus.offline
  else requestStatus

open RequestNetworkStatus (combine)

/-- A watch channel with its one receiver. -/
structure Watch (α : Type) where
  value : α
  unseen : Bool := false
  deriving DecidableEq, Repr

def updateWatcherValue {α : Type} [DecidableEq α] (channel : Watch α)
    (value : α) : Watch α :=
  if channel.value = value then channel
  else { value := value, unseen := true }

/-!
# The tester task
-/

structure BackgroundConfig where
  maxCount : Nat
  infiniteChecks : Bool

inductive TesterTask where
  | running (retries : Nat)
  | finished
  deriving DecidableEq, Repr

/-- What the task does once a check has returned. -/
def networkTester (config : BackgroundConfig) (retries : Nat)
    (status : RequestNetworkStatus) : TesterTask :=
  if status = RequestNetworkStatus.online then TesterTask.finished
  else
    match retries with
    | retries + 1 => TesterTask.running retries
    | 0 =>
        if config.infiniteChecks then TesterTask.running config.maxCount
        else TesterTask.finished

/-!
# The background task
-/

/-- Where the background task is between two of its reads. -/
inductive Phase where
  | select
  | osChanged
  | checking
  | requestChanged
  deriving DecidableEq, Repr

structure Monitor where
  osNetworkWatcher : Watch OsNetworkStatus
  requestWatcher : Watch RequestNetworkStatus
  /-- The published status. -/
  subscriberWatcher : RequestNetworkStatus
  osNetworkStatus : OsNetworkStatus
  requestNetworkStatus : RequestNetworkStatus
  subscriberStatus : RequestNetworkStatus
  testerTask : Option TesterTask
  phase : Phase
  deriving DecidableEq, Repr

namespace Monitor

def combined (m : Monitor) : RequestNetworkStatus :=
  combine m.osNetworkStatus m.requestNetworkStatus

/-- The tester task that goes with a new combined status. -/
def nextTesterTask (config : BackgroundConfig) (m : Monitor) :
    Option TesterTask :=
  if m.combined = RequestNetworkStatus.online then none
  else if m.osNetworkStatus = OsNetworkStatus.online then
    match m.testerTask with
    | none => some (TesterTask.running config.maxCount)
    | some task => some task
  else none

def updateSubscriberStatus (config : BackgroundConfig) (m : Monitor) :
    Monitor :=
  { m with
    subscriberWatcher := m.combined
    testerTask :=
      if m.subscriberStatus = m.combined then m.testerTask
      else m.nextTesterTask config
    subscriberStatus := m.combined }

/-- The background task as `new` leaves it. -/
def new (config : BackgroundConfig) (os : Watch OsNetworkStatus)
    (request : Watch RequestNetworkStatus) : Monitor :=
  updateSubscriberStatus config
    { osNetworkWatcher := os
      requestWatcher := request
      subscriberWatcher := RequestNetworkStatus.online
      osNetworkStatus := os.value
      requestNetworkStatus := request.value
      subscriberStatus := RequestNetworkStatus.online
      testerTask := none
      phase := Phase.select }

/-- The first part of `update_os_network_status`, up to its check. -/
def readOsNetworkStatus (config : BackgroundConfig) (m : Monitor) : Monitor :=
  if m.osNetworkWatcher.value = m.osNetworkStatus then
    { m with phase := Phase.select }
  else if m.osNetworkWatcher.value = OsNetworkStatus.online then
    { m with
      osNetworkStatus := m.osNetworkWatcher.value
      phase := Phase.checking }
  else
    updateSubscriberStatus config
      { m with
        osNetworkStatus := m.osNetworkWatcher.value
        testerTask := none
        phase := Phase.select }

/-- The rest of `update_os_network_status`, with the result of the check. -/
def finishCheck (config : BackgroundConfig) (m : Monitor)
    (status : RequestNetworkStatus) : Monitor :=
  updateSubscriberStatus config
    { m with
      requestWatcher := updateWatcherValue m.requestWatcher status
      requestNetworkStatus := status
      phase := Phase.select }

def updateRequestNetworkStatus (config : BackgroundConfig) (m : Monitor) :
    Monitor :=
  if m.requestWatcher.value = m.requestNetworkStatus then
    { m with phase := Phase.select }
  else
    updateSubscriberStatus config
      { m with
        requestNetworkStatus := m.requestWatcher.value
        phase := Phase.select }

end Monitor

inductive MonitorEvent where
  | updateOs (status : OsNetworkStatus)
  /-- A connection, an immediate check or an aborted tester reports. -/
  | report (status : RequestNetworkStatus)
  | testerCheck (status : RequestNetworkStatus)
  | osChanged
  | readOs
  | osChecked (status : RequestNetworkStatus)
  | requestChanged
  | readRequest
  deriving DecidableEq, Repr

namespace Monitor

def next (config : BackgroundConfig) (m : Monitor) :
    MonitorEvent -> Option Monitor
  | MonitorEvent.updateOs status =>
      some { m with
        osNetworkWatcher := updateWatcherValue m.osNetworkWatcher status }
  | MonitorEvent.report status =>
      some { m with
        requestWatcher := updateWatcherValue m.requestWatcher status }
  | MonitorEvent.testerCheck status =>
      match m.testerTask with
      | some (TesterTask.running retries) =>
          some { m with
            requestWatcher := updateWatcherValue m.requestWatcher status
            testerTask := some (networkTester config retries status) }
      | _ => none
  | MonitorEvent.osChanged =>
      if m.phase = Phase.select ∧ m.osNetworkWatcher.unseen = true then
        some { m with
          osNetworkWatcher := { m.osNetworkWatcher with unseen := false }
          phase := Phase.osChanged }
      else none
  | MonitorEvent.readOs =>
      if m.phase = Phase.osChanged then some (m.readOsNetworkStatus config)
      else none
  | MonitorEvent.osChecked status =>
      if m.phase = Phase.checking then some (m.finishCheck config status)
      else none
  | MonitorEvent.requestChanged =>
      if m.phase = Phase.select ∧ m.requestWatcher.unseen = true then
        some { m with
          requestWatcher := { m.requestWatcher with unseen := false }
          phase := Phase.requestChanged }
      else none
  | MonitorEvent.readRequest =>
      if m.phase = Phase.requestChanged then
        some (m.updateRequestNetworkStatus config)
      else none

/-- The background task waits and there is no change that it has not seen. -/
def Idle (m : Monitor) : Prop :=
  m.phase = Phase.select ∧ m.osNetworkWatcher.unseen = false ∧
    m.requestWatcher.unseen = false

end Monitor

def MonitorRuns (config : BackgroundConfig) :
    TransitionSystem Monitor MonitorEvent where
  init := fun m => exists os request, m = Monitor.new config os request
  step := fun m e m' => m.next config e = some m'

/--
The check that follows the return of the operating system does not find the
network offline, and nothing but success is reported between the end of the
tester and the moment at which the background task takes notice.
-/
def Harmless (m : Monitor) : MonitorEvent -> Prop
  | MonitorEvent.report status =>
      status = RequestNetworkStatus.online ∨
        m.testerTask ≠ some TesterTask.finished
  | MonitorEvent.osChecked status => status ≠ RequestNetworkStatus.offline
  | _ => True

instance (m : Monitor) (e : MonitorEvent) : Decidable (Harmless m e) :=
  match e with
  | MonitorEvent.report _ => inferInstanceAs (Decidable (_ ∨ _))
  | MonitorEvent.osChecked _ => inferInstanceAs (Decidable (_ ≠ _))
  | MonitorEvent.updateOs _ | MonitorEvent.testerCheck _
  | MonitorEvent.osChanged | MonitorEvent.readOs | MonitorEvent.requestChanged
  | MonitorEvent.readRequest => inferInstanceAs (Decidable True)

/-!
# What a step can do
-/

inductive Monitor.Step (config : BackgroundConfig) (m : Monitor) :
    MonitorEvent -> Monitor -> Prop where
  | updateOs (status : OsNetworkStatus) :
      Step config m (MonitorEvent.updateOs status)
        { m with
          osNetworkWatcher := updateWatcherValue m.osNetworkWatcher status }
  | report (status : RequestNetworkStatus) :
      Step config m (MonitorEvent.report status)
        { m with
          requestWatcher := updateWatcherValue m.requestWatcher status }
  | testerCheck (status : RequestNetworkStatus) (retries : Nat) :
      m.testerTask = some (TesterTask.running retries) ->
      Step config m (MonitorEvent.testerCheck status)
        { m with
          requestWatcher := updateWatcherValue m.requestWatcher status
          testerTask := some (networkTester config retries status) }
  | osChanged :
      m.phase = Phase.select ->
      Step config m MonitorEvent.osChanged
        { m with
          osNetworkWatcher := { m.osNetworkWatcher with unseen := false }
          phase := Phase.osChanged }
  | readOs :
      m.phase = Phase.osChanged ->
      Step config m MonitorEvent.readOs (m.readOsNetworkStatus config)
  | osChecked (status : RequestNetworkStatus) :
      m.phase = Phase.checking ->
      Step config m (MonitorEvent.osChecked status)
        (m.finishCheck config status)
  | requestChanged :
      m.phase = Phase.select ->
      Step config m MonitorEvent.requestChanged
        { m with
          requestWatcher := { m.requestWatcher with unseen := false }
          phase := Phase.requestChanged }
  | readRequest :
      m.phase = Phase.requestChanged ->
      Step config m MonitorEvent.readRequest
        (m.updateRequestNetworkStatus config)

theorem Monitor.step_of_next {config : BackgroundConfig} {m m' : Monitor}
    {e : MonitorEvent} (h : m.next config e = some m') :
    m.Step config e m' := by
  cases e with
  | updateOs status =>
      cases h
      exact Step.updateOs status
  | report status =>
      cases h
      exact Step.report status
  | testerCheck status =>
      simp only [Monitor.next] at h
      split at h
      · rename_i retries htask
        cases h
        exact Step.testerCheck status retries htask
      · cases h
  | osChanged =>
      simp only [Monitor.next] at h
      split at h
      · rename_i hguard
        cases h
        exact Step.osChanged hguard.left
      · cases h
  | readOs =>
      simp only [Monitor.next] at h
      split at h
      · rename_i hguard
        cases h
        exact Step.readOs hguard
      · cases h
  | osChecked status =>
      simp only [Monitor.next] at h
      split at h
      · rename_i hguard
        cases h
        exact Step.osChecked status hguard
      · cases h
  | requestChanged =>
      simp only [Monitor.next] at h
      split at h
      · rename_i hguard
        cases h
        exact Step.requestChanged hguard.left
      · cases h
  | readRequest =>
      simp only [Monitor.next] at h
      split at h
      · rename_i hguard
        cases h
        exact Step.readRequest hguard
      · cases h

/-!
# What the background task knows
-/

theorem updateWatcherValue_value {α : Type} [DecidableEq α] (w : Watch α)
    (v : α) : (updateWatcherValue w v).value = v := by
  unfold updateWatcherValue
  split
  · assumption
  · rfl

theorem updateWatcherValue_seen {α : Type} [DecidableEq α] {w : Watch α}
    {v : α} (h : (updateWatcherValue w v).unseen = false) :
    w.unseen = false ∧ w.value = v := by
  unfold updateWatcherValue at h
  split at h
  · rename_i hsame
    exact ⟨h, hsame⟩
  · cases h

theorem Monitor.was_offline (m : Monitor)
    (hdiff : ¬ m.osNetworkWatcher.value = m.osNetworkStatus)
    (honline : m.osNetworkWatcher.value = OsNetworkStatus.online) :
    m.osNetworkStatus = OsNetworkStatus.offline := by
  cases hos : m.osNetworkStatus with
  | online => exact absurd (honline.trans hos.symm) hdiff
  | offline => rfl

/-- What the task has read is what the channels hold, unless it will look. -/
structure Informed (m : Monitor) : Prop where
  published : m.subscriberWatcher = m.subscriberStatus
  combined : m.phase ≠ Phase.checking -> m.subscriberStatus = m.combined
  checking : m.phase = Phase.checking ->
    m.subscriberStatus = RequestNetworkStatus.offline ∧
      m.osNetworkStatus = OsNetworkStatus.online
  os : m.osNetworkWatcher.unseen = false -> m.phase ≠ Phase.osChanged ->
    m.osNetworkStatus = m.osNetworkWatcher.value
  request : m.requestWatcher.unseen = false ->
    m.phase ≠ Phase.requestChanged ->
    m.requestNetworkStatus = m.requestWatcher.value

namespace Informed

variable {config : BackgroundConfig} {m m' : Monitor}

theorem updateSubscriberStatus (hphase : m.phase = Phase.select)
    (hos : m.osNetworkWatcher.unseen = false ->
      m.osNetworkStatus = m.osNetworkWatcher.value)
    (hrequest : m.requestWatcher.unseen = false ->
      m.requestNetworkStatus = m.requestWatcher.value) :
    Informed (m.updateSubscriberStatus config) where
  published := rfl
  combined := fun _ => rfl
  checking := by
    intro hchecking
    rw [show (m.updateSubscriberStatus config).phase = Phase.select from hphase]
      at hchecking
    cases hchecking
  os := fun hseen _ => hos hseen
  request := fun hseen _ => hrequest hseen

theorem new (config : BackgroundConfig) (os : Watch OsNetworkStatus)
    (request : Watch RequestNetworkStatus) :
    Informed (Monitor.new config os request) :=
  updateSubscriberStatus rfl (fun _ => rfl) (fun _ => rfl)

theorem report (h : Informed m) (status : RequestNetworkStatus)
    (task : Option TesterTask) :
    Informed { m with
      requestWatcher := updateWatcherValue m.requestWatcher status
      testerTask := task } where
  published := h.published
  combined := h.combined
  checking := h.checking
  os := h.os
  request := by
    intro hseen hphase
    rw [updateWatcherValue_value]
    rcases updateWatcherValue_seen hseen with ⟨hold, hsame⟩
    rw [h.request hold hphase, hsame]

theorem updateOs (h : Informed m) (status : OsNetworkStatus) :
    Informed { m with
      osNetworkWatcher := updateWatcherValue m.osNetworkWatcher status } where
  published := h.published
  combined := h.combined
  checking := h.checking
  os := by
    intro hseen hphase
    rw [updateWatcherValue_value]
    rcases updateWatcherValue_seen hseen with ⟨hold, hsame⟩
    rw [h.os hold hphase, hsame]
  request := h.request

theorem osChanged (h : Informed m) (hphase : m.phase = Phase.select) :
    Informed { m with
      osNetworkWatcher := { m.osNetworkWatcher with unseen := false }
      phase := Phase.osChanged } where
  published := h.published
  combined := by
    intro _
    refine h.combined ?_
    rw [hphase]
    exact fun heq => nomatch heq
  checking := fun heq => nomatch heq
  os := fun _ hne => absurd rfl hne
  request := by
    intro hseen _
    refine h.request hseen ?_
    rw [hphase]
    exact fun heq => nomatch heq

theorem requestChanged (h : Informed m) (hphase : m.phase = Phase.select) :
    Informed { m with
      requestWatcher := { m.requestWatcher with unseen := false }
      phase := Phase.requestChanged } where
  published := h.published
  combined := by
    intro _
    refine h.combined ?_
    rw [hphase]
    exact fun heq => nomatch heq
  checking := fun heq => nomatch heq
  os := by
    intro hseen _
    refine h.os hseen ?_
    rw [hphase]
    exact fun heq => nomatch heq
  request := fun _ hne => absurd rfl hne

theorem unchanged (h : Informed m) (hphase : m.phase ≠ Phase.checking)
    (hos : m.osNetworkWatcher.unseen = false ->
      m.osNetworkStatus = m.osNetworkWatcher.value)
    (hrequest : m.requestWatcher.unseen = false ->
      m.requestNetworkStatus = m.requestWatcher.value) :
    Informed { m with phase := Phase.select } where
  published := h.published
  combined := fun _ => h.combined hphase
  checking := fun heq => nomatch heq
  os := fun hseen _ => hos hseen
  request := fun hseen _ => hrequest hseen

theorem readOs (h : Informed m) (hphase : m.phase = Phase.osChanged) :
    Informed (m.readOsNetworkStatus config) := by
  have hnot : m.phase ≠ Phase.checking := by
    rw [hphase]
    exact fun heq => nomatch heq
  have hrequest : m.requestWatcher.unseen = false ->
      m.requestNetworkStatus = m.requestWatcher.value := by
    intro hseen
    refine h.request hseen ?_
    rw [hphase]
    exact fun heq => nomatch heq
  unfold Monitor.readOsNetworkStatus
  split
  · rename_i hsame
    exact h.unchanged hnot (fun _ => hsame.symm) hrequest
  · rename_i hdiff
    split
    · rename_i honline
      have hwas := m.was_offline hdiff honline
      refine ⟨h.published, fun hne => absurd rfl hne, ?_, fun _ _ => rfl, ?_⟩
      · intro _
        refine ⟨?_, honline⟩
        show m.subscriberStatus = RequestNetworkStatus.offline
        rw [h.combined hnot, Monitor.combined, combine, if_pos hwas]
      · exact fun hseen _ => hrequest hseen
    · exact updateSubscriberStatus rfl (fun _ => rfl) hrequest

theorem finishCheck (h : Informed m) (hphase : m.phase = Phase.checking)
    (status : RequestNetworkStatus) :
    Informed (m.finishCheck config status) := by
  refine updateSubscriberStatus rfl ?_ ?_
  · intro hseen
    refine h.os hseen ?_
    rw [hphase]
    exact fun heq => nomatch heq
  · intro _
    exact (updateWatcherValue_value _ _).symm

theorem readRequest (h : Informed m) (hphase : m.phase = Phase.requestChanged) :
    Informed (m.updateRequestNetworkStatus config) := by
  have hnot : m.phase ≠ Phase.checking := by
    rw [hphase]
    exact fun heq => nomatch heq
  have hos : m.osNetworkWatcher.unseen = false ->
      m.osNetworkStatus = m.osNetworkWatcher.value := by
    intro hseen
    refine h.os hseen ?_
    rw [hphase]
    exact fun heq => nomatch heq
  unfold Monitor.updateRequestNetworkStatus
  split
  · rename_i hsame
    exact h.unchanged hnot hos (fun _ => hsame.symm)
  · exact updateSubscriberStatus rfl hos (fun _ => rfl)

theorem next {e : MonitorEvent} (h : Informed m) (hstep : m.Step config e m') :
    Informed m' := by
  cases hstep with
  | updateOs status => exact h.updateOs status
  | report status => exact h.report status m.testerTask
  | testerCheck status retries _ => exact h.report status _
  | osChanged hphase => exact h.osChanged hphase
  | readOs hphase => exact h.readOs hphase
  | osChecked status hphase => exact h.finishCheck hphase status
  | requestChanged hphase => exact h.requestChanged hphase
  | readRequest hphase => exact h.readRequest hphase

theorem of_reachable (h : (MonitorRuns config).Reachable m) : Informed m := by
  refine TransitionSystem.invariant Informed ?_ ?_ h
  · rintro _ ⟨os, request, rfl⟩
    exact new config os request
  · intro m e m' _ hinformed hstep
    exact hinformed.next (Monitor.step_of_next hstep)

end Informed

/-!
# The tester task runs
-/

theorem networkTester_finished {config : BackgroundConfig}
    (hinfinite : config.infiniteChecks = true) {retries : Nat}
    {status : RequestNetworkStatus}
    (h : networkTester config retries status = TesterTask.finished) :
    status = RequestNetworkStatus.online := by
  unfold networkTester at h
  split at h
  · assumption
  · cases retries with
    | zero => cases h
    | succ retries => cases h

namespace Monitor

variable {config : BackgroundConfig} {m : Monitor}

theorem updateSubscriberStatus_finished
    (h : (m.updateSubscriberStatus config).testerTask =
      some TesterTask.finished) : m.testerTask = some TesterTask.finished := by
  simp only [updateSubscriberStatus, nextTesterTask] at h
  split at h
  · exact h
  · split at h
    · cases h
    · split at h
      · cases htask : m.testerTask with
        | none =>
            rw [htask] at h
            cases h
        | some task =>
            rw [htask] at h
            exact h
      · cases h

theorem updateSubscriberStatus_none
    (hos : m.osNetworkStatus = OsNetworkStatus.offline)
    (htask : m.testerTask = none) :
    (m.updateSubscriberStatus config).testerTask = none := by
  simp only [updateSubscriberStatus, nextTesterTask, htask, hos]
  split
  · rfl
  · split
    · rfl
    · rfl

theorem updateSubscriberStatus_started
    (hos : m.osNetworkStatus = OsNetworkStatus.online)
    (honline : m.combined ≠ RequestNetworkStatus.online)
    (hsame : m.subscriberStatus = m.combined -> m.testerTask ≠ none) :
    (m.updateSubscriberStatus config).testerTask ≠ none := by
  simp only [updateSubscriberStatus, nextTesterTask]
  split
  · rename_i hequal
    exact hsame hequal
  · split
    · exact fun heq => nomatch heq
    · exact fun heq => nomatch heq

end Monitor

structure Tested (m : Monitor) : Prop where
  aborted : m.osNetworkStatus = OsNetworkStatus.offline -> m.testerTask = none
  checking : m.phase = Phase.checking -> m.testerTask = none
  finished : m.testerTask = some TesterTask.finished ->
    m.requestWatcher.value = RequestNetworkStatus.online
  started : m.phase ≠ Phase.checking ->
    m.osNetworkStatus = OsNetworkStatus.online ->
    m.subscriberStatus ≠ RequestNetworkStatus.online -> m.testerTask ≠ none

namespace Tested

variable {config : BackgroundConfig} {m m' : Monitor}

theorem updateSubscriberStatus (hphase : m.phase = Phase.select)
    (haborted : m.osNetworkStatus = OsNetworkStatus.offline ->
      m.testerTask = none)
    (hfinished : m.testerTask = some TesterTask.finished ->
      m.requestWatcher.value = RequestNetworkStatus.online)
    (hstarted : m.osNetworkStatus = OsNetworkStatus.online ->
      m.combined ≠ RequestNetworkStatus.online ->
      m.subscriberStatus = m.combined -> m.testerTask ≠ none) :
    Tested (m.updateSubscriberStatus config) where
  aborted := fun hos => Monitor.updateSubscriberStatus_none hos (haborted hos)
  checking := by
    intro hchecking
    rw [show (m.updateSubscriberStatus config).phase = Phase.select from hphase]
      at hchecking
    cases hchecking
  finished := fun htask =>
    hfinished (Monitor.updateSubscriberStatus_finished htask)
  started := fun _ hos honline =>
    Monitor.updateSubscriberStatus_started hos honline (hstarted hos honline)

theorem new (config : BackgroundConfig) (os : Watch OsNetworkStatus)
    (request : Watch RequestNetworkStatus) :
    Tested (Monitor.new config os request) := by
  refine updateSubscriberStatus rfl (fun _ => rfl) (fun heq => nomatch heq) ?_
  intro _ honline hsame
  exact absurd hsame.symm honline

theorem readOs (h : Tested m) (hphase : m.phase = Phase.osChanged) :
    Tested (m.readOsNetworkStatus config) := by
  have hnot : m.phase ≠ Phase.checking := by
    rw [hphase]
    exact fun heq => nomatch heq
  unfold Monitor.readOsNetworkStatus
  split
  · exact ⟨h.aborted, (fun heq => nomatch heq), h.finished,
      fun _ => h.started hnot⟩
  · rename_i hdiff
    split
    · rename_i honline
      have hwas := m.was_offline hdiff honline
      have hnone : m.testerTask = none := h.aborted hwas
      exact ⟨fun _ => hnone, fun _ => hnone, h.finished,
        fun hne => absurd rfl hne⟩
    · rename_i hoffline
      refine updateSubscriberStatus rfl (fun _ => rfl) (fun heq => nomatch heq) ?_
      intro honline
      exact absurd honline hoffline

theorem finishCheck (h : Tested m) (hinformed : Informed m)
    (hphase : m.phase = Phase.checking) {status : RequestNetworkStatus}
    (hstatus : status ≠ RequestNetworkStatus.offline) :
    Tested (m.finishCheck config status) := by
  have hnone : m.testerTask = none := h.checking hphase
  rcases hinformed.checking hphase with ⟨hsubscriber, hos⟩
  refine updateSubscriberStatus rfl (fun _ => hnone) ?_ ?_
  · intro hfinished
    rw [show m.testerTask = some TesterTask.finished from hfinished] at hnone
    cases hnone
  · intro _ _ hsame
    -- The subscribers were told Offline, which is not what the check says.
    have hcombined : m.subscriberStatus = combine m.osNetworkStatus status :=
      hsame
    rw [hsubscriber, hos] at hcombined
    exact absurd hcombined.symm hstatus

theorem readRequest (h : Tested m) (hphase : m.phase = Phase.requestChanged) :
    Tested (m.updateRequestNetworkStatus config) := by
  have hnot : m.phase ≠ Phase.checking := by
    rw [hphase]
    exact fun heq => nomatch heq
  unfold Monitor.updateRequestNetworkStatus
  split
  · exact ⟨h.aborted, (fun heq => nomatch heq), h.finished,
      fun _ => h.started hnot⟩
  · refine updateSubscriberStatus rfl h.aborted h.finished ?_
    intro hos honline hsame
    refine h.started hnot hos ?_
    rw [show m.subscriberStatus = _ from hsame]
    exact honline

theorem report (h : Tested m) {status : RequestNetworkStatus}
    (hharmless : status = RequestNetworkStatus.online ∨
      m.testerTask ≠ some TesterTask.finished) :
    Tested { m with
      requestWatcher := updateWatcherValue m.requestWatcher status } where
  aborted := h.aborted
  checking := h.checking
  finished := by
    intro hfinished
    rw [updateWatcherValue_value]
    exact hharmless.resolve_right (fun hne => hne hfinished)
  started := h.started

theorem testerCheck (h : Tested m) (hinfinite : config.infiniteChecks = true)
    {retries : Nat} (htask : m.testerTask = some (TesterTask.running retries))
    (status : RequestNetworkStatus) :
    Tested { m with
      requestWatcher := updateWatcherValue m.requestWatcher status
      testerTask := some (networkTester config retries status) } where
  aborted := by
    intro hos
    rw [h.aborted hos] at htask
    cases htask
  checking := by
    intro hchecking
    rw [h.checking hchecking] at htask
    cases htask
  finished := by
    intro hfinished
    rw [updateWatcherValue_value]
    exact networkTester_finished hinfinite (Option.some.inj hfinished)
  started := fun _ _ _ heq => nomatch heq

theorem next {e : MonitorEvent} (h : Tested m) (hinformed : Informed m)
    (hinfinite : config.infiniteChecks = true) (hharmless : Harmless m e)
    (hstep : m.Step config e m') : Tested m' := by
  cases hstep with
  | updateOs status => exact ⟨h.aborted, h.checking, h.finished, h.started⟩
  | report status => exact h.report hharmless
  | testerCheck status retries htask =>
      exact h.testerCheck hinfinite htask status
  | osChanged hphase =>
      refine ⟨h.aborted, (fun heq => nomatch heq), h.finished, ?_⟩
      intro _
      refine h.started ?_
      rw [hphase]
      exact fun heq => nomatch heq
  | readOs hphase => exact h.readOs hphase
  | osChecked status hphase => exact h.finishCheck hinformed hphase hharmless
  | requestChanged hphase =>
      refine ⟨h.aborted, (fun heq => nomatch heq), h.finished, ?_⟩
      intro _
      refine h.started ?_
      rw [hphase]
      exact fun heq => nomatch heq
  | readRequest hphase => exact h.readRequest hphase

theorem of_reachable (hinfinite : config.infiniteChecks = true)
    (h : (MonitorRuns config).ReachableWhen Harmless m) : Tested m := by
  refine TransitionSystem.invariant_when Tested ?_ ?_ h
  · rintro _ ⟨os, request, rfl⟩
    exact new config os request
  · intro m e m' hreach htested hharmless hstep
    exact htested.next (Informed.of_reachable hreach.reachable) hinfinite
      hharmless (Monitor.step_of_next hstep)

end Tested

/-!
# Main result
-/

namespace Monitor

variable {config : BackgroundConfig} {m : Monitor}

theorem recover (hphase : m.phase = Phase.select)
    (hos : m.osNetworkStatus = OsNetworkStatus.online)
    (hrequest : m.requestNetworkStatus = m.requestWatcher.value)
    (honline : m.requestWatcher.value ≠ RequestNetworkStatus.online)
    {retries : Nat} (htask : m.testerTask = some (TesterTask.running retries)) :
    exists m' : Monitor,
      List.foldlM (Monitor.next config) m
        [MonitorEvent.testerCheck RequestNetworkStatus.online,
          MonitorEvent.requestChanged, MonitorEvent.readRequest] = some m' ∧
      m'.subscriberWatcher = RequestNetworkStatus.online := by
  have hdiff : RequestNetworkStatus.online ≠ m.requestNetworkStatus := by
    rw [hrequest]
    exact honline.symm
  simp [Monitor.next, htask, hphase, updateWatcherValue, honline,
    updateRequestNetworkStatus, hdiff, updateSubscriberStatus, combined,
    combine, hos]

end Monitor

theorem offline_is_tested {config : BackgroundConfig}
    (hinfinite : config.infiniteChecks = true) {m : Monitor}
    (h : (MonitorRuns config).Reachable m) (hidle : m.Idle) :
    m.subscriberWatcher =
        combine m.osNetworkWatcher.value m.requestWatcher.value ∧
      ((MonitorRuns config).ReachableWhen Harmless m ->
        m.subscriberWatcher ≠ RequestNetworkStatus.online ->
        m.osNetworkWatcher.value = OsNetworkStatus.online ->
        (exists retries, m.testerTask = some (TesterTask.running retries)) ∧
        exists m' : Monitor,
          List.foldlM (Monitor.next config) m
            [MonitorEvent.testerCheck RequestNetworkStatus.online,
              MonitorEvent.requestChanged, MonitorEvent.readRequest] =
            some m' ∧
          m'.subscriberWatcher = RequestNetworkStatus.online) := by
  have hinformed := Informed.of_reachable h
  rcases hidle with ⟨hphase, hosSeen, hrequestSeen⟩
  have hos : m.osNetworkStatus = m.osNetworkWatcher.value := by
    refine hinformed.os hosSeen ?_
    rw [hphase]
    exact fun heq => nomatch heq
  have hrequest : m.requestNetworkStatus = m.requestWatcher.value := by
    refine hinformed.request hrequestSeen ?_
    rw [hphase]
    exact fun heq => nomatch heq
  have hnot : m.phase ≠ Phase.checking := by
    rw [hphase]
    exact fun heq => nomatch heq
  have hpublished : m.subscriberWatcher =
      combine m.osNetworkWatcher.value m.requestWatcher.value := by
    rw [hinformed.published, hinformed.combined hnot, Monitor.combined, hos,
      hrequest]
  refine ⟨hpublished, ?_⟩
  intro hharmless hoffline hosOnline
  have htested := Tested.of_reachable hinfinite hharmless
  have hvalue : m.requestWatcher.value ≠ RequestNetworkStatus.online := by
    rw [hpublished, hosOnline] at hoffline
    exact hoffline
  have hsubscriber : m.subscriberStatus ≠ RequestNetworkStatus.online := by
    rw [<- hinformed.published]
    exact hoffline
  cases htask : m.testerTask with
  | none =>
      exact absurd htask
        (htested.started hnot (hos.trans hosOnline) hsubscriber)
  | some task =>
      cases task with
      | finished => exact absurd (htested.finished htask) hvalue
      | running retries =>
          exact ⟨⟨retries, rfl⟩, Monitor.recover hphase (hos.trans hosOnline)
            hrequest hvalue htask⟩

/-- A service that has just been created starts its background task. -/
def startedMonitor : Monitor :=
  Monitor.new { maxCount := 3, infiniteChecks := true }
    { value := OsNetworkStatus.online }
    { value := RequestNetworkStatus.online }

/-- A request fails, and so does the first check of the tester. -/
def requestLost : List MonitorEvent :=
  [MonitorEvent.report RequestNetworkStatus.offline,
    MonitorEvent.requestChanged, MonitorEvent.readRequest,
    MonitorEvent.testerCheck RequestNetworkStatus.offline]

theorem requestLost_recovers :
    exists m m' : Monitor, m.Idle ∧
      m.subscriberWatcher = RequestNetworkStatus.offline ∧
      List.foldlM (Monitor.next { maxCount := 3, infiniteChecks := true }) m
        [MonitorEvent.testerCheck RequestNetworkStatus.online,
          MonitorEvent.requestChanged, MonitorEvent.readRequest] = some m' ∧
      m'.subscriberWatcher = RequestNetworkStatus.online := by
  have hrun : exists m : Monitor,
      List.foldlM
        (fun m e => if Harmless m e then
          m.next { maxCount := 3, infiniteChecks := true } e else none)
        startedMonitor requestLost = some m ∧
      m.Idle ∧ m.subscriberWatcher = RequestNetworkStatus.offline ∧
      m.osNetworkWatcher.value = OsNetworkStatus.online :=
    ⟨_, rfl, ⟨rfl, rfl, rfl⟩, rfl, rfl⟩
  rcases hrun with ⟨m, hs, hidle, hoffline, hos⟩
  have hreach :
      (MonitorRuns { maxCount := 3, infiniteChecks := true }).ReachableWhen
        Harmless m :=
    TransitionSystem.ReachableWhen.replay (fun _ _ _ h => h)
      (TransitionSystem.ReachableWhen.start ⟨_, _, rfl⟩) hs
  rcases (offline_is_tested rfl hreach.reachable hidle).right hreach
    (by rw [hoffline]; exact fun heq => nomatch heq) hos with
    ⟨_, m', hrecover, honline⟩
  exact ⟨m, m', hidle, hoffline, hrecover, honline⟩

/-- The operating system loses the network and regains it after the request. -/
def networkRegained : List MonitorEvent :=
  [MonitorEvent.report RequestNetworkStatus.offline,
    MonitorEvent.requestChanged, MonitorEvent.readRequest,
    MonitorEvent.updateOs OsNetworkStatus.offline,
    MonitorEvent.osChanged, MonitorEvent.readOs,
    MonitorEvent.updateOs OsNetworkStatus.online,
    MonitorEvent.osChanged, MonitorEvent.readOs,
    MonitorEvent.osChecked RequestNetworkStatus.offline]

theorem networkRegained_untested :
    exists m : Monitor,
      (MonitorRuns { maxCount := 3, infiniteChecks := true }).Reachable m ∧
      List.foldlM (Monitor.next { maxCount := 3, infiniteChecks := true })
        startedMonitor networkRegained = some m ∧
      m.Idle ∧ m.subscriberWatcher = RequestNetworkStatus.offline ∧
      m.osNetworkWatcher.value = OsNetworkStatus.online ∧
      m.testerTask = none := by
  have hrun : exists m : Monitor,
      List.foldlM (Monitor.next { maxCount := 3, infiniteChecks := true })
        startedMonitor networkRegained = some m ∧
      m.Idle ∧ m.subscriberWatcher = RequestNetworkStatus.offline ∧
      m.osNetworkWatcher.value = OsNetworkStatus.online ∧
      m.testerTask = none :=
    ⟨_, rfl, ⟨rfl, rfl, rfl⟩, rfl, rfl, rfl⟩
  rcases hrun with ⟨m, hs, hrest⟩
  refine ⟨m, ?_, hs, hrest⟩
  exact TransitionSystem.Reachable.replay (fun _ _ _ h => h)
    (TransitionSystem.ReachableWhen.start ⟨_, _, rfl⟩) hs

end NetworkMonitor
end MailClient
