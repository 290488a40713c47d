import MailClient.ActionQueue.Execution

/-!
# The queue with its executors and broadcasts

On top of the tables stand the tasks of one process: executors between a `pop`
and the end of the execution, and tasks that have committed a transaction but
not yet sent all messages about it.  A task can be aborted at any of these
points.  Two fields record history for the statements about runs: every guard
ever acquired, and the actions whose `apply_remote` succeeded.
-/

namespace MailClient
namespace ActionQueue

open Foundation

inductive BroadcastMessage where
  | queued (id : ActionId) (metadata : QueuedMetadata)
  | success (id : ActionId) (metadata : QueuedMetadata)
  | error (e : ActionError) (metadata : QueuedMetadata)
  | cancelled (metadata : QueuedMetadata)
  | deleted (id : ActionId) (actionType : String)
  deriving DecidableEq, Repr

namespace BroadcastMessage

def id : BroadcastMessage -> ActionId
  | queued id _ => id
  | success id _ => id
  | error _ m => m.id
  | cancelled m => m.id
  | deleted id _ => id

def isQueued : BroadcastMessage -> Bool
  | queued _ _ => true
  | _ => false

end BroadcastMessage

/--
`ActionAwaiter::wait` over the messages its receiver delivers: the first one
that is about the action and does not only announce it.
-/
def ActionAwaiter.wait (received : List BroadcastMessage) (id : ActionId) :
    Option BroadcastMessage :=
  received.find? (fun m => !m.isQueued && decide (m.id = id))

/-- A task between `pop` and the end of `execute_impl`. -/
structure Execution where
  serial : Nat
  executor : ExecutorId
  guard : ExecutionGuard
  action : StoredAction
  deriving DecidableEq, Repr

def Execution.metadata (e : Execution) : QueuedMetadata :=
  QueuedMetadata.ofStored e.guard.actionId e.action

structure System where
  store : Store
  executions : List Execution
  acquired : List ExecutionGuard
  /-- For each task, the messages it still has to send. -/
  outboxes : List (List BroadcastMessage)
  broadcast : List BroadcastMessage
  succeeded : List ActionId

namespace System

def empty : System where
  store := Store.empty
  executions := []
  acquired := []
  outboxes := []
  broadcast := []
  succeeded := []

def find (σ : System) (serial : Nat) : Option Execution :=
  σ.executions.find? (fun e => e.serial = serial)

def without (σ : System) (serial : Nat) : List Execution :=
  σ.executions.filter (fun e => e.serial ≠ serial)

end System

/-!
# Outcomes of an execution
-/

/-- The value `execute_action_remote` returns for its guarded transaction. -/
def remoteOutput (id : ActionId) :
    Except ExecutionGuardError Completion ->
      Except ActionError ActionRemoteOutput
  | Except.ok c => c.result
  | Except.error ExecutionGuardError.expired =>
      Except.ok
        (ActionRemoteOutput.queued id ActionRequeueReason.guardExpired)
  | Except.error (ExecutionGuardError.stash e) =>
      Except.error (ActionError.queue (Error.db e))

/-- The dependees whose cancellation `execute_action_remote` reports. -/
def dependeeBroadcasts (id : ActionId) :
    Except ExecutionGuardError Completion -> List BroadcastMessage
  | Except.ok c =>
      (c.cancelled.filter (fun m => m.id ≠ id)).map BroadcastMessage.cancelled
  | Except.error _ => []

/-- The message of `execute_impl`; it does not look at the output. -/
def outcomeBroadcast (metadata : QueuedMetadata) :
    Except ActionError ActionRemoteOutput -> BroadcastMessage
  | Except.ok _ => BroadcastMessage.success metadata.id metadata
  | Except.error e => BroadcastMessage.error e metadata

/-!
# Events
-/

inductive Event where
  /-- A transaction of the client with all submissions it makes.  It commits
  if they succeed and nothing else in it fails. -/
  | queue (subs : List Submission) (commits : Bool)
  | replace (existing : ActionId) (sub : Submission)
  | cancel (factory : Factory) (faults : CancelFaults)
      (order : PopOrder ActionId) (fuel : Nat) (id : ActionId)
  | deleteAction (id : ActionId)
  | deleteAllInGroup (group : String)
  | deleteAllByType (type : String)
  | rebase (factory : Factory)
      (rebased : StoredAction -> Except ActionError Bytes) (group : String)
  | pop (executor : ExecutorId) (group : String) (now : Timestamp)
      (picked : Option ActionId)
  | undecodable (serial : Nat) (factory : Factory) (fault : Bool)
  | keepAlive (serial : Nat) (now : Timestamp) (fault : Bool)
  | remoteTaskLost (serial : Nat)
  | complete (serial : Nat) (factory : Factory) (faults : ExecutionFaults)
      (order : PopOrder ActionId) (fuel : Nat) (now : Timestamp)
      (result : RemoteResult) (commitFault : Bool)
  | abort (serial : Nat)
  | send (task : Nat)
  | discard (task : Nat)

/-- The messages sent inside the transaction, and how it ends. -/
def queueAll : List Submission -> Store ->
    List BroadcastMessage × Except ActionError Store
  | [], s => ([], Except.ok s)
  | sub :: rest, s =>
      match queueAction sub s with
      | Except.error e => ([], Except.error e)
      | Except.ok (id, stored, s') =>
          let (sent, result) := queueAll rest s'
          (BroadcastMessage.queued id (QueuedMetadata.ofStored id stored) ::
            sent, result)

namespace System

/-- The task ends with these messages to send. -/
def finish (σ : System) (e : Execution) (store : Store)
    (messages : List BroadcastMessage) : System :=
  { σ with
    store := store
    executions := σ.without e.serial
    outboxes := σ.outboxes ++ [messages] }

def queue (σ : System) (subs : List Submission) (commits : Bool) : System :=
  let (sent, result) := queueAll subs σ.store
  { σ with
    store :=
      match result with
      | Except.ok s' => if commits then s' else σ.store
      | Except.error _ => σ.store
    broadcast := σ.broadcast ++ sent }

def replace (σ : System) (existing : ActionId) (sub : Submission) : System :=
  match replaceOrQueueAction existing sub σ.store with
  | Except.error _ => σ
  | Except.ok (id, stored, s') =>
      { σ with
        store := s'
        outboxes := σ.outboxes ++ [
          if id = existing then
            []
          else
            [BroadcastMessage.queued id (QueuedMetadata.ofStored id stored)]] }

def cancel (σ : System) (factory : Factory) (faults : CancelFaults)
    (order : PopOrder ActionId) (fuel : Nat) (id : ActionId) :
    Option System :=
  match ActionQueue.cancel factory faults order fuel id σ.store with
  | none => none
  | some (Except.error _, s') => some { σ with store := s' }
  | some (Except.ok ms, s') =>
      some
        { σ with
          store := s'
          outboxes := σ.outboxes ++ [ms.map BroadcastMessage.cancelled] }

def deleteAction (σ : System) (id : ActionId) : System :=
  match ActionQueue.deleteAction id σ.store with
  | (Except.ok (some actionType), s') =>
      { σ with
        store := s'
        outboxes := σ.outboxes ++ [[BroadcastMessage.deleted id actionType]] }
  | (_, s') => { σ with store := s' }

def pop (σ : System) (executor : ExecutorId) (group : String)
    (now : Timestamp) (picked : Option ActionId) : Option System :=
  if StoredAction.Picks executor group now σ.store picked then
    match StoredAction.pop executor now picked σ.store with
    | Except.error _ => some σ
    | Except.ok (none, s') => some { σ with store := s' }
    | Except.ok (some guard, s') =>
        match σ.store.load guard.actionId with
        | none => none
        | some action =>
            some
              { σ with
                store := s'
                acquired := σ.acquired ++ [guard]
                executions := σ.executions ++ [
                  { serial := σ.acquired.length
                    executor := executor
                    guard := guard
                    action := action }] }
  else
    none

def keepAlive (σ : System) (e : Execution) (now : Timestamp) (fault : Bool) :
    System :=
  if fault then
    σ.finish e σ.store [outcomeBroadcast e.metadata
      (Except.error (ActionError.queue (Error.db StashError.execution)))]
  else
    match e.guard.tx now (fun t => Except.ok ((), t)) σ.store with
    | (Except.ok _, s') => { σ with store := s' }
    | (Except.error ExecutionGuardError.expired, s') =>
        σ.finish e s' [outcomeBroadcast e.metadata (Except.ok
          (ActionRemoteOutput.queued e.guard.actionId
            ActionRequeueReason.guardExpired))]
    | (Except.error (ExecutionGuardError.stash err), s') =>
        σ.finish e s' [outcomeBroadcast e.metadata
          (Except.error (ActionError.queue (Error.db err)))]

def complete (σ : System) (e : Execution) (factory : Factory)
    (faults : ExecutionFaults) (order : PopOrder ActionId) (fuel : Nat)
    (now : Timestamp) (result : RemoteResult) (commitFault : Bool) :
    Option System :=
  match factory.decode e.action with
  | Except.error _ => none
  | Except.ok decoded =>
      let σ' :=
        if result = RemoteResult.ok then
          { σ with succeeded := e.guard.actionId :: σ.succeeded }
        else
          σ
      if commitFault then
        some (σ'.finish e σ.store [outcomeBroadcast e.metadata
          (Except.error (ActionError.queue (Error.db StashError.execution)))])
      else
        match completeExecution factory faults order fuel decoded.maxRetries
            e.guard now result σ.store with
        | none => none
        | some (r, s') =>
            some (σ'.finish e s' (dependeeBroadcasts e.guard.actionId r ++
              [outcomeBroadcast e.metadata
                (remoteOutput e.guard.actionId r)]))

def send (σ : System) (task : Nat) : Option System :=
  match σ.outboxes[task]? with
  | some (m :: rest) =>
      some
        { σ with
          outboxes := σ.outboxes.set task rest
          broadcast := σ.broadcast ++ [m] }
  | _ => none

end System

def Event.run (σ : System) : Event -> Option System
  | queue subs commits => some (σ.queue subs commits)
  | replace existing sub => some (σ.replace existing sub)
  | cancel factory faults order fuel id =>
      σ.cancel factory faults order fuel id
  | deleteAction id => some (σ.deleteAction id)
  | deleteAllInGroup group =>
      some { σ with store := σ.store.deleteAllInGroup group }
  | deleteAllByType type =>
      some { σ with store := σ.store.deleteByType type }
  | rebase factory rebased group =>
      match rebaseIn factory rebased group σ.store with
      | Except.ok s' => some { σ with store := s' }
      | Except.error _ => some σ
  | pop executor group now picked => σ.pop executor group now picked
  | undecodable serial factory fault =>
      match σ.find serial with
      | none => none
      | some e =>
          match factory.decode e.action with
          | Except.ok _ => none
          | Except.error _ =>
              some
                { σ with
                  store := if fault then σ.store else e.guard.release σ.store
                  executions := σ.without serial }
  | keepAlive serial now fault =>
      (σ.find serial).map (fun e => σ.keepAlive e now fault)
  | remoteTaskLost serial =>
      (σ.find serial).map (fun e =>
        σ.finish e σ.store [outcomeBroadcast e.metadata
          (Except.error (ActionError.queue Error.actionRemoteTaskExec))])
  | complete serial factory faults order fuel now result commitFault =>
      (σ.find serial).bind (fun e =>
        σ.complete e factory faults order fuel now result commitFault)
  | abort serial => some { σ with executions := σ.without serial }
  | send task => σ.send task
  | discard task => some { σ with outboxes := σ.outboxes.set task [] }

def SystemRuns : TransitionSystem System Event where
  init := fun σ => σ = System.empty
  step := fun σ e σ' => e.run σ = some σ'

def runEvents (σ : System) : List Event -> Option System
  | [] => some σ
  | e :: rest => (e.run σ).bind (fun σ' => runEvents σ' rest)

/-- The events of a run that all meet a condition. -/
def AllowedEvents (allowed : System -> Event -> Prop) (σ : System) :
    List Event -> Prop
  | [] => True
  | e :: rest =>
      allowed σ e ∧ forall σ', e.run σ = some σ' ->
        AllowedEvents allowed σ' rest

theorem runEvents_reachableWhen {allowed : System -> Event -> Prop}
    {es : List Event} {σ σ' : System}
    (hreach : SystemRuns.ReachableWhen allowed σ)
    (hallowed : AllowedEvents allowed σ es)
    (h : runEvents σ es = some σ') : SystemRuns.ReachableWhen allowed σ' := by
  induction es generalizing σ with
  | nil =>
      cases h
      exact hreach
  | cons e rest ih =>
      rcases Option.bind_eq_some_iff.mp h with ⟨mid, hmid, hrest⟩
      have hmid' := TransitionSystem.ReachableWhen.next hreach hallowed.left
        hmid
      exact ih hmid' (hallowed.right mid hmid) hrest

theorem runEvents_reachable {es : List Event} {σ : System}
    (h : runEvents System.empty es = some σ) : SystemRuns.Reachable σ := by
  refine runEvents_reachableWhen (TransitionSystem.ReachableWhen.start rfl)
    ?_ h
  generalize System.empty = τ
  clear h
  induction es generalizing τ with
  | nil =>
      exact True.intro
  | cons e rest ih =>
      exact ⟨True.intro, fun τ' _ => ih τ'⟩

/-!
# Refinement

Forgetting the tasks and the messages, every event is a run of the queue.
-/

open TransitionSystem

theorem runs_one {s s' : Store} {t : Transaction} (h : t.run s = some s') :
    QueueRuns.Runs s s' :=
  Runs.next (Runs.refl s) h

theorem queueAction_run {sub : Submission} {s s' : Store} {id : ActionId}
    {stored : StoredAction}
    (h : queueAction sub s = Except.ok (id, stored, s')) :
    (Transaction.queueAction sub).run s = some s' := by
  show some (committed s (queueAction sub s)) = some s'
  rw [h]
  rfl

theorem queueAll_runs {subs : List Submission} {s s' : Store}
    (h : (queueAll subs s).2 = Except.ok s') : QueueRuns.Runs s s' := by
  induction subs generalizing s with
  | nil =>
      cases h
      exact Runs.refl _
  | cons sub rest ih =>
      unfold queueAll at h
      split at h
      · cases h
      · rename_i id stored mid hqueue
        exact Runs.head (queueAction_run hqueue) (ih h)

theorem System.queue_runs (σ : System) (subs : List Submission)
    (commits : Bool) : QueueRuns.Runs σ.store (σ.queue subs commits).store := by
  unfold System.queue
  dsimp only
  split
  · rename_i s' hresult
    split
    · exact queueAll_runs hresult
    · exact Runs.refl _
  · exact Runs.refl _

theorem System.replace_runs (σ : System) (existing : ActionId)
    (sub : Submission) :
    QueueRuns.Runs σ.store (σ.replace existing sub).store := by
  unfold System.replace
  split
  · exact Runs.refl _
  · rename_i id stored s' hreplace
    apply runs_one (t := Transaction.replaceOrQueueAction existing sub)
    show some (committed σ.store
      (replaceOrQueueAction existing sub σ.store)) = some s'
    rw [hreplace]
    rfl

theorem System.cancel_runs {σ σ' : System} {factory : Factory}
    {faults : CancelFaults} {order : PopOrder ActionId} {fuel : Nat}
    {id : ActionId} (h : σ.cancel factory faults order fuel id = some σ') :
    QueueRuns.Runs σ.store σ'.store := by
  unfold System.cancel at h
  apply runs_one (t := Transaction.cancel factory faults order fuel id)
  show (ActionQueue.cancel factory faults order fuel id σ.store).map Prod.snd =
    some σ'.store
  split at h
  · cases h
  · rename_i e s' hcancel
    cases h
    rw [hcancel]
    rfl
  · rename_i ms s' hcancel
    cases h
    rw [hcancel]
    rfl

theorem System.deleteAction_store (σ : System) (id : ActionId) :
    (σ.deleteAction id).store = (ActionQueue.deleteAction id σ.store).2 := by
  unfold System.deleteAction
  split
  · rename_i actionType s' hdelete
    rw [hdelete]
  · rename_i r s' _ hdelete
    rw [hdelete]

theorem System.pop_runs {σ σ' : System} {executor : ExecutorId}
    {group : String} {now : Timestamp} {picked : Option ActionId}
    (h : σ.pop executor group now picked = some σ') :
    QueueRuns.Runs σ.store σ'.store := by
  unfold System.pop at h
  apply runs_one (t := Transaction.pop executor group now picked)
  simp only [Transaction.run]
  split at h
  · rename_i hpicks
    rw [if_pos hpicks]
    split at h
    · rename_i e hpop
      cases h
      rw [hpop]
    · rename_i s' hpop
      cases h
      rw [hpop]
    · rename_i guard s' hpop
      rw [hpop]
      split at h
      · cases h
      · cases h
        rfl
  · cases h

theorem System.keepAlive_runs (σ : System) (e : Execution) (now : Timestamp)
    (fault : Bool) :
    QueueRuns.Runs σ.store (σ.keepAlive e now fault).store := by
  unfold System.keepAlive
  split
  · exact Runs.refl _
  · apply runs_one (t := Transaction.keepAlive e.guard now)
    simp only [Transaction.run]
    split
    · rename_i s' htx
      rw [htx]
    · rename_i s' htx
      rw [htx]
      rfl
    · rename_i err s' htx
      rw [htx]
      rfl

theorem System.complete_runs {σ σ' : System} {e : Execution}
    {factory : Factory} {faults : ExecutionFaults}
    {order : PopOrder ActionId} {fuel : Nat} {now : Timestamp}
    {result : RemoteResult} {commitFault : Bool}
    (h : σ.complete e factory faults order fuel now result commitFault =
      some σ') : QueueRuns.Runs σ.store σ'.store := by
  unfold System.complete at h
  split at h
  · cases h
  · rename_i decoded hdecode
    dsimp only at h
    split at h
    · cases h
      exact Runs.refl _
    · split at h
      · cases h
      · rename_i r s' hcomplete
        cases h
        apply runs_one (t := Transaction.complete factory faults order fuel
          decoded.maxRetries e.guard now result)
        simp only [Transaction.run]
        rw [hcomplete]
        rfl

theorem event_runs {σ σ' : System} {e : Event} (h : e.run σ = some σ') :
    QueueRuns.Runs σ.store σ'.store := by
  cases e with
  | queue subs commits =>
      cases h
      exact σ.queue_runs subs commits
  | replace existing sub =>
      cases h
      exact σ.replace_runs existing sub
  | cancel factory faults order fuel id =>
      exact System.cancel_runs h
  | deleteAction id =>
      cases h
      rw [System.deleteAction_store]
      exact runs_one (t := Transaction.deleteAction id) rfl
  | deleteAllInGroup group =>
      cases h
      exact runs_one (t := Transaction.deleteAllInGroup group) rfl
  | deleteAllByType type =>
      cases h
      exact runs_one (t := Transaction.deleteAllByType type) rfl
  | rebase factory rebased group =>
      apply runs_one (t := Transaction.rebase factory rebased group)
      cases hrebase : rebaseIn factory rebased group σ.store with
      | ok s' =>
          simp only [Event.run, hrebase] at h
          cases h
          simp only [Transaction.run, hrebase]
      | error err =>
          simp only [Event.run, hrebase] at h
          cases h
          simp only [Transaction.run, hrebase]
  | pop executor group now picked =>
      exact System.pop_runs h
  | undecodable serial factory fault =>
      simp only [Event.run] at h
      split at h
      · cases h
      · rename_i x hfind
        split at h
        · cases h
        · cases h
          cases fault with
          | true =>
              exact Runs.refl _
          | false =>
              exact runs_one (t := Transaction.release x.guard) rfl
  | keepAlive serial now fault =>
      rcases Option.map_eq_some_iff.mp h with ⟨x, hfind, heq⟩
      cases heq
      exact σ.keepAlive_runs x now fault
  | remoteTaskLost serial =>
      rcases Option.map_eq_some_iff.mp h with ⟨x, hfind, heq⟩
      cases heq
      exact Runs.refl _
  | complete serial factory faults order fuel now result commitFault =>
      rcases Option.bind_eq_some_iff.mp h with ⟨x, hfind, hcomplete⟩
      exact System.complete_runs hcomplete
  | abort serial =>
      cases h
      exact Runs.refl _
  | send task =>
      simp only [Event.run, System.send] at h
      split at h
      · cases h
        exact Runs.refl _
      · cases h
  | discard task =>
      cases h
      exact Runs.refl _

theorem system_store_reachable {σ : System} (h : SystemRuns.Reachable σ) :
    QueueRuns.Reachable σ.store := by
  refine reachable_of_simulation System.store ?_ ?_ h
  · intro τ hτ
    rw [hτ]
    rfl
  · intro τ e τ' hstep
    exact event_runs hstep

end ActionQueue
end MailClient
