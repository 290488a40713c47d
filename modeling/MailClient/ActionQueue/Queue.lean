import MailClient.Foundation.TopologicalSort
import MailClient.ActionQueue.StoredAction

/-!
# Queue transactions

The model of the write transactions of `queue.rs`: storing a submitted action
and validating its dependencies, cancelling an action together with its
required dependees, and committing the outcome of a remote execution.
Handlers, serialization and the decoding of stored actions are code of the
client application; what they answer is an input of the transaction.
-/

namespace MailClient
namespace ActionQueue

open Foundation

inductive Error where
  | db (e : StashError)
  | serialization
  | unknownAction (type : String)
  | cyclicDependency
  | actionRemoteTaskExec
  deriving DecidableEq, Repr

inductive ActionError where
  | action
  | queue (e : Error)
  deriving DecidableEq, Repr

inductive FactoryError where
  | unknownType
  | invalidVersion
  | deserialize
  | versionConverter
  deriving DecidableEq, Repr

structure QueuedMetadata where
  id : ActionId
  actionType : String
  version : Nat
  created : Timestamp
  scheduled : Timestamp
  priority : Priority
  dependencies : List ActionDependency
  debugString : Option String
  resources : Resources
  actionGroup : String
  deriving DecidableEq, Repr

def QueuedMetadata.ofStored (id : ActionId) (a : StoredAction) :
    QueuedMetadata where
  id := id
  actionType := a.actionType
  version := a.version
  created := a.created
  scheduled := a.scheduled
  priority := a.priority
  dependencies := a.dependencies
  debugString := a.debugString
  resources := a.resources
  actionGroup := a.actionGroup

inductive QueuedError where
  | factory (id : ActionId) (e : FactoryError)
  | action (e : ActionError)
  | db (e : StashError)
  | actionNotFound (id : ActionId)
  | actionInExecution (id : ActionId)
  deriving DecidableEq, Repr

inductive ActionRequeueReason where
  | networkFailed
  | guardExpired
  | lostContext
  deriving DecidableEq, Repr

structure DecodedAction where
  maxRetries : Option Nat
  deriving DecidableEq, Repr

/-- What the factory knows about a registered action type. -/
structure ActionFactory where
  maxRetries : Option Nat := none
  /-- `VersionConverter::convert` on a stored version and state. -/
  convert : Nat -> Bytes -> Except FactoryError Unit

abbrev Factory := String -> Option ActionFactory

namespace Factory

def decodeState (factory : Factory) (actionType : String) (version : Nat)
    (state : Bytes) : Except FactoryError DecodedAction :=
  match factory actionType with
  | none => Except.error FactoryError.unknownType
  | some f =>
      match f.convert version state with
      | Except.error e => Except.error e
      | Except.ok _ => Except.ok { maxRetries := f.maxRetries }

def decode (factory : Factory) (action : StoredAction) :
    Except FactoryError DecodedAction :=
  factory.decodeState action.actionType action.version action.state

end Factory

/-!
# Validating dependencies

The loop of `execute_action_local` walks the dependency graph from the saved
action and feeds every edge it meets to the sorter.
-/

structure Walk where
  pending : List ActionId
  visited : List ActionId
  sorter : TopologicalSort ActionId

def walkStep (s : Store) (w : Walk) : Walk :=
  match w.pending with
  | [] => w
  | id :: rest =>
      if id ∈ w.visited then
        { w with pending := rest }
      else
        let deps := (s.allDependencies id).map ActionDependency.dependencyId
        { pending := deps.reverse ++ rest
          visited := id :: w.visited
          sorter := deps.foldl (fun t d => t.addDependency id d) w.sorter }

def walkFrom (id : ActionId) : Walk where
  pending := [id]
  visited := []
  sorter := TopologicalSort.empty ActionId

/-- Every dependency row is pushed at most once, which bounds the loop. -/
def walk (s : Store) (id : ActionId) : Walk :=
  (walkStep s)^[s.dependencies.length + 1] (walkFrom id)

/-- `sorter.pop().is_none() && !sorter.is_empty()`. -/
def rejectsCycle (order : PopOrder ActionId) (s : Store) (id : ActionId) :
    Bool :=
  ((walk s id).sorter.pop order).isNone && !(walk s id).sorter.isEmpty

/-!
# Submitting an action
-/

structure Applied where
  dependencyKeys : ActionDependencyKeys := {}
  /-- `none` when the action does not serialize. -/
  state : Option Bytes
  deriving DecidableEq, Repr

/-- A submitted action with all answers of the code outside the queue. -/
structure Submission where
  consts : ActionConsts
  metadata : Metadata
  registered : Bool := true
  /-- `none` when `apply_local` fails. -/
  applyLocal : Option Applied
  saveOrder : IterOrder ActionDependency := IterOrder.identity _
  keyOrder : IterOrder ActionDependency := IterOrder.identity _
  popOrder : PopOrder ActionId := PopOrder.first _

def Submission.stored (sub : Submission) : StoredAction :=
  StoredAction.withoutState sub.consts {} sub.metadata

def liftStash {α : Type} : Except StashError α -> Except ActionError α
  | Except.ok a => Except.ok a
  | Except.error e => Except.error (ActionError.queue (Error.db e))

def Submission.place (sub : Submission) (existing : Option ActionId)
    (s : Store) : Except StashError (ActionId × StoredAction × Store) :=
  match existing with
  | some e => sub.stored.createOrUpdate e sub.saveOrder s
  | none => do
      let (id, s') <- sub.stored.save sub.saveOrder s
      Except.ok (id, { sub.stored with id := some id }, s')

/-- The part of `execute_action_local` before the dependencies are validated. -/
def prepareActionLocal (sub : Submission) (existing : Option ActionId)
    (s : Store) : Except ActionError (ActionId × StoredAction × Store) := do
  let (id, stored, s1) <- liftStash (sub.place existing s)
  match sub.applyLocal with
  | none => Except.error ActionError.action
  | some applied =>
      let stored' := { stored with dependencyKeys := applied.dependencyKeys }
      let s2 <- liftStash (stored'.updateDependencyKeys id sub.keyOrder
        (s1.call (HandlerCall.applyLocal id)))
      Except.ok (id, stored', s2)

def executeActionLocal (sub : Submission) (existing : Option ActionId)
    (s : Store) : Except ActionError (ActionId × StoredAction × Store) := do
  let (id, stored, s') <- prepareActionLocal sub existing s
  if rejectsCycle sub.popOrder s' id then
    Except.error (ActionError.queue Error.cyclicDependency)
  else
    match sub.applyLocal.bind Applied.state with
    | none => Except.error (ActionError.queue Error.serialization)
    | some state =>
        Except.ok (id, { stored with state := state },
          s'.updateActionState id state)

/-- `queue_action_with_metadata_in_tx`, without its broadcast. -/
def queueAction (sub : Submission) (s : Store) :
    Except ActionError (ActionId × StoredAction × Store) :=
  if sub.registered then
    executeActionLocal sub none s
  else
    Except.error (ActionError.queue (Error.unknownAction sub.consts.type))

/-- `replace_or_queue_action_with_metadata`, without its broadcast. -/
def replaceOrQueueAction (existing : ActionId) (sub : Submission)
    (s : Store) : Except ActionError (ActionId × StoredAction × Store) :=
  if sub.registered then
    executeActionLocal sub (some existing) s
  else
    Except.error (ActionError.queue (Error.unknownAction sub.consts.type))

/-!
# Cancelling

Statements of a cancellation that fail at run time are part of its input: the
failed execution of an action swallows such an error and still commits.
-/

structure CancelFaults where
  query : Nat -> Bool := fun _ => false
  load : Nat -> Bool := fun _ => false
  revert : Nat -> Bool := fun _ => false
  delete : Nat -> Bool := fun _ => false

/--
The first loop of `cancel_action_with_dependees`.  It keeps no set of visited
actions, so it only ends by itself on an acyclic graph; `none` is a loop that
is still running after `fuel` rounds.
-/
def collectDependees (faults : CancelFaults) (s : Store) :
    Nat -> Nat -> List ActionId -> TopologicalSort ActionId ->
      Option (Except QueuedError (TopologicalSort ActionId))
  | 0, _, _, _ => none
  | _ + 1, _, [], sorter => some (Except.ok sorter)
  | fuel + 1, round, id :: rest, sorter =>
      if faults.query round then
        some (Except.error (QueuedError.db StashError.execution))
      else
        let dependees := s.dependeesOfType id DependencyType.required
        collectDependees faults s fuel (round + 1)
          (dependees.reverse ++ rest)
          (dependees.foldl (fun t d => t.addDependency d id) sorter)

/-- A failing `revert_local` is only logged. -/
def revertAction (faults : CancelFaults) (round : Nat) (id : ActionId)
    (s : Store) : Store :=
  let s' := s.call (HandlerCall.revertLocal id)
  if faults.revert round then s'.call (HandlerCall.revertFailed id) else s'

def cancelOne (factory : Factory) (faults : CancelFaults) (round : Nat)
    (id : ActionId) (s : Store) : Except QueuedError QueuedMetadata × Store :=
  if faults.load round then
    (Except.error (QueuedError.db StashError.execution), s)
  else
    match s.load id with
    | none => (Except.error (QueuedError.actionNotFound id), s)
    | some action =>
        match factory.decode action with
        | Except.error e => (Except.error (QueuedError.factory id e), s)
        | Except.ok _ =>
            let s' := revertAction faults round id s
            if faults.delete round then
              (Except.error (QueuedError.action
                (ActionError.queue (Error.db StashError.execution))), s')
            else
              (Except.ok (QueuedMetadata.ofStored id action), s'.delete id)

def cancelSorted (factory : Factory) (faults : CancelFaults)
    (order : PopOrder ActionId) :
    Nat -> Nat -> TopologicalSort ActionId -> List QueuedMetadata -> Store ->
      Except QueuedError (List QueuedMetadata) × Store
  | 0, _, _, cancelled, s => (Except.ok cancelled, s)
  | fuel + 1, round, sorter, cancelled, s =>
      match sorter.pop order with
      | none => (Except.ok cancelled, s)
      | some (id, sorter') =>
          match cancelOne factory faults round id s with
          | (Except.error e, s') => (Except.error e, s')
          | (Except.ok m, s') =>
              cancelSorted factory faults order fuel (round + 1) sorter'
                (cancelled ++ [m]) s'

def cancelActionWithDependees (factory : Factory) (faults : CancelFaults)
    (order : PopOrder ActionId) (fuel : Nat) (id : ActionId) (s : Store) :
    Option (Except QueuedError (List QueuedMetadata) × Store) :=
  match collectDependees faults s fuel 0 [id] (TopologicalSort.empty _) with
  | none => none
  | some (Except.error e) => some (Except.error e, s)
  | some (Except.ok sorter) =>
      if sorter.isEmpty then
        match cancelOne factory faults 0 id s with
        | (Except.error e, s') => some (Except.error e, s')
        | (Except.ok m, s') => some (Except.ok [m], s')
      else
        some (cancelSorted factory faults order sorter.nodes.length 0 sorter []
          s)

/-- `Queue::cancel`, without its broadcasts; an error rolls it back. -/
def cancel (factory : Factory) (faults : CancelFaults)
    (order : PopOrder ActionId) (fuel : Nat) (id : ActionId) (s : Store) :
    Option (Except QueuedError (List QueuedMetadata) × Store) :=
  if ExecutionGuard.hasExecutor id s then
    some (Except.error (QueuedError.actionInExecution id), s)
  else
    match cancelActionWithDependees factory faults order fuel id s with
    | none => none
    | some (Except.error e, _) => some (Except.error e, s)
    | some (Except.ok ms, s') => some (Except.ok ms, s')

/-- `Queue::delete_action`, without its broadcast. -/
def deleteAction (id : ActionId) (s : Store) :
    Except QueuedError (Option String) × Store :=
  if ExecutionGuard.hasExecutor id s then
    (Except.error (QueuedError.actionInExecution id), s)
  else
    (Except.ok ((s.find id).map ActionRow.actionType), s.delete id)

/--
The loop of `Queue::rebase_in`.  `rebased` is the state an action serializes to
after `rebase_local`, if both succeed.
-/
def rebaseActions (factory : Factory)
    (rebased : StoredAction -> Except ActionError Bytes) :
    List ActionId -> Store -> Except QueuedError Store
  | [], s => Except.ok s
  | id :: rest, s =>
      match s.load id with
      | none => Except.error (QueuedError.actionNotFound id)
      | some action =>
          match factory.decode action with
          | Except.error e => Except.error (QueuedError.factory id e)
          | Except.ok _ =>
              match rebased action with
              | Except.error e => Except.error (QueuedError.action e)
              | Except.ok state =>
                  rebaseActions factory rebased rest
                    (s.updateActionState id state)

def rebaseIn (factory : Factory)
    (rebased : StoredAction -> Except ActionError Bytes) (group : String)
    (s : Store) : Except QueuedError Store :=
  rebaseActions factory rebased (s.rebaseActionOrder group) s

/-!
# Committing a remote execution
-/

inductive ActionRemoteOutput where
  | executed
  | queued (id : ActionId) (reason : ActionRequeueReason)
  deriving DecidableEq, Repr

/-- The result of `apply_remote`; an error says whether it can be requeued. -/
inductive RemoteResult where
  | ok
  | err (canRequeue : Option ActionRequeueReason)
  deriving DecidableEq, Repr

structure ExecutionFaults where
  /-- The deletion or the bookkeeping of retries fails. -/
  statement : Bool := false
  cancel : CancelFaults := {}

structure Completion where
  result : Except ActionError ActionRemoteOutput
  cancelled : List QueuedMetadata

def cancelFailed (factory : Factory) (faults : CancelFaults)
    (order : PopOrder ActionId) (fuel : Nat) (id : ActionId) (s : Store) :
    Option (Completion × Store) :=
  match cancelActionWithDependees factory faults order fuel id s with
  | none => none
  | some (Except.ok ms, s') =>
      some ({ result := Except.error ActionError.action, cancelled := ms }, s')
  | some (Except.error _, s') =>
      -- The error is logged and whatever was cancelled so far is kept.
      some ({ result := Except.error ActionError.action, cancelled := [] }, s')

/-- The closure that `execute_action_remote` runs under its guard. -/
def completeClosure (factory : Factory) (faults : ExecutionFaults)
    (order : PopOrder ActionId) (fuel : Nat) (maxRetries : Option Nat)
    (id : ActionId) (result : RemoteResult) (s : Store) :
    Option (Completion × Store) :=
  let failed := fun e =>
    some ({ result := Except.error (ActionError.queue (Error.db e))
            cancelled := [] }, s)
  match result with
  | RemoteResult.ok =>
      if faults.statement then
        failed StashError.execution
      else
        some ({ result := Except.ok ActionRemoteOutput.executed
                cancelled := [] }, s.delete id)
  | RemoteResult.err none =>
      cancelFailed factory faults.cancel order fuel id s
  | RemoteResult.err (some reason) =>
      if faults.statement then
        failed StashError.execution
      else
        match s.getRetries id with
        | none => failed StashError.queryReturnedNoRows
        | some retries =>
            if maxRetries.any (fun m => retries ≥ m) then
              cancelFailed factory faults.cancel order fuel id s
            else
              some
                ({ result := Except.ok (ActionRemoteOutput.queued id reason)
                   cancelled := [] },
                  s.updateRetries id)

def completeExecution (factory : Factory) (faults : ExecutionFaults)
    (order : PopOrder ActionId) (fuel : Nat) (maxRetries : Option Nat)
    (guard : ExecutionGuard) (now : Timestamp) (result : RemoteResult)
    (s : Store) : Option (Except ExecutionGuardError Completion × Store) :=
  guard.txAndRelease now
    (fun t =>
      (completeClosure factory faults order fuel maxRetries guard.actionId
        result t).map Except.ok) s

end ActionQueue
end MailClient
