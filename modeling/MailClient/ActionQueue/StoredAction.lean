import Mathlib.Data.List.Sort
import MailClient.ActionQueue.Store

/-!
# Stored actions and execution guards

The model of `db.rs`: how an action is stored, replaced, looked up and ordered,
and how an executor acquires, checks and releases the execution guard of an
action.  A function that runs inside a write transaction takes the store and
returns the next one; an error is returned without a store, because
`Tether::write_tx` rolls the transaction back.
-/

namespace MailClient
namespace ActionQueue

inductive StashError where
  | constraint
  | noRowsUpdated
  | queryReturnedNoRows
  | execution
  deriving DecidableEq, Repr

/-!
# Actions and their metadata
-/

structure ActionDependencyKeys where
  required : List ActionDependencyKey := []
  optional : List ActionDependencyKey := []
  record : List ActionDependencyKey := []
  deriving DecidableEq, Repr

/-- The associated constants of an implementation of the `Action` trait. -/
structure ActionConsts where
  type : String
  group : String := "DEFAULT_GROUP"
  version : Nat
  priority : Priority := Priority.normal
  maxRetries : Option Nat := none
  deriving DecidableEq, Repr

structure Metadata where
  dependencies : List ActionDependency := []
  debugString : Option String := none
  resources : Resources := []
  created : Timestamp
  priorityOverride : Option Priority := none
  delay : Option Nat := none
  groupOverride : Option String := none
  deriving DecidableEq, Repr

structure StoredAction where
  id : Option ActionId
  actionType : String
  debugString : Option String
  dependencies : List ActionDependency
  created : Timestamp
  priority : Priority
  scheduled : Timestamp
  state : Bytes
  actionGroup : String
  resources : Resources
  version : Nat
  retries : Nat
  dependencyKeys : ActionDependencyKeys
  deriving DecidableEq, Repr

/--
The iteration order of a hash set: every list of distinct elements comes out
as some permutation of itself.
-/
structure IterOrder (α : Type) where
  order : List α -> List α
  perm : forall xs, (order xs).Perm xs

def IterOrder.identity (α : Type) : IterOrder α where
  order := fun xs => xs
  perm := fun _ => List.Perm.refl _

namespace StoredAction

def newImpl (consts : ActionConsts) (state : Bytes)
    (keys : ActionDependencyKeys) (metadata : Metadata) : StoredAction where
  id := none
  actionType := consts.type
  created := metadata.created
  -- The debug string of the metadata is not carried over.
  debugString := none
  dependencies := metadata.dependencies
  priority := metadata.priorityOverride.getD consts.priority
  resources := metadata.resources
  scheduled := metadata.created + (metadata.delay.getD 0 : Nat)
  state := state
  version := consts.version
  actionGroup := metadata.groupOverride.getD consts.group
  dependencyKeys := keys
  retries := 0

def withoutState (consts : ActionConsts) (keys : ActionDependencyKeys)
    (metadata : Metadata) : StoredAction :=
  newImpl consts [] keys metadata

def toRow (self : StoredAction) (id : ActionId) : ActionRow where
  id := id
  actionType := self.actionType
  debugString := self.debugString
  created := self.created
  priority := self.priority
  scheduled := self.scheduled
  state := self.state
  actionGroup := self.actionGroup
  version := self.version
  retries := self.retries

end StoredAction

/-!
# Queries
-/

namespace Store

def allDependencies (s : Store) (id : ActionId) : List ActionDependency :=
  (s.dependencies.filter (fun d => d.actionId = id)).map
    (fun d =>
      { dependencyId := d.dependencyId, dependencyType := d.dependencyType })

def dependeesOfType (s : Store) (id : ActionId) (type : DependencyType) :
    List ActionId :=
  ((s.dependencies.filter (fun d =>
    d.dependencyId = id ∧ d.dependencyType = type)).map
      DependencyRow.actionId).dedup

def resolveDependencyKeys (s : Store) (keys : List ActionDependencyKey) :
    List ActionId :=
  ((s.keys.filter (fun k => k.keyId ∈ keys)).map
    KeyRow.actionId).dedup

/-- `Model::load` with the `after_load` hook. -/
def load (s : Store) (id : ActionId) : Option StoredAction :=
  (s.find id).map (fun a =>
    { id := some a.id
      actionType := a.actionType
      debugString := a.debugString
      dependencies := s.allDependencies a.id
      created := a.created
      priority := a.priority
      scheduled := a.scheduled
      state := a.state
      actionGroup := a.actionGroup
      resources := ((s.resources.find? (fun r =>
        r.actionId = a.id)).map ResourceRow.resource).getD []
      version := a.version
      retries := a.retries
      dependencyKeys := {} })

def delete (s : Store) (id : ActionId) : Store :=
  s.deleteWhere (fun a => a.id = id)

def deleteAllInGroup (s : Store) (group : String) : Store :=
  s.deleteWhere (fun a => a.actionGroup = group)

def deleteByType (s : Store) (type : String) : Store :=
  s.deleteWhere (fun a => a.actionType = type)

def updateActionState (s : Store) (id : ActionId) (state : Bytes) : Store :=
  s.updateAction id (fun a => { a with state := state })

def updateRetries (s : Store) (id : ActionId) : Store :=
  s.updateAction id (fun a => { a with retries := a.retries + 1 })

def getRetries (s : Store) (id : ActionId) : Option Nat :=
  (s.find id).map ActionRow.retries

/-!
# Picking the next action
-/

def defaultLockTimeout : Int := 60

/--
`unixepoch(datetime(t))` in seconds.  The number 0 that a release leaves behind
is a Julian day, noon of November 24 in the year -4713.
-/
def unixepoch : Option Timestamp -> Int
  | some t => t / 1000000000
  | none => -210866760000

def lockExpired (now : Timestamp) (l : LockRow) : Bool :=
  decide (unixepoch (some now) - unixepoch l.acquiredAt ≥ defaultLockTimeout)

def executable (s : Store) (group : String) (now : Timestamp)
    (a : ActionRow) : Bool :=
  decide (a.actionGroup = group) &&
    (s.findLock a.id).all (lockExpired now) &&
    decide (a.scheduled < now) &&
    s.dependencies.all (fun d => d.actionId ≠ a.id)

/-- `ORDER BY priority ASC, created ASC`. -/
def notAfter (a b : ActionRow) : Bool :=
  decide (a.priority.toNat < b.priority.toNat) ||
    (decide (a.priority.toNat = b.priority.toNat) &&
      decide (a.created ≤ b.created))

/--
The rows `LIMIT 1` may return: the order does not tell rows of the same
priority and creation time apart, so each of the first ones is a possible
answer of `next`.
-/
def next (s : Store) (group : String) (now : Timestamp) : List ActionRow :=
  let rows := s.actions.filter (s.executable group now)
  rows.filter (fun a => rows.all (notAfter a))

/-!
# Rebase order
-/

/-- `ORDER BY created ASC, rowid ASC`. -/
def RebaseLe (a b : ActionRow) : Prop :=
  a.created < b.created ∨ (a.created = b.created ∧ a.id ≤ b.id)

instance : DecidableRel RebaseLe :=
  fun _ _ => inferInstanceAs (Decidable (_ ∨ _))

def rebaseActionOrder (s : Store) (group : String) : List ActionId :=
  ((s.actions.filter (fun a => a.actionGroup = group)).insertionSort
    RebaseLe).map ActionRow.id

end Store

/-!
# Saving
-/

namespace StoredAction

def dependencySet (self : StoredAction) (s : Store) : List ActionDependency :=
  (self.dependencies ++
    (s.resolveDependencyKeys self.dependencyKeys.optional).map
      ActionDependency.optional ++
    (s.resolveDependencyKeys self.dependencyKeys.required).map
      ActionDependency.required).dedup

def insertDependencies (id : ActionId) (existing : List ActionId) :
    List ActionDependency -> Store -> Except StashError Store
  | [], s => Except.ok s
  | dep :: rest, s =>
      if dep.dependencyId ∈ existing then
        match s.insertDependency
            { actionId := id
              dependencyId := dep.dependencyId
              dependencyType := dep.dependencyType } with
        | some s' => insertDependencies id existing rest s'
        | none => Except.error StashError.constraint
      else
        insertDependencies id existing rest s

def storeDependencyKeys (id : ActionId) :
    List ActionDependencyKey -> Store -> Except StashError Store
  | [], s => Except.ok s
  | key :: rest, s =>
      match s.insertKey { keyId := key, actionId := id } with
      | some s' => storeDependencyKeys id rest s'
      | none => Except.error StashError.constraint

def updateDependencyKeys (self : StoredAction) (id : ActionId)
    (iter : IterOrder ActionDependency) (s : Store) :
    Except StashError Store := do
  let s' <- insertDependencies id s.ids (iter.order (self.dependencySet s)) s
  storeDependencyKeys id
    (self.dependencyKeys.required ++ self.dependencyKeys.record) s'

def afterSave (self : StoredAction) (id : ActionId)
    (iter : IterOrder ActionDependency) (s : Store) :
    Except StashError Store := do
  let s' <- self.updateDependencyKeys id iter s
  match s'.replaceResource { actionId := id, resource := self.resources } with
  | some s'' => Except.ok s''
  | none => Except.error StashError.constraint

/-- `Model::save`; it assigns the id of the record, which is returned. -/
def save (self : StoredAction) (iter : IterOrder ActionDependency)
    (s : Store) : Except StashError (ActionId × Store) := do
  match self.id.filter s.contains with
  | some id =>
      let s' <- self.afterSave id iter
        (s.updateAction id (fun _ => self.toRow id))
      Except.ok (id, s')
  | none =>
      let (id, s') := s.insertAction (self.toRow 0)
      let s'' <- self.afterSave id iter s'
      Except.ok (id, s'')

end StoredAction

/-!
# Execution guards
-/

structure ExecutionGuard where
  actionId : ActionId
  permitId : Nat
  deriving DecidableEq, Repr

inductive ExecutionGuardError where
  | expired
  | stash (e : StashError)
  deriving DecidableEq, Repr

namespace ExecutionGuard

def hasExecutor (id : ActionId) (s : Store) : Bool :=
  ((s.findLock id).bind LockRow.executorId).isSome

def acquire (id : ActionId) (executor : ExecutorId) (now : Timestamp)
    (s : Store) : Except StashError (ExecutionGuard × Store) :=
  match s.acquireLock id executor now with
  | some (permit, s') =>
      Except.ok ({ actionId := id, permitId := permit }, s')
  | none => Except.error StashError.constraint

def clearSlateState (executor : ExecutorId) (s : Store) : Store :=
  s.deleteLocksOf executor

def release (self : ExecutionGuard) (s : Store) : Store :=
  s.releaseLock self.actionId self.permitId

/-- The `UPDATE` that opens a guarded transaction changes at least one row. -/
def valid (self : ExecutionGuard) (s : Store) : Bool :=
  s.locks.any (fun l =>
    l.actionId = self.actionId ∧ l.permitId = self.permitId)

/-- A guarded write transaction: the result and the store after it. -/
def tx {α : Type} (self : ExecutionGuard) (now : Timestamp)
    (closure : Store -> Except ExecutionGuardError (α × Store)) (s : Store) :
    Except ExecutionGuardError α × Store :=
  if self.valid s then
    match closure (s.touchLock self.actionId self.permitId now) with
    | Except.ok (a, s') => (Except.ok a, s')
    | Except.error e => (Except.error e, s)
  else
    (Except.error ExecutionGuardError.expired, s)

/--
Same as `tx`, but releases the guard when finished.  `none` stands for a
closure that never returns.
-/
def txAndRelease {α : Type} (self : ExecutionGuard) (now : Timestamp)
    (closure : Store -> Option (Except StashError (α × Store))) (s : Store) :
    Option (Except ExecutionGuardError α × Store) :=
  if self.valid s then
    match closure (s.touchLock self.actionId self.permitId now) with
    | none => none
    | some (Except.ok (a, s')) => some (Except.ok a, self.release s')
    | some (Except.error e) =>
        some (Except.error (ExecutionGuardError.stash e), s)
  else
    some (Except.error ExecutionGuardError.expired, s)

end ExecutionGuard

namespace StoredAction

def replaces (self : StoredAction) (existing : ActionId) (s : Store) : Bool :=
  match s.load existing with
  | some found =>
      decide (found.actionType = self.actionType) &&
        !ExecutionGuard.hasExecutor existing s
  | none => false

/--
Replaces the action `existing` if it is of the same type and nobody executes
it; otherwise a new action is stored.
-/
def createOrUpdate (self : StoredAction) (existing : ActionId)
    (iter : IterOrder ActionDependency) (s : Store) :
    Except StashError (ActionId × StoredAction × Store) := do
  if self.replaces existing s then
    let self' :=
      { self with
        id := some existing
        dependencies := self.dependencies.filter
          (fun d => d.dependencyId ≠ existing) }
    let (id, s') <- self'.save iter (s.deleteKeysOf existing)
    Except.ok (id, self', s')
  else
    let (id, s') <- self.save iter s
    Except.ok (id, { self with id := some id }, s')

/--
`StoredAction::pop` when the query for the next action answers `picked`.
-/
def pop (executor : ExecutorId) (now : Timestamp) (picked : Option ActionId)
    (s : Store) : Except StashError (Option ExecutionGuard × Store) :=
  let cleared := ExecutionGuard.clearSlateState executor s
  match picked with
  | none => Except.ok (none, cleared)
  | some id =>
      match ExecutionGuard.acquire id executor now cleared with
      | Except.ok (guard, s') => Except.ok (some guard, s')
      | Except.error e => Except.error e

/-- The answers the query for the next action of `pop` may give. -/
def Picks (executor : ExecutorId) (group : String) (now : Timestamp)
    (s : Store) (picked : Option ActionId) : Prop :=
  match picked with
  | none => (ExecutionGuard.clearSlateState executor s).next group now = []
  | some id =>
      id ∈ ((ExecutionGuard.clearSlateState executor s).next group now).map
        ActionRow.id

instance (executor : ExecutorId) (group : String) (now : Timestamp)
    (s : Store) (picked : Option ActionId) :
    Decidable (Picks executor group now s picked) :=
  match picked with
  | none => inferInstanceAs (Decidable (_ = []))
  | some _ => inferInstanceAs (Decidable (_ ∈ _))

end StoredAction

end ActionQueue
end MailClient
