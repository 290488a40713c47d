import Mathlib.Data.List.Basic
import Mathlib.Data.List.Nodup
import Mathlib.Data.List.Pairwise

/-!
# The action queue tables

The queue lives in six SQLite tables.  A value of `Store` is a content of these
tables that satisfies the schema of the migrations: the primary keys, the
`AUTOINCREMENT` sequence of `action_queue`, the unique executor of
`action_queue_lock` and the foreign keys, all of which cascade on delete.
Every SQL statement of the queue is one operation on `Store`; a statement that
would break a constraint is rejected, as the engine rejects it.
-/

namespace MailClient
namespace ActionQueue

abbrev ActionId := Nat

abbrev ExecutorId := String

/-- Nanoseconds since the Unix epoch. -/
abbrev Timestamp := Int

abbrev Bytes := List UInt8

abbrev ActionDependencyKey := String

abbrev Resources := List Bytes

inductive Priority where
  | highest
  | high
  | normal
  | low
  | lowest
  deriving DecidableEq, Repr

def Priority.toNat : Priority -> Nat
  | highest => 0
  | high => 1
  | normal => 2
  | low => 3
  | lowest => 4

inductive DependencyType where
  /-- Required dependencies result in the dependee being cancelled. -/
  | required
  /-- Optional dependencies do not result in the dependee being cancelled. -/
  | optional
  deriving DecidableEq, Repr

structure ActionDependency where
  dependencyId : ActionId
  dependencyType : DependencyType
  deriving DecidableEq, Repr

def ActionDependency.required (id : ActionId) : ActionDependency :=
  { dependencyId := id, dependencyType := DependencyType.required }

def ActionDependency.optional (id : ActionId) : ActionDependency :=
  { dependencyId := id, dependencyType := DependencyType.optional }

/-!
# Rows

One structure for each table: `action_queue`, `action_queue_dependencies`,
`action_queue_resources`, `action_queue_lock` and `action_queue_key_deps_v2`.
-/

structure ActionRow where
  id : ActionId
  actionType : String
  debugString : Option String
  created : Timestamp
  priority : Priority
  scheduled : Timestamp
  state : Bytes
  actionGroup : String
  version : Nat
  retries : Nat
  deriving DecidableEq, Repr

structure DependencyRow where
  actionId : ActionId
  dependencyId : ActionId
  dependencyType : DependencyType
  deriving DecidableEq, Repr

def DependencyRow.key (r : DependencyRow) : ActionId × ActionId :=
  (r.actionId, r.dependencyId)

structure ResourceRow where
  actionId : ActionId
  resource : Resources
  deriving DecidableEq, Repr

structure LockRow where
  actionId : ActionId
  executorId : Option ExecutorId
  /-- `none` is the number 0, which the date functions read as the Julian
  epoch. -/
  acquiredAt : Option Timestamp
  permitId : Nat
  deriving DecidableEq, Repr

def LockRow.Distinct (l l' : LockRow) : Prop :=
  l.actionId ≠ l'.actionId ∧
    (l.executorId = none ∨ l.executorId ≠ l'.executorId)

structure KeyRow where
  keyId : ActionDependencyKey
  actionId : ActionId
  deriving DecidableEq, Repr

/--
The calls of action handlers that take part in a transaction.  They stand for
the application tables, which the queue never looks at but which are committed
and rolled back together with it.
-/
inductive HandlerCall where
  | applyLocal (id : ActionId)
  | revertLocal (id : ActionId)
  /-- The call has returned an error, and not all may be undone. -/
  | revertFailed (id : ActionId)
  deriving DecidableEq, Repr

/-!
# Tables under their constraints
-/

structure Store where
  /-- The largest id ever handed out. -/
  sequence : Nat
  actions : List ActionRow
  dependencies : List DependencyRow
  resources : List ResourceRow
  locks : List LockRow
  keys : List KeyRow
  handled : List HandlerCall
  action_order : actions.Pairwise (fun a b => a.id < b.id)
  action_sequence : forall a, a ∈ actions -> a.id ≤ sequence
  dependency_key : (dependencies.map DependencyRow.key).Nodup
  dependency_action : forall d, d ∈ dependencies ->
    d.actionId ∈ actions.map ActionRow.id
  dependency_target : forall d, d ∈ dependencies ->
    d.dependencyId ∈ actions.map ActionRow.id
  resource_key : (resources.map ResourceRow.actionId).Nodup
  resource_action : forall r, r ∈ resources ->
    r.actionId ∈ actions.map ActionRow.id
  lock_unique : locks.Pairwise LockRow.Distinct
  lock_action : forall l, l ∈ locks -> l.actionId ∈ actions.map ActionRow.id
  key_action : forall k, k ∈ keys -> k.actionId ∈ actions.map ActionRow.id

namespace Store

def empty : Store where
  sequence := 0
  actions := []
  dependencies := []
  resources := []
  locks := []
  keys := []
  handled := []
  action_order := List.Pairwise.nil
  action_sequence := by simp
  dependency_key := List.nodup_nil
  dependency_action := by simp
  dependency_target := by simp
  resource_key := List.nodup_nil
  resource_action := by simp
  lock_unique := List.Pairwise.nil
  lock_action := by simp
  key_action := by simp

def ids (s : Store) : List ActionId :=
  s.actions.map ActionRow.id

def contains (s : Store) (id : ActionId) : Bool :=
  decide (id ∈ s.ids)

def find (s : Store) (id : ActionId) : Option ActionRow :=
  s.actions.find? (fun a => a.id = id)

def findLock (s : Store) (id : ActionId) : Option LockRow :=
  s.locks.find? (fun l => l.actionId = id)

/-!
# Statements on `action_queue`
-/

/-- `INSERT INTO action_queue ... RETURNING id`. -/
def insertAction (s : Store) (row : ActionRow) : ActionId × Store :=
  (s.sequence + 1,
    { s with
      sequence := s.sequence + 1
      actions := s.actions ++ [{ row with id := s.sequence + 1 }]
      action_order := by
        rw [List.pairwise_append]
        refine ⟨s.action_order, List.pairwise_singleton _ _, ?_⟩
        intro a ha b hb
        rw [List.mem_singleton] at hb
        subst hb
        exact Nat.lt_succ_of_le (s.action_sequence a ha)
      action_sequence := by
        intro a ha
        rcases List.mem_append.mp ha with ha | ha
        · exact Nat.le_succ_of_le (s.action_sequence a ha)
        · rw [List.mem_singleton] at ha
          subst ha
          exact Nat.le_refl _
      dependency_action := by
        intro d hd
        rw [List.map_append]
        exact List.mem_append_left _ (s.dependency_action d hd)
      dependency_target := by
        intro d hd
        rw [List.map_append]
        exact List.mem_append_left _ (s.dependency_target d hd)
      resource_action := by
        intro r hr
        rw [List.map_append]
        exact List.mem_append_left _ (s.resource_action r hr)
      lock_action := by
        intro l hl
        rw [List.map_append]
        exact List.mem_append_left _ (s.lock_action l hl)
      key_action := by
        intro k hk
        rw [List.map_append]
        exact List.mem_append_left _ (s.key_action k hk) })

def setRow (id : ActionId) (f : ActionRow -> ActionRow) (a : ActionRow) :
    ActionRow :=
  if a.id = id then { f a with id := a.id } else a

@[simp] theorem setRow_id (id : ActionId) (f : ActionRow -> ActionRow)
    (a : ActionRow) : (setRow id f a).id = a.id := by
  unfold setRow
  split <;> rfl

theorem map_setRow_ids (id : ActionId) (f : ActionRow -> ActionRow)
    (rows : List ActionRow) :
    (rows.map (setRow id f)).map ActionRow.id = rows.map ActionRow.id := by
  simp [Function.comp_def]

/-- `UPDATE action_queue SET ... WHERE id = ?`. -/
def updateAction (s : Store) (id : ActionId) (f : ActionRow -> ActionRow) :
    Store :=
  { s with
    actions := s.actions.map (setRow id f)
    action_order := by
      rw [List.pairwise_map]
      simpa using s.action_order
    action_sequence := by
      intro a ha
      rcases List.mem_map.mp ha with ⟨b, hb, hab⟩
      rw [<- hab, setRow_id]
      exact s.action_sequence b hb
    dependency_action := by
      intro d hd
      rw [map_setRow_ids]
      exact s.dependency_action d hd
    dependency_target := by
      intro d hd
      rw [map_setRow_ids]
      exact s.dependency_target d hd
    resource_action := by
      intro r hr
      rw [map_setRow_ids]
      exact s.resource_action r hr
    lock_action := by
      intro l hl
      rw [map_setRow_ids]
      exact s.lock_action l hl
    key_action := by
      intro k hk
      rw [map_setRow_ids]
      exact s.key_action k hk }

/--
`DELETE FROM action_queue WHERE ...`.  The foreign keys cascade, so the rows of
the other tables that refer to a deleted action disappear with it.
-/
def deleteWhere (s : Store) (p : ActionRow -> Bool) : Store :=
  let rows := s.actions.filter (fun a => !p a)
  let kept := fun id => decide (id ∈ rows.map ActionRow.id)
  { s with
    actions := rows
    dependencies := s.dependencies.filter
      (fun d => kept d.actionId && kept d.dependencyId)
    resources := s.resources.filter (fun r => kept r.actionId)
    locks := s.locks.filter (fun l => kept l.actionId)
    keys := s.keys.filter (fun k => kept k.actionId)
    action_order := s.action_order.sublist List.filter_sublist
    action_sequence := by
      intro a ha
      exact s.action_sequence a (List.mem_of_mem_filter ha)
    dependency_key :=
      s.dependency_key.sublist (List.filter_sublist.map _)
    dependency_action := by
      intro d hd
      have hkept := (List.mem_filter.mp hd).right
      rw [Bool.and_eq_true] at hkept
      exact of_decide_eq_true hkept.left
    dependency_target := by
      intro d hd
      have hkept := (List.mem_filter.mp hd).right
      rw [Bool.and_eq_true] at hkept
      exact of_decide_eq_true hkept.right
    resource_key := s.resource_key.sublist (List.filter_sublist.map _)
    resource_action := by
      intro r hr
      exact of_decide_eq_true (List.mem_filter.mp hr).right
    lock_unique := s.lock_unique.sublist List.filter_sublist
    lock_action := by
      intro l hl
      exact of_decide_eq_true (List.mem_filter.mp hl).right
    key_action := by
      intro k hk
      exact of_decide_eq_true (List.mem_filter.mp hk).right }

/-!
# Statements on `action_queue_dependencies`
-/

/-- `ON CONFLICT DO UPDATE SET dependency_type = excluded.dependency_type`. -/
def setDependency (row : DependencyRow) (d : DependencyRow) : DependencyRow :=
  if d.key = row.key then { d with dependencyType := row.dependencyType } else d

@[simp] theorem setDependency_key (row d : DependencyRow) :
    (setDependency row d).key = d.key := by
  unfold setDependency
  split <;> rfl

theorem setDependency_actionId (row d : DependencyRow) :
    (setDependency row d).actionId = d.actionId :=
  congrArg Prod.fst (setDependency_key row d)

theorem setDependency_dependencyId (row d : DependencyRow) :
    (setDependency row d).dependencyId = d.dependencyId :=
  congrArg Prod.snd (setDependency_key row d)

def insertDependency (s : Store) (row : DependencyRow) : Option Store :=
  if hfk : row.actionId ∈ s.ids ∧ row.dependencyId ∈ s.ids then
    if hkey : row.key ∈ s.dependencies.map DependencyRow.key then
      some
        { s with
          dependencies := s.dependencies.map (setDependency row)
          dependency_key := by
            rw [List.map_map]
            simpa [Function.comp_def] using s.dependency_key
          dependency_action := by
            intro d hd
            rcases List.mem_map.mp hd with ⟨d', hd', heq⟩
            rw [<- heq, setDependency_actionId]
            exact s.dependency_action d' hd'
          dependency_target := by
            intro d hd
            rcases List.mem_map.mp hd with ⟨d', hd', heq⟩
            rw [<- heq, setDependency_dependencyId]
            exact s.dependency_target d' hd' }
    else
      some
        { s with
          dependencies := s.dependencies ++ [row]
          dependency_key := by
            rw [List.map_append, List.nodup_append]
            refine ⟨s.dependency_key, List.nodup_singleton _, ?_⟩
            intro k hk k' hk' heq
            rw [List.map_singleton, List.mem_singleton] at hk'
            rw [heq, hk'] at hk
            exact hkey hk
          dependency_action := by
            intro d hd
            rcases List.mem_append.mp hd with hd | hd
            · exact s.dependency_action d hd
            · rw [List.mem_singleton] at hd
              rw [hd]
              exact hfk.left
          dependency_target := by
            intro d hd
            rcases List.mem_append.mp hd with hd | hd
            · exact s.dependency_target d hd
            · rw [List.mem_singleton] at hd
              rw [hd]
              exact hfk.right }
  else
    none

/-!
# Statements on `action_queue_resources`
-/

def replaceResource (s : Store) (row : ResourceRow) : Option Store :=
  if hfk : row.actionId ∈ s.ids then
    some
      { s with
        resources := s.resources.filter
          (fun r => r.actionId ≠ row.actionId) ++ [row]
        resource_key := by
          rw [List.map_append, List.nodup_append]
          refine ⟨s.resource_key.sublist (List.filter_sublist.map _),
            List.nodup_singleton _, ?_⟩
          intro k hk k' hk' heq
          rw [List.map_singleton, List.mem_singleton] at hk'
          rcases List.mem_map.mp hk with ⟨r, hr, hrk⟩
          have hne := of_decide_eq_true (List.mem_filter.mp hr).right
          exact hne (by rw [hrk, heq, hk'])
        resource_action := by
          intro r hr
          rcases List.mem_append.mp hr with hr | hr
          · exact s.resource_action r (List.mem_of_mem_filter hr)
          · rw [List.mem_singleton] at hr
            rw [hr]
            exact hfk }
  else
    none

/-!
# Statements on `action_queue_lock`
-/

/-- `UPDATE action_queue_lock SET acquired_at = ? WHERE ...`. -/
def touch (now : Timestamp) (id : ActionId) (permit : Nat) (l : LockRow) :
    LockRow :=
  if l.actionId = id ∧ l.permitId = permit then
    { l with acquiredAt := some now }
  else
    l

/-- `UPDATE action_queue_lock SET executor_id = NULL, acquired_at = 0`. -/
def unlock (id : ActionId) (permit : Nat) (l : LockRow) : LockRow :=
  if l.actionId = id ∧ l.permitId = permit then
    { l with executorId := none, acquiredAt := none }
  else
    l

def reacquire (id : ActionId) (executor : ExecutorId) (now : Timestamp)
    (l : LockRow) : LockRow :=
  if l.actionId = id then
    { l with
      executorId := some executor
      permitId := l.permitId + 1
      acquiredAt := some now }
  else
    l

@[simp] theorem touch_actionId (now : Timestamp) (id : ActionId) (permit : Nat)
    (l : LockRow) : (touch now id permit l).actionId = l.actionId := by
  unfold touch
  split <;> rfl

@[simp] theorem touch_executorId (now : Timestamp) (id : ActionId)
    (permit : Nat) (l : LockRow) :
    (touch now id permit l).executorId = l.executorId := by
  unfold touch
  split <;> rfl

@[simp] theorem touch_permitId (now : Timestamp) (id : ActionId) (permit : Nat)
    (l : LockRow) : (touch now id permit l).permitId = l.permitId := by
  unfold touch
  split <;> rfl

@[simp] theorem unlock_actionId (id : ActionId) (permit : Nat) (l : LockRow) :
    (unlock id permit l).actionId = l.actionId := by
  unfold unlock
  split <;> rfl

@[simp] theorem unlock_permitId (id : ActionId) (permit : Nat) (l : LockRow) :
    (unlock id permit l).permitId = l.permitId := by
  unfold unlock
  split <;> rfl

theorem unlock_executorId (id : ActionId) (permit : Nat) (l : LockRow) :
    (unlock id permit l).executorId = none ∨
      (unlock id permit l).executorId = l.executorId := by
  unfold unlock
  split
  · exact Or.inl rfl
  · exact Or.inr rfl

@[simp] theorem reacquire_actionId (id : ActionId) (executor : ExecutorId)
    (now : Timestamp) (l : LockRow) :
    (reacquire id executor now l).actionId = l.actionId := by
  unfold reacquire
  split <;> rfl

theorem reacquire_of_ne {id : ActionId} {executor : ExecutorId}
    {now : Timestamp} {l : LockRow} (h : l.actionId ≠ id) :
    reacquire id executor now l = l :=
  if_neg h

def touchLock (s : Store) (id : ActionId) (permit : Nat) (now : Timestamp) :
    Store :=
  { s with
    locks := s.locks.map (touch now id permit)
    lock_unique := by
      rw [List.pairwise_map]
      refine s.lock_unique.imp ?_
      intro l l' hdist
      simpa [LockRow.Distinct] using hdist
    lock_action := by
      intro l hl
      rcases List.mem_map.mp hl with ⟨l', hl', heq⟩
      rw [<- heq, touch_actionId]
      exact s.lock_action l' hl' }

def releaseLock (s : Store) (id : ActionId) (permit : Nat) : Store :=
  { s with
    locks := s.locks.map (unlock id permit)
    lock_unique := by
      rw [List.pairwise_map]
      refine s.lock_unique.imp ?_
      intro l l' hdist
      refine ⟨by simpa using hdist.left, ?_⟩
      rcases unlock_executorId id permit l with h | h
      · exact Or.inl h
      · rcases unlock_executorId id permit l' with h' | h'
        · rw [h, h']
          exact eq_or_ne _ _
        · rw [h, h']
          exact hdist.right
    lock_action := by
      intro l hl
      rcases List.mem_map.mp hl with ⟨l', hl', heq⟩
      rw [<- heq, unlock_actionId]
      exact s.lock_action l' hl' }

/-- `DELETE FROM action_queue_lock WHERE executor_id = ?`. -/
def deleteLocksOf (s : Store) (executor : ExecutorId) : Store :=
  { s with
    locks := s.locks.filter (fun l => l.executorId ≠ some executor)
    lock_unique := s.lock_unique.sublist List.filter_sublist
    lock_action := by
      intro l hl
      exact s.lock_action l (List.mem_of_mem_filter hl) }

theorem reacquire_distinct {id : ActionId} {executor : ExecutorId}
    {now : Timestamp} {l l' : LockRow} (hdist : l.Distinct l')
    (hfree : l.executorId = some executor -> l.actionId = id)
    (hfree' : l'.executorId = some executor -> l'.actionId = id) :
    (reacquire id executor now l).Distinct (reacquire id executor now l') := by
  refine ⟨by simpa using hdist.left, ?_⟩
  by_cases hl : l.actionId = id
  · have hl' : l'.actionId ≠ id := fun h => hdist.left (hl.trans h.symm)
    refine Or.inr ?_
    rw [reacquire_of_ne hl']
    intro heq
    apply hl'
    apply hfree'
    rw [<- heq]
    simp [reacquire, hl]
  · rw [reacquire_of_ne hl]
    by_cases hl' : l'.actionId = id
    · refine Or.inr ?_
      intro heq
      apply hl
      apply hfree
      rw [heq]
      simp [reacquire, hl']
    · rw [reacquire_of_ne hl']
      exact hdist.right

/--
`INSERT INTO action_queue_lock ... ON CONFLICT (action_id) DO UPDATE ...
RETURNING permit_id`.
-/
def acquireLock (s : Store) (id : ActionId) (executor : ExecutorId)
    (now : Timestamp) : Option (Nat × Store) :=
  if hok : id ∈ s.ids ∧
      forall l, l ∈ s.locks -> l.executorId = some executor -> l.actionId = id
  then
    match hfind : s.findLock id with
    | some l =>
        some (l.permitId + 1,
          { s with
            locks := s.locks.map (reacquire id executor now)
            lock_unique := by
              rw [List.pairwise_map]
              refine s.lock_unique.imp_of_mem ?_
              intro l l' hl hl' hdist
              exact reacquire_distinct hdist (hok.right l hl) (hok.right l' hl')
            lock_action := by
              intro l hl
              rcases List.mem_map.mp hl with ⟨l', hl', heq⟩
              rw [<- heq, reacquire_actionId]
              exact s.lock_action l' hl' })
    | none =>
        some (1,
          { s with
            locks := s.locks ++ [
              { actionId := id
                executorId := some executor
                acquiredAt := some now
                permitId := 1 }]
            lock_unique := by
              rw [List.pairwise_append]
              refine ⟨s.lock_unique, List.pairwise_singleton _ _, ?_⟩
              intro l hl l' hl'
              rw [List.mem_singleton] at hl'
              subst hl'
              have hne : l.actionId ≠ id := by
                intro heq
                have hnot := List.find?_eq_none.mp hfind l hl
                exact hnot (decide_eq_true heq)
              exact ⟨hne, Or.inr (fun h => hne (hok.right l hl h))⟩
            lock_action := by
              intro l hl
              rcases List.mem_append.mp hl with hl | hl
              · exact s.lock_action l hl
              · rw [List.mem_singleton] at hl
                rw [hl]
                exact hok.left })
  else
    none

/-!
# Statements on `action_queue_key_deps_v2`
-/

def insertKey (s : Store) (row : KeyRow) : Option Store :=
  if hfk : row.actionId ∈ s.ids then
    some
      { s with
        keys := s.keys ++ [row]
        key_action := by
          intro k hk
          rcases List.mem_append.mp hk with hk | hk
          · exact s.key_action k hk
          · rw [List.mem_singleton] at hk
            rw [hk]
            exact hfk }
  else
    none

def deleteKeysOf (s : Store) (id : ActionId) : Store :=
  { s with
    keys := s.keys.filter (fun k => k.actionId ≠ id)
    key_action := by
      intro k hk
      exact s.key_action k (List.mem_of_mem_filter hk) }

def call (s : Store) (c : HandlerCall) : Store :=
  { s with handled := s.handled ++ [c] }

end Store

end ActionQueue
end MailClient
