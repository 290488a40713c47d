import MailClient.Foundation.Transition
import MailClient.ActionQueue.Shrinking

/-!
# Runs of the queue

SQLite serializes write transactions and rolls a failed one back, so a run of
the queue is a sequence of transactions, whatever the tasks that issue them.
The guards, the clock and the answers of handlers are arbitrary here; the tasks
that hold the guards are added on top of this system.
-/

namespace MailClient
namespace ActionQueue

open Foundation

inductive Transaction where
  | queueAction (sub : Submission)
  | replaceOrQueueAction (existing : ActionId) (sub : Submission)
  | cancel (factory : Factory) (faults : CancelFaults)
      (order : PopOrder ActionId) (fuel : Nat) (id : ActionId)
  | deleteAction (id : ActionId)
  | deleteAllInGroup (group : String)
  | deleteAllByType (type : String)
  | rebase (factory : Factory)
      (rebased : StoredAction -> Except ActionError Bytes) (group : String)
  | pop (executor : ExecutorId) (group : String) (now : Timestamp)
      (picked : Option ActionId)
  | keepAlive (guard : ExecutionGuard) (now : Timestamp)
  | complete (factory : Factory) (faults : ExecutionFaults)
      (order : PopOrder ActionId) (fuel : Nat) (maxRetries : Option Nat)
      (guard : ExecutionGuard) (now : Timestamp) (result : RemoteResult)
  | release (guard : ExecutionGuard)

/-- The store a submission leaves behind; an error rolls it back. -/
def committed {ε α β : Type} (s : Store) :
    Except ε (α × β × Store) -> Store
  | Except.ok (_, _, s') => s'
  | Except.error _ => s

/--
The store after a transaction.  `none` means that it does not end, or that the
query for the next action cannot give the answer `picked`.
-/
def Transaction.run (s : Store) : Transaction -> Option Store
  | queueAction sub => some (committed s (ActionQueue.queueAction sub s))
  | replaceOrQueueAction existing sub =>
      some (committed s (ActionQueue.replaceOrQueueAction existing sub s))
  | cancel factory faults order fuel id =>
      (ActionQueue.cancel factory faults order fuel id s).map Prod.snd
  | deleteAction id => some (ActionQueue.deleteAction id s).2
  | deleteAllInGroup group => some (s.deleteAllInGroup group)
  | deleteAllByType type => some (s.deleteByType type)
  | rebase factory rebased group =>
      match rebaseIn factory rebased group s with
      | Except.ok s' => some s'
      | Except.error _ => some s
  | pop executor group now picked =>
      if StoredAction.Picks executor group now s picked then
        match StoredAction.pop executor now picked s with
        | Except.ok (_, s') => some s'
        | Except.error _ => some s
      else
        none
  | keepAlive guard now =>
      some (guard.tx now (fun t => Except.ok ((), t)) s).2
  | complete factory faults order fuel maxRetries guard now result =>
      (completeExecution factory faults order fuel maxRetries guard now result
        s).map Prod.snd
  | release guard => some (guard.release s)

def QueueRuns : TransitionSystem Store Transaction where
  init := fun s => s = Store.empty
  step := fun s t s' => t.run s = some s'

/-!
# Executable runs
-/

def runAll (s : Store) : List Transaction -> Option Store
  | [] => some s
  | t :: rest => (t.run s).bind (fun s' => runAll s' rest)

variable {s s' : Store} {sub : Submission} {existing : Option ActionId}

theorem runAll_runs {ts : List Transaction} (h : runAll s ts = some s') :
    QueueRuns.Runs s s' := by
  induction ts generalizing s with
  | nil =>
      cases h
      exact TransitionSystem.Runs.refl _
  | cons t rest ih =>
      rcases Option.bind_eq_some_iff.mp h with ⟨mid, hmid, hrest⟩
      exact TransitionSystem.Runs.head hmid (ih hrest)

theorem runAll_reachable {ts : List Transaction}
    (h : runAll Store.empty ts = some s) : QueueRuns.Reachable s :=
  TransitionSystem.Reachable.runs
    (TransitionSystem.ReachableWhen.start rfl) (runAll_runs h)

/-- A submission that differs from the defaults only in what is given. -/
def plainSubmission (created : Timestamp)
    (dependencies : List ActionDependency)
    (keys : ActionDependencyKeys) : Submission where
  consts := { type := "plain", version := 1 }
  metadata := { created := created, dependencies := dependencies }
  applyLocal := some { dependencyKeys := keys, state := some [] }

/-- A client that can decode everything. -/
def anyFactory : Factory :=
  fun _ => some { convert := fun _ _ => Except.ok () }

/-!
# Popping
-/

theorem acquireLock_spec {id : ActionId} {executor : ExecutorId}
    {now : Timestamp} {p : Nat}
    (h : s.acquireLock id executor now = some (p, s')) :
    (s'.sequence = s.sequence ∧ s'.actions = s.actions ∧
        s'.dependencies = s.dependencies) ∧
      id ∈ s.ids ∧
      (forall x q, s'.Permit x q ↔
        (x = id ∧ q = p) ∨ (x ≠ id ∧ s.Permit x q)) ∧
      (forall x, s'.Executing x -> x = id ∨ s.Executing x) ∧
      ((exists q, s.Permit id q ∧ p = q + 1) ∨
        ((forall q, ¬ s.Permit id q) ∧ p = 1)) := by
  unfold Store.acquireLock at h
  split at h
  · rename_i hok
    split at h
    · rename_i l hfind
      have hl := Store.findLock_eq_some.mp hfind
      cases h
      refine ⟨⟨rfl, rfl, rfl⟩, hok.left, ?_, ?_, Or.inl ⟨l.permitId,
        ⟨l, hl.left, hl.right, rfl⟩, rfl⟩⟩
      · intro x q
        constructor
        · intro hx
          rcases hx with ⟨l', hl', hid, hq⟩
          rcases List.mem_map.mp hl' with ⟨l₀, hl₀, heq⟩
          by_cases hid₀ : l₀.actionId = id
          · have hsame := Store.lock_eq hl₀ hl.left (hid₀.trans hl.right.symm)
            subst hsame
            subst heq
            rw [Store.reacquire_actionId] at hid
            refine Or.inl ⟨hid.symm.trans hid₀, ?_⟩
            rw [<- hq]
            simp [Store.reacquire, hid₀]
          · rw [Store.reacquire_of_ne hid₀] at heq
            subst heq
            refine Or.inr ⟨?_, l₀, hl₀, hid, hq⟩
            rw [<- hid]
            exact hid₀
        · intro hx
          rcases hx with ⟨hx, hq⟩ | ⟨hx, l₀, hl₀, hid, hq⟩
          · refine ⟨Store.reacquire id executor now l,
              List.mem_map_of_mem hl.left, ?_, ?_⟩
            · rw [Store.reacquire_actionId, hx]
              exact hl.right
            · rw [hq]
              simp [Store.reacquire, hl.right]
          · refine ⟨l₀, List.mem_map.mpr ⟨l₀, hl₀, ?_⟩, hid, hq⟩
            apply Store.reacquire_of_ne
            rw [hid]
            exact hx
      · intro x hx
        rcases hx with ⟨l', hl', hid, hexec⟩
        rcases List.mem_map.mp hl' with ⟨l₀, hl₀, heq⟩
        by_cases hid₀ : l₀.actionId = id
        · subst heq
          rw [Store.reacquire_actionId] at hid
          exact Or.inl (hid.symm.trans hid₀)
        · rw [Store.reacquire_of_ne hid₀] at heq
          subst heq
          exact Or.inr ⟨l₀, hl₀, hid, hexec⟩
    · rename_i hfind
      have hnone : forall q, ¬ s.Permit id q := by
        intro q hq
        rcases hq with ⟨l, hl, hid, _⟩
        rw [Store.findLock_eq_some.mpr ⟨hl, hid⟩] at hfind
        cases hfind
      cases h
      refine ⟨⟨rfl, rfl, rfl⟩, hok.left, ?_, ?_, Or.inr ⟨hnone, rfl⟩⟩
      · intro x q
        constructor
        · intro hx
          rcases hx with ⟨l, hl, hid, hq⟩
          rcases List.mem_append.mp hl with hl | hl
          · have hpermit : s.Permit x q := ⟨l, hl, hid, hq⟩
            refine Or.inr ⟨?_, hpermit⟩
            intro hx
            rw [hx] at hpermit
            exact hnone q hpermit
          · rw [List.mem_singleton] at hl
            subst hl
            exact Or.inl ⟨hid.symm, hq.symm⟩
        · intro hx
          rcases hx with ⟨hx, hq⟩ | ⟨hx, l, hl, hid, hq⟩
          · exact ⟨_, List.mem_append_right _ (List.mem_singleton.mpr rfl),
              hx.symm, hq.symm⟩
          · exact ⟨l, List.mem_append_left _ hl, hid, hq⟩
      · intro x hx
        rcases hx with ⟨l, hl, hid, hexec⟩
        rcases List.mem_append.mp hl with hl | hl
        · exact Or.inr ⟨l, hl, hid, hexec⟩
        · rw [List.mem_singleton] at hl
          subst hl
          exact Or.inl hid.symm
  · cases h

theorem mem_next {group : String} {now : Timestamp} {a : ActionRow}
    (h : a ∈ s.next group now) :
    a ∈ s.actions ∧ s.executable group now a = true := by
  unfold Store.next at h
  have hrows := List.mem_of_mem_filter h
  exact ⟨List.mem_of_mem_filter hrows, (List.mem_filter.mp hrows).right⟩

theorem executable_no_dependency {group : String} {now : Timestamp}
    {a : ActionRow} (h : s.executable group now a = true) (y : ActionId) :
    ¬ s.Depends a.id y := by
  intro hdep
  rcases Store.depends_iff.mp hdep with ⟨d, hd, hx, _⟩
  unfold Store.executable at h
  rw [Bool.and_eq_true] at h
  have hall := List.all_eq_true.mp h.right d hd
  exact of_decide_eq_true hall hx

/-- Everything a successful `pop` does. -/
structure Popped (executor : ExecutorId) (s s' : Store)
    (guard : Option ExecutionGuard) : Prop where
  sequence : s'.sequence = s.sequence
  actions : s'.actions = s.actions
  dependencies : s'.dependencies = s.dependencies
  free : forall g, guard = some g ->
    g.actionId ∈ s.ids ∧ forall y, ¬ s.Depends g.actionId y
  executing : forall x, s'.Executing x ->
    (exists g, guard = some g ∧ x = g.actionId) ∨ s.Executing x
  permit : forall x q, s'.Permit x q ↔
    (exists g, guard = some g ∧ x = g.actionId ∧ q = g.permitId) ∨
      ((forall g, guard = some g -> x ≠ g.actionId) ∧
        (s.deleteLocksOf executor).Permit x q)
  acquired : forall g, guard = some g ->
    (exists q, (s.deleteLocksOf executor).Permit g.actionId q ∧
        g.permitId = q + 1) ∨
      ((forall q, ¬ (s.deleteLocksOf executor).Permit g.actionId q) ∧
        g.permitId = 1)

theorem deleteLocksOf_executing {executor : ExecutorId} {x : ActionId}
    (h : (s.deleteLocksOf executor).Executing x) :
    s.Executing x := by
  rcases h with ⟨l, hl, hid, hexec⟩
  exact ⟨l, List.mem_of_mem_filter hl, hid, hexec⟩

theorem pop_popped {executor : ExecutorId} {group : String} {now : Timestamp}
    {picked : Option ActionId} {guard : Option ExecutionGuard}
    (hpicks : StoredAction.Picks executor group now s picked)
    (h : StoredAction.pop executor now picked s = Except.ok (guard, s')) :
    Popped executor s s' guard := by
  cases picked with
  | none =>
      cases h
      refine ⟨rfl, rfl, rfl, ?_, ?_, ?_, ?_⟩
      · intro g hg
        cases hg
      · intro x hx
        exact Or.inr (deleteLocksOf_executing hx)
      · intro x q
        constructor
        · intro hx
          exact Or.inr ⟨(fun g hg => by cases hg), hx⟩
        · intro hx
          rcases hx with ⟨g, hg, _⟩ | ⟨_, hx⟩
          · cases hg
          · exact hx
      · intro g hg
        cases hg
  | some id =>
      unfold StoredAction.pop at h
      dsimp only at h
      rcases List.mem_map.mp hpicks with ⟨row, hrow, hid⟩
      have hnext := mem_next hrow
      have hfree := executable_no_dependency hnext.right
      split at h
      · rename_i g mid hacquire
        cases h
        unfold ExecutionGuard.acquire at hacquire
        split at hacquire
        · rename_i p mid' hlock
          cases hacquire
          rcases acquireLock_spec hlock with
            ⟨⟨hseq, hacts, hdeps⟩, hmem, hpermit, hexec, hnew⟩
          refine ⟨hseq, hacts, hdeps, ?_, ?_, ?_, ?_⟩
          · intro g hg
            cases hg
            refine ⟨hmem, ?_⟩
            intro y
            rw [<- hid]
            exact hfree y
          · intro x hx
            rcases hexec x hx with hx | hx
            · exact Or.inl ⟨_, rfl, hx⟩
            · exact Or.inr (deleteLocksOf_executing hx)
          · intro x q
            rw [hpermit]
            constructor
            · intro hx
              rcases hx with ⟨hx, hq⟩ | ⟨hx, hq⟩
              · exact Or.inl ⟨_, rfl, hx, hq⟩
              · refine Or.inr ⟨?_, hq⟩
                intro g hg
                cases hg
                exact hx
            · intro hx
              rcases hx with ⟨g, hg, hx, hq⟩ | ⟨hx, hq⟩
              · cases hg
                exact Or.inl ⟨hx, hq⟩
              · exact Or.inr ⟨hx _ rfl, hq⟩
          · intro g hg
            cases hg
            exact hnew
        · cases hacquire
      · cases h

/-!
# What one step can do

Invariants of the queue are proved against these three cases.
-/

def Transaction.submission : Transaction ->
    Option (Submission × Option ActionId)
  | queueAction sub => some (sub, none)
  | replaceOrQueueAction existing sub => some (sub, some existing)
  | _ => none

/-- A submission that passed its validation and was committed. -/
structure Submitted (sub : Submission) (existing : Option ActionId)
    (s : Store) (id : ActionId) (mid s' : Store) : Prop where
  placed : sub.Placed existing s id mid
  validated : rejectsCycle sub.popOrder mid id = false
  state : exists state, s' = mid.updateActionState id state

theorem Submitted.shrunk {mid : Store} {id : ActionId}
    (h : Submitted sub existing s id mid s') : Shrunk mid s' := by
  rcases h.state with ⟨state, hs'⟩
  rw [hs']
  exact Shrunk.updateAction mid id _ (fun _ => rfl) (fun _ => rfl)

theorem Submitted.ids {mid : Store} {id : ActionId}
    (h : Submitted sub existing s id mid s') : s'.ids = mid.ids := by
  rcases h.state with ⟨state, hs'⟩
  rw [hs']
  exact Store.map_setRow_ids _ _ _

theorem Submitted.depends {mid : Store} {id : ActionId}
    (h : Submitted sub existing s id mid s') {x y : ActionId} :
    s'.Depends x y ↔ mid.Depends x y := by
  rcases h.state with ⟨state, hs'⟩
  rw [hs']
  exact Iff.rfl

theorem Submitted.locks {mid : Store} {id : ActionId}
    (h : Submitted sub existing s id mid s') : s'.locks = s.locks := by
  rcases h.state with ⟨state, hs'⟩
  rw [hs']
  exact h.placed.locks

theorem executeActionLocal_submitted {id : ActionId} {stored : StoredAction}
    (h : executeActionLocal sub existing s = Except.ok (id, stored, s')) :
    exists mid, Submitted sub existing s id mid s' := by
  rcases executeActionLocal_placed h with ⟨mid, state, hplaced, hvalid, hs'⟩
  exact ⟨mid, hplaced, hvalid, state, hs'⟩

inductive Change (s : Store) (t : Transaction) (s' : Store) : Prop where
  | shrunk : Shrunk s s' -> Change s t s'
  | submitted {sub : Submission} {existing : Option ActionId}
      {id : ActionId} {mid : Store} :
      t.submission = some (sub, existing) ->
      Submitted sub existing s id mid s' ->
      Change s t s'
  | popped {executor : ExecutorId} {group : String} {now : Timestamp}
      {picked : Option ActionId} {guard : Option ExecutionGuard} :
      t = Transaction.pop executor group now picked ->
      Popped executor s s' guard ->
      Change s t s'

theorem rebaseActions_shrunk {factory : Factory}
    {rebased : StoredAction -> Except ActionError Bytes} {ids : List ActionId}
    (h : rebaseActions factory rebased ids s = Except.ok s') :
    Shrunk s s' := by
  induction ids generalizing s with
  | nil =>
      cases h
      exact Shrunk.refl _
  | cons id rest ih =>
      unfold rebaseActions at h
      split at h
      · cases h
      · split at h
        · cases h
        · split at h
          · cases h
          · rename_i state _
            have hupdate : Shrunk s (s.updateActionState id state) :=
              Shrunk.updateAction s id _ (fun _ => rfl) (fun _ => rfl)
            exact hupdate.trans (ih h)

theorem tx_keepAlive_shrunk (guard : ExecutionGuard) (now : Timestamp)
    (s : Store) :
    Shrunk s (guard.tx now (fun t => Except.ok ((), t)) s).2 := by
  unfold ExecutionGuard.tx
  split
  · exact Shrunk.touchLock s _ _ now
  · exact Shrunk.refl s

theorem submission_change {t : Transaction}
    (ht : t.submission = some (sub, existing)) :
    Change s t (committed s (executeActionLocal sub existing s)) := by
  cases hexec : executeActionLocal sub existing s with
  | error e =>
      exact Change.shrunk (Shrunk.refl s)
  | ok out =>
      rcases out with ⟨id, stored, s'⟩
      rcases executeActionLocal_submitted hexec with ⟨mid, hsubmitted⟩
      exact Change.submitted ht hsubmitted

theorem run_change {t : Transaction} (h : t.run s = some s') :
    Change s t s' := by
  cases t with
  | queueAction sub =>
      cases h
      unfold queueAction
      split
      · exact submission_change rfl
      · exact Change.shrunk (Shrunk.refl s)
  | replaceOrQueueAction existing sub =>
      cases h
      unfold replaceOrQueueAction
      split
      · exact submission_change rfl
      · exact Change.shrunk (Shrunk.refl s)
  | cancel factory faults order fuel id =>
      rcases Option.map_eq_some_iff.mp h with ⟨⟨r, u⟩, hcancel, heq⟩
      cases heq
      exact Change.shrunk (cancel_confined hcancel).left.shrunk
  | deleteAction id =>
      cases h
      exact Change.shrunk (deleteAction_confined rfl).shrunk
  | deleteAllInGroup group =>
      cases h
      exact Change.shrunk (Shrunk.deleteWhere s _)
  | deleteAllByType type =>
      cases h
      exact Change.shrunk (Shrunk.deleteWhere s _)
  | rebase factory rebased group =>
      simp only [Transaction.run] at h
      split at h
      · rename_i u hrebase
        cases h
        exact Change.shrunk (rebaseActions_shrunk hrebase)
      · cases h
        exact Change.shrunk (Shrunk.refl s)
  | pop executor group now picked =>
      simp only [Transaction.run] at h
      split at h
      · rename_i hpicks
        split at h
        · rename_i guard u hpop
          cases h
          exact Change.popped rfl (pop_popped hpicks hpop)
        · cases h
          exact Change.shrunk (Shrunk.refl s)
      · cases h
  | keepAlive guard now =>
      cases h
      exact Change.shrunk (tx_keepAlive_shrunk guard now s)
  | complete factory faults order fuel maxRetries guard now result =>
      rcases Option.map_eq_some_iff.mp h with ⟨⟨r, u⟩, hcomplete, heq⟩
      cases heq
      exact Change.shrunk (completeExecution_confined hcomplete).left.shrunk
  | release guard =>
      cases h
      exact Change.shrunk (Shrunk.releaseLock s _ _)

end ActionQueue
end MailClient
