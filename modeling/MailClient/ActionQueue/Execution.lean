import MailClient.ActionQueue.Transactions

/-!
# Actions in execution

An action with an executor waits for nothing.  A cancellation only reaches the
root and actions that wait for another one, so it never touches an action that
somebody else is executing.
-/

namespace MailClient
namespace ActionQueue

open Foundation

def NoneWaiting (s : Store) : Prop :=
  forall id, s.Executing id -> forall y, ¬ s.Depends id y

theorem Submission.Slot.not_executing {sub : Submission}
    {existing : Option ActionId} {s mid : Store} {id : ActionId}
    (h : sub.Slot existing s id mid) : ¬ s.Executing id := by
  intro hexec
  cases h with
  | fresh hnone hid hseq hacts =>
      have hmem := hexec.mem_ids
      rw [hid] at hmem
      exact s.sequence_succ_not_mem hmem
  | replaced hsome hmem hfree hseq hacts =>
      rw [Store.hasExecutor_iff.mpr hexec] at hfree
      cases hfree

theorem run_noneWaiting {s s' : Store} {t : Transaction}
    (hnone : NoneWaiting s) (h : t.run s = some s') : NoneWaiting s' := by
  intro id hexec y hdep
  cases run_change h with
  | shrunk hshrunk =>
      have hold := ((hshrunk.depends id y).mp hdep).left
      exact hnone id (hshrunk.executing id hexec) y hold
  | submitted _ hsubmitted =>
      have hexec' : s.Executing id := by
        unfold Store.Executing at hexec
        rw [hsubmitted.locks] at hexec
        exact hexec
      have hmid := hsubmitted.depends.mp hdep
      rcases (hsubmitted.placed.depends id y).mp hmid with hold | ⟨hid, _⟩
      · exact hnone id hexec' y hold
      · rw [hid] at hexec'
        exact hsubmitted.placed.slot.not_executing hexec'
  | popped _ hpopped =>
      have hold : s.Depends id y := by
        unfold Store.Depends at hdep
        rw [hpopped.dependencies] at hdep
        exact hdep
      rcases hpopped.executing id hexec with ⟨g, hg, hid⟩ | hexec'
      · rw [hid] at hold
        exact (hpopped.free g hg).right y hold
      · exact hnone id hexec' y hold

theorem reachable_noneWaiting {s : Store} (h : QueueRuns.Reachable s) :
    NoneWaiting s := by
  refine TransitionSystem.invariant NoneWaiting ?_ ?_ h
  · intro t ht
    rw [ht]
    intro id hexec
    rcases hexec with ⟨l, hl, _⟩
    cases hl
  · intro t l t' _ hnone hstep
    exact run_noneWaiting hnone hstep

/-!
# Dependencies along a run

Ids are never handed out twice, and an edge only disappears together with one
of its ends.
-/

structure Later (s s' : Store) : Prop where
  sequence : s.sequence ≤ s'.sequence
  ids : forall x, x ≤ s.sequence -> x ∈ s'.ids -> x ∈ s.ids
  depends : forall x y, s.Depends x y -> x ∈ s'.ids -> y ∈ s'.ids ->
    s'.Depends x y

namespace Later

theorem refl (s : Store) : Later s s where
  sequence := Nat.le_refl _
  ids := fun _ _ hx => hx
  depends := fun _ _ hxy _ _ => hxy

theorem trans {s t u : Store} (hst : Later s t) (htu : Later t u) :
    Later s u where
  sequence := Nat.le_trans hst.sequence htu.sequence
  ids := by
    intro x hle hx
    exact hst.ids x hle (htu.ids x (Nat.le_trans hle hst.sequence) hx)
  depends := by
    intro x y hxy hx hy
    have hxt : x ∈ t.ids := by
      apply htu.ids x _ hx
      exact Nat.le_trans (Store.ids_le_sequence hxy.left_mem) hst.sequence
    have hyt : y ∈ t.ids := by
      apply htu.ids y _ hy
      exact Nat.le_trans (Store.ids_le_sequence hxy.right_mem) hst.sequence
    exact htu.depends x y (hst.depends x y hxy hxt hyt) hx hy

end Later

theorem Shrunk.later {s s' : Store} (h : Shrunk s s') : Later s s' where
  sequence := Nat.le_of_eq h.sequence.symm
  ids := fun _ _ hx => h.ids hx
  depends := fun x y hxy hx hy => (h.depends x y).mpr ⟨hxy, hx, hy⟩

theorem Submission.Slot.old_id {sub : Submission}
    {existing : Option ActionId} {s mid : Store} {id x : ActionId}
    (h : sub.Slot existing s id mid) (hle : x ≤ s.sequence)
    (hx : x ∈ mid.ids) : x ∈ s.ids := by
  rcases h.mem_ids.mp hx with hx | hx
  · exact hx
  · subst hx
    cases h with
    | fresh hnone hid hseq hacts =>
        rw [hid] at hle
        exact absurd hle (Nat.not_succ_le_self _)
    | replaced hsome hmem hfree hseq hacts =>
        exact hmem

theorem run_later {s s' : Store} {t : Transaction}
    (h : t.run s = some s') : Later s s' := by
  cases run_change h with
  | shrunk hshrunk =>
      exact hshrunk.later
  | submitted _ hsubmitted =>
      have hslot := hsubmitted.placed.slot
      have hplaced : Later s _ :=
        { sequence := hslot.sequence_le
          ids := fun x hle hx => hslot.old_id hle hx
          depends := fun x y hxy _ _ =>
            (hsubmitted.placed.depends x y).mpr (Or.inl hxy) }
      exact hplaced.trans hsubmitted.shrunk.later
  | popped _ hpopped =>
      have hids : s'.ids = s.ids := by
        unfold Store.ids
        rw [hpopped.actions]
      refine ⟨Nat.le_of_eq hpopped.sequence.symm, ?_, ?_⟩
      · intro x _ hx
        rw [<- hids]
        exact hx
      · intro x y hxy _ _
        unfold Store.Depends
        rw [hpopped.dependencies]
        exact hxy

theorem runs_later {s s' : Store} (h : QueueRuns.Runs s s') : Later s s' :=
  TransitionSystem.runs_rel Later Later.refl
    (fun _ _ _ _ hst hstep => hst.trans (run_later hstep)) h

theorem popped_dependency_gone {s₀ s s' : Store} {executor : ExecutorId}
    {guard : ExecutionGuard} {y : ActionId} (hruns : QueueRuns.Runs s₀ s)
    (hpopped : Popped executor s s' (some guard))
    (hdep : s₀.Depends guard.actionId y) : y ∉ s'.ids := by
  intro hy
  have hids : s'.ids = s.ids := by
    unfold Store.ids
    rw [hpopped.actions]
  rw [hids] at hy
  have hfree := hpopped.free guard rfl
  exact hfree.right y ((runs_later hruns).depends _ _ hdep hfree.left hy)

/-!
# The main result
-/

/-- `x` is still stored and no handler was asked to revert it. -/
def Untouched (s s' : Store) (x : ActionId) : Prop :=
  x ∈ s'.ids ∧ exists calls, s'.handled = s.handled ++ calls ∧
    HandlerCall.revertLocal x ∉ calls

theorem Confined.untouched {s s' : Store} {root x : ActionId}
    (h : Confined (CancelTarget s root) s s') (hnone : NoneWaiting s)
    (hne : x ≠ root) (hexec : s.Executing x) : Untouched s s' x := by
  have hnot : ¬ CancelTarget s root x := by
    intro htarget
    rcases htarget.root_or_waiting with hx | ⟨y, hxy⟩
    · exact hne hx
    · exact hnone x hexec y hxy
  rcases h.reverted with ⟨calls, hcalls, htargets⟩
  exact ⟨h.kept x hexec.mem_ids hnot, calls, hcalls,
    fun hx => hnot (htargets x hx)⟩

theorem executing_never_waiting_nor_cancelled {s : Store}
    (h : QueueRuns.Reachable s) :
    (forall l, l ∈ s.locks -> l.executorId ≠ none ->
      forall d, d ∈ s.dependencies -> d.actionId ≠ l.actionId) ∧
    (forall executor group now picked guard s',
      StoredAction.Picks executor group now s picked ->
      StoredAction.pop executor now picked s =
        Except.ok (some guard, s') ->
      forall s₀ y, QueueRuns.Runs s₀ s -> s₀.Depends guard.actionId y ->
        y ∉ s'.ids) ∧
    (forall factory faults order fuel root r s',
      cancel factory faults order fuel root s = some (r, s') ->
      forall x, x ≠ root -> s.Executing x -> Untouched s s' x) ∧
    (forall factory faults order fuel maxRetries guard now result r s',
      completeExecution factory faults order fuel maxRetries guard now result
        s = some (r, s') ->
      forall x, x ≠ guard.actionId -> s.Executing x -> Untouched s s' x) := by
  have hnone := reachable_noneWaiting h
  refine ⟨?_, ?_, ?_, ?_⟩
  · intro l hl hexec d hd hid
    apply hnone l.actionId ⟨l, hl, rfl, hexec⟩ d.dependencyId
    exact Store.depends_iff.mpr ⟨d, hd, hid, rfl⟩
  · intro executor group now picked guard s' hpicks hpop s₀ y hruns hdep
    exact popped_dependency_gone hruns (pop_popped hpicks hpop) hdep
  · intro factory faults order fuel root r s' hcancel x hne hexec
    exact (cancel_confined hcancel).left.untouched hnone hne hexec
  · intro factory faults order fuel maxRetries guard now result r s' hcomplete
      x hne hexec
    exact (completeExecution_confined hcomplete).left.untouched hnone hne hexec

/-- The second of three actions waits for the first. -/
def threeActions : List Transaction :=
  [Transaction.queueAction (plainSubmission 1 [] {}),
    Transaction.queueAction
      (plainSubmission 2 [ActionDependency.required 1] {}),
    Transaction.queueAction (plainSubmission 3 [] {})]

/-- The first action is executed while the third one is still running. -/
def firstExecuted : List Transaction :=
  [Transaction.pop "x" "DEFAULT_GROUP" 10 (some 1),
    Transaction.pop "y" "DEFAULT_GROUP" 10 (some 3),
    Transaction.complete anyFactory {} (PopOrder.first _) 10 none
      { actionId := 1, permitId := 1 } 20 RemoteResult.ok]

def queuedStore : Store :=
  (runAll Store.empty threeActions).getD Store.empty

def runningStore : Store :=
  (runAll queuedStore firstExecuted).getD Store.empty

theorem firstExecuted_protected :
    exists s' s'' ms,
      StoredAction.pop "x" 30 (some 2) runningStore =
          Except.ok (some { actionId := 2, permitId := 1 }, s') ∧
        cancel anyFactory {} (PopOrder.first _) 10 2 runningStore =
          some (Except.ok ms, s'') ∧
        queuedStore.Depends 2 1 ∧ runningStore.Executing 3 ∧
        1 ∉ s'.ids ∧ Untouched runningStore s'' 3 := by
  have hstart : runAll Store.empty threeActions = some queuedStore := rfl
  have hrun : runAll queuedStore firstExecuted = some runningStore := rfl
  have hreach := (runAll_reachable hstart).runs (runAll_runs hrun)
  have hdep : queuedStore.Depends 2 1 := by
    unfold Store.Depends
    decide
  have hexec : runningStore.Executing 3 := Store.hasExecutor_iff.mp rfl
  have hpicks : StoredAction.Picks "x" "DEFAULT_GROUP" 30 runningStore
      (some 2) := by
    decide
  have h := executing_never_waiting_nor_cancelled hreach
  refine ⟨_, _, _, rfl, rfl, hdep, hexec, ?_, ?_⟩
  · exact h.right.left "x" "DEFAULT_GROUP" 30 (some 2) _ _ hpicks rfl
      queuedStore 1 (runAll_runs hrun) hdep
  · exact h.right.right.left anyFactory {} (PopOrder.first _) 10 2 _ _ rfl 3
      (by decide) hexec

end ActionQueue
end MailClient
