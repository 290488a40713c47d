import MailClient.Foundation.Graph
import MailClient.ActionQueue.Transactions

/-!
# The dependency graph has no cycles

The validation of a submission only pops the sorter once, and only over the
part of the graph that is reachable from the saved action.  That is enough:
every node of this part except the saved action has a predecessor in it, so
the sorter is stuck exactly when the saved action has one too.
-/

namespace MailClient
namespace ActionQueue

open Foundation
open Relation

/-!
# The walk
-/

structure WalkInv (s : Store) (root : ActionId) (w : Walk) : Prop where
  reach : forall x, x ∈ w.visited ∨ x ∈ w.pending ->
    ReflTransGen s.Depends root x
  root_mem : root ∈ w.visited ∨ root ∈ w.pending
  closed : forall x y, x ∈ w.visited -> s.Depends x y ->
    y ∈ w.visited ∨ y ∈ w.pending
  edges : forall e, e ∈ w.sorter.edges ↔
    e.1 ∈ w.visited ∧ s.Depends e.1 e.2
  spanned : w.sorter.Spanned

theorem walkFrom_inv (s : Store) (root : ActionId) :
    WalkInv s root (walkFrom root) where
  reach := by
    intro x hx
    rcases hx with hx | hx
    · cases hx
    · rw [List.mem_singleton.mp hx]
  root_mem := Or.inr (List.mem_singleton.mpr rfl)
  closed := by
    intro x y hx
    cases hx
  edges := by
    intro e
    constructor
    · intro he
      cases he
    · intro he
      cases he.left
  spanned := TopologicalSort.spanned_empty

theorem walkStep_inv {s : Store} {root : ActionId} {w : Walk}
    (h : WalkInv s root w) : WalkInv s root (walkStep s w) := by
  unfold walkStep
  split
  · exact h
  · rename_i id rest hpending
    have hrest : forall x, x ∈ w.pending -> x = id ∨ x ∈ rest := by
      intro x hx
      rw [hpending] at hx
      exact List.mem_cons.mp hx
    have hid : ReflTransGen s.Depends root id := by
      apply h.reach id
      rw [hpending]
      exact Or.inr List.mem_cons_self
    split
    · rename_i hvisited
      -- A second visit only drops the entry.
      have hkeep : forall x, x ∈ w.visited ∨ x ∈ w.pending ->
          x ∈ w.visited ∨ x ∈ rest := by
        intro x hx
        rcases hx with hx | hx
        · exact Or.inl hx
        · rcases hrest x hx with hx | hx
          · rw [hx]
            exact Or.inl hvisited
          · exact Or.inr hx
      refine ⟨?_, hkeep root h.root_mem, ?_, h.edges, h.spanned⟩
      · intro x hx
        apply h.reach x
        rcases hx with hx | hx
        · exact Or.inl hx
        · rw [hpending]
          exact Or.inr (List.mem_cons_of_mem _ hx)
      · intro x y hx hxy
        exact hkeep y (h.closed x y hx hxy)
    · have hfold := TopologicalSort.foldl_addDependency (fun _ => id)
        (fun d => d) ((s.allDependencies id).map ActionDependency.dependencyId)
        w.sorter h.spanned
      refine ⟨?_, ?_, ?_, ?_, hfold.left⟩
      · intro x hx
        rcases hx with hx | hx
        · rcases List.mem_cons.mp hx with hx | hx
          · rw [hx]
            exact hid
          · exact h.reach x (Or.inl hx)
        · rcases List.mem_append.mp hx with hx | hx
          · have hdep := Store.mem_allDependencies.mp (List.mem_reverse.mp hx)
            exact ReflTransGen.tail hid hdep
          · apply h.reach x
            rw [hpending]
            exact Or.inr (List.mem_cons_of_mem _ hx)
      · rcases h.root_mem with hroot | hroot
        · exact Or.inl (List.mem_cons_of_mem _ hroot)
        · rcases hrest root hroot with hroot | hroot
          · exact Or.inl (List.mem_cons.mpr (Or.inl hroot))
          · exact Or.inr (List.mem_append_right _ hroot)
      · intro x y hx hxy
        rcases List.mem_cons.mp hx with hx | hx
        · rw [hx] at hxy
          refine Or.inr (List.mem_append_left _ (List.mem_reverse.mpr ?_))
          exact Store.mem_allDependencies.mpr hxy
        · rcases h.closed x y hx hxy with hy | hy
          · exact Or.inl (List.mem_cons_of_mem _ hy)
          · rcases hrest y hy with hy | hy
            · exact Or.inl (List.mem_cons.mpr (Or.inl hy))
            · exact Or.inr (List.mem_append_right _ hy)
      · intro e
        refine Iff.trans (hfold.right e) ?_
        rw [h.edges]
        constructor
        · intro he
          rcases he with he | ⟨x, hx, he⟩
          · exact ⟨List.mem_cons_of_mem _ he.left, he.right⟩
          · rw [he]
            exact ⟨List.mem_cons_self, Store.mem_allDependencies.mp hx⟩
        · intro he
          rcases List.mem_cons.mp he.left with hx | hx
          · refine Or.inr ⟨e.2, ?_, ?_⟩
            · rw [Store.mem_allDependencies, <- hx]
              exact he.right
            · rw [<- hx]
          · exact Or.inl ⟨hx, he.right⟩

theorem walk_inv (s : Store) (root : ActionId) : WalkInv s root (walk s root) := by
  unfold walk
  generalize s.dependencies.length + 1 = n
  induction n with
  | zero =>
      exact walkFrom_inv s root
  | succ n ih =>
      rw [Function.iterate_succ_apply']
      exact walkStep_inv ih

/-!
# The walk ends

The rounds left are bounded by the pending entries plus the rows whose action
has not been visited yet.
-/

def unvisitedRows (s : Store) (w : Walk) : List DependencyRow :=
  s.dependencies.filter (fun d => d.actionId ∉ w.visited)

def walkBudget (s : Store) (w : Walk) : Nat :=
  w.pending.length + (unvisitedRows s w).length

theorem unvisited_split {visited : List ActionId} {id : ActionId}
    (hid : id ∉ visited) (rows : List DependencyRow) :
    (rows.filter (fun d => d.actionId ∉ id :: visited)).length +
        (rows.filter (fun d => d.actionId = id)).length =
      (rows.filter (fun d => d.actionId ∉ visited)).length := by
  induction rows with
  | nil =>
      rfl
  | cons d rest ih =>
      by_cases hd : d.actionId = id
      · have hnot : d.actionId ∉ visited := by
          rw [hd]
          exact hid
        simp [hd, hid] at ih ⊢
        omega
      · by_cases hv : d.actionId ∈ visited
        · simp [hd, hv] at ih ⊢
          omega
        · simp [hd, hv] at ih ⊢
          omega

theorem walkStep_done (s : Store) {w : Walk} (h : w.pending = []) :
    walkStep s w = w := by
  unfold walkStep
  rw [h]

theorem walkStep_budget (s : Store) {w : Walk} (h : w.pending ≠ []) :
    walkBudget s (walkStep s w) + 1 = walkBudget s w := by
  unfold walkStep walkBudget
  split
  · rename_i hnil
    exact absurd hnil h
  · rename_i id rest hpending
    rw [hpending]
    split
    · show rest.length + _ + 1 = rest.length + 1 + _
      have hsame : unvisitedRows s { w with pending := rest } =
          unvisitedRows s w := rfl
      rw [hsame]
      omega
    · rename_i hid
      have hsplit := unvisited_split hid s.dependencies
      unfold unvisitedRows Store.allDependencies
      rw [List.length_append, List.length_reverse, List.length_map,
        List.length_map, List.length_cons]
      dsimp only
      omega

theorem iterate_budget (s : Store) (w : Walk) (n : Nat) :
    ((walkStep s)^[n] w).pending = [] ∨
      walkBudget s ((walkStep s)^[n] w) + n = walkBudget s w := by
  induction n with
  | zero =>
      exact Or.inr rfl
  | succ n ih =>
      rw [Function.iterate_succ_apply']
      by_cases hnil : ((walkStep s)^[n] w).pending = []
      · left
        rw [walkStep_done s hnil]
        exact hnil
      · rcases ih with ih | ih
        · exact absurd ih hnil
        · right
          have hstep := walkStep_budget s hnil
          omega

theorem walk_pending (s : Store) (root : ActionId) :
    (walk s root).pending = [] := by
  have hbudget : walkBudget s (walkFrom root) = s.dependencies.length + 1 := by
    unfold walkBudget unvisitedRows walkFrom
    simp
    omega
  rcases iterate_budget s (walkFrom root) (s.dependencies.length + 1) with
    hnil | hleft
  · exact hnil
  · rw [hbudget] at hleft
    have hzero : walkBudget s (walk s root) = 0 := by
      unfold walk
      omega
    unfold walkBudget at hzero
    exact List.length_eq_zero_iff.mp (Nat.eq_zero_of_add_eq_zero_right hzero)

/-!
# What the validation rejects
-/

theorem mem_visited (s : Store) {root x : ActionId} :
    x ∈ (walk s root).visited ↔ ReflTransGen s.Depends root x := by
  have hinv := walk_inv s root
  have hnil := walk_pending s root
  constructor
  · intro hx
    exact hinv.reach x (Or.inl hx)
  · intro hx
    induction hx with
    | refl =>
        rcases hinv.root_mem with hroot | hroot
        · exact hroot
        · rw [hnil] at hroot
          cases hroot
    | tail _ hyz ih =>
        rcases hinv.closed _ _ ih hyz with hz | hz
        · exact hz
        · rw [hnil] at hz
          cases hz

theorem rejectsCycle_iff {order : PopOrder ActionId} {s : Store}
    {root : ActionId} :
    rejectsCycle order s root = true ↔ TransGen s.Depends root root := by
  have hinv := walk_inv s root
  unfold rejectsCycle
  rw [Bool.and_eq_true, TopologicalSort.pop_isNone, Bool.not_eq_true',
    TopologicalSort.isEmpty, List.isEmpty_eq_false_iff]
  constructor
  · intro h
    rcases h with ⟨hready, hnodes⟩
    rcases List.exists_mem_of_ne_nil _ hnodes with ⟨x, hx⟩
    rcases (hinv.spanned x).mp hx with ⟨e, he, _⟩
    have hedge := (hinv.edges e).mp he
    -- The first edge on the way to `e` leaves from the root itself.
    have hroot : root ∈ (walk s root).sorter.nodes := by
      rcases (ReflTransGen.cases_head_iff).mp
          (ReflTransGen.tail ((mem_visited s).mp hedge.left) hedge.right) with
        heq | ⟨y, hy, _⟩
      · rw [hinv.spanned]
        exact ⟨e, he, Or.inr heq⟩
      · rw [hinv.spanned]
        refine ⟨(root, y), (hinv.edges _).mpr ⟨?_, hy⟩, Or.inl rfl⟩
        exact (mem_visited s).mpr ReflTransGen.refl
    have hnot : root ∉ (walk s root).sorter.ready := by
      rw [hready]
      exact List.not_mem_nil
    rw [TopologicalSort.mem_ready] at hnot
    by_contra hcycle
    apply hnot
    refine ⟨hroot, ?_⟩
    intro f hf hroot'
    have hf' := (hinv.edges f).mp hf
    apply hcycle
    rw [hroot'] at hf'
    exact TransGen.tail' ((mem_visited s).mp hf'.left) hf'.right
  · intro hcycle
    rcases TransGen.tail'_iff.mp hcycle with ⟨y, hto, hlast⟩
    have hvisited := (mem_visited s).mpr hto
    have hlast' : (y, root) ∈ (walk s root).sorter.edges :=
      (hinv.edges (y, root)).mpr ⟨hvisited, hlast⟩
    constructor
    · rw [List.eq_nil_iff_forall_not_mem]
      intro x hx
      rcases TopologicalSort.mem_ready.mp hx with ⟨hnode, hfree⟩
      rcases (hinv.spanned x).mp hnode with ⟨e, he, hxe | hxe⟩
      · have hedge := (hinv.edges e).mp he
        rw [<- hxe] at hedge
        -- `x` is the root or the target of an edge of the walk.
        rcases ReflTransGen.cases_tail_iff _ _ _ |>.mp
            ((mem_visited s).mp hedge.left) with heq | ⟨z, hz, hzx⟩
        · exact hfree _ hlast' heq.symm
        · exact hfree _ ((hinv.edges (z, x)).mpr
            ⟨(mem_visited s).mpr hz, hzx⟩) rfl
      · exact hfree e he hxe.symm
    · intro hnil
      have hroot : root ∈ (walk s root).sorter.nodes :=
        (hinv.spanned root).mpr ⟨(y, root), hlast', Or.inr rfl⟩
      rw [hnil] at hroot
      cases hroot

/-!
# The invariant
-/

theorem Shrunk.acyclic {s s' : Store} (h : Shrunk s s')
    (hacyclic : Acyclic s.Depends) : Acyclic s'.Depends :=
  hacyclic.mono (fun x y hxy => ((h.depends x y).mp hxy).left)

theorem Submission.Placed.acyclic {sub : Submission}
    {existing : Option ActionId} {s mid : Store} {id : ActionId}
    (h : sub.Placed existing s id mid) (hacyclic : Acyclic s.Depends)
    (hvalid : rejectsCycle sub.popOrder mid id = false) :
    Acyclic mid.Depends := by
  apply hacyclic.add_source
  · intro x y hxy
    rcases (h.depends x y).mp hxy with hold | ⟨hx, _⟩
    · exact Or.inl hold
    · exact Or.inr hx
  · intro hcycle
    have hrejects : rejectsCycle sub.popOrder mid id = true :=
      rejectsCycle_iff.mpr hcycle
    rw [hvalid] at hrejects
    cases hrejects

theorem run_acyclic {s s' : Store} {t : Transaction}
    (hacyclic : Acyclic s.Depends) (h : t.run s = some s') :
    Acyclic s'.Depends := by
  cases run_change h with
  | shrunk hshrunk =>
      exact hshrunk.acyclic hacyclic
  | submitted _ hsubmitted =>
      exact hsubmitted.shrunk.acyclic
        (hsubmitted.placed.acyclic hacyclic hsubmitted.validated)
  | popped _ hpopped =>
      apply hacyclic.mono
      intro x y hxy
      unfold Store.Depends at hxy
      rw [hpopped.dependencies] at hxy
      exact hxy

theorem reachable_acyclic {s : Store} (h : QueueRuns.Reachable s) :
    Acyclic s.Depends := by
  refine TransitionSystem.invariant (fun s => Acyclic s.Depends) ?_ ?_ h
  · intro t ht
    rw [ht]
    intro x hcycle
    rcases TransGen.tail'_iff.mp hcycle with ⟨y, _, hyx⟩
    cases hyx
  · intro t l t' _ hacyclic hstep
    exact run_acyclic hacyclic hstep

theorem executeActionLocal_of_prepare {sub : Submission}
    {existing : Option ActionId} {s mid : Store} {id : ActionId}
    {stored : StoredAction}
    (h : prepareActionLocal sub existing s = Except.ok (id, stored, mid)) :
    executeActionLocal sub existing s =
        Except.error (ActionError.queue Error.cyclicDependency) ↔
      rejectsCycle sub.popOrder mid id = true := by
  unfold executeActionLocal
  rw [h]
  show (if rejectsCycle sub.popOrder mid id = true then _ else _) = _ ↔ _
  constructor
  · intro herror
    split at herror
    · assumption
    · split at herror
      · cases herror
      · cases herror
  · intro hrejects
    rw [if_pos hrejects]

/--
The dependency graph of every reachable queue is acyclic, and a submission is
rejected as cyclic exactly when storing it would have closed a cycle.
-/
theorem dependencies_acyclic {s : Store} (h : QueueRuns.Reachable s) :
    Acyclic s.Depends ∧
      forall (sub : Submission) (existing : Option ActionId) (id : ActionId)
        (stored : StoredAction) (mid : Store),
        prepareActionLocal sub existing s = Except.ok (id, stored, mid) ->
          (executeActionLocal sub existing s =
              Except.error (ActionError.queue Error.cyclicDependency) ↔
            ¬ Acyclic mid.Depends) := by
  have hacyclic := reachable_acyclic h
  refine ⟨hacyclic, ?_⟩
  intro sub existing id stored mid hprepare
  rw [executeActionLocal_of_prepare hprepare]
  constructor
  · intro hrejects hmid
    exact hmid id (rejectsCycle_iff.mp hrejects)
  · intro hcyclic
    by_contra hrejects
    apply hcyclic
    have hvalid : rejectsCycle sub.popOrder mid id = false := by
      simpa using hrejects
    exact (prepareActionLocal_placed hprepare).acyclic hacyclic hvalid

/-- Two actions, the second depends on the first. -/
def chain : List Transaction :=
  [Transaction.queueAction (plainSubmission 1 [] {}),
    Transaction.queueAction
      (plainSubmission 2 [ActionDependency.required 1] {})]

/-- The first action of `chain` replaced so that it needs the second. -/
def backEdge : Submission :=
  plainSubmission 3 [ActionDependency.optional 2] {}

theorem chain_acyclic :
    exists s id stored mid,
      runAll Store.empty chain = some s ∧
        prepareActionLocal backEdge (some 1) s = Except.ok (id, stored, mid) ∧
        executeActionLocal backEdge (some 1) s =
          Except.error (ActionError.queue Error.cyclicDependency) ∧
        s.Depends 2 1 ∧ Acyclic s.Depends ∧ ¬ Acyclic mid.Depends := by
  refine ⟨_, _, _, _, rfl, rfl, rfl, ?_, ?_⟩
  · unfold Store.Depends
    decide
  · have hrun : runAll Store.empty chain = some _ := rfl
    have h := dependencies_acyclic (runAll_reachable hrun)
    exact ⟨h.left, (h.right backEdge (some 1) _ _ _ rfl).mp rfl⟩

end ActionQueue
end MailClient
