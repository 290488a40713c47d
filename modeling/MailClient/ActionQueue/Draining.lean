import Mathlib.Data.Finset.Max
import Mathlib.Data.Prod.Lex
import MailClient.ActionQueue.Acyclicity
import MailClient.ActionQueue.FailedExecution

/-!
# Working off the queue

Executors can crash and leave their locks behind, and actions wait for each
other across groups.  Neither of them blocks the queue for good: once the locks
are older than their timeout and the actions are due, one executor for each
group is enough, and one of them finds an action whenever there is one.
-/

namespace MailClient
namespace ActionQueue

open Foundation

/--
One action executed by the executor of a group: `pop` returns it, it is decoded,
its handler succeeds and the guarded transaction commits.
-/
inductive Works (factory : Factory) (executorOf : String -> ExecutorId)
    (due : Timestamp) (s : Store) : ActionId -> Store -> Prop where
  | executed (group : String) (now later : Timestamp) (guard : ExecutionGuard)
      (action : StoredAction) (decoded : DecodedAction) (mid s' : Store)
      (order : PopOrder ActionId) (fuel : Nat) (c : Completion) :
      due ≤ now ->
      StoredAction.Picks (executorOf group) group now s
        (some guard.actionId) ->
      StoredAction.pop (executorOf group) now (some guard.actionId) s =
        Except.ok (some guard, mid) ->
      s.load guard.actionId = some action ->
      factory.decode action = Except.ok decoded ->
      completeExecution factory {} order fuel decoded.maxRetries guard later
        RemoteResult.ok mid = some (Except.ok c, s') ->
      Works factory executorOf due s guard.actionId s'

/--
At `due` every action is scheduled and can be decoded, and no lock counts any
more but those that the executor of the group of the action itself holds.
-/
structure Due (factory : Factory) (executorOf : String -> ExecutorId)
    (due : Timestamp) (s : Store) : Prop where
  reachable : QueueRuns.Reachable s
  scheduled : forall a, a ∈ s.actions -> a.scheduled < due
  decodable : forall a, a ∈ s.actions -> Decodable factory a
  abandoned : forall l, l ∈ s.locks -> forall a, a ∈ s.actions ->
    a.id = l.actionId -> l.executorId ≠ some (executorOf a.actionGroup) ->
      Store.lockExpired due l = true

/-- One executor for each group, which take turns from the time `due` on. -/
def Executors (factory : Factory) (executorOf : String -> ExecutorId)
    (due : Timestamp) : TransitionSystem Store ActionId where
  init := Due factory executorOf due
  step := Works factory executorOf due

theorem lockExpired_mono {due now : Timestamp} {l : LockRow}
    (hle : due ≤ now) (h : Store.lockExpired due l = true) :
    Store.lockExpired now l = true := by
  have hsec : Store.unixepoch (some due) ≤ Store.unixepoch (some now) :=
    Int.ediv_le_ediv (by decide) hle
  have hold := of_decide_eq_true h
  exact decide_eq_true (by omega)

/-- Some stored action waits for none. -/
theorem exists_free {s : Store} (hacyclic : Acyclic s.Depends)
    (hstored : s.actions ≠ []) :
    exists a, a ∈ s.actions ∧ forall y, ¬ s.Depends a.id y := by
  rcases List.exists_mem_of_ne_nil _ hstored with ⟨b, hb⟩
  have hback : Acyclic (fun y x => s.Depends x y) := by
    intro x hcycle
    exact hacyclic x (Relation.transGen_swap.mp hcycle)
  have hwf := hback.wellFounded (fun y x hyx => Store.Depends.right_mem hyx)
  have hmem : forall x, x ∈ s.ids ->
      exists z, z ∈ s.ids ∧ forall y, ¬ s.Depends z y := by
    intro x
    induction x using hwf.induction with
    | h x ih =>
        intro hx
        by_cases hfree : forall y, ¬ s.Depends x y
        · exact ⟨x, hx, hfree⟩
        · push Not at hfree
          rcases hfree with ⟨y, hxy⟩
          exact ih y hxy hxy.right_mem
  rcases hmem b.id (List.mem_map_of_mem hb) with ⟨z, hz, hfree⟩
  rcases List.mem_map.mp hz with ⟨a, ha, rfl⟩
  exact ⟨a, ha, hfree⟩

/-- `LIMIT 1` returns a row as soon as one is executable. -/
theorem exists_next {s : Store} {group : String} {now : Timestamp}
    {a : ActionRow} (ha : a ∈ s.actions)
    (hexec : s.executable group now a = true) :
    exists b, b ∈ s.next group now := by
  let rows := s.actions.filter (s.executable group now)
  have hrows : rows.toFinset.Nonempty :=
    ⟨a, List.mem_toFinset.mpr (List.mem_filter.mpr ⟨ha, hexec⟩)⟩
  rcases Finset.exists_min_image rows.toFinset
    (fun r => toLex (r.priority.toNat, r.created)) hrows with ⟨b, hb, hmin⟩
  refine ⟨b, List.mem_filter.mpr ⟨List.mem_toFinset.mp hb, ?_⟩⟩
  rw [List.all_eq_true]
  intro r hr
  have hle := Prod.Lex.toLex_le_toLex.mp
    (hmin r (List.mem_toFinset.mpr hr))
  simpa [Store.notAfter] using hle

theorem Due.picks {factory : Factory} {executorOf : String -> ExecutorId}
    {due now : Timestamp} {s : Store} (h : Due factory executorOf due s)
    (hle : due ≤ now) (hstored : s.actions ≠ []) :
    exists group id,
      StoredAction.Picks (executorOf group) group now s (some id) := by
  rcases exists_free (reachable_acyclic h.reachable) hstored with
    ⟨a, ha, hfree⟩
  let cleared := s.deleteLocksOf (executorOf a.actionGroup)
  have hlock : (cleared.findLock a.id).all (Store.lockExpired now) = true := by
    cases hfind : cleared.findLock a.id with
    | none => rfl
    | some l =>
        have hfound := Store.findLock_eq_some.mp hfind
        have hl := List.mem_filter.mp hfound.left
        exact lockExpired_mono hle (h.abandoned l hl.left a ha
          hfound.right.symm (of_decide_eq_true hl.right))
  have hexec : cleared.executable a.actionGroup now a = true := by
    unfold Store.executable
    rw [hlock, decide_eq_true rfl,
      decide_eq_true (lt_of_lt_of_le (h.scheduled a ha) hle)]
    refine List.all_eq_true.mpr (fun d hd => decide_eq_true ?_)
    intro hid
    exact hfree d.dependencyId (Store.depends_iff.mpr ⟨d, hd, hid, rfl⟩)
  rcases exists_next (s := cleared) ha hexec with ⟨b, hb⟩
  exact ⟨a.actionGroup, b.id, List.mem_map_of_mem hb⟩

/-- Whatever is picked, the executor gets its lock and can execute it. -/
theorem Due.works {factory : Factory} {executorOf : String -> ExecutorId}
    {due now : Timestamp} {group : String} {id : ActionId} {s : Store}
    (h : Due factory executorOf due s) (hle : due ≤ now)
    (hpicks : StoredAction.Picks (executorOf group) group now s (some id)) :
    exists s', Works factory executorOf due s id s' := by
  rcases List.mem_map.mp hpicks with ⟨row, hrow, hid⟩
  have hids : id ∈ s.ids := hid ▸ List.mem_map_of_mem (mem_next hrow).left
  -- `clear_slate_state` has just deleted the other locks of the executor.
  have hok : id ∈ (s.deleteLocksOf (executorOf group)).ids ∧
      forall l, l ∈ (s.deleteLocksOf (executorOf group)).locks ->
        l.executorId = some (executorOf group) -> l.actionId = id := by
    refine ⟨hids, ?_⟩
    intro l hl hown
    exact absurd hown (of_decide_eq_true (List.mem_filter.mp hl).right)
  have hacquire : ((s.deleteLocksOf (executorOf group)).acquireLock id
      (executorOf group) now).isSome = true := by
    unfold Store.acquireLock
    rw [dif_pos hok]
    split <;> rfl
  rcases Option.isSome_iff_exists.mp hacquire with ⟨⟨permit, mid⟩, hlock⟩
  have hpop : StoredAction.pop (executorOf group) now (some id) s =
      Except.ok (some { actionId := id, permitId := permit }, mid) := by
    simp only [StoredAction.pop, ExecutionGuard.clearSlateState,
      ExecutionGuard.acquire, hlock]
  have hpermit := ((pop_popped hpicks hpop).permit id permit).mpr
    (Or.inl ⟨_, rfl, rfl, rfl⟩)
  have hvalid : ExecutionGuard.valid { actionId := id, permitId := permit }
      mid = true := by
    rcases hpermit with ⟨l, hl, hlid, hlp⟩
    exact List.any_eq_true.mpr ⟨l, hl, decide_eq_true ⟨hlid, hlp⟩⟩
  rcases load_of_mem hids with
    ⟨a, action, ha, _, hload, htype, hversion, hstate⟩
  rcases h.decodable a ha with ⟨decoded, hdecoded⟩
  have hdecode : factory.decode action = Except.ok decoded := by
    unfold Factory.decode
    rw [htype, hversion, hstate]
    exact hdecoded
  have hcomplete : exists c s', completeExecution factory {}
      (PopOrder.first _) 0 decoded.maxRetries
      { actionId := id, permitId := permit } now RemoteResult.ok mid =
        some (Except.ok c, s') :=
    ⟨_, _, if_pos hvalid⟩
  rcases hcomplete with ⟨c, s', hcomplete⟩
  exact ⟨s', Works.executed group now now _ action decoded mid s'
    (PopOrder.first _) 0 c hle hpicks hpop hload hdecode hcomplete⟩

theorem pop_others {executor : ExecutorId} {now : Timestamp}
    {s mid : Store} {id : ActionId} {guard : ExecutionGuard} {l : LockRow}
    (hpop : StoredAction.pop executor now (some id) s =
      Except.ok (some guard, mid))
    (hl : l ∈ mid.locks) (hne : l.actionId ≠ id) : l ∈ s.locks := by
  unfold StoredAction.pop ExecutionGuard.acquire Store.acquireLock at hpop
  dsimp only at hpop
  split at hpop
  · rename_i g t hacquire
    cases hpop
    split at hacquire
    · rename_i p t hlock
      cases hacquire
      apply List.mem_of_mem_filter
      split at hlock
      · split at hlock
        · cases hlock
          rcases List.mem_map.mp hl with ⟨l₀, hl₀, heq⟩
          rw [<- heq, Store.reacquire_actionId] at hne
          rw [<- heq, Store.reacquire_of_ne hne]
          exact hl₀
        · cases hlock
          rcases List.mem_append.mp hl with hl | hl
          · exact hl
          · rw [List.mem_singleton.mp hl] at hne
            exact absurd rfl hne
      · cases hlock
    · cases hacquire
  · cases hpop

/-- An execution removes its action and leaves the rest as it is. -/
theorem Works.spec {factory : Factory} {executorOf : String -> ExecutorId}
    {due : Timestamp} {s s' : Store} {id : ActionId}
    (h : Due factory executorOf due s)
    (hworks : Works factory executorOf due s id s') :
    Due factory executorOf due s' ∧
      s'.actions.length + 1 = s.actions.length := by
  rcases hworks with ⟨group, now, later, guard, action, decoded, mid, _, order,
    fuel, c, hle, hpicks, hpop, hload, hdecode, hcomplete⟩
  have hpopped := pop_popped hpicks hpop
  have hmid : (Transaction.pop (executorOf group) group now
      (some guard.actionId)).run s = some mid := by
    show (if _ then _ else _) = _
    rw [if_pos hpicks, hpop]
  have hdone : (Transaction.complete factory {} order fuel decoded.maxRetries
      guard later RemoteResult.ok).run mid = some s' := by
    show (completeExecution _ _ _ _ _ _ _ _ _).map Prod.snd = _
    rw [hcomplete]
    rfl
  rcases completeExecution_eq hcomplete with ⟨hmem, t, hclosure, hrelease⟩
  cases hclosure
  have hrows : s'.actions =
      s.actions.filter (fun a => !decide (a.id = guard.actionId)) := by
    rw [hrelease, <- hpopped.actions]
    rfl
  have hold : forall a, a ∈ s'.actions -> a ∈ s.actions := by
    intro a ha
    rw [hrows] at ha
    exact List.mem_of_mem_filter ha
  refine ⟨⟨(h.reachable.step hmid).step hdone,
    fun a ha => h.scheduled a (hold a ha),
    fun a ha => h.decodable a (hold a ha), ?_⟩, ?_⟩
  · intro l hl row hrow hid hother
    rw [hrelease] at hl
    rcases List.mem_map.mp hl with ⟨l', hl', rfl⟩
    have hkept := List.mem_filter.mp hl'
    rcases List.mem_map.mp hkept.left with ⟨l₀, hl₀, rfl⟩
    have hne : l₀.actionId ≠ guard.actionId := by
      rcases List.mem_map.mp (of_decide_eq_true hkept.right) with ⟨a, ha, haid⟩
      have hne := (List.mem_filter.mp ha).right
      rw [Store.touch_actionId] at haid
      rw [<- haid]
      simpa using hne
    have htouch : Store.touch later guard.actionId guard.permitId l₀ = l₀ :=
      if_neg (fun heq => hne heq.left)
    have hunlock : Store.unlock guard.actionId guard.permitId l₀ = l₀ :=
      if_neg (fun heq => hne heq.left)
    rw [htouch, hunlock] at hid hother ⊢
    exact h.abandoned l₀ (pop_others hpop hl₀ hne) row (hold row hrow) hid
      hother
  · have hids : s'.ids = s.ids.erase guard.actionId := by
      rw [s.ids_nodup.erase_eq_filter]
      unfold Store.ids
      rw [hrows, List.filter_map]
      rfl
    have hlength :=
      List.length_erase_add_one (hpopped.free guard rfl).left
    rw [<- hids] at hlength
    simpa [Store.ids] using hlength

/--
Nothing that a crashed executor left behind, and no dependency across groups,
blocks the queue: a run of the executors of any length can be continued until
the queue is empty.  As long as it is not, the query of one of them returns a
row, and whatever row it is, the lock is granted and the execution goes through.
-/
theorem executors_empty_queue {factory : Factory}
    {executorOf : String -> ExecutorId} {due : Timestamp} {s : Store}
    (h : Due factory executorOf due s) {n : Nat} {t : Store}
    (hruns : (Executors factory executorOf due).RunsIn n s t) :
    t.actions.length + n = s.actions.length ∧
      (t.actions ≠ [] -> forall now, due ≤ now -> exists group id,
        StoredAction.Picks (executorOf group) group now t (some id)) ∧
      (forall group now id, due ≤ now ->
        StoredAction.Picks (executorOf group) group now t (some id) ->
          exists t', Works factory executorOf due t id t') ∧
      exists u, (Executors factory executorOf due).Runs t u ∧
        u.actions = [] := by
  have hstep : forall s id t, Due factory executorOf due s ->
      (Executors factory executorOf due).step s id t ->
        Due factory executorOf due t ∧
          t.actions.length + 1 = s.actions.length :=
    fun _ _ _ hdue hworks => hworks.spec hdue
  have ht := hruns.measure_add hstep h
  refine ⟨ht.right, fun hstored now hle => ht.left.picks hle hstored,
    fun group now id => ht.left.works, ?_⟩
  have hmore : forall s, Due factory executorOf due s -> ¬ s.actions = [] ->
      exists id t, (Executors factory executorOf due).step s id t ∧
        Due factory executorOf due t ∧
          t.actions.length < s.actions.length := by
    intro s hdue hstored
    rcases hdue.picks (Int.le_refl _) hstored with ⟨group, id, hpicks⟩
    rcases hdue.works (Int.le_refl _) hpicks with ⟨t, hworks⟩
    have hspec := hworks.spec hdue
    exact ⟨id, t, hworks, hspec.left, by omega⟩
  rcases TransitionSystem.Runs.finishes hmore ht.left with
    ⟨u, hrest, _, hu⟩
  exact ⟨u, hrest, hu⟩

/--
An action of another group requires the first one, and the executor `x` crashes
while it executes that.
-/
def crashed : List Transaction :=
  [Transaction.queueAction (plainSubmission 1 [] {}),
    Transaction.queueAction
      { plainSubmission 2 [ActionDependency.required 1] {} with
        metadata :=
          { created := 2
            dependencies := [ActionDependency.required 1]
            groupOverride := some "SEND_GROUP" } },
    Transaction.pop "x" "DEFAULT_GROUP" 10 (some 1)]

def crashedStore : Store :=
  (runAll Store.empty crashed).getD Store.empty

theorem crashedStore_drained :
    crashedStore.actions.map ActionRow.actionGroup =
        ["DEFAULT_GROUP", "SEND_GROUP"] ∧
      crashedStore.Executing 1 ∧
      exists u, (Executors anyFactory id 61000000000).Runs crashedStore u ∧
        u.actions = [] := by
  have hrun : runAll Store.empty crashed = some crashedStore := rfl
  have hdue : Due anyFactory id 61000000000 crashedStore :=
    { reachable := runAll_reachable hrun
      scheduled := by decide
      decodable := fun a _ => ⟨_, rfl⟩
      abandoned := by decide }
  have h := executors_empty_queue hdue
    (TransitionSystem.RunsIn.refl crashedStore)
  exact ⟨rfl, Store.hasExecutor_iff.mp rfl, h.right.right.right⟩

end ActionQueue
end MailClient
