import MailClient.ActionQueue.System

/-!
# Exclusive execution guards

The permit of a lock row counts its acquisitions, so a later guard of the same
action normally outdates an earlier one.  The count starts again when `pop`
deletes the row, which `clear_slate_state` does for the rows of its own
executor.  Guards are exclusive in every run in which no such row belongs to an
action that some task still holds a guard for.
-/

namespace MailClient
namespace ActionQueue

open Foundation
open TransitionSystem

/-!
# Transactions that acquire nothing
-/

structure Quiet (s s' : Store) : Prop where
  sequence : s.sequence ≤ s'.sequence
  ids : forall x, x ≤ s.sequence -> x ∈ s'.ids -> x ∈ s.ids
  permit : forall x p, x ∈ s'.ids -> s.Permit x p -> s'.Permit x p

namespace Quiet

theorem refl (s : Store) : Quiet s s where
  sequence := Nat.le_refl _
  ids := fun _ _ hx => hx
  permit := fun _ _ _ hp => hp

theorem trans {s t u : Store} (hst : Quiet s t) (htu : Quiet t u) :
    Quiet s u where
  sequence := Nat.le_trans hst.sequence htu.sequence
  ids := by
    intro x hle hx
    exact hst.ids x hle (htu.ids x (Nat.le_trans hle hst.sequence) hx)
  permit := by
    intro x p hx hp
    have hmem : x ∈ s.ids := by
      rcases hp with ⟨l, hl, hid, _⟩
      rw [<- hid]
      exact s.lock_action l hl
    have hxt : x ∈ t.ids := by
      apply htu.ids x _ hx
      exact Nat.le_trans (Store.ids_le_sequence hmem) hst.sequence
    exact htu.permit x p hx (hst.permit x p hxt hp)

end Quiet

theorem Shrunk.quiet {s s' : Store} (h : Shrunk s s') : Quiet s s' where
  sequence := Nat.le_of_eq h.sequence.symm
  ids := fun _ _ hx => h.ids hx
  permit := fun x p hx hp => (h.permit x p).mpr ⟨hp, hx⟩

theorem Submitted.quiet {sub : Submission} {existing : Option ActionId}
    {s mid s' : Store} {id : ActionId}
    (h : Submitted sub existing s id mid s') : Quiet s s' := by
  have hslot := h.placed.slot
  have hplaced : Quiet s mid :=
    { sequence := hslot.sequence_le
      ids := fun x hle hx => hslot.old_id hle hx
      permit := by
        intro x p _ hp
        unfold Store.Permit
        rw [h.placed.locks]
        exact hp }
  exact hplaced.trans h.shrunk.quiet

theorem committed_quiet (sub : Submission) (existing : Option ActionId)
    (s : Store) : Quiet s (committed s (executeActionLocal sub existing s)) := by
  cases hexec : executeActionLocal sub existing s with
  | error e =>
      exact Quiet.refl s
  | ok out =>
      rcases out with ⟨id, stored, s'⟩
      rcases executeActionLocal_submitted hexec with ⟨mid, hsubmitted⟩
      exact hsubmitted.quiet

theorem queueAction_quiet {sub : Submission} {s s' : Store} {id : ActionId}
    {stored : StoredAction}
    (h : queueAction sub s = Except.ok (id, stored, s')) : Quiet s s' := by
  unfold queueAction at h
  split at h
  · have hquiet := committed_quiet sub none s
    rw [h] at hquiet
    exact hquiet
  · cases h

theorem replaceOrQueueAction_quiet {existing : ActionId} {sub : Submission}
    {s s' : Store} {id : ActionId} {stored : StoredAction}
    (h : replaceOrQueueAction existing sub s = Except.ok (id, stored, s')) :
    Quiet s s' := by
  unfold replaceOrQueueAction at h
  split at h
  · have hquiet := committed_quiet sub (some existing) s
    rw [h] at hquiet
    exact hquiet
  · cases h

theorem queueAll_quiet {subs : List Submission} {s s' : Store}
    (h : (queueAll subs s).2 = Except.ok s') : Quiet s s' := by
  induction subs generalizing s with
  | nil =>
      cases h
      exact Quiet.refl _
  | cons sub rest ih =>
      unfold queueAll at h
      split at h
      · cases h
      · rename_i id stored mid hqueue
        exact (queueAction_quiet hqueue).trans (ih h)

/-!
# What one event does to the guards
-/

inductive GuardChange (σ : System) (e : Event) (σ' : System) : Prop where
  | quiet :
      Quiet σ.store σ'.store ->
      σ'.acquired = σ.acquired ->
      (forall x, x ∈ σ'.executions -> x ∈ σ.executions) ->
      GuardChange σ e σ'
  | popped {executor : ExecutorId} {group : String} {now : Timestamp}
      {picked : Option ActionId} {guard : Option ExecutionGuard} :
      e = Event.pop executor group now picked ->
      Popped executor σ.store σ'.store guard ->
      σ'.acquired = σ.acquired ++ guard.toList ->
      (forall x, x ∈ σ'.executions -> x ∈ σ.executions ∨
        (guard = some x.guard ∧ x.serial = σ.acquired.length)) ->
      GuardChange σ e σ'

theorem System.mem_of_without {σ : System} {serial : Nat} {x : Execution}
    (h : x ∈ σ.without serial) : x ∈ σ.executions :=
  List.mem_of_mem_filter h

theorem System.queue_quiet (σ : System) (subs : List Submission)
    (commits : Bool) : Quiet σ.store (σ.queue subs commits).store := by
  unfold System.queue
  dsimp only
  split
  · rename_i s' hresult
    split
    · exact queueAll_quiet hresult
    · exact Quiet.refl _
  · exact Quiet.refl _

theorem System.replace_change (σ : System) (existing : ActionId)
    (sub : Submission) (e : Event) :
    GuardChange σ e (σ.replace existing sub) := by
  unfold System.replace
  split
  · exact GuardChange.quiet (Quiet.refl _) rfl (fun _ hx => hx)
  · rename_i id stored s' hreplace
    exact GuardChange.quiet (replaceOrQueueAction_quiet hreplace) rfl
      (fun _ hx => hx)

theorem System.cancel_change {σ σ' : System} {factory : Factory}
    {faults : CancelFaults} {order : PopOrder ActionId} {fuel : Nat}
    {id : ActionId} {e : Event}
    (h : σ.cancel factory faults order fuel id = some σ') :
    GuardChange σ e σ' := by
  unfold System.cancel at h
  split at h
  · cases h
  · rename_i err s' hcancel
    cases h
    exact GuardChange.quiet (cancel_confined hcancel).left.shrunk.quiet rfl
      (fun _ hx => hx)
  · rename_i ms s' hcancel
    cases h
    exact GuardChange.quiet (cancel_confined hcancel).left.shrunk.quiet rfl
      (fun _ hx => hx)

theorem System.pop_change {σ σ' : System} {executor : ExecutorId}
    {group : String} {now : Timestamp} {picked : Option ActionId}
    (h : σ.pop executor group now picked = some σ') :
    GuardChange σ (Event.pop executor group now picked) σ' := by
  unfold System.pop at h
  split at h
  · rename_i hpicks
    split at h
    · cases h
      exact GuardChange.quiet (Quiet.refl _) rfl (fun _ hx => hx)
    · rename_i s' hpop
      cases h
      refine GuardChange.popped rfl (pop_popped hpicks hpop) ?_ ?_
      · exact (List.append_nil _).symm
      · intro x hx
        exact Or.inl hx
    · rename_i guard s' hpop
      split at h
      · cases h
      · cases h
        refine GuardChange.popped rfl (pop_popped hpicks hpop) rfl ?_
        intro x hx
        rcases List.mem_append.mp hx with hx | hx
        · exact Or.inl hx
        · rw [List.mem_singleton] at hx
          rw [hx]
          exact Or.inr ⟨rfl, rfl⟩
  · cases h

theorem System.keepAlive_change (σ : System) (x : Execution)
    (now : Timestamp) (fault : Bool) (e : Event) :
    GuardChange σ e (σ.keepAlive x now fault) := by
  unfold System.keepAlive
  split
  · exact GuardChange.quiet (Quiet.refl _) rfl
      (fun _ hx => System.mem_of_without hx)
  · have hquiet := (tx_keepAlive_shrunk x.guard now σ.store).quiet
    split
    · rename_i s' htx
      rw [htx] at hquiet
      exact GuardChange.quiet hquiet rfl (fun _ hx => hx)
    · rename_i s' htx
      rw [htx] at hquiet
      exact GuardChange.quiet hquiet rfl
        (fun _ hx => System.mem_of_without hx)
    · rename_i err s' htx
      rw [htx] at hquiet
      exact GuardChange.quiet hquiet rfl
        (fun _ hx => System.mem_of_without hx)

theorem System.complete_change {σ σ' : System} {x : Execution}
    {factory : Factory} {faults : ExecutionFaults}
    {order : PopOrder ActionId} {fuel : Nat} {now : Timestamp}
    {result : RemoteResult} {commitFault : Bool} {e : Event}
    (h : σ.complete x factory faults order fuel now result commitFault =
      some σ') : GuardChange σ e σ' := by
  unfold System.complete at h
  split at h
  · cases h
  · dsimp only at h
    split at h
    · cases h
      split
      · exact GuardChange.quiet (Quiet.refl _) rfl
          (fun _ hx => System.mem_of_without hx)
      · exact GuardChange.quiet (Quiet.refl _) rfl
          (fun _ hx => System.mem_of_without hx)
    · split at h
      · cases h
      · rename_i r s' hcomplete
        have hquiet :=
          (completeExecution_confined hcomplete).left.shrunk.quiet
        cases h
        split
        · exact GuardChange.quiet hquiet rfl
            (fun _ hx => System.mem_of_without hx)
        · exact GuardChange.quiet hquiet rfl
            (fun _ hx => System.mem_of_without hx)

theorem event_guardChange {σ σ' : System} {e : Event}
    (h : e.run σ = some σ') : GuardChange σ e σ' := by
  cases e with
  | queue subs commits =>
      cases h
      exact GuardChange.quiet (σ.queue_quiet subs commits) rfl
        (fun _ hx => hx)
  | replace existing sub =>
      cases h
      exact σ.replace_change existing sub _
  | cancel factory faults order fuel id =>
      exact System.cancel_change h
  | deleteAction id =>
      cases h
      refine GuardChange.quiet ?_ ?_ ?_
      · rw [System.deleteAction_store]
        exact (deleteAction_confined rfl).shrunk.quiet
      · unfold System.deleteAction
        split <;> rfl
      · intro x hx
        unfold System.deleteAction at hx
        split at hx
        · exact hx
        · exact hx
  | deleteAllInGroup group =>
      cases h
      exact GuardChange.quiet (Shrunk.deleteWhere _ _).quiet rfl
        (fun _ hx => hx)
  | deleteAllByType type =>
      cases h
      exact GuardChange.quiet (Shrunk.deleteWhere _ _).quiet rfl
        (fun _ hx => hx)
  | rebase factory rebased group =>
      simp only [Event.run] at h
      split at h
      · rename_i s' hrebase
        cases h
        exact GuardChange.quiet (rebaseActions_shrunk hrebase).quiet rfl
          (fun _ hx => hx)
      · cases h
        exact GuardChange.quiet (Quiet.refl _) rfl (fun _ hx => hx)
  | pop executor group now picked =>
      exact System.pop_change h
  | undecodable serial factory fault =>
      simp only [Event.run] at h
      split at h
      · cases h
      · rename_i x hfind
        split at h
        · cases h
        · cases h
          refine GuardChange.quiet ?_ rfl
            (fun _ hx => System.mem_of_without hx)
          cases fault with
          | true =>
              exact Quiet.refl _
          | false =>
              exact (Shrunk.releaseLock _ _ _).quiet
  | keepAlive serial now fault =>
      rcases Option.map_eq_some_iff.mp h with ⟨x, hfind, heq⟩
      cases heq
      exact σ.keepAlive_change x now fault _
  | remoteTaskLost serial =>
      rcases Option.map_eq_some_iff.mp h with ⟨x, hfind, heq⟩
      cases heq
      exact GuardChange.quiet (Quiet.refl _) rfl
        (fun _ hx => System.mem_of_without hx)
  | complete serial factory faults order fuel now result commitFault =>
      rcases Option.bind_eq_some_iff.mp h with ⟨x, hfind, hcomplete⟩
      exact System.complete_change hcomplete
  | abort serial =>
      cases h
      exact GuardChange.quiet (Quiet.refl _) rfl
        (fun _ hx => System.mem_of_without hx)
  | send task =>
      simp only [Event.run, System.send] at h
      split at h
      · cases h
        exact GuardChange.quiet (Quiet.refl _) rfl (fun _ hx => hx)
      · cases h
  | discard task =>
      cases h
      exact GuardChange.quiet (Quiet.refl _) rfl (fun _ hx => hx)

/-!
# The invariant
-/

/-- A guard of the same action was acquired after that of `x`. -/
def System.Outdated (σ : System) (x : Execution) : Prop :=
  exists j g, x.serial < j ∧ σ.acquired[j]? = some g ∧
    g.actionId = x.guard.actionId

structure GuardInv (σ : System) : Prop where
  serial : forall x, x ∈ σ.executions -> x.serial < σ.acquired.length
  known : forall x, x ∈ σ.executions -> x.guard.actionId ≤ σ.store.sequence
  row : forall x, x ∈ σ.executions -> x.guard.actionId ∈ σ.store.ids ->
    exists p, σ.store.Permit x.guard.actionId p ∧ x.guard.permitId ≤ p ∧
      (σ.Outdated x -> x.guard.permitId < p)

/--
`clear_slate_state` of a pop deletes no lock row of an action for which a task
still holds a guard.
-/
def ClearsNoHeldLock (σ : System) : Event -> Prop
  | Event.pop executor _ _ _ =>
      forall l, l ∈ σ.store.locks -> l.executorId = some executor ->
        forall x, x ∈ σ.executions -> x.guard.actionId ≠ l.actionId
  | _ => True

theorem Quiet.guardInv {σ σ' : System} (hinv : GuardInv σ)
    (hquiet : Quiet σ.store σ'.store) (hacquired : σ'.acquired = σ.acquired)
    (hexecutions : forall x, x ∈ σ'.executions -> x ∈ σ.executions) :
    GuardInv σ' where
  serial := by
    intro x hx
    rw [hacquired]
    exact hinv.serial x (hexecutions x hx)
  known := by
    intro x hx
    exact Nat.le_trans (hinv.known x (hexecutions x hx)) hquiet.sequence
  row := by
    intro x hx hmem
    have hold := hexecutions x hx
    have hmem' := hquiet.ids _ (hinv.known x hold) hmem
    rcases hinv.row x hold hmem' with ⟨p, hpermit, hle, hlt⟩
    refine ⟨p, hquiet.permit _ p hmem hpermit, hle, ?_⟩
    intro houtdated
    apply hlt
    unfold System.Outdated at houtdated
    rw [hacquired] at houtdated
    exact houtdated

theorem held_permit_survives {σ : System} {executor : ExecutorId}
    (hclears : forall l, l ∈ σ.store.locks -> l.executorId = some executor ->
      forall x, x ∈ σ.executions -> x.guard.actionId ≠ l.actionId)
    {x : Execution} (hx : x ∈ σ.executions) {p : Nat}
    (hpermit : σ.store.Permit x.guard.actionId p) :
    (σ.store.deleteLocksOf executor).Permit x.guard.actionId p := by
  rcases hpermit with ⟨l, hl, hid, hp⟩
  refine ⟨l, List.mem_filter.mpr ⟨hl, decide_eq_true ?_⟩, hid, hp⟩
  intro hexecutor
  exact hclears l hl hexecutor x hx hid.symm

theorem outdated_append {σ : System} {x : Execution}
    {guards : List ExecutionGuard} {j : Nat} {g : ExecutionGuard}
    (hj : x.serial < j) (hg : (σ.acquired ++ guards)[j]? = some g)
    (hid : g.actionId = x.guard.actionId) :
    σ.Outdated x ∨ g ∈ guards := by
  by_cases hlt : j < σ.acquired.length
  · left
    rw [List.getElem?_append_left hlt] at hg
    exact ⟨j, g, hj, hg, hid⟩
  · right
    rw [List.getElem?_append_right (Nat.le_of_not_lt hlt)] at hg
    exact List.mem_of_getElem? hg

theorem Popped.guardInv_old {σ σ' : System} {executor : ExecutorId}
    {guard : Option ExecutionGuard} (hinv : GuardInv σ)
    (hclears : forall l, l ∈ σ.store.locks -> l.executorId = some executor ->
      forall x, x ∈ σ.executions -> x.guard.actionId ≠ l.actionId)
    (hpopped : Popped executor σ.store σ'.store guard)
    (hacquired : σ'.acquired = σ.acquired ++ guard.toList)
    {x : Execution} (hx : x ∈ σ.executions)
    (hmem : x.guard.actionId ∈ σ.store.ids) :
    exists p, σ'.store.Permit x.guard.actionId p ∧ x.guard.permitId ≤ p ∧
      (σ'.Outdated x -> x.guard.permitId < p) := by
  rcases hinv.row x hx hmem with ⟨p, hpermit, hle, hlt⟩
  have hsurvives := held_permit_survives hclears hx hpermit
  by_cases hsame : exists g, guard = some g ∧ x.guard.actionId = g.actionId
  · -- The action of `x` is acquired again, with the next permit.
    rcases hsame with ⟨g, hg, hid⟩
    have hnext : g.permitId = p + 1 := by
      rcases hpopped.acquired g hg with ⟨q, hq, hnext⟩ | ⟨hnone, _⟩
      · rw [<- hid] at hq
        rw [hnext, hq.unique hsurvives]
      · rw [<- hid] at hnone
        exact absurd hsurvives (hnone p)
    refine ⟨p + 1, ?_, Nat.le_succ_of_le hle, ?_⟩
    · rw [hpopped.permit]
      exact Or.inl ⟨g, hg, hid, hnext.symm⟩
    · intro _
      exact Nat.lt_succ_of_le hle
  · have hother : forall g, guard = some g -> x.guard.actionId ≠ g.actionId :=
      fun g hg hid => hsame ⟨g, hg, hid⟩
    refine ⟨p, ?_, hle, ?_⟩
    · rw [hpopped.permit]
      exact Or.inr ⟨hother, hsurvives⟩
    · intro houtdated
      rcases houtdated with ⟨j, g, hj, hg, hid⟩
      rw [hacquired] at hg
      rcases outdated_append hj hg hid with hold | hnew
      · exact hlt hold
      · exact absurd hid.symm (hother g (Option.mem_toList.mp hnew))

theorem Popped.guardInv {σ σ' : System} {executor : ExecutorId}
    {guard : Option ExecutionGuard} (hinv : GuardInv σ)
    (hclears : forall l, l ∈ σ.store.locks -> l.executorId = some executor ->
      forall x, x ∈ σ.executions -> x.guard.actionId ≠ l.actionId)
    (hpopped : Popped executor σ.store σ'.store guard)
    (hacquired : σ'.acquired = σ.acquired ++ guard.toList)
    (hexecutions : forall x, x ∈ σ'.executions -> x ∈ σ.executions ∨
      (guard = some x.guard ∧ x.serial = σ.acquired.length)) :
    GuardInv σ' where
  serial := by
    intro x hx
    rw [hacquired, List.length_append]
    rcases hexecutions x hx with hold | ⟨hguard, hserial⟩
    · exact Nat.lt_add_right _ (hinv.serial x hold)
    · rw [hguard, hserial]
      exact Nat.lt_succ_self _
  known := by
    intro x hx
    rw [hpopped.sequence]
    rcases hexecutions x hx with hold | ⟨hguard, _⟩
    · exact hinv.known x hold
    · exact Store.ids_le_sequence (hpopped.free _ hguard).left
  row := by
    intro x hx hmem
    have hids : σ'.store.ids = σ.store.ids := by
      unfold Store.ids
      rw [hpopped.actions]
    rw [hids] at hmem
    rcases hexecutions x hx with hold | ⟨hguard, hserial⟩
    · exact hpopped.guardInv_old hinv hclears hacquired hold hmem
    · refine ⟨x.guard.permitId, ?_, Nat.le_refl _, ?_⟩
      · rw [hpopped.permit]
        exact Or.inl ⟨x.guard, hguard, rfl, rfl⟩
      · -- Nothing is acquired after the newest guard.
        intro houtdated
        rcases houtdated with ⟨j, g, hj, hg, _⟩
        have hlength := (List.getElem?_eq_some_iff.mp hg).choose
        rw [hacquired, List.length_append, hguard] at hlength
        rw [hserial] at hj
        exact absurd hlength (Nat.not_lt.mpr hj)

theorem event_guardInv {σ σ' : System} {e : Event} (hinv : GuardInv σ)
    (hclears : ClearsNoHeldLock σ e) (h : e.run σ = some σ') :
    GuardInv σ' := by
  cases event_guardChange h with
  | quiet hquiet hacquired hexecutions =>
      exact hquiet.guardInv hinv hacquired hexecutions
  | popped he hpopped hacquired hexecutions =>
      subst he
      exact hpopped.guardInv hinv hclears hacquired hexecutions

theorem reachable_guardInv {σ : System}
    (h : SystemRuns.ReachableWhen ClearsNoHeldLock σ) : GuardInv σ := by
  refine invariant_when GuardInv ?_ ?_ h
  · intro τ hτ
    rw [hτ]
    refine ⟨?_, ?_, ?_⟩
    · intro x hx
      cases hx
    · intro x hx
      cases hx
    · intro x hx
      cases hx
  · intro τ e τ' _ hinv hclears hstep
    exact event_guardInv hinv hclears hstep

/-!
# Exclusivity
-/

/-- Every use of the guard fails as expired and changes nothing. -/
def ExecutionGuard.Expired (guard : ExecutionGuard) (s : Store) : Prop :=
  (forall (α : Type) now
    (closure : Store -> Except ExecutionGuardError (α × Store)),
    guard.tx now closure s =
      (Except.error ExecutionGuardError.expired, s)) ∧
  forall (α : Type) now
    (closure : Store -> Option (Except StashError (α × Store))),
    guard.txAndRelease now closure s =
      some (Except.error ExecutionGuardError.expired, s)

theorem ExecutionGuard.expired_of_invalid {guard : ExecutionGuard}
    {s : Store} (h : guard.valid s = false) : guard.Expired s := by
  constructor
  · intro α now closure
    unfold ExecutionGuard.tx
    simp [h]
  · intro α now closure
    unfold ExecutionGuard.txAndRelease
    simp [h]

theorem outdated_guards_expired {σ : System}
    (h : SystemRuns.ReachableWhen ClearsNoHeldLock σ) :
    forall x, x ∈ σ.executions -> σ.Outdated x -> x.guard.Expired σ.store := by
  intro x hx houtdated
  apply ExecutionGuard.expired_of_invalid
  cases hvalid : x.guard.valid σ.store with
  | false =>
      rfl
  | true =>
      have hpermit := Store.valid_iff.mp hvalid
      have hmem : x.guard.actionId ∈ σ.store.ids := by
        rcases hpermit with ⟨l, hl, hid, _⟩
        rw [<- hid]
        exact σ.store.lock_action l hl
      rcases (reachable_guardInv h).row x hx hmem with ⟨p, hp, _, hlt⟩
      have heq := hpermit.unique hp
      exact absurd (hlt houtdated) (heq ▸ Nat.lt_irrefl _)

/-- The lock of executor `x` expires after a minute and `y` takes over. -/
def takeover : List Event :=
  [Event.queue [plainSubmission 1 [] {}] true,
    Event.pop "x" "DEFAULT_GROUP" 10000000000 (some 1),
    Event.pop "y" "DEFAULT_GROUP" 70000000000 (some 1)]

theorem takeover_expired :
    exists σ x, runEvents System.empty takeover = some σ ∧
      x ∈ σ.executions ∧ x.executor = "x" ∧ x.guard.Expired σ.store := by
  have hallowed : AllowedEvents ClearsNoHeldLock System.empty takeover := by
    refine ⟨True.intro, ?_⟩
    intro σ₁ h₁
    cases h₁
    refine ⟨?_, ?_⟩
    · intro l hl
      cases hl
    · intro σ₂ h₂
      cases h₂
      refine ⟨?_, fun _ _ => True.intro⟩
      intro l hl hexecutor
      rw [List.mem_singleton.mp hl] at hexecutor
      exact absurd hexecutor (by decide)
  have hrun : runEvents System.empty takeover = some _ := rfl
  have hreach := runEvents_reachableWhen (ReachableWhen.start rfl) hallowed
    hrun
  have houtdated := outdated_guards_expired hreach _ List.mem_cons_self
    ⟨1, _, Nat.lt_succ_self 0, rfl, rfl⟩
  exact ⟨_, _, hrun, List.mem_cons_self, rfl, houtdated⟩

/--
A keep-alive of `y` fails with a database error, so `y` gives up and pops
again: its lock row is deleted and the permits of the action start again at 1,
which is the permit `x` still holds.
-/
def secondTakeover : List Event :=
  takeover ++ [Event.keepAlive 1 75000000000 true,
    Event.pop "y" "DEFAULT_GROUP" 80000000000 (some 1)]

theorem secondTakeover_not_expired :
    exists σ x, SystemRuns.Reachable σ ∧ x ∈ σ.executions ∧ σ.Outdated x ∧
      ¬ x.guard.Expired σ.store := by
  have hrun : runEvents System.empty secondTakeover = some _ := rfl
  refine ⟨_, _, runEvents_reachable hrun, List.mem_cons_self,
    ⟨1, _, Nat.lt_succ_self 0, rfl, rfl⟩, ?_⟩
  intro hexpired
  have htx := hexpired.left Unit 90000000000 (fun t => Except.ok ((), t))
  have hresult := congrArg Prod.fst htx
  cases hresult

end ActionQueue
end MailClient
