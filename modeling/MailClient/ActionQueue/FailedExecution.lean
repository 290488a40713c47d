import MailClient.ActionQueue.Cancellation

/-!
# Executions that fail for good

When `apply_remote` fails with an error that cannot be requeued any more,
`execute_action_remote` cancels the action inside its guarded transaction.  An
error of this cancellation is logged and the transaction commits all the same,
so the rounds that were done before the failing one stay done.  So is an error
of `revert_local`, and the action is deleted although it is not undone.
-/

namespace MailClient
namespace ActionQueue

open Foundation Relation

/-!
# A cancellation that fails midway
-/

theorem Store.ids_nodup (s : Store) : s.ids.Nodup := by
  unfold Store.ids
  rw [List.Nodup, List.pairwise_map]
  exact s.action_order.imp (fun hlt heq => Nat.ne_of_lt hlt heq)

theorem Store.row_eq {s : Store} {a b : ActionRow} (ha : a ∈ s.actions)
    (hb : b ∈ s.actions) (hid : a.id = b.id) : a = b :=
  List.inj_on_of_nodup_map s.ids_nodup ha hb hid

theorem cancelOne_unreadable {factory : Factory} {faults : CancelFaults}
    {round : Nat} {s : Store} {id : ActionId} (hmem : id ∈ s.ids)
    (h : Unreadable factory faults round s id) :
    exists e, cancelOne factory faults round id s = (Except.error e, s) := by
  unfold cancelOne
  split
  · exact ⟨_, rfl⟩
  · rename_i hload
    rcases h with hfault | ⟨a, ha, haid, hnot⟩
    · exact absurd hfault hload
    · rcases load_of_mem hmem with
        ⟨row, action, hrow, hid, haction, htype, hversion, hstate⟩
      have heq := Store.row_eq ha hrow (haid.trans hid.symm)
      subst heq
      rw [haction]
      cases hdecode : factory.decode action with
      | error e =>
          simp only [hdecode]
          exact ⟨_, rfl⟩
      | ok d =>
          refine absurd ⟨d, ?_⟩ hnot
          unfold Factory.decode at hdecode
          rw [htype, hversion, hstate] at hdecode
          exact hdecode

theorem revertAction_handled (faults : CancelFaults) (round : Nat) (s : Store)
    (id : ActionId) :
    exists more, (revertAction faults round id s).handled =
        s.handled ++ HandlerCall.revertLocal id :: more ∧
      (faults.revert round = true -> HandlerCall.revertFailed id ∈ more) := by
  unfold revertAction
  dsimp only
  split
  · exact ⟨[HandlerCall.revertFailed id], List.append_assoc _ _ _,
      fun _ => List.mem_singleton_self _⟩
  · rename_i hrevert
    exact ⟨[], rfl, fun h => absurd h hrevert⟩

theorem cancelOne_undeletable {factory : Factory} {faults : CancelFaults}
    {round : Nat} {s : Store} {id : ActionId} (hmem : id ∈ s.ids)
    (hreadable : ¬ Unreadable factory faults round s id)
    (hdelete : faults.delete round = true) :
    exists e, cancelOne factory faults round id s =
      (Except.error e, revertAction faults round id s) := by
  unfold cancelOne
  split
  · rename_i hload
    exact absurd (Or.inl hload) hreadable
  · rcases load_of_mem hmem with
      ⟨row, action, hrow, hid, haction, htype, hversion, hstate⟩
    rw [haction]
    cases hdecode : factory.decode action with
    | error e =>
        refine absurd (Or.inr ⟨row, hrow, hid, ?_⟩) hreadable
        intro hdecodable
        rcases hdecodable with ⟨d, hd⟩
        unfold Factory.decode at hdecode
        rw [htype, hversion, hstate, hd] at hdecode
        cases hdecode
    | ok d =>
        simp only [hdecode]
        exact ⟨_, rfl⟩

/--
A cancellation that fails leaves one of its actions behind.  Nothing at all
happened if the first action could not be read, otherwise some action has been
reverted.
-/
theorem cancelAll_error {factory : Factory} {faults : CancelFaults}
    (round : Nat) {ids : List ActionId} (hnodup : ids.Nodup)
    (cancelled : List QueuedMetadata) {s : Store}
    (hstored : forall x, x ∈ ids -> x ∈ s.ids)
    (hfails : exists i x, ids[i]? = some x ∧
      CancelFails factory faults (round + i) s x) :
    exists e s',
      cancelAll factory faults round ids cancelled s =
        (Except.error e, s') ∧
      (exists x, x ∈ ids ∧ x ∈ s'.ids) ∧
      ((exists x, ids.head? = some x ∧
          Unreadable factory faults round s x) ∧ s' = s ∨
        (¬ exists x, ids.head? = some x ∧
          Unreadable factory faults round s x) ∧
          s.handled.length < s'.handled.length) := by
  induction ids generalizing round cancelled s with
  | nil =>
      rcases hfails with ⟨i, x, hx, _⟩
      cases hx
  | cons id rest ih =>
      have hid := hstored id List.mem_cons_self
      have hhead : (exists x, (id :: rest).head? = some x ∧
          Unreadable factory faults round s x) ↔
            Unreadable factory faults round s id := by
        simp
      rw [hhead, cancelAll]
      rw [List.nodup_cons] at hnodup
      by_cases hread : Unreadable factory faults round s id
      · rcases cancelOne_unreadable hid hread with ⟨e, hone⟩
        rw [hone]
        exact ⟨e, s, rfl, ⟨id, List.mem_cons_self, hid⟩, Or.inl ⟨hread, rfl⟩⟩
      · by_cases hdelete : faults.delete round = true
        · rcases cancelOne_undeletable hid hread hdelete with ⟨e, hone⟩
          rw [hone]
          rcases revertAction_handled faults round s id with ⟨more, hmore, _⟩
          refine ⟨e, _, rfl, ⟨id, List.mem_cons_self, ?_⟩,
            Or.inr ⟨hread, ?_⟩⟩
          · rw [revertAction_ids]
            exact hid
          · rw [hmore]
            simp
        · have hdone : ¬ CancelFails factory faults round s id :=
            fun h => h.elim hread hdelete
          rcases cancelOne_done round hid hdone with ⟨m, _, hone⟩
          rw [hone]
          have hfirst := Deleted.round faults round s id
          have hstored' := hfirst.stored hnodup.left
            (fun x hx => hstored x (List.mem_cons_of_mem id hx))
          have hfails' : exists i x, rest[i]? = some x ∧
              CancelFails factory faults (round + 1 + i)
                ((revertAction faults round id s).delete id) x := by
            rcases hfails with ⟨i, x, hx, hfails⟩
            cases i with
            | zero =>
                cases hx
                exact absurd hfails hdone
            | succ i =>
                refine ⟨i, x, hx, ?_⟩
                rw [Nat.add_right_comm]
                have hxrest : x ∈ rest := List.mem_of_getElem? hx
                refine hfails.kept ?_
                intro a ha haid
                rw [hfirst.actions, List.mem_filter, haid]
                refine ⟨ha, ?_⟩
                simp only [List.mem_singleton, decide_eq_true_eq]
                intro heq
                exact hnodup.left (heq ▸ hxrest)
          rcases ih (round + 1) hnodup.right (cancelled ++ [m]) hstored'
            hfails' with ⟨e, s', hrest, ⟨x, hx, hleft⟩, hdifference⟩
          rcases revertAction_handled faults round s id with ⟨more, hmore, _⟩
          have hlonger : s.handled.length <
              (revertAction faults round id s).handled.length := by
            rw [hmore]
            simp
          refine ⟨e, s', hrest, ⟨x, List.mem_cons_of_mem id hx, hleft⟩,
            Or.inr ⟨hread, ?_⟩⟩
          rcases hdifference with ⟨_, heq⟩ | ⟨_, hlt⟩
          · rw [heq]
            exact hlonger
          · exact Nat.lt_trans hlonger hlt

/-- Whether or not it can be reverted, every action is deleted. -/
theorem cancelAll_deleted {factory : Factory} {faults : CancelFaults}
    (round : Nat) {ids : List ActionId} (hnodup : ids.Nodup)
    (cancelled : List QueuedMetadata) {s : Store}
    (hstored : forall x, x ∈ ids -> x ∈ s.ids)
    (hok : forall i x, ids[i]? = some x ->
      ¬ CancelFails factory faults (round + i) s x) :
    exists ms s' calls,
      cancelAll factory faults round ids cancelled s = (Except.ok ms, s') ∧
      s'.handled = s.handled ++ calls ∧
      forall i x, ids[i]? = some x -> faults.revert (round + i) = true ->
        HandlerCall.revertFailed x ∈ calls := by
  induction ids generalizing round cancelled s with
  | nil => exact ⟨cancelled, s, [], rfl, (List.append_nil _).symm, by simp⟩
  | cons id rest ih =>
      rw [List.nodup_cons] at hnodup
      rcases cancelOne_done round
        (hstored id List.mem_cons_self) (hok 0 id rfl) with ⟨m, _, hone⟩
      have hstored' := (Deleted.round faults round s id).stored hnodup.left
        (fun x hx => hstored x (List.mem_cons_of_mem id hx))
      have hok' : forall i x, rest[i]? = some x ->
          ¬ CancelFails factory faults (round + 1 + i)
            ((revertAction faults round id s).delete id) x := by
        intro i x hx hfails
        rw [Nat.add_right_comm] at hfails
        exact hok (i + 1) x hx hfails.of_round
      rcases ih (round + 1) hnodup.right (cancelled ++ [m]) hstored' hok' with
        ⟨ms, s', calls, hrest, hhandled, hcalls⟩
      rcases revertAction_handled faults round s id with ⟨more, hmore, hfailed⟩
      refine ⟨ms, s', HandlerCall.revertLocal id :: more ++ calls, ?_, ?_, ?_⟩
      · rw [cancelAll, hone]
        exact hrest
      · rw [hhandled, <- List.append_assoc, <- hmore]
        rfl
      · intro i x hx hrevert
        cases i with
        | zero =>
            cases hx
            exact List.mem_append_left _
              (List.mem_cons_of_mem _ (hfailed hrevert))
        | succ i =>
            rw [<- Nat.add_assoc, Nat.add_right_comm] at hrevert
            exact List.mem_append_right _ (hcalls i x hx hrevert)

/-!
# All or nothing
-/

/--
The required closure of `root` is reverted, without an error, and deleted, or
nothing is.
-/
def AllOrNothing (root : ActionId) (s s' : Store) : Prop :=
  (exists calls, s'.handled = s.handled ++ calls ∧
    forall x, CancelTarget s root x ->
      x ∉ s'.ids ∧ HandlerCall.revertLocal x ∈ calls ∧
        HandlerCall.revertFailed x ∉ calls) ∨
  (s'.actions = s.actions ∧ s'.dependencies = s.dependencies ∧
    s'.resources = s.resources ∧ s'.keys = s.keys ∧ s'.handled = s.handled)

/--
Once the walk has collected the actions, each of them is reverted and deleted
without a failure, or the first one cannot even be read.
-/
def CancelsCleanly (factory : Factory) (faults : CancelFaults)
    (order : PopOrder ActionId) (fuel : Nat) (root : ActionId) (s : Store) :
    Prop :=
  forall sorter,
    collectDependees faults s fuel 0 [root] (TopologicalSort.empty _) =
        some (Except.ok sorter) ->
      (forall i x, (cancelOrder order sorter root)[i]? = some x ->
        ¬ CancelFails factory faults i s x ∧ faults.revert i = false) ∨
      exists x, (cancelOrder order sorter root).head? = some x ∧
        Unreadable factory faults 0 s x

theorem cancelFailed_eq {factory : Factory} {faults : CancelFaults}
    {order : PopOrder ActionId} {fuel : Nat} {root : ActionId} {s s' : Store}
    {c : Completion}
    (h : cancelFailed factory faults order fuel root s = some (c, s')) :
    exists r, cancelActionWithDependees factory faults order fuel root s =
      some (r, s') := by
  unfold cancelFailed at h
  split at h
  · cases h
  · rename_i hcancel
    cases h
    exact ⟨_, hcancel⟩
  · rename_i hcancel
    cases h
    exact ⟨_, hcancel⟩

theorem cancelFailed_allOrNothing_iff {factory : Factory}
    {faults : CancelFaults} {order : PopOrder ActionId} {fuel : Nat}
    {root : ActionId} {s s' : Store} {c : Completion} (hroot : root ∈ s.ids)
    (h : cancelFailed factory faults order fuel root s = some (c, s')) :
    AllOrNothing root s s' ↔
      CancelsCleanly factory faults order fuel root s := by
  rcases cancelFailed_eq h with ⟨r, hcancel⟩
  rcases hcollect : collectDependees faults s fuel 0 [root]
      (TopologicalSort.empty _) with _ | (e | sorter)
  · unfold cancelActionWithDependees at hcancel
    rw [hcollect] at hcancel
    cases hcancel
  · unfold cancelActionWithDependees at hcancel
    rw [hcollect] at hcancel
    cases hcancel
    constructor
    · intro _ sorter hsorter
      rw [hcollect] at hsorter
      cases hsorter
    · intro _
      exact Or.inr ⟨rfl, rfl, rfl, rfl, rfl⟩
  · rw [cancelActionWithDependees_eq hcollect, Option.some.injEq] at hcancel
    have hnodup := cancelOrder_nodup order sorter root
    have hmem := fun x => mem_cancelOrder hcollect order (x := x)
    have hstored : forall x, x ∈ cancelOrder order sorter root -> x ∈ s.ids :=
      fun x hx => ((hmem x).mp hx).mem_ids hroot
    have hcleanly : CancelsCleanly factory faults order fuel root s ↔
        (forall i x, (cancelOrder order sorter root)[i]? = some x ->
          ¬ CancelFails factory faults i s x ∧ faults.revert i = false) ∨
        exists x, (cancelOrder order sorter root).head? = some x ∧
          Unreadable factory faults 0 s x := by
      constructor
      · intro hclean
        exact hclean sorter hcollect
      · intro hclean sorter' hsorter'
        rw [hcollect] at hsorter'
        cases hsorter'
        exact hclean
    rw [hcleanly]
    by_cases hok : forall i x, (cancelOrder order sorter root)[i]? = some x ->
        ¬ CancelFails factory faults i s x
    · by_cases hreverts : forall i x,
          (cancelOrder order sorter root)[i]? = some x -> faults.revert i = false
      · have hboth := fun i x hx => And.intro (hok i x hx) (hreverts i x hx)
        rcases cancelAll_ok 0 hnodup [] hstored
          (by simpa using hboth) with ⟨ms, t, hall, _, hgone⟩
        rw [hall] at hcancel
        cases hcancel
        constructor
        · intro _
          exact Or.inl hboth
        · intro _
          refine Or.inl ⟨_, hgone.handled, ?_⟩
          intro x hx
          have hx' := (hmem x).mpr hx
          refine ⟨?_, List.mem_map_of_mem hx', by simp⟩
          intro hin
          exact (hgone.mem_ids.mp hin).right hx'
      · rcases cancelAll_deleted 0 hnodup [] hstored
          (by simpa using hok) with ⟨ms, t, calls, hall, hhandled, hcalls⟩
        rw [hall] at hcancel
        cases hcancel
        push Not at hreverts
        rcases hreverts with ⟨i, x, hx, hrevert⟩
        have hfailed := hcalls i x hx (by simpa using hrevert)
        constructor
        · intro hall
          rcases hall with ⟨calls', hhandled', hgone⟩ | hsame
          · rw [hhandled, List.append_cancel_left_eq] at hhandled'
            have hclean := hgone x ((hmem x).mp (List.mem_of_getElem? hx))
            exact absurd (hhandled' ▸ hfailed) hclean.right.right
          · rw [hhandled, List.append_right_eq_self]
              at hsame
            rw [hsame.right.right.right.right] at hfailed
            cases hfailed
        · intro hclean
          rcases hclean with hclean | ⟨y, hy, hread⟩
          · exact absurd (hclean i x hx).right (by simpa using hrevert)
          · rw [List.head?_eq_getElem?] at hy
            exact absurd (Or.inl hread) (hok 0 y hy)
    · have hfails : exists i x, (cancelOrder order sorter root)[i]? = some x ∧
          CancelFails factory faults (0 + i) s x := by
        simpa using hok
      rcases cancelAll_error 0 hnodup [] hstored hfails with
        ⟨e, t, hall, ⟨x, hx, hleft⟩, hdifference⟩
      rw [hall] at hcancel
      cases hcancel
      constructor
      · intro hall
        rcases hall with ⟨calls, _, hgone⟩ | hsame
        · exact absurd hleft (hgone x ((hmem x).mp hx)).left
        · rcases hdifference with ⟨hread, _⟩ | ⟨_, hlonger⟩
          · exact Or.inr hread
          · rw [hsame.right.right.right.right] at hlonger
            exact absurd hlonger (Nat.lt_irrefl _)
      · intro hclean
        rcases hclean with hclean | hread
        · exact absurd (fun i x hx => (hclean i x hx).left) hok
        · rcases hdifference with ⟨_, heq⟩ | ⟨hnot, _⟩
          · rw [heq]
            exact Or.inr ⟨rfl, rfl, rfl, rfl, rfl⟩
          · exact absurd hread hnot

/-!
# Committing the failure
-/

/-- The remote error is not, or no longer, requeueable. -/
def GivesUp (maxRetries : Option Nat) (id : ActionId) (s : Store) :
    RemoteResult -> Prop
  | RemoteResult.ok => False
  | RemoteResult.err none => True
  | RemoteResult.err (some _) =>
      exists retries m, s.getRetries id = some retries ∧
        maxRetries = some m ∧ m ≤ retries

theorem collectDependees_touchLock (faults : CancelFaults) (s : Store)
    (id : ActionId) (permit : Nat) (now : Timestamp) (fuel round : Nat)
    (pending : List ActionId) (sorter : TopologicalSort ActionId) :
    collectDependees faults (s.touchLock id permit now) fuel round pending
        sorter =
      collectDependees faults s fuel round pending sorter := by
  induction fuel generalizing round pending sorter with
  | zero => rfl
  | succ fuel ih =>
      cases pending with
      | nil => rfl
      | cons x rest =>
          unfold collectDependees
          split
          · rfl
          · exact ih _ _ _

theorem completeExecution_eq {factory : Factory} {faults : ExecutionFaults}
    {order : PopOrder ActionId} {fuel : Nat} {maxRetries : Option Nat}
    {guard : ExecutionGuard} {now : Timestamp} {result : RemoteResult}
    {s s' : Store} {c : Completion}
    (h : completeExecution factory faults order fuel maxRetries guard now
      result s = some (Except.ok c, s')) :
    guard.actionId ∈ s.ids ∧ exists mid,
      completeClosure factory faults order fuel maxRetries guard.actionId
        result (s.touchLock guard.actionId guard.permitId now) =
          some (c, mid) ∧
      s' = guard.release mid := by
  unfold completeExecution ExecutionGuard.txAndRelease at h
  split at h
  · rename_i hvalid
    split at h
    · cases h
    · rename_i c' mid hclosure
      cases h
      rcases Option.map_eq_some_iff.mp hclosure with ⟨⟨c', t⟩, hc, heq⟩
      cases heq
      refine ⟨?_, mid, hc, rfl⟩
      rcases List.any_eq_true.mp hvalid with ⟨l, hl, hlock⟩
      rw [<- (of_decide_eq_true hlock).left]
      exact s.lock_action l hl
    · cases h
  · cases h

theorem completeClosure_givesUp {factory : Factory}
    {faults : ExecutionFaults} {order : PopOrder ActionId} {fuel : Nat}
    {maxRetries : Option Nat} {id : ActionId} {result : RemoteResult}
    {s s' : Store} {c : Completion} (hgives : GivesUp maxRetries id s result)
    (h : completeClosure factory faults order fuel maxRetries id result s =
      some (c, s')) :
    (faults.statement = true ∧ result ≠ RemoteResult.err none ∧ s' = s) ∨
      ((faults.statement = false ∨ result = RemoteResult.err none) ∧
        cancelFailed factory faults.cancel order fuel id s = some (c, s')) := by
  unfold completeClosure at h
  dsimp only at h
  cases result with
  | ok => cases hgives
  | err requeue =>
      cases requeue with
      | none => exact Or.inr ⟨Or.inr rfl, h⟩
      | some reason =>
          rcases hgives with ⟨retries, m, hretries, hm, hle⟩
          cases hfault : faults.statement with
          | true =>
              simp only [hfault] at h
              cases h
              exact Or.inl ⟨rfl, (fun heq => nomatch heq), rfl⟩
          | false =>
              have hexhausted : maxRetries.any (fun m => retries ≥ m) = true := by
                rw [hm]
                exact decide_eq_true hle
              simp only [hfault, hretries, hexhausted] at h
              exact Or.inr ⟨Or.inl rfl, h⟩

theorem failed_execution_allOrNothing_iff (factory : Factory)
    (faults : ExecutionFaults) (order : PopOrder ActionId) (fuel : Nat)
    (maxRetries : Option Nat) (guard : ExecutionGuard) (now : Timestamp)
    (result : RemoteResult) (s s' : Store) (c : Completion)
    (hgives : GivesUp maxRetries guard.actionId s result)
    (h : completeExecution factory faults order fuel maxRetries guard now
      result s = some (Except.ok c, s')) :
    AllOrNothing guard.actionId s s' ↔
      (faults.statement = true ∧ result ≠ RemoteResult.err none) ∨
        CancelsCleanly factory faults.cancel order fuel guard.actionId s := by
  rcases completeExecution_eq h with ⟨hroot, mid, hclosure, hrelease⟩
  subst hrelease
  have hgives' : GivesUp maxRetries guard.actionId
      (s.touchLock guard.actionId guard.permitId now) result := hgives
  have hcleanly : CancelsCleanly factory faults.cancel order fuel
      guard.actionId (s.touchLock guard.actionId guard.permitId now) ↔
        CancelsCleanly factory faults.cancel order fuel guard.actionId s := by
    unfold CancelsCleanly
    rw [collectDependees_touchLock]
    exact Iff.rfl
  -- Touching and releasing the lock row change none of the other tables.
  have hsame : AllOrNothing guard.actionId s (guard.release mid) ↔
      AllOrNothing guard.actionId
        (s.touchLock guard.actionId guard.permitId now) mid := Iff.rfl
  rw [hsame]
  rcases completeClosure_givesUp hgives' hclosure with
    ⟨hfault, hresult, heq⟩ | ⟨hstarted, hcancel⟩
  · rw [heq]
    constructor
    · intro _
      exact Or.inl ⟨hfault, hresult⟩
    · intro _
      exact Or.inr ⟨rfl, rfl, rfl, rfl, rfl⟩
  · have hroot' : guard.actionId ∈
        (s.touchLock guard.actionId guard.permitId now).ids := hroot
    rw [cancelFailed_allOrNothing_iff hroot' hcancel, hcleanly]
    constructor
    · intro hclean
      exact Or.inr hclean
    · intro hclean
      rcases hclean with ⟨hfault, hresult⟩ | hclean
      · rcases hstarted with hnot | heq
        · rw [hfault] at hnot
          cases hnot
        · exact absurd heq hresult
      · exact hclean

/-- The first action is executed, two others require it, one of version 2. -/
def dependees : List Transaction :=
  [Transaction.queueAction (plainSubmission 1 [] {}),
    Transaction.queueAction
      { plainSubmission 2 [ActionDependency.required 1] {} with
        consts := { type := "plain", version := 2 } },
    Transaction.queueAction
      (plainSubmission 3 [ActionDependency.required 1] {}),
    Transaction.pop "worker" "DEFAULT_GROUP" 10 (some 1)]

/-- A client that does not know version 2. -/
def olderFactory : Factory :=
  fun _ => some
    { convert := fun version _ =>
        if version = 1 then Except.ok ()
        else Except.error FactoryError.invalidVersion }

theorem dependees_all_cancelled :
    exists s c s', runAll Store.empty dependees = some s ∧
      completeExecution anyFactory {} (PopOrder.first _) 10 none
        { actionId := 1, permitId := 1 } 11 (RemoteResult.err none) s =
          some (Except.ok c, s') ∧
      s'.ids = [] ∧ AllOrNothing 1 s s' := by
  refine ⟨_, _, _, rfl, rfl, rfl, ?_⟩
  rw [failed_execution_allOrNothing_iff anyFactory {} (PopOrder.first _) 10
    none { actionId := 1, permitId := 1 } 11 (RemoteResult.err none) _ _ _
    trivial rfl]
  refine Or.inr (fun sorter _ => Or.inl ?_)
  refine fun i x _ => ⟨fun hfails => ?_, rfl⟩
  rcases hfails with (hload | ⟨a, _, _, hnot⟩) | hdelete
  · cases hload
  · exact hnot ⟨_, rfl⟩
  · cases hdelete

theorem dependees_partly_cancelled :
    exists s c s', runAll Store.empty dependees = some s ∧
      GivesUp none 1 s (RemoteResult.err none) ∧
      completeExecution olderFactory {} (PopOrder.first _) 10 none
        { actionId := 1, permitId := 1 } 11 (RemoteResult.err none) s =
          some (Except.ok c, s') ∧
      s'.ids = [1, 2] ∧
      s'.handled = s.handled ++ [HandlerCall.revertLocal 3] ∧
      ¬ AllOrNothing 1 s s' := by
  refine ⟨_, _, _, rfl, trivial, rfl, rfl, rfl, ?_⟩
  intro hall
  rcases hall with ⟨calls, _, hgone⟩ | hsame
  · have hroot := (hgone 1 ReflTransGen.refl).left
    revert hroot
    decide
  · have hhandled := hsame.right.right.right.right
    revert hhandled
    decide

end ActionQueue
end MailClient
