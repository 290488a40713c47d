import MailClient.ActionQueue.Acyclicity

/-!
# Cancelling the required closure

`cancel_action_with_dependees` first walks the required dependees of the root
and then reverts and deletes what it found, in the order the sorter hands it
out.  The walk has no set of visited actions: it ends exactly when no required
path leads back to itself.
-/

namespace MailClient
namespace ActionQueue

open Foundation Relation

/-!
# The walk
-/

section Walk

variable {faults : CancelFaults} {s : Store} {fuel round : Nat}
  {pending : List ActionId} {sorter sorter' : TopologicalSort ActionId}

theorem collectDependees_mono
    {r : Except QueuedError (TopologicalSort ActionId)}
    (h : collectDependees faults s fuel round pending sorter = some r)
    {fuel' : Nat} (hle : fuel ≤ fuel') :
    collectDependees faults s fuel' round pending sorter = some r := by
  induction fuel generalizing round pending sorter fuel' with
  | zero => cases h
  | succ fuel ih =>
      cases fuel' with
      | zero => cases Nat.not_succ_le_zero _ hle
      | succ fuel' =>
          cases pending with
          | nil => exact h
          | cons id rest =>
              unfold collectDependees at h
              unfold collectDependees
              split at h
              · rename_i hfault
                rw [if_pos hfault]
                exact h
              · rename_i hfault
                rw [if_neg hfault]
                exact ih h (Nat.le_of_succ_le_succ hle)

theorem collectDependees_acc
    (h : collectDependees faults s fuel round pending sorter =
      some (Except.ok sorter')) {x : ActionId} (hx : x ∈ pending) :
    Acc s.Requires x := by
  induction fuel generalizing round pending sorter x with
  | zero => cases h
  | succ fuel ih =>
      cases pending with
      | nil => cases hx
      | cons id rest =>
          unfold collectDependees at h
          split at h
          · cases h
          · rcases List.mem_cons.mp hx with heq | hrest
            · subst heq
              constructor
              intro d hd
              apply ih h
              exact List.mem_append_left _ (List.mem_reverse.mpr
                (Store.mem_dependeesOfType.mpr hd))
            · exact ih h (List.mem_append_right _ hrest)

theorem collectDependees_edges (hspanned : sorter.Spanned)
    (h : collectDependees faults s fuel round pending sorter =
      some (Except.ok sorter')) {x y z : ActionId} (hz : z ∈ pending)
    (hpath : ReflTransGen s.Requires y z) (hedge : s.Requires x y) :
    (x, y) ∈ sorter'.edges := by
  induction fuel generalizing round pending sorter z with
  | zero => cases h
  | succ fuel ih =>
      cases pending with
      | nil => cases hz
      | cons id rest =>
          unfold collectDependees at h
          split at h
          · cases h
          · have hfold := TopologicalSort.foldl_addDependency (fun d => d)
              (fun _ => id) (s.dependeesOfType id DependencyType.required)
              sorter hspanned
            rcases List.mem_cons.mp hz with heq | hrest
            · subst heq
              rcases ReflTransGen.cases_tail hpath with heq | ⟨w, hyw, hwz⟩
              · subst heq
                apply collectDependees_edges_mono hfold.left h
                apply (hfold.right _).mpr
                exact Or.inr ⟨x, Store.mem_dependeesOfType.mpr hedge, rfl⟩
              · apply ih hfold.left h _ hyw
                exact List.mem_append_left _ (List.mem_reverse.mpr
                  (Store.mem_dependeesOfType.mpr hwz))
            · exact ih hfold.left h (List.mem_append_right _ hrest) hpath

end Walk

/--
From `x` on top the walk comes back to what lay below `x` after a number of
rounds that depends on `x` only.
-/
def WalksPast (faults : CancelFaults) (s : Store) (xs : List ActionId) : Prop :=
  exists rounds, forall fuel round rest sorter, exists sorter',
    collectDependees faults s (rounds + fuel) round (xs ++ rest) sorter =
      collectDependees faults s fuel (round + rounds) rest sorter'

variable {x : ActionId} {faults : CancelFaults} {s : Store}

theorem WalksPast.append {xs ys : List ActionId} (hxs : WalksPast faults s xs)
    (hys : WalksPast faults s ys) : WalksPast faults s (xs ++ ys) := by
  rcases hxs with ⟨n, hn⟩
  rcases hys with ⟨m, hm⟩
  refine ⟨n + m, ?_⟩
  intro fuel round rest sorter
  rcases hn (m + fuel) round (ys ++ rest) sorter with ⟨mid, hmid⟩
  rcases hm fuel (round + n) rest mid with ⟨last, hlast⟩
  refine ⟨last, ?_⟩
  rw [List.append_assoc, Nat.add_assoc, hmid, hlast, Nat.add_assoc]

theorem WalksPast.of_forall {xs : List ActionId}
    (h : forall x, x ∈ xs -> WalksPast faults s [x]) :
    WalksPast faults s xs := by
  induction xs with
  | nil => exact ⟨0, fun fuel round rest sorter => ⟨sorter, by simp⟩⟩
  | cons x rest ih =>
      have hrest := ih (fun y hy => h y (List.mem_cons_of_mem x hy))
      exact (h x List.mem_cons_self).append hrest

theorem walksPast_of_acc (hfaults : faults.Absent) (h : Acc s.Requires x) :
    WalksPast faults s [x] := by
  induction h with
  | intro x _ ih =>
      have hdependees : WalksPast faults s
          (s.dependeesOfType x DependencyType.required).reverse := by
        apply WalksPast.of_forall
        intro d hd
        exact ih d (Store.mem_dependeesOfType.mp (List.mem_reverse.mp hd))
      rcases hdependees with ⟨n, hn⟩
      refine ⟨n + 1, ?_⟩
      intro fuel round rest sorter
      rcases hn fuel (round + 1) rest
        ((s.dependeesOfType x DependencyType.required).foldl
          (fun t d => t.addDependency d x) sorter) with ⟨last, hlast⟩
      refine ⟨last, ?_⟩
      have hfuel : n + 1 + fuel = (n + fuel) + 1 := by omega
      have hround : round + (n + 1) = round + 1 + n := by omega
      rw [hfuel, hround, <- hlast, List.singleton_append, collectDependees,
        hfaults.query]
      rfl

theorem collectDependees_ends (hfaults : faults.Absent) {root : ActionId}
    (h : Acc s.Requires root) :
    exists fuel sorter,
      collectDependees faults s fuel 0 [root] (TopologicalSort.empty _) =
        some (Except.ok sorter) := by
  rcases walksPast_of_acc hfaults h with ⟨n, hn⟩
  rcases hn 1 0 [] (TopologicalSort.empty _) with ⟨sorter, hsorter⟩
  exact ⟨n + 1, sorter, hsorter⟩

/-!
# The order of cancellation
-/

/-- The actions a cancellation works off after its walk, first to last. -/
def cancelOrder (order : PopOrder ActionId)
    (sorter : TopologicalSort ActionId) (root : ActionId) : List ActionId :=
  if sorter.isEmpty then [root] else sorter.popAll order

section Order

variable {faults : CancelFaults} {s : Store} {fuel : Nat} {root : ActionId}
  {sorter : TopologicalSort ActionId}

theorem sorter_edge_iff
    (h : collectDependees faults s fuel 0 [root] (TopologicalSort.empty _) =
      some (Except.ok sorter)) {y : ActionId} :
    sorter.Edge x y ↔ s.Requires x y ∧ CancelTarget s root y := by
  have hpending : forall z, z ∈ [root] -> CancelTarget s root z :=
    fun z hz => CancelTarget.of_eq (List.mem_singleton.mp hz)
  constructor
  · exact (collectDependees_nodes TopologicalSort.spanned_empty hpending
      (fun e he => absurd he List.not_mem_nil) h).right (x, y)
  · intro hxy
    exact collectDependees_edges TopologicalSort.spanned_empty h
      List.mem_cons_self hxy.right hxy.left

theorem sorter_nodes
    (h : collectDependees faults s fuel 0 [root] (TopologicalSort.empty _) =
      some (Except.ok sorter)) (hne : sorter.isEmpty = false) :
    x ∈ sorter.nodes ↔ CancelTarget s root x := by
  have htargets := collectDependees_targets h
  constructor
  · exact htargets.right.right x
  · intro hx
    rcases ReflTransGen.cases_head hx with heq | ⟨y, hxy, hy⟩
    · rw [heq]
      exact collectDependees_root h hne
    · exact (htargets.left x).mpr
        ⟨(x, y), (sorter_edge_iff h).mpr ⟨hxy, hy⟩, Or.inl rfl⟩

theorem sorter_acyclic
    (h : collectDependees faults s fuel 0 [root] (TopologicalSort.empty _) =
      some (Except.ok sorter)) : Acyclic sorter.Edge := by
  have hroot := collectDependees_acc h List.mem_cons_self
  intro x hcycle
  have hpath : TransGen s.Requires x x :=
    TransGen.mono (fun a b hab => ((sorter_edge_iff h).mp hab).left) _ _ hcycle
  rcases TransGen.tail'_iff.mp hcycle with ⟨y, _, hyx⟩
  have htarget := ((sorter_edge_iff h).mp hyx).right
  exact not_cycle_of_acc (acc_of_path hroot htarget) hpath

/-- The walk collects the root and all that requires it, and nothing else. -/
theorem mem_cancelOrder
    (h : collectDependees faults s fuel 0 [root] (TopologicalSort.empty _) =
      some (Except.ok sorter)) (order : PopOrder ActionId) :
    x ∈ cancelOrder order sorter root ↔ CancelTarget s root x := by
  have htargets := collectDependees_targets h
  unfold cancelOrder
  split
  · rename_i hempty
    rw [List.mem_singleton]
    constructor
    · exact CancelTarget.of_eq
    · intro hx
      rcases ReflTransGen.cases_head hx with heq | ⟨y, hxy, hy⟩
      · exact heq
      · have hnode := (htargets.left x).mpr
          ⟨(x, y), (sorter_edge_iff h).mpr ⟨hxy, hy⟩, Or.inl rfl⟩
        rw [List.isEmpty_iff.mp hempty] at hnode
        cases hnode
  · rename_i hne
    rw [TopologicalSort.mem_popAll htargets.left.closed order,
      sorter_nodes h (by simpa using hne)]
    constructor
    · exact And.left
    · intro hx
      exact ⟨hx, fun y _ => sorter_acyclic h y⟩

theorem cancelOrder_nodup (order : PopOrder ActionId)
    (sorter : TopologicalSort ActionId) (root : ActionId) :
    (cancelOrder order sorter root).Nodup := by
  unfold cancelOrder
  split
  · exact List.nodup_singleton root
  · exact TopologicalSort.drain_nodup order _ sorter

theorem cancelOrder_ordered
    (h : collectDependees faults s fuel 0 [root] (TopologicalSort.empty _) =
      some (Except.ok sorter)) (order : PopOrder ActionId) :
    (cancelOrder order sorter root).Pairwise
      (fun x y => ¬ TransGen s.Requires y x) := by
  have hordered : (cancelOrder order sorter root).Pairwise
      (fun x y => ¬ TransGen sorter.Edge y x) := by
    unfold cancelOrder
    split
    · exact List.pairwise_singleton _ root
    · exact TopologicalSort.drain_ordered order _ sorter
  refine hordered.imp_of_mem ?_
  intro x y hx _ hnot hpath
  apply hnot
  have hx' := (mem_cancelOrder h order).mp hx
  clear hnot
  induction hpath with
  | single hyx => exact TransGen.single ((sorter_edge_iff h).mpr ⟨hyx, hx'⟩)
  | tail _ hzx ih =>
      have hz := ReflTransGen.head hzx hx'
      exact (ih ((mem_cancelOrder h order).mpr hz) hz).tail
        ((sorter_edge_iff h).mpr ⟨hzx, hx'⟩)

end Order

/-!
# Working off the order
-/

def cancelAll (factory : Factory) (faults : CancelFaults) :
    Nat -> List ActionId -> List QueuedMetadata -> Store ->
      Except QueuedError (List QueuedMetadata) × Store
  | _, [], cancelled, s => (Except.ok cancelled, s)
  | round, id :: rest, cancelled, s =>
      match cancelOne factory faults round id s with
      | (Except.error e, s') => (Except.error e, s')
      | (Except.ok m, s') =>
          cancelAll factory faults (round + 1) rest (cancelled ++ [m]) s'

theorem cancelSorted_eq (factory : Factory) (faults : CancelFaults)
    (order : PopOrder ActionId) (fuel round : Nat)
    (sorter : TopologicalSort ActionId) (cancelled : List QueuedMetadata)
    (s : Store) :
    cancelSorted factory faults order fuel round sorter cancelled s =
      cancelAll factory faults round
        (TopologicalSort.drain order fuel sorter) cancelled s := by
  induction fuel generalizing round sorter cancelled s with
  | zero => rfl
  | succ fuel ih =>
      unfold cancelSorted TopologicalSort.drain
      cases hpop : sorter.pop order with
      | none => rfl
      | some popped =>
          rcases popped with ⟨id, sorter'⟩
          dsimp only [cancelAll]
          rcases hone : cancelOne factory faults round id s with ⟨r, s'⟩
          cases r with
          | error e => rfl
          | ok m => exact ih (round + 1) sorter' (cancelled ++ [m]) s'

theorem cancelActionWithDependees_eq {fuel : Nat} {root : ActionId}
    {sorter : TopologicalSort ActionId}
    (h : collectDependees faults s fuel 0 [root] (TopologicalSort.empty _) =
      some (Except.ok sorter)) (factory : Factory) (order : PopOrder ActionId) :
    cancelActionWithDependees factory faults order fuel root s =
      some (cancelAll factory faults 0 (cancelOrder order sorter root) [] s) := by
  unfold cancelActionWithDependees cancelOrder
  rw [h]
  dsimp only
  split
  · rw [cancelAll]
    rcases hone : cancelOne factory faults 0 root s with ⟨r, s'⟩
    cases r with
    | error e => rfl
    | ok m => rfl
  · rw [cancelSorted_eq]
    rfl

/-!
# What a cancellation leaves behind

The foreign keys cascade, so each table keeps exactly its rows that refer to no
cancelled action.
-/

structure Deleted (gone : List ActionId) (s s' : Store) : Prop where
  actions : s'.actions = s.actions.filter (fun a => a.id ∉ gone)
  dependencies : s'.dependencies = s.dependencies.filter
    (fun d => d.actionId ∉ gone ∧ d.dependencyId ∉ gone)
  resources : s'.resources = s.resources.filter (fun r => r.actionId ∉ gone)
  locks : s'.locks = s.locks.filter (fun l => l.actionId ∉ gone)
  keys : s'.keys = s.keys.filter (fun k => k.actionId ∉ gone)

structure Cancelled (gone : List ActionId) (s s' : Store) : Prop
    extends Deleted gone s s' where
  handled : s'.handled = s.handled ++ gone.map HandlerCall.revertLocal

namespace Deleted

theorem nil (s : Store) : Deleted [] s s := by
  constructor <;> simp

theorem one (s : Store) (id : ActionId) : Deleted [id] s (s.delete id) := by
  have hkept : forall x, x ∈ s.ids ->
      (decide (x ∈ (s.actions.filter (fun a => !decide (a.id = id))).map
        ActionRow.id)) = decide (x ∉ [id]) := by
    intro x hx
    rw [decide_eq_decide, List.mem_singleton]
    have hdeleted : x ∈ (s.delete id).ids ↔ x ∈ s.ids ∧ x ≠ id :=
      Store.mem_delete_ids
    constructor
    · intro h
      exact (hdeleted.mp h).right
    · intro h
      exact hdeleted.mpr ⟨hx, h⟩
  constructor
  · exact List.filter_congr (fun a _ => by simp)
  · apply List.filter_congr
    intro d hd
    have haction := hkept _ (s.dependency_action d hd)
    have htarget := hkept _ (s.dependency_target d hd)
    rw [Bool.decide_and, <- haction, <- htarget]
  · exact List.filter_congr (fun r hr => hkept _ (s.resource_action r hr))
  · exact List.filter_congr (fun l hl => hkept _ (s.lock_action l hl))
  · exact List.filter_congr (fun k hk => hkept _ (s.key_action k hk))

theorem round (faults : CancelFaults) (n : Nat) (s : Store) (id : ActionId) :
    Deleted [id] s ((revertAction faults n id s).delete id) := by
  have hone := one (revertAction faults n id s) id
  unfold revertAction at hone ⊢
  dsimp only at hone ⊢
  split at hone
  · rename_i hfault
    rw [if_pos hfault]
    exact ⟨hone.actions, hone.dependencies, hone.resources, hone.locks,
      hone.keys⟩
  · rename_i hfault
    rw [if_neg hfault]
    exact ⟨hone.actions, hone.dependencies, hone.resources, hone.locks,
      hone.keys⟩

theorem cons {id : ActionId} {rest : List ActionId} {mid s' : Store}
    (hone : Deleted [id] s mid) (hrest : Deleted rest mid s') :
    Deleted (id :: rest) s s' where
  actions := by
    rw [hrest.actions, hone.actions, List.filter_filter]
    exact List.filter_congr (fun a _ => by simp [Bool.and_comm])
  dependencies := by
    rw [hrest.dependencies, hone.dependencies, List.filter_filter]
    apply List.filter_congr
    intro d _
    rw [<- Bool.decide_and, decide_eq_decide]
    simp only [List.mem_cons, List.not_mem_nil, or_false, not_or]
    constructor
    · intro h
      exact ⟨⟨h.right.left, h.left.left⟩, h.right.right, h.left.right⟩
    · intro h
      exact ⟨⟨h.left.right, h.right.right⟩, h.left.left, h.right.left⟩
  resources := by
    rw [hrest.resources, hone.resources, List.filter_filter]
    exact List.filter_congr (fun r _ => by simp [Bool.and_comm])
  locks := by
    rw [hrest.locks, hone.locks, List.filter_filter]
    exact List.filter_congr (fun l _ => by simp [Bool.and_comm])
  keys := by
    rw [hrest.keys, hone.keys, List.filter_filter]
    exact List.filter_congr (fun k _ => by simp [Bool.and_comm])

theorem mem_ids {gone : List ActionId} {s' : Store} (h : Deleted gone s s') :
    x ∈ s'.ids ↔ x ∈ s.ids ∧ x ∉ gone := by
  unfold Store.ids
  rw [h.actions]
  simp only [List.mem_map, List.mem_filter, decide_eq_true_eq]
  constructor
  · intro hx
    rcases hx with ⟨a, ⟨ha, hnot⟩, heq⟩
    subst heq
    exact ⟨⟨a, ha, rfl⟩, hnot⟩
  · intro hx
    rcases hx with ⟨⟨a, ha, heq⟩, hnot⟩
    subst heq
    exact ⟨a, ⟨ha, hnot⟩, rfl⟩

theorem stored {id : ActionId} {rest : List ActionId} {s' : Store}
    (h : Deleted [id] s s') (hnot : id ∉ rest)
    (hstored : forall x, x ∈ rest -> x ∈ s.ids) :
    forall x, x ∈ rest -> x ∈ s'.ids := by
  intro x hx
  rw [h.mem_ids, List.mem_singleton]
  refine ⟨hstored x hx, ?_⟩
  intro heq
  exact hnot (heq ▸ hx)

end Deleted

namespace Cancelled

theorem nil (s : Store) : Cancelled [] s s where
  toDeleted := Deleted.nil s
  handled := (List.append_nil _).symm

theorem one {round : Nat} (hrevert : faults.revert round = false) (s : Store)
    (id : ActionId) :
    Cancelled [id] s ((revertAction faults round id s).delete id) where
  toDeleted := Deleted.round faults round s id
  handled := by
    unfold revertAction
    rw [hrevert]
    rfl

theorem cons {id : ActionId} {rest : List ActionId} {mid s' : Store}
    (hone : Cancelled [id] s mid) (hrest : Cancelled rest mid s') :
    Cancelled (id :: rest) s s' where
  toDeleted := hone.toDeleted.cons hrest.toDeleted
  handled := by
    rw [hrest.handled, hone.handled, List.append_assoc]
    rfl

end Cancelled

/-!
# Rounds that succeed
-/

theorem CancelFails.kept {factory : Factory} {round : Nat} {s' : Store}
    {id : ActionId} (h : CancelFails factory faults round s id)
    (hrow : forall a, a ∈ s.actions -> a.id = id -> a ∈ s'.actions) :
    CancelFails factory faults round s' id := by
  rcases h with (hload | ⟨a, ha, hid, hnot⟩) | hdelete
  · exact Or.inl (Or.inl hload)
  · exact Or.inl (Or.inr ⟨a, hrow a ha hid, hid, hnot⟩)
  · exact Or.inr hdelete

/-- A round that fails does so as well after another action is gone. -/
theorem CancelFails.of_round {factory : Factory} {round n : Nat} {id : ActionId}
    (h : CancelFails factory faults round
      ((revertAction faults n id s).delete id) x) :
    CancelFails factory faults round s x := by
  refine h.kept ?_
  intro a ha _
  rw [<- revertAction_actions faults n s id]
  exact List.mem_of_mem_filter ha

theorem cancelAll_ok {factory : Factory} (round : Nat) {ids : List ActionId}
    (hnodup : ids.Nodup) (cancelled : List QueuedMetadata)
    (hstored : forall x, x ∈ ids -> x ∈ s.ids)
    (hok : forall i x, ids[i]? = some x ->
      ¬ CancelFails factory faults (round + i) s x ∧
        faults.revert (round + i) = false) :
    exists ms s',
      cancelAll factory faults round ids cancelled s =
        (Except.ok (cancelled ++ ms), s') ∧
      ms.map QueuedMetadata.id = ids ∧ Cancelled ids s s' := by
  induction ids generalizing round cancelled s with
  | nil => exact ⟨[], s, by rw [List.append_nil]; rfl, rfl, Cancelled.nil s⟩
  | cons id rest ih =>
      rw [List.nodup_cons] at hnodup
      rcases cancelOne_done round
        (hstored id List.mem_cons_self) (hok 0 id rfl).left with ⟨m, hid, hone⟩
      have hrevert : faults.revert round = false := (hok 0 id rfl).right
      have hfirst := Cancelled.one hrevert s id
      have hstored' := hfirst.stored hnodup.left
        (fun x hx => hstored x (List.mem_cons_of_mem id hx))
      have hok' : forall i x, rest[i]? = some x ->
          ¬ CancelFails factory faults (round + 1 + i)
              ((revertAction faults round id s).delete id) x ∧
            faults.revert (round + 1 + i) = false := by
        intro i x hx
        have hlater := hok (i + 1) x hx
        rw [Nat.add_right_comm]
        exact ⟨fun hfails => hlater.left hfails.of_round, hlater.right⟩
      rcases ih (round + 1) hnodup.right (cancelled ++ [m]) hstored' hok' with
        ⟨ms, s', hrest, hms, hgone⟩
      refine ⟨m :: ms, s', ?_, ?_, hfirst.cons hgone⟩
      · rw [cancelAll, hone]
        dsimp only
        rw [hrest, List.append_assoc]
        rfl
      · rw [List.map_cons, hid, hms]

theorem CancelTarget.mem_ids {root : ActionId} (hroot : root ∈ s.ids)
    (h : CancelTarget s root x) : x ∈ s.ids := by
  rcases ReflTransGen.cases_head h with heq | ⟨y, hxy, _⟩
  · rw [heq]
    exact hroot
  · exact hxy.depends.left_mem

theorem cancel_covers_required_closure (factory : Factory)
    (order : PopOrder ActionId) (s : Store) (root : ActionId)
    (hacyclic : Acyclic s.Depends)
    (hdecode : forall a, a ∈ s.actions -> Decodable factory a)
    (hroot : root ∈ s.ids) :
    exists ms s' bound,
      (forall fuel, bound ≤ fuel ->
        cancelActionWithDependees factory {} order fuel root s =
          some (Except.ok ms, s')) ∧
      (ms.map QueuedMetadata.id).Nodup ∧
      (forall x, x ∈ ms.map QueuedMetadata.id ↔
        ReflTransGen s.Requires x root) ∧
      (forall x y, y ∈ ms.map QueuedMetadata.id ->
        TransGen s.Requires x y ->
          [x, y].Sublist (ms.map QueuedMetadata.id)) ∧
      Cancelled (ms.map QueuedMetadata.id) s s' := by
  have hfaults : CancelFaults.Absent {} :=
    ⟨fun _ => rfl, fun _ => rfl, fun _ => rfl, fun _ => rfl⟩
  have hrequires : Acyclic s.Requires :=
    hacyclic.mono (fun x y hxy => hxy.depends)
  have hwf : WellFounded s.Requires :=
    hrequires.wellFounded (fun x y hxy => hxy.depends.left_mem)
  rcases collectDependees_ends hfaults (hwf.apply root) with
    ⟨bound, sorter, hcollect⟩
  have hstored : forall x, x ∈ cancelOrder order sorter root -> x ∈ s.ids :=
    fun x hx => ((mem_cancelOrder hcollect order).mp hx).mem_ids hroot
  have hnodup := cancelOrder_nodup order sorter root
  have hok : forall i x, (cancelOrder order sorter root)[i]? = some x ->
      ¬ CancelFails factory {} (0 + i) s x ∧
        ({} : CancelFaults).revert (0 + i) = false := by
    intro i x _
    exact ⟨hfaults.not_cancelFails (0 + i) (fun a ha _ => hdecode a ha), rfl⟩
  rcases cancelAll_ok 0 hnodup [] hstored hok with
    ⟨ms, s', hall, hms, hgone⟩
  refine ⟨ms, s', bound, ?_, ?_, ?_, ?_, ?_⟩
  · intro fuel hfuel
    rw [cancelActionWithDependees_eq (collectDependees_mono hcollect hfuel),
      hall]
    rfl
  · rw [hms]
    exact hnodup
  · intro x
    rw [hms]
    exact mem_cancelOrder hcollect order
  · intro x y hy hpath
    rw [hms] at hy ⊢
    have hx : x ∈ cancelOrder order sorter root :=
      (mem_cancelOrder hcollect order).mpr
        (hpath.to_reflTransGen.trans ((mem_cancelOrder hcollect order).mp hy))
    have hne : x ≠ y := by
      intro heq
      subst heq
      exact hrequires x hpath
    have hordered := cancelOrder_ordered hcollect order
    rcases pair_sublist_or hx hy hne with hsub | hsub
    · exact hsub
    · exact absurd hpath
        (List.pairwise_iff_forall_sublist.mp hordered hsub)
  · rw [hms]
    exact hgone

/-- Two actions require the first, a fourth both of them, a fifth waits. -/
def diamond : List Transaction :=
  [Transaction.queueAction (plainSubmission 1 [] {}),
    Transaction.queueAction
      (plainSubmission 2 [ActionDependency.required 1] {}),
    Transaction.queueAction
      (plainSubmission 3 [ActionDependency.required 1] {}),
    Transaction.queueAction
      (plainSubmission 4
        [ActionDependency.required 2, ActionDependency.required 3] {}),
    Transaction.queueAction
      (plainSubmission 5 [ActionDependency.optional 4] {})]

theorem diamond_cancelled :
    exists s ms s' bound, runAll Store.empty diamond = some s ∧
      (forall fuel, bound ≤ fuel ->
        cancelActionWithDependees anyFactory {} (PopOrder.first _) fuel 1 s =
          some (Except.ok ms, s')) ∧
      4 ∈ ms.map QueuedMetadata.id ∧
      [4, 1].Sublist (ms.map QueuedMetadata.id) ∧
      Cancelled (ms.map QueuedMetadata.id) s s' := by
  have hqueue : exists s, runAll Store.empty diamond = some s ∧ 1 ∈ s.ids ∧
      ⟨4, 2, DependencyType.required⟩ ∈ s.dependencies ∧
      ⟨2, 1, DependencyType.required⟩ ∈ s.dependencies :=
    ⟨_, rfl, by decide, by decide, by decide⟩
  rcases hqueue with ⟨s, hrun, hroot, hrow, hrow'⟩
  have hupper : s.Requires 4 2 := ⟨_, hrow, rfl, rfl, rfl⟩
  have hlower : s.Requires 2 1 := ⟨_, hrow', rfl, rfl, rfl⟩
  rcases cancel_covers_required_closure anyFactory (PopOrder.first _) s 1
    (reachable_acyclic (runAll_reachable hrun)) (fun a _ => ⟨_, rfl⟩) hroot
    with ⟨ms, s', bound, hcancel, _, hmem, hordered, hgone⟩
  refine ⟨s, ms, s', bound, hrun, hcancel, ?_, ?_, hgone⟩
  · rw [hmem]
    exact (ReflTransGen.single hupper).tail hlower
  · exact hordered 4 1 ((hmem 1).mpr ReflTransGen.refl)
      ((TransGen.single hupper).tail hlower)

end ActionQueue
end MailClient
