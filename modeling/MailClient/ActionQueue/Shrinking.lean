import MailClient.ActionQueue.Effects

/-!
# Transactions that only shrink the queue

Every transaction except storing a submission and popping an action leaves a
smaller queue behind: it deletes actions together with everything that refers
to them, and it may touch or release lock rows.  `Shrunk` is the common
specification of these transactions.
-/

namespace MailClient
namespace ActionQueue

open Foundation
open Relation

namespace Store

def Executing (s : Store) (id : ActionId) : Prop :=
  exists l, l ∈ s.locks ∧ l.actionId = id ∧ l.executorId ≠ none

def Permit (s : Store) (id : ActionId) (permit : Nat) : Prop :=
  exists l, l ∈ s.locks ∧ l.actionId = id ∧ l.permitId = permit

theorem lock_nodup (s : Store) : (s.locks.map LockRow.actionId).Nodup := by
  rw [List.Nodup, List.pairwise_map]
  exact s.lock_unique.imp (fun h => h.left)

variable {id : ActionId} {s : Store}

theorem lock_eq {l l' : LockRow} (hl : l ∈ s.locks) (hl' : l' ∈ s.locks)
    (heq : l.actionId = l'.actionId) : l = l' :=
  List.inj_on_of_nodup_map s.lock_nodup hl hl' heq

theorem Permit.unique {p q : Nat} (hp : s.Permit id p) (hq : s.Permit id q) :
    p = q := by
  rcases hp with ⟨l, hl, hid, hpermit⟩
  rcases hq with ⟨l', hl', hid', hpermit'⟩
  have heq := lock_eq hl hl' (hid.trans hid'.symm)
  rw [<- hpermit, <- hpermit', heq]

theorem Executing.mem_ids (h : s.Executing id) :
    id ∈ s.ids := by
  rcases h with ⟨l, hl, hid, _⟩
  rw [<- hid]
  exact s.lock_action l hl

theorem findLock_eq_some {l : LockRow} :
    s.findLock id = some l ↔ l ∈ s.locks ∧ l.actionId = id := by
  constructor
  · intro h
    exact ⟨List.mem_of_find?_eq_some h, by simpa using List.find?_some h⟩
  · intro h
    cases hfind : s.findLock id with
    | none =>
        have hnot := List.find?_eq_none.mp hfind l h.left
        exact absurd (decide_eq_true h.right) hnot
    | some l' =>
        have hmem := List.mem_of_find?_eq_some hfind
        have hid : l'.actionId = id := by
          simpa using List.find?_some hfind
        rw [lock_eq hmem h.left (hid.trans h.right.symm)]

theorem hasExecutor_iff :
    ExecutionGuard.hasExecutor id s = true ↔ s.Executing id := by
  unfold ExecutionGuard.hasExecutor
  rw [Option.isSome_iff_exists]
  constructor
  · intro h
    rcases h with ⟨e, he⟩
    rcases Option.bind_eq_some_iff.mp he with ⟨l, hl, hexec⟩
    have hfound := findLock_eq_some.mp hl
    refine ⟨l, hfound.left, hfound.right, ?_⟩
    rw [hexec]
    exact Option.some_ne_none e
  · intro h
    rcases h with ⟨l, hl, hid, hexec⟩
    rcases Option.ne_none_iff_exists'.mp hexec with ⟨e, he⟩
    refine ⟨e, ?_⟩
    rw [findLock_eq_some.mpr ⟨hl, hid⟩]
    exact he

theorem valid_iff {guard : ExecutionGuard} :
    guard.valid s = true ↔ s.Permit guard.actionId guard.permitId := by
  unfold ExecutionGuard.valid Permit
  simp

theorem load_isSome {a : StoredAction} (h : s.load id = some a) :
    id ∈ s.ids ∧ a.id = some id := by
  unfold load at h
  rcases Option.map_eq_some_iff.mp h with ⟨row, hrow, ha⟩
  have hid : row.id = id := by
    simpa using List.find?_some hrow
  constructor
  · rw [<- hid]
    exact List.mem_map.mpr ⟨row, List.mem_of_find?_eq_some hrow, rfl⟩
  · rw [<- ha, <- hid]

end Store

/-!
# The specification
-/

structure Shrunk (s s' : Store) : Prop where
  sequence : s'.sequence = s.sequence
  rows : forall a', a' ∈ s'.actions -> exists a, a ∈ s.actions ∧
    a.id = a'.id ∧ a.created = a'.created ∧ a.actionGroup = a'.actionGroup
  depends : forall x y,
    s'.Depends x y ↔ s.Depends x y ∧ x ∈ s'.ids ∧ y ∈ s'.ids
  executing : forall id, s'.Executing id -> s.Executing id
  permit : forall id p, s'.Permit id p ↔ s.Permit id p ∧ id ∈ s'.ids

namespace Shrunk

variable {s s' : Store}

theorem ids (h : Shrunk s s') {x : ActionId} (hx : x ∈ s'.ids) : x ∈ s.ids := by
  rcases List.mem_map.mp hx with ⟨a', ha', hid'⟩
  rcases h.rows a' ha' with ⟨a, ha, hid, _⟩
  exact List.mem_map.mpr ⟨a, ha, hid.trans hid'⟩

theorem refl (s : Store) : Shrunk s s where
  sequence := rfl
  rows := fun a ha => ⟨a, ha, rfl, rfl, rfl⟩
  depends := by
    intro x y
    constructor
    · intro h
      exact ⟨h, h.left_mem, h.right_mem⟩
    · intro h
      exact h.left
  executing := fun _ h => h
  permit := by
    intro id p
    constructor
    · intro h
      refine ⟨h, ?_⟩
      rcases h with ⟨l, hl, hid, _⟩
      rw [<- hid]
      exact s.lock_action l hl
    · intro h
      exact h.left

theorem trans {t u : Store} (hst : Shrunk s t) (htu : Shrunk t u) :
    Shrunk s u where
  sequence := htu.sequence.trans hst.sequence
  rows := by
    intro c hc
    rcases htu.rows c hc with ⟨b, hb, hid, hcreated, hgroup⟩
    rcases hst.rows b hb with ⟨a, ha, hid', hcreated', hgroup'⟩
    exact ⟨a, ha, hid'.trans hid, hcreated'.trans hcreated,
      hgroup'.trans hgroup⟩
  depends := by
    intro x y
    rw [htu.depends, hst.depends]
    constructor
    · intro h
      exact ⟨h.left.left, h.right⟩
    · intro h
      exact ⟨⟨h.left, htu.ids h.right.left, htu.ids h.right.right⟩, h.right⟩
  executing := fun id h => hst.executing id (htu.executing id h)
  permit := by
    intro id p
    rw [htu.permit, hst.permit]
    constructor
    · intro h
      exact ⟨h.left.left, h.right⟩
    · intro h
      exact ⟨⟨h.left, htu.ids h.right⟩, h.right⟩

/-- A change of tables other than `action_queue_lock` and of payload columns. -/
theorem of_rows (hsequence : s'.sequence = s.sequence) (hids : s'.ids = s.ids)
    (hrows : forall a', a' ∈ s'.actions -> exists a, a ∈ s.actions ∧
      a.id = a'.id ∧ a.created = a'.created ∧ a.actionGroup = a'.actionGroup)
    (hdeps : s'.dependencies = s.dependencies) (hlocks : s'.locks = s.locks) :
    Shrunk s s' where
  sequence := hsequence
  rows := hrows
  depends := by
    intro x y
    rw [hids, <- (refl s).depends]
    unfold Store.Depends
    rw [hdeps]
  executing := by
    intro id h
    unfold Store.Executing at h
    rw [hlocks] at h
    exact h
  permit := by
    intro id p
    rw [hids, <- (refl s).permit]
    unfold Store.Permit
    rw [hlocks]

/-- An update of the lock rows that keeps their actions and permits. -/
theorem of_locks {f : LockRow -> LockRow} (hsequence : s'.sequence = s.sequence)
    (hactions : s'.actions = s.actions)
    (hdeps : s'.dependencies = s.dependencies)
    (hlocks : s'.locks = s.locks.map f)
    (hid : forall l, (f l).actionId = l.actionId)
    (hpermit : forall l, (f l).permitId = l.permitId)
    (hexecutor : forall l, (f l).executorId ≠ none -> l.executorId ≠ none) :
    Shrunk s s' where
  sequence := hsequence
  rows := by
    intro a ha
    rw [hactions] at ha
    exact ⟨a, ha, rfl, rfl, rfl⟩
  depends := by
    intro x y
    have hids : s'.ids = s.ids := by
      unfold Store.ids
      rw [hactions]
    rw [hids, <- (refl s).depends]
    unfold Store.Depends
    rw [hdeps]
  executing := by
    intro id h
    rcases h with ⟨l', hl', hid', hexec⟩
    rw [hlocks] at hl'
    rcases List.mem_map.mp hl' with ⟨l, hl, heq⟩
    subst heq
    exact ⟨l, hl, (hid l).symm.trans hid', hexecutor l hexec⟩
  permit := by
    intro id p
    have hids : s'.ids = s.ids := by
      unfold Store.ids
      rw [hactions]
    rw [hids, <- (refl s).permit]
    unfold Store.Permit
    rw [hlocks]
    constructor
    · intro h
      rcases h with ⟨l', hl', hid', hp⟩
      rcases List.mem_map.mp hl' with ⟨l, hl, heq⟩
      subst heq
      exact ⟨l, hl, (hid l).symm.trans hid', (hpermit l).symm.trans hp⟩
    · intro h
      rcases h with ⟨l, hl, hid', hp⟩
      exact ⟨f l, List.mem_map_of_mem hl, (hid l).trans hid',
        (hpermit l).trans hp⟩

theorem deleteWhere (s : Store) (p : ActionRow -> Bool) :
    Shrunk s (s.deleteWhere p) where
  sequence := rfl
  rows := by
    intro a ha
    exact ⟨a, List.mem_of_mem_filter ha, rfl, rfl, rfl⟩
  depends := fun _ _ => Store.deleteWhere_depends
  executing := by
    intro id h
    rcases h with ⟨l, hl, hid, hexec⟩
    exact ⟨l, List.mem_of_mem_filter hl, hid, hexec⟩
  permit := by
    intro id q
    constructor
    · intro h
      rcases h with ⟨l, hl, hid, hp⟩
      refine ⟨⟨l, List.mem_of_mem_filter hl, hid, hp⟩, ?_⟩
      rw [<- hid]
      exact (s.deleteWhere p).lock_action l hl
    · intro h
      rcases h with ⟨⟨l, hl, hid, hp⟩, hmem⟩
      refine ⟨l, List.mem_filter.mpr ⟨hl, ?_⟩, hid, hp⟩
      rw [hid]
      exact decide_eq_true hmem

theorem updateAction (s : Store) (id : ActionId)
    (f : ActionRow -> ActionRow)
    (hcreated : forall a, (f a).created = a.created)
    (hgroup : forall a, (f a).actionGroup = a.actionGroup) :
    Shrunk s (s.updateAction id f) := by
  refine of_rows rfl (Store.map_setRow_ids _ _ _) ?_ rfl rfl
  intro a' ha'
  rcases List.mem_map.mp ha' with ⟨a, ha, heq⟩
  subst heq
  refine ⟨a, ha, (Store.setRow_id id f a).symm, ?_, ?_⟩
  · unfold Store.setRow
    split
    · exact (hcreated a).symm
    · rfl
  · unfold Store.setRow
    split
    · exact (hgroup a).symm
    · rfl

theorem call (s : Store) (c : HandlerCall) : Shrunk s (s.call c) :=
  of_rows rfl rfl (fun a ha => ⟨a, ha, rfl, rfl, rfl⟩) rfl rfl

theorem touchLock (s : Store) (id : ActionId) (permit : Nat)
    (now : Timestamp) : Shrunk s (s.touchLock id permit now) :=
  of_locks rfl rfl rfl rfl (Store.touch_actionId now id permit)
    (Store.touch_permitId now id permit)
    (fun l h => by rwa [Store.touch_executorId] at h)

theorem releaseLock (s : Store) (id : ActionId) (permit : Nat) :
    Shrunk s (s.releaseLock id permit) := by
  refine of_locks rfl rfl rfl rfl (Store.unlock_actionId id permit)
    (Store.unlock_permitId id permit) ?_
  intro l h
  rcases Store.unlock_executorId id permit l with hnone | hsame
  · exact absurd hnone h
  · rwa [hsame] at h

end Shrunk

/-!
# Cancellations

A cancellation is confined to a set of actions: nothing else is deleted or
reverted.  The actions it reports were stored before and are gone after it.
-/

structure Confined (targets : ActionId -> Prop) (s s' : Store) : Prop where
  shrunk : Shrunk s s'
  kept : forall x, x ∈ s.ids -> ¬ targets x -> x ∈ s'.ids
  reverted : exists calls, s'.handled = s.handled ++ calls ∧
    forall x, HandlerCall.revertLocal x ∈ calls -> targets x

namespace Confined

variable {targets : ActionId -> Prop}

theorem refl (s : Store) : Confined targets s s where
  shrunk := Shrunk.refl s
  kept := fun _ hx _ => hx
  reverted := ⟨[], (List.append_nil _).symm, fun _ h => absurd h List.not_mem_nil⟩

theorem trans {s t u : Store} (hst : Confined targets s t)
    (htu : Confined targets t u) : Confined targets s u where
  shrunk := hst.shrunk.trans htu.shrunk
  kept := fun x hx hnot => htu.kept x (hst.kept x hx hnot) hnot
  reverted := by
    rcases hst.reverted with ⟨calls, hcalls, htargets⟩
    rcases htu.reverted with ⟨calls', hcalls', htargets'⟩
    refine ⟨calls ++ calls', ?_, ?_⟩
    · rw [hcalls', hcalls, List.append_assoc]
    · intro x hx
      rcases List.mem_append.mp hx with hx | hx
      · exact htargets x hx
      · exact htargets' x hx

theorem mono {targets' : ActionId -> Prop} {s s' : Store}
    (h : Confined targets s s') (hsub : forall x, targets x -> targets' x) :
    Confined targets' s s' where
  shrunk := h.shrunk
  kept := fun x hx hnot => h.kept x hx (fun hx' => hnot (hsub x hx'))
  reverted := by
    rcases h.reverted with ⟨calls, hcalls, htargets⟩
    exact ⟨calls, hcalls, fun x hx => hsub x (htargets x hx)⟩

end Confined

def Reported (s s' : Store) (ms : List QueuedMetadata) : Prop :=
  (ms.map QueuedMetadata.id).Nodup ∧
    forall m, m ∈ ms -> m.id ∈ s.ids ∧ m.id ∉ s'.ids

theorem Reported.nil (s s' : Store) : Reported s s' [] :=
  ⟨List.nodup_nil, fun _ hm => absurd hm List.not_mem_nil⟩

variable {factory : Factory} {faults : CancelFaults} {order : PopOrder ActionId}
  {fuel : Nat} {id root : ActionId} {s s' : Store}
  {sorter : TopologicalSort ActionId}

theorem Confined.call {c : HandlerCall}
    (hc : forall x, HandlerCall.revertLocal x = c -> x = id) :
    Confined (fun x => x = id) s (s.call c) where
  shrunk := Shrunk.call s _
  kept := fun _ hx _ => hx
  reverted :=
    ⟨[c], rfl, fun x hx => hc x (List.mem_singleton.mp hx)⟩

theorem Confined.revert {round : Nat} :
    Confined (fun x => x = id) s (revertAction faults round id s) := by
  have hcall : Confined (fun x => x = id) s
      (s.call (HandlerCall.revertLocal id)) :=
    Confined.call (fun x hx => by cases hx; rfl)
  unfold revertAction
  dsimp only
  split
  · exact hcall.trans (Confined.call (fun x hx => nomatch hx))
  · exact hcall

theorem Confined.delete :
    Confined (fun x => x = id) s (s.delete id) where
  shrunk := Shrunk.deleteWhere s _
  kept := fun _ hx hnot => Store.mem_delete_ids.mpr ⟨hx, hnot⟩
  reverted := ⟨[], (List.append_nil _).symm, fun _ h => absurd h List.not_mem_nil⟩

theorem cancelOne_confined {round : Nat} {r : Except QueuedError QueuedMetadata}
    (h : cancelOne factory faults round id s = (r, s')) :
    Confined (fun x => x = id) s s' ∧
      forall m, r = Except.ok m ->
        m.id = id ∧ id ∈ s.ids ∧ id ∉ s'.ids := by
  unfold cancelOne at h
  split at h
  · cases h
    exact ⟨Confined.refl s, fun m hm => by cases hm⟩
  · split at h
    · cases h
      exact ⟨Confined.refl s, fun m hm => by cases hm⟩
    · rename_i action hload
      split at h
      · cases h
        exact ⟨Confined.refl s, fun m hm => by cases hm⟩
      · split at h
        · cases h
          exact ⟨Confined.revert, fun m hm => by cases hm⟩
        · cases h
          refine ⟨Confined.revert.trans Confined.delete, ?_⟩
          intro m hm
          cases hm
          refine ⟨rfl, (Store.load_isSome hload).left, ?_⟩
          intro hmem
          exact (Store.mem_delete_ids.mp hmem).right rfl

theorem cancelSorted_confined {round : Nat} {cancelled : List QueuedMetadata}
    {r : Except QueuedError (List QueuedMetadata)} {targets : ActionId -> Prop}
    (hnodes : forall x, x ∈ sorter.nodes -> targets x)
    (h : cancelSorted factory faults order fuel round sorter cancelled s =
      (r, s')) :
    Confined targets s s' ∧
      forall ms, r = Except.ok ms ->
        exists more, ms = cancelled ++ more ∧ Reported s s' more := by
  induction fuel generalizing round sorter cancelled s with
  | zero =>
      cases h
      refine ⟨Confined.refl _, ?_⟩
      intro ms hms
      cases hms
      exact ⟨[], (List.append_nil _).symm, Reported.nil _ _⟩
  | succ fuel ih =>
      unfold cancelSorted at h
      split at h
      · cases h
        refine ⟨Confined.refl _, ?_⟩
        intro ms hms
        cases hms
        exact ⟨[], (List.append_nil _).symm, Reported.nil _ _⟩
      · rename_i id sorter' hpop
        have hid : targets id :=
          hnodes id (TopologicalSort.mem_nodes_of_pop hpop)
        have hnodes' : forall x, x ∈ sorter'.nodes -> targets x :=
          fun x hx => hnodes x (TopologicalSort.pop_nodes_subset hpop hx)
        split at h
        · rename_i e mid hone
          cases h
          have hspec := cancelOne_confined hone
          refine ⟨hspec.left.mono (fun x hx => hx ▸ hid), ?_⟩
          intro ms hms
          cases hms
        · rename_i m mid hone
          have hspec := cancelOne_confined hone
          have hrest := ih hnodes' h
          have hm := hspec.right m rfl
          refine ⟨(hspec.left.mono (fun x hx => hx ▸ hid)).trans hrest.left, ?_⟩
          intro ms hms
          rcases hrest.right ms hms with ⟨more, hmore, hnodup, hreported⟩
          refine ⟨m :: more, ?_, ?_, ?_⟩
          · rw [hmore, List.append_assoc, List.singleton_append]
          · rw [List.map_cons, List.nodup_cons]
            refine ⟨?_, hnodup⟩
            intro hin
            rcases List.mem_map.mp hin with ⟨m', hm', heq⟩
            have hmem := (hreported m' hm').left
            rw [heq, hm.left] at hmem
            exact hm.right.right hmem
          · intro m' hm'
            rcases List.mem_cons.mp hm' with hm' | hm'
            · subst hm'
              rw [hm.left]
              exact ⟨hm.right.left,
                fun hmem => hm.right.right (hrest.left.shrunk.ids hmem)⟩
            · have hold := hreported m' hm'
              exact ⟨hspec.left.shrunk.ids hold.left, hold.right⟩

def Store.Requires (s : Store) (x y : ActionId) : Prop :=
  exists d, d ∈ s.dependencies ∧ d.actionId = x ∧ d.dependencyId = y ∧
    d.dependencyType = DependencyType.required

theorem Store.Requires.depends {x y : ActionId} (h : s.Requires x y) :
    s.Depends x y := by
  rcases h with ⟨d, hd, hx, hy, _⟩
  exact Store.depends_iff.mpr ⟨d, hd, hx, hy⟩

/-- The root and everything that requires it, directly or not. -/
def CancelTarget (s : Store) (root x : ActionId) : Prop :=
  ReflTransGen s.Requires x root

theorem CancelTarget.root_or_waiting {x : ActionId} (h : CancelTarget s root x) :
    x = root ∨ exists y, s.Depends x y := by
  rcases ReflTransGen.cases_head h with heq | ⟨y, hxy, _⟩
  · exact Or.inl heq
  · exact Or.inr ⟨y, hxy.depends⟩

theorem CancelTarget.of_eq {x : ActionId} (h : x = root) :
    CancelTarget s root x := by
  rw [h]
  exact ReflTransGen.refl

theorem collectDependees_nodes {round : Nat} {pending : List ActionId}
    {sorter' : TopologicalSort ActionId} (hspanned : sorter.Spanned)
    (hpending : forall x, x ∈ pending -> CancelTarget s root x)
    (hedges : forall e, e ∈ sorter.edges ->
      s.Requires e.1 e.2 ∧ CancelTarget s root e.2)
    (h : collectDependees faults s fuel round pending sorter =
      some (Except.ok sorter')) :
    sorter'.Spanned ∧ forall e, e ∈ sorter'.edges ->
      s.Requires e.1 e.2 ∧ CancelTarget s root e.2 := by
  induction fuel generalizing round pending sorter with
  | zero =>
      cases h
  | succ fuel ih =>
      cases pending with
      | nil =>
          cases h
          exact ⟨hspanned, hedges⟩
      | cons id rest =>
          unfold collectDependees at h
          split at h
          · cases h
          · have hrequires : forall x,
                x ∈ s.dependeesOfType id DependencyType.required ->
                  s.Requires x id :=
              fun x hx => Store.mem_dependeesOfType.mp hx
            have hid := hpending id List.mem_cons_self
            have hfold := TopologicalSort.foldl_addDependency (fun d => d)
              (fun _ => id) (s.dependeesOfType id DependencyType.required)
              sorter hspanned
            refine ih hfold.left ?_ ?_ h
            · intro x hx
              rcases List.mem_append.mp hx with hx | hx
              · exact ReflTransGen.head
                  (hrequires x (List.mem_reverse.mp hx)) hid
              · exact hpending x (List.mem_cons_of_mem _ hx)
            · intro e he
              rcases (hfold.right e).mp he with he | ⟨x, hx, heq⟩
              · exact hedges e he
              · subst heq
                exact ⟨hrequires x hx, hid⟩

theorem collectDependees_targets
    (h : collectDependees faults s fuel 0 [root] (TopologicalSort.empty _) =
      some (Except.ok sorter)) :
    sorter.Spanned ∧
      (forall e, e ∈ sorter.edges -> s.Requires e.1 e.2) ∧
      forall x, x ∈ sorter.nodes -> CancelTarget s root x := by
  have hpending : forall x, x ∈ [root] -> CancelTarget s root x := by
    intro x hx
    rw [List.mem_singleton.mp hx]
    exact ReflTransGen.refl
  have hspec := collectDependees_nodes TopologicalSort.spanned_empty hpending
    (fun e he => absurd he List.not_mem_nil) h
  refine ⟨hspec.left, fun e he => (hspec.right e he).left, ?_⟩
  intro x hx
  rcases (hspec.left x).mp hx with ⟨e, he, hxe | hxe⟩
  · rw [hxe]
    exact ReflTransGen.head (hspec.right e he).left (hspec.right e he).right
  · rw [hxe]
    exact (hspec.right e he).right

theorem cancelActionWithDependees_confined
    {r : Except QueuedError (List QueuedMetadata)}
    (h : cancelActionWithDependees factory faults order fuel id s =
      some (r, s')) :
    Confined (CancelTarget s id) s s' ∧
      forall ms, r = Except.ok ms -> Reported s s' ms := by
  unfold cancelActionWithDependees at h
  split at h
  · cases h
  · cases h
    exact ⟨Confined.refl s, fun ms hms => by cases hms⟩
  · rename_i sorter hcollect
    split at h
    · split at h
      · rename_i e mid hone
        cases h
        have hspec := cancelOne_confined hone
        exact ⟨hspec.left.mono (fun x hx => CancelTarget.of_eq hx),
          fun ms hms => by cases hms⟩
      · rename_i m mid hone
        cases h
        have hspec := cancelOne_confined hone
        refine ⟨hspec.left.mono (fun x hx => CancelTarget.of_eq hx), ?_⟩
        intro ms hms
        cases hms
        have hm := hspec.right m rfl
        refine ⟨List.nodup_singleton _, ?_⟩
        intro m' hm'
        rw [List.mem_singleton] at hm'
        subst hm'
        rw [hm.left]
        exact hm.right
    · have htargets := (collectDependees_targets hcollect).right.right
      have hspec := cancelSorted_confined htargets (Option.some.inj h)
      refine ⟨hspec.left, ?_⟩
      intro ms hms
      rcases hspec.right ms hms with ⟨more, hmore, hreported⟩
      rw [List.nil_append] at hmore
      rw [hmore]
      exact hreported

theorem cancel_confined {r : Except QueuedError (List QueuedMetadata)}
    (h : cancel factory faults order fuel id s = some (r, s')) :
    Confined (CancelTarget s id) s s' ∧
      forall ms, r = Except.ok ms -> Reported s s' ms := by
  unfold cancel at h
  split at h
  · cases h
    exact ⟨Confined.refl s, fun ms hms => by cases hms⟩
  · split at h
    · cases h
    · cases h
      exact ⟨Confined.refl s, fun ms hms => by cases hms⟩
    · rename_i ms mid hcancel
      cases h
      exact cancelActionWithDependees_confined hcancel

theorem deleteAction_confined {r : Except QueuedError (Option String)}
    (h : deleteAction id s = (r, s')) :
    Confined (fun x => x = id) s s' := by
  unfold deleteAction at h
  split at h
  · cases h
    exact Confined.refl s
  · cases h
    exact Confined.delete

/-!
# Cancellations that succeed

Without faults, and if every action to cancel can be decoded, a cancellation
on an acyclic graph deletes all of them.
-/

structure CancelFaults.Absent (faults : CancelFaults) : Prop where
  query : forall n, faults.query n = false
  load : forall n, faults.load n = false
  revert : forall n, faults.revert n = false
  delete : forall n, faults.delete n = false

def Decodable (factory : Factory) (a : ActionRow) : Prop :=
  exists d, factory.decodeState a.actionType a.version a.state = Except.ok d

theorem load_of_mem (h : id ∈ s.ids) :
    exists row action, row ∈ s.actions ∧ row.id = id ∧
      s.load id = some action ∧ action.actionType = row.actionType ∧
      action.version = row.version ∧ action.state = row.state := by
  cases hfind : s.find id with
  | none =>
      rcases List.mem_map.mp h with ⟨row, hrow, hid⟩
      have hnot := List.find?_eq_none.mp hfind row hrow
      exact absurd (decide_eq_true hid) hnot
  | some row =>
      have hid : row.id = id := by
        simpa using List.find?_some hfind
      unfold Store.load
      rw [hfind]
      exact ⟨row, _, List.mem_of_find?_eq_some hfind, hid, rfl, rfl, rfl, rfl⟩

theorem revertAction_actions (faults : CancelFaults) (round : Nat) (s : Store)
    (id : ActionId) : (revertAction faults round id s).actions = s.actions := by
  unfold revertAction
  dsimp only
  split
  · rfl
  · rfl

theorem revertAction_ids (faults : CancelFaults) (round : Nat) (s : Store)
    (id : ActionId) : (revertAction faults round id s).ids = s.ids :=
  congrArg (List.map ActionRow.id) (revertAction_actions faults round s id)

/-- Loading or decoding the action fails before anything is done to it. -/
def Unreadable (factory : Factory) (faults : CancelFaults) (round : Nat)
    (s : Store) (id : ActionId) : Prop :=
  faults.load round = true ∨
    exists a, a ∈ s.actions ∧ a.id = id ∧ ¬ Decodable factory a

def CancelFails (factory : Factory) (faults : CancelFaults) (round : Nat)
    (s : Store) (id : ActionId) : Prop :=
  Unreadable factory faults round s id ∨ faults.delete round = true

theorem cancelOne_done (round : Nat) (hmem : id ∈ s.ids)
    (h : ¬ CancelFails factory faults round s id) :
    exists m, m.id = id ∧ cancelOne factory faults round id s =
      (Except.ok m, (revertAction faults round id s).delete id) := by
  have hload : faults.load round = false := by
    cases hfault : faults.load round with
    | false => rfl
    | true => exact absurd (Or.inl (Or.inl hfault)) h
  have hdelete : faults.delete round = false := by
    cases hfault : faults.delete round with
    | false => rfl
    | true => exact absurd (Or.inr hfault) h
  rcases load_of_mem hmem with
    ⟨row, action, hrow, hid, haction, htype, hversion, hstate⟩
  have hdecodable : Decodable factory row := by
    by_contra hnot
    exact h (Or.inl (Or.inr ⟨row, hrow, hid, hnot⟩))
  rcases hdecodable with ⟨d, hd⟩
  have hdecoded : factory.decode action = Except.ok d := by
    unfold Factory.decode
    rw [htype, hversion, hstate]
    exact hd
  refine ⟨QueuedMetadata.ofStored id action, rfl, ?_⟩
  unfold cancelOne
  rw [hload, haction]
  simp [hdecoded, hdelete]

theorem CancelFaults.Absent.not_cancelFails (hfaults : faults.Absent)
    (round : Nat)
    (hdecode : forall a, a ∈ s.actions -> a.id = id -> Decodable factory a) :
    ¬ CancelFails factory faults round s id := by
  intro hfails
  rcases hfails with (hload | ⟨a, ha, hid, hnot⟩) | hdelete
  · rw [hfaults.load] at hload
    cases hload
  · exact hnot (hdecode a ha hid)
  · rw [hfaults.delete] at hdelete
    cases hdelete

theorem cancelSorted_ok (order : PopOrder ActionId) (hfaults : faults.Absent)
    (round : Nat) (cancelled : List QueuedMetadata)
    (hfuel : sorter.nodes.length ≤ fuel) (hacyclic : Acyclic sorter.Edge)
    (hclosed : sorter.Closed) (hnodes : forall x, x ∈ sorter.nodes -> x ∈ s.ids)
    (hdecode : forall a, a ∈ s.actions -> a.id ∈ sorter.nodes ->
      Decodable factory a) :
    exists ms s',
      cancelSorted factory faults order fuel round sorter cancelled s =
        (Except.ok ms, s') ∧
      forall x, x ∈ sorter.nodes -> x ∉ s'.ids := by
  induction fuel generalizing round sorter cancelled s with
  | zero =>
      have hnil := List.length_eq_zero_iff.mp (Nat.le_zero.mp hfuel)
      refine ⟨cancelled, s, rfl, ?_⟩
      intro x hx
      rw [hnil] at hx
      cases hx
  | succ fuel ih =>
      unfold cancelSorted
      cases hpop : sorter.pop order with
      | none =>
          have hready : sorter.ready = [] :=
            TopologicalSort.pop_isNone.mp (by rw [hpop]; rfl)
          have hnil := TopologicalSort.nodes_eq_nil_of_ready_eq_nil hacyclic
            hclosed hready
          refine ⟨cancelled, s, rfl, ?_⟩
          intro x hx
          rw [hnil] at hx
          cases hx
      | some popped =>
          rcases popped with ⟨id, sorter'⟩
          rcases TopologicalSort.pop_eq_some hpop with ⟨hready, hremove⟩
          have hid := TopologicalSort.mem_nodes_of_pop hpop
          subst hremove
          rcases cancelOne_done round (hnodes id hid)
            (hfaults.not_cancelFails round
              (fun a ha haid => hdecode a ha (haid ▸ hid))) with
            ⟨m, _, hone⟩
          dsimp only
          rw [hone]
          have hshorter : (sorter.remove id).nodes.length ≤ fuel := by
            have hlt := TopologicalSort.remove_length hid
            omega
          have hstored : forall x, x ∈ (sorter.remove id).nodes ->
              x ∈ ((revertAction faults round id s).delete id).ids := by
            intro x hx
            rcases TopologicalSort.mem_remove_nodes.mp hx with ⟨hx, hne⟩
            exact Store.mem_delete_ids.mpr
              ⟨(revertAction_ids faults round s id).symm ▸ hnodes x hx, hne⟩
          rcases ih (round + 1) (cancelled ++ [m]) hshorter
            (TopologicalSort.remove_acyclic hacyclic)
            (TopologicalSort.remove_closed hclosed hready) hstored
            (fun a ha hax => hdecode a
              (revertAction_actions faults round s id ▸
                List.mem_of_mem_filter ha)
              (TopologicalSort.mem_remove_nodes.mp hax).left) with
            ⟨ms, s', hrest, hgone⟩
          refine ⟨ms, s', hrest, ?_⟩
          intro x hx
          by_cases hxid : x = id
          · -- `x` was deleted in this round and ids do not come back.
            intro hmem
            have hconfined := cancelSorted_confined
              (fun y (_ : y ∈ (sorter.remove id).nodes) => True.intro) hrest
            have hids := hconfined.left.shrunk.ids hmem
            exact (Store.mem_delete_ids.mp hids).right hxid
          · exact hgone x (TopologicalSort.mem_remove_nodes.mpr ⟨hx, hxid⟩)

theorem collectDependees_edges_mono {round : Nat} {pending : List ActionId}
    {sorter' : TopologicalSort ActionId} (hspanned : sorter.Spanned)
    (h : collectDependees faults s fuel round pending sorter =
      some (Except.ok sorter')) {e : ActionId × ActionId}
    (he : e ∈ sorter.edges) : e ∈ sorter'.edges := by
  induction fuel generalizing round pending sorter with
  | zero =>
      cases h
  | succ fuel ih =>
      cases pending with
      | nil =>
          cases h
          exact he
      | cons id rest =>
          unfold collectDependees at h
          split at h
          · cases h
          · have hfold := TopologicalSort.foldl_addDependency (fun d => d)
              (fun _ => id) (s.dependeesOfType id DependencyType.required)
              sorter hspanned
            exact ih hfold.left h ((hfold.right e).mpr (Or.inl he))

/-- A sorter that collected anything collected the root. -/
theorem collectDependees_root
    (h : collectDependees faults s fuel 0 [root] (TopologicalSort.empty _) =
      some (Except.ok sorter)) (hne : sorter.isEmpty = false) :
    root ∈ sorter.nodes := by
  have hspanned := (collectDependees_targets h).left
  cases fuel with
  | zero =>
      cases h
  | succ fuel =>
      unfold collectDependees at h
      split at h
      · cases h
      · have hfold := TopologicalSort.foldl_addDependency (fun d => d)
          (fun _ => root) (s.dependeesOfType root DependencyType.required)
          (TopologicalSort.empty _) TopologicalSort.spanned_empty
        cases hdeps : s.dependeesOfType root DependencyType.required with
        | nil =>
            rw [hdeps] at h
            cases fuel with
            | zero =>
                cases h
            | succ fuel =>
                cases h
                cases hne
        | cons d rest =>
            rw [hspanned]
            refine ⟨(d, root), ?_, Or.inr rfl⟩
            apply collectDependees_edges_mono hfold.left h
            apply (hfold.right _).mpr
            refine Or.inr ⟨d, ?_, rfl⟩
            rw [hdeps]
            exact List.mem_cons_self

theorem collectDependees_no_error (hfaults : faults.Absent) {round : Nat}
    {pending : List ActionId} {e : QueuedError} :
    collectDependees faults s fuel round pending sorter ≠
      some (Except.error e) := by
  intro h
  induction fuel generalizing round pending sorter with
  | zero =>
      cases h
  | succ fuel ih =>
      cases pending with
      | nil =>
          cases h
      | cons id rest =>
          unfold collectDependees at h
          rw [hfaults.query] at h
          exact ih h

theorem cancelActionWithDependees_ok
    {r : Except QueuedError (List QueuedMetadata)} (hfaults : faults.Absent)
    (hacyclic : Acyclic s.Depends) (hmem : id ∈ s.ids)
    (hdecode : forall a, a ∈ s.actions -> CancelTarget s id a.id ->
      Decodable factory a)
    (h : cancelActionWithDependees factory faults order fuel id s =
      some (r, s')) :
    (exists ms, r = Except.ok ms) ∧ id ∉ s'.ids := by
  unfold cancelActionWithDependees at h
  split at h
  · cases h
  · rename_i e hcollect
    exact absurd hcollect (collectDependees_no_error hfaults)
  · rename_i sorter hcollect
    have htargets := collectDependees_targets hcollect
    split at h
    · rcases cancelOne_done 0 hmem (hfaults.not_cancelFails 0
        (fun a ha haid => hdecode a ha (CancelTarget.of_eq haid))) with
        ⟨m, _, hone⟩
      rw [hone] at h
      cases h
      refine ⟨⟨[m], rfl⟩, ?_⟩
      intro hin
      exact (Store.mem_delete_ids.mp hin).right rfl
    · rename_i hempty
      have hedges : Acyclic sorter.Edge :=
        hacyclic.mono (fun x y hxy => (htargets.right.left _ hxy).depends)
      have hnodes : forall x, x ∈ sorter.nodes -> x ∈ s.ids := by
        intro x hx
        rcases (htargets.left x).mp hx with ⟨e, he, hxe | hxe⟩
        · rw [hxe]
          exact (htargets.right.left e he).depends.left_mem
        · rw [hxe]
          exact (htargets.right.left e he).depends.right_mem
      rcases cancelSorted_ok order hfaults 0 [] (Nat.le_refl _) hedges
        htargets.left.closed hnodes
        (fun a ha hax => hdecode a ha (htargets.right.right _ hax)) with
        ⟨ms, u, hsorted, hgone⟩
      rw [hsorted] at h
      cases h
      refine ⟨⟨ms, rfl⟩, ?_⟩
      apply hgone
      exact collectDependees_root hcollect (by simpa using hempty)

/-!
# Completing an execution
-/

theorem cancelFailed_confined {c : Completion}
    (h : cancelFailed factory faults order fuel id s = some (c, s')) :
    Confined (CancelTarget s id) s s' ∧ Reported s s' c.cancelled ∧
      c.result = Except.error ActionError.action := by
  unfold cancelFailed at h
  split at h
  · cases h
  · rename_i ms mid hcancel
    cases h
    have hspec := cancelActionWithDependees_confined hcancel
    exact ⟨hspec.left, hspec.right ms rfl, rfl⟩
  · rename_i e mid hcancel
    cases h
    have hspec := cancelActionWithDependees_confined hcancel
    exact ⟨hspec.left, Reported.nil s _, rfl⟩

theorem completeClosure_confined {faults : ExecutionFaults}
    {maxRetries : Option Nat} {result : RemoteResult} {c : Completion}
    (h : completeClosure factory faults order fuel maxRetries id result s =
      some (c, s')) :
    Confined (CancelTarget s id) s s' ∧ Reported s s' c.cancelled := by
  unfold completeClosure at h
  dsimp only at h
  split at h
  · split at h
    · cases h
      exact ⟨Confined.refl s, Reported.nil s s⟩
    · cases h
      exact ⟨Confined.delete.mono (fun x hx => CancelTarget.of_eq hx), Reported.nil s _⟩
  · have hspec := cancelFailed_confined h
    exact ⟨hspec.left, hspec.right.left⟩
  · split at h
    · cases h
      exact ⟨Confined.refl s, Reported.nil s s⟩
    · split at h
      · cases h
        exact ⟨Confined.refl s, Reported.nil s s⟩
      · split at h
        · have hspec := cancelFailed_confined h
          exact ⟨hspec.left, hspec.right.left⟩
        · cases h
          refine ⟨⟨?_, ?_, ?_⟩, Reported.nil s _⟩
          · exact Shrunk.updateAction s id _ (fun _ => rfl) (fun _ => rfl)
          · intro x hx _
            unfold Store.updateRetries Store.ids Store.updateAction
            rw [Store.map_setRow_ids]
            exact hx
          · exact ⟨[], (List.append_nil _).symm,
              fun _ h => absurd h List.not_mem_nil⟩

theorem Confined.of_locks {targets : ActionId -> Prop} (hshrunk : Shrunk s s')
    (hids : s'.ids = s.ids) (hhandled : s'.handled = s.handled) :
    Confined targets s s' where
  shrunk := hshrunk
  kept := by
    intro x hx _
    rw [hids]
    exact hx
  reverted := ⟨[], by rw [hhandled, List.append_nil],
    fun _ h => absurd h List.not_mem_nil⟩

theorem completeExecution_confined {faults : ExecutionFaults}
    {maxRetries : Option Nat} {guard : ExecutionGuard} {now : Timestamp}
    {result : RemoteResult} {r : Except ExecutionGuardError Completion}
    (h : completeExecution factory faults order fuel maxRetries guard now
      result s = some (r, s')) :
    Confined (CancelTarget s guard.actionId) s s' ∧
      forall c, r = Except.ok c -> Reported s s' c.cancelled := by
  unfold completeExecution ExecutionGuard.txAndRelease at h
  have htouch : Confined (CancelTarget s guard.actionId) s
      (s.touchLock guard.actionId guard.permitId now) :=
    Confined.of_locks (Shrunk.touchLock s _ _ now) rfl rfl
  split at h
  · split at h
    · cases h
    · rename_i c mid hclosure
      cases h
      rcases Option.map_eq_some_iff.mp hclosure with ⟨⟨c', t⟩, hc, heq⟩
      cases heq
      have hspec := completeClosure_confined hc
      have hrelease : Confined (CancelTarget s guard.actionId) mid
          (guard.release mid) :=
        Confined.of_locks (Shrunk.releaseLock mid _ _) rfl rfl
      refine ⟨(htouch.trans hspec.left).trans hrelease, ?_⟩
      intro c' hc'
      cases hc'
      exact hspec.right
    · cases h
      exact ⟨Confined.refl s, fun c hc => by cases hc⟩
  · cases h
    exact ⟨Confined.refl s, fun c hc => by cases hc⟩

end ActionQueue
end MailClient
