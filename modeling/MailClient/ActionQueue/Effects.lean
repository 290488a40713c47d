import MailClient.ActionQueue.Queue
import MailClient.Foundation.Transition

/-!
# Effects of the transactions

One specification lemma for each function of the queue, in terms of the action
ids, the dependency relation and the lock rows.  The proofs about whole runs
only use these lemmas and never look into a transaction again.
-/

namespace MailClient
namespace ActionQueue

open Foundation

namespace Store

/-- The edges of `action_queue_dependencies`, of both types. -/
def Depends (s : Store) (x y : ActionId) : Prop :=
  (x, y) ∈ s.dependencies.map DependencyRow.key

variable {s : Store} {x y : ActionId}

theorem depends_iff :
    s.Depends x y ↔
      exists d, d ∈ s.dependencies ∧ d.actionId = x ∧ d.dependencyId = y := by
  unfold Depends
  rw [List.mem_map]
  constructor
  · intro h
    rcases h with ⟨d, hd, hkey⟩
    exact ⟨d, hd, congrArg Prod.fst hkey, congrArg Prod.snd hkey⟩
  · intro h
    rcases h with ⟨d, hd, hx, hy⟩
    exact ⟨d, hd, by rw [DependencyRow.key, hx, hy]⟩

theorem Depends.left_mem (h : s.Depends x y) :
    x ∈ s.ids := by
  rcases depends_iff.mp h with ⟨d, hd, hx, _⟩
  rw [<- hx]
  exact s.dependency_action d hd

theorem Depends.right_mem (h : s.Depends x y) :
    y ∈ s.ids := by
  rcases depends_iff.mp h with ⟨d, hd, _, hy⟩
  rw [<- hy]
  exact s.dependency_target d hd

theorem mem_allDependencies :
    y ∈ (s.allDependencies x).map ActionDependency.dependencyId ↔
      s.Depends x y := by
  unfold allDependencies
  rw [List.map_map, List.mem_map, depends_iff]
  simp [and_assoc]

theorem mem_dependeesOfType {type : DependencyType} :
    x ∈ s.dependeesOfType y type ↔
      exists d, d ∈ s.dependencies ∧ d.actionId = x ∧ d.dependencyId = y ∧
        d.dependencyType = type := by
  unfold dependeesOfType
  rw [List.mem_dedup, List.mem_map]
  constructor
  · intro h
    rcases h with ⟨d, hd, hx⟩
    have hfilter := List.mem_filter.mp hd
    have htype := of_decide_eq_true hfilter.right
    exact ⟨d, hfilter.left, hx, htype.left, htype.right⟩
  · intro h
    rcases h with ⟨d, hd, hx, hy, htype⟩
    exact ⟨d, List.mem_filter.mpr ⟨hd, decide_eq_true ⟨hy, htype⟩⟩, hx⟩

theorem ids_le_sequence (h : x ∈ s.ids) :
    x ≤ s.sequence := by
  rcases List.mem_map.mp h with ⟨a, ha, hx⟩
  rw [<- hx]
  exact s.action_sequence a ha

theorem sequence_succ_not_mem (s : Store) : s.sequence + 1 ∉ s.ids := by
  intro h
  exact Nat.not_succ_le_self _ (ids_le_sequence h)

/-!
# Deletions
-/

theorem mem_ids_deleteWhere {p : ActionRow -> Bool}
    (h : x ∈ (s.deleteWhere p).ids) : x ∈ s.ids := by
  rcases List.mem_map.mp h with ⟨a, ha, hx⟩
  exact List.mem_map.mpr ⟨a, List.mem_of_mem_filter ha, hx⟩

theorem deleteWhere_depends {p : ActionRow -> Bool} :
    (s.deleteWhere p).Depends x y ↔
      s.Depends x y ∧ x ∈ (s.deleteWhere p).ids ∧
        y ∈ (s.deleteWhere p).ids := by
  constructor
  · intro h
    refine ⟨?_, h.left_mem, h.right_mem⟩
    rcases depends_iff.mp h with ⟨d, hd, hx, hy⟩
    exact depends_iff.mpr ⟨d, List.mem_of_mem_filter hd, hx, hy⟩
  · intro h
    rcases h with ⟨hdep, hx, hy⟩
    rcases depends_iff.mp hdep with ⟨d, hd, hdx, hdy⟩
    refine depends_iff.mpr ⟨d, List.mem_filter.mpr ⟨hd, ?_⟩, hdx, hdy⟩
    rw [Bool.and_eq_true, hdx, hdy]
    exact ⟨decide_eq_true hx, decide_eq_true hy⟩

theorem mem_delete_ids {id : ActionId} :
    x ∈ (s.delete id).ids ↔ x ∈ s.ids ∧ x ≠ id := by
  unfold delete ids deleteWhere
  simp only [List.mem_map, List.mem_filter]
  constructor
  · intro h
    rcases h with ⟨a, ⟨ha, hne⟩, hx⟩
    refine ⟨⟨a, ha, hx⟩, ?_⟩
    intro hid
    rw [<- hx] at hid
    simp [hid] at hne
  · intro h
    rcases h with ⟨⟨a, ha, hx⟩, hne⟩
    refine ⟨a, ⟨ha, ?_⟩, hx⟩
    rw [hx]
    simp [hne]

end Store

/-!
# Adding dependencies of one action

`Linked s s' id targets` is the shared specification of the saving functions:
they may only add edges that leave from `id`, and those lead to `targets`.
-/

structure Linked (s s' : Store) (id : ActionId) (targets : ActionId -> Prop) :
    Prop where
  sequence : s'.sequence = s.sequence
  actions : s'.actions = s.actions
  locks : s'.locks = s.locks
  depends : forall x y,
    s'.Depends x y ↔ s.Depends x y ∨ (x = id ∧ targets y)

namespace Linked

variable {s : Store} {id : ActionId}

theorem refl :
    Linked s s id (fun _ => False) where
  sequence := rfl
  actions := rfl
  locks := rfl
  depends := by
    intro x y
    simp

theorem of_eq {s' : Store} (hsequence : s'.sequence = s.sequence)
    (hactions : s'.actions = s.actions) (hlocks : s'.locks = s.locks)
    (hdeps : s'.dependencies = s.dependencies) :
    Linked s s' id (fun _ => False) where
  sequence := hsequence
  actions := hactions
  locks := hlocks
  depends := by
    intro x y
    unfold Store.Depends
    rw [hdeps]
    simp

theorem trans {t u : Store} {p q : ActionId -> Prop} (hst : Linked s t id p)
    (htu : Linked t u id q) :
    Linked s u id (fun y => p y ∨ q y) where
  sequence := htu.sequence.trans hst.sequence
  actions := htu.actions.trans hst.actions
  locks := htu.locks.trans hst.locks
  depends := by
    intro x y
    rw [htu.depends, hst.depends]
    tauto

theorem congr {t : Store} {p q : ActionId -> Prop} (h : Linked s t id p)
    (hpq : forall y, p y ↔ q y) : Linked s t id q where
  sequence := h.sequence
  actions := h.actions
  locks := h.locks
  depends := by
    intro x y
    rw [h.depends, hpq]

theorem ids {t : Store} {p : ActionId -> Prop} (h : Linked s t id p) :
    t.ids = s.ids := by
  unfold Store.ids
  rw [h.actions]

end Linked

variable {s s' : Store} {id : ActionId} {a : StoredAction}
  {iter : IterOrder ActionDependency} {sub : Submission}
  {existing : Option ActionId}

theorem insertDependency_linked {row : DependencyRow}
    (h : s.insertDependency row = some s') :
    Linked s s' row.actionId (fun y => y = row.dependencyId) ∧
      s'.keys = s.keys := by
  unfold Store.insertDependency at h
  split at h
  · split at h
    · rename_i hkey
      cases h
      refine ⟨⟨rfl, rfl, rfl, ?_⟩, rfl⟩
      intro x y
      have hmap : (s.dependencies.map (Store.setDependency row)).map
          DependencyRow.key = s.dependencies.map DependencyRow.key := by
        simp [Function.comp_def]
      show (x, y) ∈ (s.dependencies.map (Store.setDependency row)).map
        DependencyRow.key ↔ _
      rw [hmap]
      constructor
      · intro hxy
        exact Or.inl hxy
      · intro hxy
        rcases hxy with hxy | ⟨hx, hy⟩
        · exact hxy
        · rw [hx, hy]
          exact hkey
    · cases h
      refine ⟨⟨rfl, rfl, rfl, ?_⟩, rfl⟩
      intro x y
      show (x, y) ∈ (s.dependencies ++ [row]).map DependencyRow.key ↔ _
      rw [List.map_append, List.mem_append, List.map_singleton,
        List.mem_singleton]
      simp [Store.Depends, DependencyRow.key]
  · cases h

theorem insertDependencies_linked {existing : List ActionId}
    {deps : List ActionDependency}
    (h : StoredAction.insertDependencies id existing deps s = Except.ok s') :
    Linked s s' id (fun y => y ∈ existing ∧
      exists d, d ∈ deps ∧ d.dependencyId = y) ∧ s'.keys = s.keys := by
  induction deps generalizing s with
  | nil =>
      cases h
      exact ⟨Linked.refl.congr (by simp), rfl⟩
  | cons dep rest ih =>
      unfold StoredAction.insertDependencies at h
      split at h
      · rename_i hmem
        split at h
        · rename_i mid hmid
          have hfirst := insertDependency_linked hmid
          have hrest := ih h
          refine ⟨(hfirst.left.trans hrest.left).congr ?_,
            hrest.right.trans hfirst.right⟩
          intro y
          constructor
          · intro hy
            rcases hy with hy | ⟨hy, d, hd, hdy⟩
            · subst hy
              exact ⟨hmem, dep, List.mem_cons_self, rfl⟩
            · exact ⟨hy, d, List.mem_cons_of_mem _ hd, hdy⟩
          · intro hy
            rcases hy with ⟨hy, d, hd, hdy⟩
            rcases List.mem_cons.mp hd with hd | hd
            · subst hd
              exact Or.inl hdy.symm
            · exact Or.inr ⟨hy, d, hd, hdy⟩
        · cases h
      · rename_i hnot
        have hrest := ih h
        refine ⟨hrest.left.congr ?_, hrest.right⟩
        intro y
        constructor
        · intro hy
          rcases hy with ⟨hy, d, hd, hdy⟩
          exact ⟨hy, d, List.mem_cons_of_mem _ hd, hdy⟩
        · intro hy
          rcases hy with ⟨hy, d, hd, hdy⟩
          rcases List.mem_cons.mp hd with hd | hd
          · subst hd
            rw [hdy] at hnot
            exact absurd hy hnot
          · exact ⟨hy, d, hd, hdy⟩

theorem storeDependencyKeys_linked {keys : List ActionDependencyKey}
    (h : StoredAction.storeDependencyKeys id keys s = Except.ok s') :
    Linked s s' id (fun _ => False) := by
  induction keys generalizing s with
  | nil =>
      cases h
      exact Linked.refl
  | cons key rest ih =>
      unfold StoredAction.storeDependencyKeys at h
      split at h
      · rename_i mid hmid
        have hfirst : Linked s mid id (fun _ => False) := by
          unfold Store.insertKey at hmid
          split at hmid
          · cases hmid
            exact Linked.of_eq rfl rfl rfl rfl
          · cases hmid
        exact (hfirst.trans (ih h)).congr (by simp)
      · cases h

theorem mem_dependencySet {y : ActionId} :
    (exists d, d ∈ a.dependencySet s ∧ d.dependencyId = y) ↔
      (exists d, d ∈ a.dependencies ∧ d.dependencyId = y) ∨
        exists k, k ∈ s.keys ∧ k.actionId = y ∧
          k.keyId ∈ a.dependencyKeys.optional ++ a.dependencyKeys.required := by
  unfold StoredAction.dependencySet Store.resolveDependencyKeys
  simp only [List.mem_dedup, List.mem_append, List.mem_map, List.mem_filter,
    decide_eq_true_eq]
  constructor
  · intro h
    rcases h with ⟨d, (hd | ⟨x, ⟨k, hk, hx⟩, hd⟩) | ⟨x, ⟨k, hk, hx⟩, hd⟩, hy⟩
    · exact Or.inl ⟨d, hd, hy⟩
    · subst hd
      exact Or.inr ⟨k, hk.left, hx.trans hy, Or.inl hk.right⟩
    · subst hd
      exact Or.inr ⟨k, hk.left, hx.trans hy, Or.inr hk.right⟩
  · intro h
    rcases h with ⟨d, hd, hy⟩ | ⟨k, hk, hy, hkey | hkey⟩
    · exact ⟨d, Or.inl (Or.inl hd), hy⟩
    · exact ⟨ActionDependency.optional y,
        Or.inl (Or.inr ⟨y, ⟨k, ⟨hk, hkey⟩, hy⟩, rfl⟩), rfl⟩
    · exact ⟨ActionDependency.required y,
        Or.inr ⟨y, ⟨k, ⟨hk, hkey⟩, hy⟩, rfl⟩, rfl⟩

theorem updateDependencyKeys_linked
    (h : a.updateDependencyKeys id iter s = Except.ok s') :
    Linked s s' id (fun y => y ∈ s.ids ∧
      exists d, d ∈ a.dependencySet s ∧ d.dependencyId = y) ∧
      (a.dependencyKeys.required = [] -> a.dependencyKeys.record = [] ->
        s'.keys = s.keys) := by
  rcases bind_eq_ok h with ⟨mid, hmid, hkeys⟩
  have hdeps := insertDependencies_linked hmid
  have hrest := storeDependencyKeys_linked hkeys
  constructor
  · refine (hdeps.left.trans hrest).congr ?_
    intro y
    simp only [(iter.perm _).mem_iff, or_false]
  · intro hrequired hrecord
    rw [hrequired, hrecord] at hkeys
    cases hkeys
    exact hdeps.right

theorem afterSave_linked (h : a.afterSave id iter s = Except.ok s') :
    Linked s s' id (fun y => y ∈ s.ids ∧
      exists d, d ∈ a.dependencySet s ∧ d.dependencyId = y) ∧
      (a.dependencyKeys.required = [] -> a.dependencyKeys.record = [] ->
        s'.keys = s.keys) := by
  rcases bind_eq_ok h with ⟨mid, hmid, hresource⟩
  have hlinked := updateDependencyKeys_linked hmid
  have hkept : Linked mid s' id (fun _ => False) ∧ s'.keys = mid.keys := by
    unfold Store.replaceResource at hresource
    split at hresource
    · cases hresource
      rename_i hsome
      split at hsome
      · cases hsome
        exact ⟨Linked.of_eq rfl rfl rfl rfl, rfl⟩
      · cases hsome
    · cases hresource
  constructor
  · exact (hlinked.left.trans hkept.left).congr (by simp)
  · intro hrequired hrecord
    exact hkept.right.trans (hlinked.right hrequired hrecord)

/-!
# Placing a submission

A submission either takes the row of the action it replaces or a fresh one.
-/

def Submission.replacing (sub : Submission) (existing : Option ActionId)
    (s : Store) : Option ActionId :=
  existing.filter (fun e => sub.stored.replaces e s)

/-- The actions a submission asks to depend on. -/
def Submission.Targets (sub : Submission) (existing : Option ActionId)
    (s : Store) (y : ActionId) : Prop :=
  sub.replacing existing s ≠ some y ∧
    ((exists d, d ∈ sub.metadata.dependencies ∧ d.dependencyId = y) ∨
      exists applied, sub.applyLocal = some applied ∧
        exists k, k ∈ s.keys ∧ k.actionId = y ∧
          k.keyId ∈ applied.dependencyKeys.optional ++
            applied.dependencyKeys.required)

inductive Submission.Slot (sub : Submission) (existing : Option ActionId)
    (s : Store) (id : ActionId) (s' : Store) : Prop where
  | fresh :
      sub.replacing existing s = none ->
      id = s.sequence + 1 ->
      s'.sequence = s.sequence + 1 ->
      s'.actions = s.actions ++ [sub.stored.toRow id] ->
      Slot sub existing s id s'
  | replaced :
      sub.replacing existing s = some id ->
      id ∈ s.ids ->
      ExecutionGuard.hasExecutor id s = false ->
      s'.sequence = s.sequence ->
      s'.actions = s.actions.map (Store.setRow id
        (fun _ => sub.stored.toRow id)) ->
      Slot sub existing s id s'

namespace Submission.Slot

variable {sub : Submission} {existing : Option ActionId} {s s' t : Store}
  {id : ActionId}

theorem congr (h : Slot sub existing s id s')
    (hsequence : t.sequence = s'.sequence) (hactions : t.actions = s'.actions) :
    Slot sub existing s id t := by
  cases h with
  | fresh hnone hid hseq hacts =>
      exact fresh hnone hid (hsequence.trans hseq) (hactions.trans hacts)
  | replaced hsome hmem hfree hseq hacts =>
      exact replaced hsome hmem hfree (hsequence.trans hseq)
        (hactions.trans hacts)

theorem mem_ids (h : Slot sub existing s id s') {x : ActionId} :
    x ∈ s'.ids ↔ x ∈ s.ids ∨ x = id := by
  unfold Store.ids
  cases h with
  | fresh hnone hid hseq hacts =>
      rw [hacts, List.map_append, List.mem_append]
      show _ ∨ x ∈ [id] ↔ _
      rw [List.mem_singleton]
  | replaced hsome hmem hfree hseq hacts =>
      rw [hacts, Store.map_setRow_ids]
      constructor
      · intro hx
        exact Or.inl hx
      · intro hx
        rcases hx with hx | hx
        · exact hx
        · rw [hx]
          exact hmem

theorem sequence_le (h : Slot sub existing s id s') :
    s.sequence ≤ s'.sequence := by
  cases h with
  | fresh hnone hid hseq hacts =>
      rw [hseq]
      exact Nat.le_succ _
  | replaced hsome hmem hfree hseq hacts =>
      rw [hseq]

end Submission.Slot

/-- What storing a submission, before its validation, does to the tables. -/
structure Submission.Placed (sub : Submission) (existing : Option ActionId)
    (s : Store) (id : ActionId) (s' : Store) : Prop where
  slot : sub.Slot existing s id s'
  locks : s'.locks = s.locks
  depends : forall x y, s'.Depends x y ↔
    s.Depends x y ∨ (x = id ∧ y ∈ s'.ids ∧ sub.Targets existing s y)

theorem replaces_spec (h : a.replaces id s = true) :
    id ∈ s.ids ∧ ExecutionGuard.hasExecutor id s = false := by
  unfold StoredAction.replaces at h
  split at h
  · rename_i found hload
    rw [Bool.and_eq_true] at h
    constructor
    · unfold Store.load at hload
      rcases Option.map_eq_some_iff.mp hload with ⟨row, hrow, _⟩
      have hmem := List.mem_of_find?_eq_some hrow
      have hid : row.id = id := by
        simpa using List.find?_some hrow
      rw [<- hid]
      exact List.mem_map.mpr ⟨row, hmem, rfl⟩
    · simpa using h.right
  · cases h

theorem save_fresh (hid : a.id = none) (h : a.save iter s = Except.ok (id, s')) :
    id = s.sequence + 1 ∧
      a.afterSave id iter (s.insertAction (a.toRow 0)).2 = Except.ok s' := by
  unfold StoredAction.save at h
  rw [hid] at h
  rcases bind_eq_ok h with ⟨mid, hmid, hok⟩
  cases hok
  exact ⟨rfl, hmid⟩

theorem save_existing {e : ActionId} (hid : a.id = some e) (hmem : e ∈ s.ids)
    (h : a.save iter s = Except.ok (id, s')) :
    id = e ∧ a.afterSave id iter
      (s.updateAction id (fun _ => a.toRow id)) = Except.ok s' := by
  have hfilter : a.id.filter s.contains = some e := by
    rw [hid]
    simp [Option.filter, Store.contains, hmem]
  unfold StoredAction.save at h
  rw [hfilter] at h
  rcases bind_eq_ok h with ⟨mid, hmid, hok⟩
  cases hok
  exact ⟨rfl, hmid⟩

/-- The state between `save` and the second pass over the dependency keys. -/
structure Submission.Saved (sub : Submission) (existing : Option ActionId)
    (s : Store) (id : ActionId) (stored : StoredAction) (s' : Store) :
    Prop where
  slot : sub.Slot existing s id s'
  locks : s'.locks = s.locks
  keys : forall k, k ∈ s'.keys ↔
    k ∈ s.keys ∧ sub.replacing existing s ≠ some k.actionId
  declared : forall y,
    (exists d, d ∈ stored.dependencies ∧ d.dependencyId = y) ↔
      sub.replacing existing s ≠ some y ∧
        exists d, d ∈ sub.metadata.dependencies ∧ d.dependencyId = y
  depends : forall x y, s'.Depends x y ↔ s.Depends x y ∨ (x = id ∧
    y ∈ s'.ids ∧ exists d, d ∈ stored.dependencies ∧ d.dependencyId = y)

theorem mem_dependencySet_stored
    (h : a.dependencyKeys = sub.stored.dependencyKeys) {y : ActionId} :
    (exists d, d ∈ a.dependencySet s ∧ d.dependencyId = y) ↔
      exists d, d ∈ a.dependencies ∧ d.dependencyId = y := by
  rw [mem_dependencySet, h]
  constructor
  · intro hy
    rcases hy with hy | ⟨k, _, _, hk⟩
    · exact hy
    · cases hk
  · intro hy
    exact Or.inl hy

theorem save_fresh_saved (hnone : sub.replacing existing s = none)
    (h : sub.stored.save sub.saveOrder s = Except.ok (id, s')) :
    sub.Saved existing s id { sub.stored with id := some id } s' := by
  rcases save_fresh rfl h with ⟨hid, hafter⟩
  have hlinked := afterSave_linked hafter
  have hslot : sub.Slot existing s id s' := by
    refine Submission.Slot.fresh hnone hid hlinked.left.sequence ?_
    rw [hlinked.left.actions, hid]
    rfl
  refine ⟨hslot, hlinked.left.locks, ?_, ?_, ?_⟩
  · intro k
    rw [hlinked.right rfl rfl, hnone]
    simp [Store.insertAction]
  · intro y
    rw [hnone]
    simp [Submission.stored, StoredAction.withoutState, StoredAction.newImpl]
  · intro x y
    rw [hlinked.left.depends, mem_dependencySet_stored rfl, hlinked.left.ids]
    exact Iff.rfl

theorem save_replaced_saved {e : ActionId}
    (hsome : sub.replacing existing s = some e) (hmem : e ∈ s.ids)
    (hfree : ExecutionGuard.hasExecutor e s = false) (hid : a.id = some e)
    (hrow : a.toRow = sub.stored.toRow)
    (hkeys : a.dependencyKeys = sub.stored.dependencyKeys)
    (hdeps : a.dependencies = sub.metadata.dependencies.filter
      (fun d => d.dependencyId ≠ e))
    (h : a.save sub.saveOrder (s.deleteKeysOf e) = Except.ok (id, s')) :
    sub.Saved existing s id a s' := by
  have hmem' : e ∈ (s.deleteKeysOf e).ids := hmem
  rcases save_existing hid hmem' h with ⟨heq, hafter⟩
  subst heq
  have hlinked := afterSave_linked hafter
  have hids : ((s.deleteKeysOf id).updateAction id
      (fun _ => a.toRow id)).ids = s.ids :=
    Store.map_setRow_ids _ _ _
  refine ⟨?_, hlinked.left.locks, ?_, ?_, ?_⟩
  · refine Submission.Slot.replaced hsome hmem hfree hlinked.left.sequence ?_
    rw [<- hrow]
    exact hlinked.left.actions
  · intro k
    have hrequired : a.dependencyKeys.required = [] := by
      rw [hkeys]
      rfl
    have hrecord : a.dependencyKeys.record = [] := by
      rw [hkeys]
      rfl
    rw [hlinked.right hrequired hrecord, hsome]
    simp only [Store.updateAction, Store.deleteKeysOf, List.mem_filter,
      decide_eq_true_eq, ne_eq, Option.some.injEq, @eq_comm _ k.actionId]
  · intro y
    rw [hsome, hdeps]
    simp only [List.mem_filter, decide_eq_true_eq, ne_eq, Option.some.injEq]
    constructor
    · intro hy
      rcases hy with ⟨d, ⟨hd, hne⟩, hdy⟩
      exact ⟨fun heq => hne (hdy.trans heq.symm), d, hd, hdy⟩
    · intro hy
      rcases hy with ⟨hne, d, hd, hdy⟩
      exact ⟨d, ⟨hd, fun heq => hne (heq.symm.trans hdy)⟩, hdy⟩
  · intro x y
    rw [hlinked.left.depends, mem_dependencySet_stored hkeys,
      hlinked.left.ids, hids]
    exact Iff.rfl

theorem place_saved {stored : StoredAction}
    (h : sub.place existing s = Except.ok (id, stored, s')) :
    sub.Saved existing s id stored s' := by
  cases existing with
  | none =>
      rcases bind_eq_ok h with ⟨⟨i, mid⟩, hmid, hok⟩
      cases hok
      exact save_fresh_saved rfl hmid
  | some e =>
      change sub.stored.createOrUpdate e sub.saveOrder s = _ at h
      unfold StoredAction.createOrUpdate at h
      split at h
      · rename_i hreplaces
        rcases bind_eq_ok h with ⟨⟨i, mid⟩, hmid, hok⟩
        cases hok
        have hspec := replaces_spec hreplaces
        have hsome : sub.replacing (some e) s = some e := by
          simp [Submission.replacing, Option.filter, hreplaces]
        exact save_replaced_saved hsome hspec.left hspec.right rfl rfl rfl rfl
          hmid
      · rename_i hreplaces
        rcases bind_eq_ok h with ⟨⟨i, mid⟩, hmid, hok⟩
        cases hok
        have hnone : sub.replacing (some e) s = none := by
          simp [Submission.replacing, Option.filter, hreplaces]
        exact save_fresh_saved hnone hmid

theorem liftStash_eq_ok {α : Type} {x : Except StashError α} {a : α}
    (h : liftStash x = Except.ok a) : x = Except.ok a := by
  cases x with
  | error e =>
      cases h
  | ok b =>
      cases h
      rfl

theorem prepareActionLocal_placed {stored : StoredAction}
    (h : prepareActionLocal sub existing s = Except.ok (id, stored, s')) :
    sub.Placed existing s id s' := by
  rcases bind_eq_ok h with ⟨⟨i, placed, s1⟩, hplace, hrest⟩
  have hsaved := place_saved (liftStash_eq_ok hplace)
  dsimp only at hrest
  split at hrest
  · cases hrest
  · rename_i applied happlied
    rcases bind_eq_ok hrest with ⟨s2, hkeys, hok⟩
    cases hok
    have hlinked := (updateDependencyKeys_linked (liftStash_eq_ok hkeys)).left
    have hids : s'.ids = s1.ids := hlinked.ids
    refine ⟨hsaved.slot.congr hlinked.sequence hlinked.actions,
      hlinked.locks.trans hsaved.locks, ?_⟩
    intro x y
    rw [hlinked.depends, mem_dependencySet]
    show (s1.Depends x y ∨ x = id ∧ y ∈ s1.ids ∧
      ((exists d, d ∈ placed.dependencies ∧ d.dependencyId = y) ∨
        exists k, k ∈ s1.keys ∧ k.actionId = y ∧
          k.keyId ∈ applied.dependencyKeys.optional ++
            applied.dependencyKeys.required)) ↔ _
    -- The second pass repeats the declared edges and adds those of the keys.
    have hresolved : (exists k, k ∈ s1.keys ∧ k.actionId = y ∧
        k.keyId ∈ applied.dependencyKeys.optional ++
          applied.dependencyKeys.required) ↔
        sub.replacing existing s ≠ some y ∧
          exists applied, sub.applyLocal = some applied ∧
            exists k, k ∈ s.keys ∧ k.actionId = y ∧
              k.keyId ∈ applied.dependencyKeys.optional ++
                applied.dependencyKeys.required := by
      constructor
      · intro hk
        rcases hk with ⟨k, hk, hky, hkey⟩
        have hk' := (hsaved.keys k).mp hk
        rw [hky] at hk'
        exact ⟨hk'.right, applied, happlied, k, hk'.left, hky, hkey⟩
      · intro hk
        rcases hk with ⟨hne, applied', happlied', k, hk, hky, hkey⟩
        rw [happlied] at happlied'
        cases happlied'
        refine ⟨k, (hsaved.keys k).mpr ⟨hk, ?_⟩, hky, hkey⟩
        rw [hky]
        exact hne
    rw [hsaved.depends, hsaved.declared, hresolved, hids, Submission.Targets]
    constructor
    · intro hxy
      rcases hxy with (hxy | ⟨hx, hy, hne, hd⟩) | ⟨hx, hy, hsource⟩
      · exact Or.inl hxy
      · exact Or.inr ⟨hx, hy, hne, Or.inl hd⟩
      · rcases hsource with ⟨hne, hd⟩ | ⟨hne, hk⟩
        · exact Or.inr ⟨hx, hy, hne, Or.inl hd⟩
        · exact Or.inr ⟨hx, hy, hne, Or.inr hk⟩
    · intro hxy
      rcases hxy with hxy | ⟨hx, hy, hne, hd | hk⟩
      · exact Or.inl (Or.inl hxy)
      · exact Or.inr ⟨hx, hy, Or.inl ⟨hne, hd⟩⟩
      · exact Or.inr ⟨hx, hy, Or.inr ⟨hne, hk⟩⟩

theorem executeActionLocal_placed {stored : StoredAction}
    (h : executeActionLocal sub existing s = Except.ok (id, stored, s')) :
    exists mid state, sub.Placed existing s id mid ∧
      rejectsCycle sub.popOrder mid id = false ∧
      s' = mid.updateActionState id state := by
  rcases bind_eq_ok h with ⟨⟨i, placed, mid⟩, hprepare, hrest⟩
  have hplaced := prepareActionLocal_placed hprepare
  dsimp only at hrest
  split at hrest
  · cases hrest
  · rename_i hcycle
    split at hrest
    · cases hrest
    · rename_i state hstate
      cases hrest
      exact ⟨mid, state, hplaced, by simpa using hcycle, rfl⟩

end ActionQueue
end MailClient
