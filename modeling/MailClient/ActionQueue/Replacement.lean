import MailClient.ActionQueue.Acyclicity
import MailClient.ActionQueue.DependencyTypes

/-!
# Replacing a stored action

`create_or_update` takes over the row of the action it replaces.  The row of
`action_queue` and the resources are written anew and the dependency keys of
the old version are deleted, but its dependency rows are only inserted or
updated: a row that the new version does not name stays in the table.
-/

namespace MailClient
namespace ActionQueue

open Foundation

/-!
# What a save leaves in the other tables
-/

variable {s s' : Store} {id e : ActionId} {sub : Submission}
  {stored : StoredAction}

theorem insertDependency_resources {row : DependencyRow}
    (h : s.insertDependency row = some s') : s'.resources = s.resources := by
  unfold Store.insertDependency at h
  split at h
  · split at h
    · cases h
      rfl
    · cases h
      rfl
  · cases h

theorem insertDependencies_resources {existing : List ActionId}
    {deps : List ActionDependency}
    (h : StoredAction.insertDependencies id existing deps s = Except.ok s') :
    s'.resources = s.resources := by
  induction deps generalizing s with
  | nil =>
      cases h
      rfl
  | cons dep rest ih =>
      unfold StoredAction.insertDependencies at h
      split at h
      · split at h
        · rename_i mid hmid
          rw [ih h, insertDependency_resources hmid]
        · cases h
      · exact ih h

theorem storeDependencyKeys_resources {keys : List ActionDependencyKey}
    (h : StoredAction.storeDependencyKeys id keys s = Except.ok s') :
    s'.resources = s.resources := by
  induction keys generalizing s with
  | nil =>
      cases h
      rfl
  | cons key rest ih =>
      unfold StoredAction.storeDependencyKeys at h
      split at h
      · rename_i mid hmid
        rw [ih h]
        unfold Store.insertKey at hmid
        split at hmid
        · cases hmid
          rfl
        · cases hmid
      · cases h

theorem updateDependencyKeys_resources {a : StoredAction}
    {iter : IterOrder ActionDependency}
    (h : a.updateDependencyKeys id iter s = Except.ok s') :
    s'.resources = s.resources := by
  rcases bind_eq_ok h with ⟨mid, hmid, hkeys⟩
  rw [storeDependencyKeys_resources hkeys, insertDependencies_resources hmid]

namespace Store

/-- `SELECT resource FROM action_queue_resources WHERE action_id = ?`. -/
def resourceOf (s : Store) (id : ActionId) : Option Resources :=
  (s.resources.find? (fun r => r.actionId = id)).map ResourceRow.resource

theorem replaceResource_resourceOf {row : ResourceRow}
    (h : s.replaceResource row = some s') :
    s'.resourceOf row.actionId = some row.resource := by
  unfold replaceResource at h
  split at h
  · cases h
    unfold resourceOf
    have hnone : (s.resources.filter
        (fun r => r.actionId ≠ row.actionId)).find?
        (fun r => r.actionId = row.actionId) = none := by
      rw [List.find?_eq_none]
      intro r hr
      have hne := (List.mem_filter.mp hr).right
      simpa using hne
    rw [List.find?_append, hnone]
    simp
  · cases h

theorem find_setRow {rows : List ActionRow} (f : ActionRow -> ActionRow)
    (h : id ∈ rows.map ActionRow.id) :
    exists row, row ∈ rows ∧
      (rows.map (setRow id f)).find? (fun a => a.id = id) =
        some { f row with id := id } := by
  induction rows with
  | nil => cases h
  | cons row rest ih =>
      rw [List.map_cons, List.find?_cons]
      by_cases hid : row.id = id
      · refine ⟨row, List.mem_cons_self, ?_⟩
        simp [setRow, hid]
      · have hrest : id ∈ rest.map ActionRow.id := by
          rcases List.mem_cons.mp h with heq | hmem
          · exact absurd heq.symm hid
          · exact hmem
        rcases ih hrest with ⟨found, hfound, hfind⟩
        refine ⟨found, List.mem_cons_of_mem row hfound, ?_⟩
        rw [hfind]
        simp [hid]

end Store

theorem afterSave_resourceOf {a : StoredAction}
    {iter : IterOrder ActionDependency}
    (h : a.afterSave id iter s = Except.ok s') :
    s'.resourceOf id = some a.resources := by
  rcases bind_eq_ok h with ⟨mid, _, hresource⟩
  split at hresource
  · rename_i last hlast
    cases hresource
    exact Store.replaceResource_resourceOf hlast
  · cases hresource

/-!
# The new version

`create_or_update` and the second pass over the dependency keys, when the
action `e` is replaced.
-/

/-- The new version names `d`, in its metadata or by a key that resolves to
it. -/
def Submission.Names (sub : Submission) (s : Store) (d : ActionDependency) :
    Prop :=
  d ∈ sub.metadata.dependencies ∨
    exists applied, sub.applyLocal = some applied ∧
      ((d.dependencyType = DependencyType.optional ∧
          d.dependencyId ∈
            s.resolveDependencyKeys applied.dependencyKeys.optional) ∨
        (d.dependencyType = DependencyType.required ∧
          d.dependencyId ∈
            s.resolveDependencyKeys applied.dependencyKeys.required))

/-- Loading `e` yields the new version and nothing of the old one. -/
structure Submission.Overwrites (sub : Submission) (e : ActionId)
    (s s' : Store) (loaded : StoredAction) : Prop where
  load : s'.load e = some loaded
  actionType : loaded.actionType = sub.stored.actionType
  version : loaded.version = sub.stored.version
  priority : loaded.priority = sub.stored.priority
  created : loaded.created = sub.stored.created
  scheduled : loaded.scheduled = sub.stored.scheduled
  actionGroup : loaded.actionGroup = sub.stored.actionGroup
  resources : loaded.resources = sub.stored.resources
  retries : loaded.retries = sub.stored.retries
  named : forall d, d ∈ loaded.dependencies -> sub.Names s d
  exactly : forall y,
    y ∈ loaded.dependencies.map ActionDependency.dependencyId ↔
      y ∈ s.ids ∧ y ≠ e ∧ exists d, sub.Names s d ∧ d.dependencyId = y

theorem replacing_eq (h : sub.stored.replaces e s = true) :
    sub.replacing (some e) s = some e := by
  simp [Submission.replacing, Option.filter, h]

theorem replaces_of_found {row : ActionRow} (hfind : s.find e = some row)
    (htype : row.actionType = sub.consts.type)
    (hfree : ExecutionGuard.hasExecutor e s = false) :
    sub.stored.replaces e s = true := by
  unfold StoredAction.replaces Store.load
  rw [hfind, hfree]
  simp [htype, Submission.stored, StoredAction.withoutState,
    StoredAction.newImpl]

theorem targets_iff {y : ActionId} (h : sub.stored.replaces e s = true) :
    sub.Targets (some e) s y ↔
      y ≠ e ∧ exists d, sub.Names s d ∧ d.dependencyId = y := by
  unfold Submission.Targets Submission.Names
  rw [replacing_eq h]
  simp only [ne_eq, Option.some.injEq, @eq_comm _ e y,
    mem_resolveDependencyKeys]
  apply and_congr_right
  intro _
  constructor
  · intro hy
    rcases hy with ⟨d, hd, hdy⟩ | ⟨applied, happlied, k, hk, hky, hkey⟩
    · exact ⟨d, Or.inl hd, hdy⟩
    · cases k with
      | mk key target =>
          subst hky
          rcases List.mem_append.mp hkey with hkey | hkey
          · exact ⟨ActionDependency.optional target,
              Or.inr ⟨applied, happlied, Or.inl ⟨rfl, key, hkey, hk⟩⟩, rfl⟩
          · exact ⟨ActionDependency.required target,
              Or.inr ⟨applied, happlied, Or.inr ⟨rfl, key, hkey, hk⟩⟩, rfl⟩
  · intro hy
    rcases hy with ⟨d, hd | ⟨applied, happlied, hd⟩, hdy⟩
    · exact Or.inl ⟨d, hd, hdy⟩
    · subst hdy
      rcases hd with ⟨_, key, hkey, hk⟩ | ⟨_, key, hkey, hk⟩
      · exact Or.inr ⟨applied, happlied, _, hk, rfl,
          List.mem_append_left _ hkey⟩
      · exact Or.inr ⟨applied, happlied, _, hk, rfl,
          List.mem_append_right _ hkey⟩

theorem prepareActionLocal_passes (hreplaces : sub.stored.replaces e s = true)
    (h : prepareActionLocal sub (some e) s = Except.ok (id, stored, s')) :
    id = e ∧ exists applied mid,
      sub.applyLocal = some applied ∧
      sub.Saved (some e) s e stored mid ∧
      mid.resourceOf e = some sub.stored.resources ∧
      stored.dependencyKeys = applied.dependencyKeys ∧
      stored.dependencies = sub.metadata.dependencies.filter
        (fun d => d.dependencyId ≠ e) ∧
      stored.updateDependencyKeys e sub.keyOrder
        (mid.call (HandlerCall.applyLocal e)) = Except.ok s' := by
  rcases bind_eq_ok h with ⟨⟨i, placed, mid⟩, hplace, hrest⟩
  have hplaced := liftStash_eq_ok hplace
  have hsaved := place_saved hplaced
  change sub.stored.createOrUpdate e sub.saveOrder s = _ at hplaced
  unfold StoredAction.createOrUpdate at hplaced
  rw [if_pos hreplaces] at hplaced
  rcases bind_eq_ok hplaced with ⟨⟨j, saved⟩, hsave, hok⟩
  cases hok
  have hmem : e ∈ (s.deleteKeysOf e).ids := (replaces_spec hreplaces).left
  rcases save_existing rfl hmem hsave with ⟨heq, hafter⟩
  subst heq
  have hresource := afterSave_resourceOf hafter
  dsimp only at hrest
  split at hrest
  · cases hrest
  · rename_i applied happlied
    rcases bind_eq_ok hrest with ⟨last, hkeys, hok⟩
    cases hok
    exact ⟨rfl, applied, mid, happlied,
      ⟨hsaved.slot, hsaved.locks, hsaved.keys, hsaved.declared,
        hsaved.depends⟩,
      hresource, rfl, rfl, liftStash_eq_ok hkeys⟩

theorem load_replaced (hreplaces : sub.stored.replaces e s = true)
    (hslot : sub.Slot (some e) s e s')
    (hresource : s'.resourceOf e = some sub.stored.resources) :
    s'.load e = some { sub.stored with
      id := some e
      dependencies := s'.allDependencies e } := by
  cases hslot with
  | fresh hnone _ _ _ =>
      rw [replacing_eq hreplaces] at hnone
      cases hnone
  | replaced _ hmem _ _ hactions =>
      rcases Store.find_setRow (fun _ => sub.stored.toRow e) hmem with
        ⟨row, _, hfind⟩
      rw [<- hactions] at hfind
      unfold Store.load Store.find
      rw [hfind]
      have hresources : ((s'.resources.find? (fun r => r.actionId = e)).map
          ResourceRow.resource).getD [] = sub.stored.resources := by
        rw [show (s'.resources.find? (fun r => r.actionId = e)).map
          ResourceRow.resource = some sub.stored.resources from hresource]
        rfl
      simp only [Option.map_some, StoredAction.toRow, hresources]
      rfl

theorem mem_allDependencies_iff {x : ActionId} {d : ActionDependency} :
    d ∈ s.allDependencies x ↔
      s.dependencyType x d.dependencyId = some d.dependencyType := by
  rw [Store.dependencyType_eq_some]
  unfold Store.allDependencies
  rw [List.mem_map]
  constructor
  · intro h
    rcases h with ⟨row, hrow, heq⟩
    rcases List.mem_filter.mp hrow with ⟨hmem, hx⟩
    cases heq
    rw [<- of_decide_eq_true hx]
    exact hmem
  · intro h
    exact ⟨_, List.mem_filter.mpr ⟨h, decide_eq_true rfl⟩, rfl⟩

/-- An entry of the dependency set of the second pass is one the new version
names. -/
theorem names_of_mem_dependencySet {mid : Store} {applied : Applied}
    (happlied : sub.applyLocal = some applied)
    (hsaved : sub.Saved (some e) s e stored mid)
    (hkeys : stored.dependencyKeys = applied.dependencyKeys)
    (hdeps : stored.dependencies = sub.metadata.dependencies.filter
      (fun d => d.dependencyId ≠ e)) {c : HandlerCall} {d : ActionDependency}
    (h : d ∈ stored.dependencySet (mid.call c)) : sub.Names s d := by
  have hresolved : forall {keys : List ActionDependencyKey} {y : ActionId},
      y ∈ (mid.call c).resolveDependencyKeys keys ->
        y ∈ s.resolveDependencyKeys keys := by
    intro keys y hy
    rcases mem_resolveDependencyKeys.mp hy with ⟨key, hkey, hrow⟩
    exact mem_resolveDependencyKeys.mpr
      ⟨key, hkey, ((hsaved.keys _).mp hrow).left⟩
  unfold StoredAction.dependencySet at h
  rw [List.mem_dedup, List.mem_append, List.mem_append, hkeys, hdeps] at h
  rcases h with (hd | hd) | hd
  · exact Or.inl (List.mem_of_mem_filter hd)
  · rcases List.mem_map.mp hd with ⟨y, hy, heq⟩
    subst heq
    exact Or.inr ⟨applied, happlied, Or.inl ⟨rfl, hresolved hy⟩⟩
  · rcases List.mem_map.mp hd with ⟨y, hy, heq⟩
    subst heq
    exact Or.inr ⟨applied, happlied, Or.inr ⟨rfl, hresolved hy⟩⟩

theorem updateDependencyKeys_typed {a : StoredAction} {y : ActionId}
    {iter : IterOrder ActionDependency}
    (h : a.updateDependencyKeys id iter s = Except.ok s') (hy : y ∈ s.ids)
    (hset : exists d, d ∈ a.dependencySet s ∧ d.dependencyId = y) :
    exists d, d ∈ a.dependencySet s ∧ d.dependencyId = y ∧
      s'.dependencyType id y = some d.dependencyType := by
  rcases bind_eq_ok h with ⟨mid, hmid, hkeys⟩
  have horder : exists d, d ∈ iter.order (a.dependencySet s) ∧
      d.dependencyId = y := by
    rcases hset with ⟨d, hd, hdy⟩
    exact ⟨d, (iter.perm _).mem_iff.mpr hd, hdy⟩
  have hlast : exists d, d ∈ iter.order (a.dependencySet s) ∧
      d.dependencyId = y ∧
      writeAll ActionDependency.dependencyId
        (fun d => some d.dependencyType) (s.dependencyType id)
        (iter.order (a.dependencySet s)) y = some d.dependencyType :=
    exists_writeAll horder (s.dependencyType id)
  rcases hlast with ⟨d, hd, hdy, hwritten⟩
  refine ⟨d, (iter.perm _).mem_iff.mp hd, hdy, ?_⟩
  rw [<- hwritten, <- insertDependencies_dependencyType hmid hy]
  unfold Store.dependencyType
  rw [storeDependencyKeys_dependencies hkeys]

theorem mem_dependencySet_of_targets {y : ActionId} {mid : Store}
    {applied : Applied} (happlied : sub.applyLocal = some applied)
    (hsaved : sub.Saved (some e) s e stored mid)
    (hkeys : stored.dependencyKeys = applied.dependencyKeys) (c : HandlerCall)
    (h : sub.Targets (some e) s y) :
    exists d, d ∈ stored.dependencySet (mid.call c) ∧ d.dependencyId = y := by
  rw [mem_dependencySet]
  rcases h with ⟨hne, hdeclared | ⟨applied', happlied', k, hk, hky, hkey⟩⟩
  · exact Or.inl ((hsaved.declared y).mpr ⟨hne, hdeclared⟩)
  · rw [happlied] at happlied'
    cases happlied'
    rw [hkeys]
    refine Or.inr ⟨k, (hsaved.keys k).mpr ⟨hk, ?_⟩, hky, hkey⟩
    rw [hky]
    exact hne

theorem load_prepared (hreplaces : sub.stored.replaces e s = true)
    (h : prepareActionLocal sub (some e) s = Except.ok (id, stored, s')) :
    s'.load e = some { sub.stored with
      id := some e
      dependencies := s'.allDependencies e } := by
  have hplaced := prepareActionLocal_placed h
  rcases prepareActionLocal_passes hreplaces h with
    ⟨hid, _, mid, _, _, hresource, _, _, hpass⟩
  subst hid
  apply load_replaced hreplaces hplaced.slot
  rw [<- hresource]
  unfold Store.resourceOf
  rw [updateDependencyKeys_resources hpass]
  rfl

theorem depends_prepared (hreplaces : sub.stored.replaces e s = true)
    (h : prepareActionLocal sub (some e) s = Except.ok (id, stored, s'))
    (y : ActionId) :
    s'.Depends e y ↔ s.Depends e y ∨
      (y ∈ s.ids ∧ y ≠ e ∧ exists d, sub.Names s d ∧ d.dependencyId = y) := by
  have hplaced := prepareActionLocal_placed h
  rcases prepareActionLocal_passes hreplaces h with ⟨hid, _⟩
  subst hid
  have hmem : y ∈ s'.ids ↔ y ∈ s.ids := by
    rw [hplaced.slot.mem_ids]
    constructor
    · intro hy
      rcases hy with hy | hy
      · exact hy
      · rw [hy]
        exact (replaces_spec hreplaces).left
    · exact Or.inl
  rw [hplaced.depends, hmem, targets_iff hreplaces]
  simp

theorem named_prepared (hreplaces : sub.stored.replaces e s = true)
    (h : prepareActionLocal sub (some e) s = Except.ok (id, stored, s'))
    {d : ActionDependency} (hd : d ∈ s'.allDependencies e)
    (hmem : d.dependencyId ∈ s.ids)
    (htarget : sub.Targets (some e) s d.dependencyId) : sub.Names s d := by
  rcases prepareActionLocal_passes hreplaces h with
    ⟨hid, applied, mid, happlied, hsaved, _, hkeys, hdeps, hpass⟩
  subst hid
  have hset := mem_dependencySet_of_targets happlied hsaved hkeys
    (HandlerCall.applyLocal id) htarget
  have hmid : d.dependencyId ∈ (mid.call (HandlerCall.applyLocal id)).ids :=
    hsaved.slot.mem_ids.mpr (Or.inl hmem)
  rcases updateDependencyKeys_typed hpass hmid hset with ⟨d', hd', hdy, htyped⟩
  have hsame : d' = d := by
    have hrow := mem_allDependencies_iff.mp hd
    rw [htyped] at hrow
    cases d
    cases d'
    cases hdy
    cases hrow
    rfl
  rw [<- hsame]
  exact names_of_mem_dependencySet happlied hsaved hkeys hdeps hd'

/-- Every action that the replaced version waits for is named again. -/
def Submission.Renames (sub : Submission) (e : ActionId) (s : Store) : Prop :=
  forall y, s.Depends e y -> exists d, sub.Names s d ∧ d.dependencyId = y

/--
A replacement of `e` overwrites it exactly when the new version names every
dependency of the old one.
-/
theorem replacement_overwrites_iff {s : Store} (hreach : QueueRuns.Reachable s)
    (sub : Submission) (e : ActionId) {row : ActionRow}
    (hfind : s.find e = some row) (htype : row.actionType = sub.consts.type)
    (hfree : ExecutionGuard.hasExecutor e s = false) {id : ActionId}
    {stored : StoredAction} {s' : Store}
    (h : prepareActionLocal sub (some e) s = Except.ok (id, stored, s')) :
    (id = e ∧ exists loaded, sub.Overwrites e s s' loaded) ↔
      sub.Renames e s := by
  have hreplaces := replaces_of_found hfind htype hfree
  have hload := load_prepared hreplaces h
  have hedges := depends_prepared hreplaces h
  constructor
  · intro hover y hy
    rcases hover.right with ⟨loaded, hloaded⟩
    have hsame := hloaded.load
    rw [hload] at hsame
    cases hsame
    have hmem := Store.mem_allDependencies.mpr ((hedges y).mpr (Or.inl hy))
    exact ((hloaded.exactly y).mp hmem).right.right
  · intro hrenames
    -- Every old dependency is a new one, and none of them is `e` itself
    -- because the dependencies of a reachable queue are acyclic.
    have hnew : forall y, s'.Depends e y ↔
        y ∈ s.ids ∧ y ≠ e ∧ exists d, sub.Names s d ∧ d.dependencyId = y := by
      intro y
      rw [hedges]
      constructor
      · intro hy
        rcases hy with hy | hy
        · refine ⟨hy.right_mem, ?_, hrenames y hy⟩
          intro heq
          rw [heq] at hy
          exact reachable_acyclic hreach e (Relation.TransGen.single hy)
        · exact hy
      · exact Or.inr
    refine ⟨(prepareActionLocal_passes hreplaces h).left, _, hload,
      rfl, rfl, rfl, rfl, rfl, rfl, rfl, rfl, ?_, ?_⟩
    · intro d hd
      have hdep := (hnew d.dependencyId).mp
        (Store.mem_allDependencies.mp (List.mem_map_of_mem hd))
      exact named_prepared hreplaces h hd hdep.left
        ((targets_iff hreplaces).mpr hdep.right)
    · intro y
      rw [<- hnew]
      exact Store.mem_allDependencies

/-- The second action of `chain` submitted again with the same dependency. -/
def repeated : Submission :=
  plainSubmission 3 [ActionDependency.required 1] {}

theorem repeated_overwrites :
    exists s id stored s', runAll Store.empty chain = some s ∧
      s.Depends 2 1 ∧
      prepareActionLocal repeated (some 2) s = Except.ok (id, stored, s') ∧
      id = 2 ∧ exists loaded, repeated.Overwrites 2 s s' loaded := by
  have hrun : runAll Store.empty chain = some _ := rfl
  refine ⟨_, _, _, _, hrun, ?_, rfl, ?_⟩
  · unfold Store.Depends
    decide
  · rw [replacement_overwrites_iff (runAll_reachable hrun) repeated 2 rfl rfl
      rfl rfl]
    intro y hy
    rcases Store.depends_iff.mp hy with ⟨d, hd, _, hdy⟩
    rcases List.mem_singleton.mp hd with heq
    subst heq
    exact ⟨ActionDependency.required 1, Or.inl List.mem_cons_self, hdy⟩

/-- The second action of `chain` submitted again, now with no dependency. -/
def independent : Submission :=
  plainSubmission 3 [] {}

theorem independent_keeps_dependency :
    exists s id stored s', runAll Store.empty chain = some s ∧
      prepareActionLocal independent (some 2) s =
        Except.ok (id, stored, s') ∧
      id = 2 ∧
      (s'.load 2).map StoredAction.dependencies =
        some [ActionDependency.required 1] ∧
      (forall d, ¬ independent.Names s d) ∧
      ¬ exists loaded, independent.Overwrites 2 s s' loaded := by
  have hnone : forall (s : Store) d, ¬ independent.Names s d := by
    intro s d hd
    rcases hd with hd | ⟨applied, happlied, hd⟩
    · cases hd
    · cases happlied
      rcases hd with ⟨_, hd⟩ | ⟨_, hd⟩
      · rcases mem_resolveDependencyKeys.mp hd with ⟨_, hkey, _⟩
        cases hkey
      · rcases mem_resolveDependencyKeys.mp hd with ⟨_, hkey, _⟩
        cases hkey
  refine ⟨_, _, _, _, rfl, rfl, rfl, rfl, hnone _, ?_⟩
  intro hover
  rcases hover with ⟨loaded, hloaded⟩
  have hload := hloaded.load
  cases hload
  exact hnone _ _ (hloaded.named (ActionDependency.required 1)
    List.mem_cons_self)

end ActionQueue
end MailClient
