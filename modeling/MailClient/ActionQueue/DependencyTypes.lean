import MailClient.Foundation.Writes
import MailClient.ActionQueue.Transactions

/-!
# Types of stored dependencies

An action can name one dependency both as required and as optional, by its
metadata and by its dependency keys.  `update_dependency_keys_sync` collects
both in a hash set and writes them to the same row, so the type that is stored
is the one the set hands out last.
-/

namespace MailClient
namespace ActionQueue

open Foundation

namespace Store

/-- The type of the row that makes `x` depend on `y`. -/
def dependencyType (s : Store) (x y : ActionId) : Option DependencyType :=
  (s.dependencies.find? (fun d => d.key = (x, y))).map
    DependencyRow.dependencyType

theorem dependencyType_eq_some {s : Store} {x y : ActionId}
    {type : DependencyType} :
    s.dependencyType x y = some type ↔
      { actionId := x, dependencyId := y, dependencyType := type } ∈
        s.dependencies := by
  unfold dependencyType
  rw [Option.map_eq_some_iff]
  constructor
  · intro h
    rcases h with ⟨d, hfind, htype⟩
    have hkey := List.find?_some hfind
    have hmem := List.mem_of_find?_eq_some hfind
    simp only [DependencyRow.key, Prod.mk.injEq, decide_eq_true_eq] at hkey
    rw [<- hkey.left, <- hkey.right, <- htype]
    exact hmem
  · intro h
    rcases hfind : s.dependencies.find? (fun d => d.key = (x, y)) with _ | d
    · have hnone := List.find?_eq_none.mp hfind _ h
      simp [DependencyRow.key] at hnone
    · refine ⟨d, hfind, ?_⟩
      have hkey : d.key = (x, y) := by simpa using List.find?_some hfind
      have heq := List.inj_on_of_nodup_map s.dependency_key
        (List.mem_of_find?_eq_some hfind) h hkey
      rw [heq]

theorem retyped_eq {d row : DependencyRow} (h : d.key = row.key) :
    { d with dependencyType := row.dependencyType } = row := by
  cases d
  cases row
  simpa [DependencyRow.key] using h

theorem mem_insertDependency {s s' : Store} {row d : DependencyRow}
    (h : s.insertDependency row = some s') :
    d ∈ s'.dependencies ↔
      d = row ∨ (d ∈ s.dependencies ∧ d.key ≠ row.key) := by
  unfold insertDependency at h
  split at h
  · split at h
    · rename_i hkey
      cases h
      show d ∈ s.dependencies.map (setDependency row) ↔ _
      rw [List.mem_map]
      constructor
      · intro hd
        rcases hd with ⟨old, hold, heq⟩
        unfold setDependency at heq
        split at heq
        · rename_i hsame
          exact Or.inl (heq.symm.trans (retyped_eq hsame))
        · rename_i hother
          rw [<- heq]
          exact Or.inr ⟨hold, hother⟩
      · intro hd
        rcases hd with heq | ⟨hmem, hother⟩
        · rcases List.mem_map.mp hkey with ⟨old, hold, hsame⟩
          refine ⟨old, hold, ?_⟩
          rw [setDependency, if_pos hsame, heq]
          exact retyped_eq hsame
        · exact ⟨d, hmem, if_neg hother⟩
    · rename_i hkey
      cases h
      show d ∈ s.dependencies ++ [row] ↔ _
      rw [List.mem_append, List.mem_singleton]
      constructor
      · intro hd
        rcases hd with hmem | heq
        · refine Or.inr ⟨hmem, ?_⟩
          intro hsame
          exact hkey (hsame ▸ List.mem_map_of_mem hmem)
        · exact Or.inl heq
      · intro hd
        rcases hd with heq | ⟨hmem, _⟩
        · exact Or.inr heq
        · exact Or.inl hmem
  · cases h

theorem insertDependency_dependencyType {s s' : Store} {row : DependencyRow}
    (h : s.insertDependency row = some s') :
    s'.dependencyType row.actionId =
      Function.update (s.dependencyType row.actionId) row.dependencyId
        (some row.dependencyType) := by
  funext y
  apply Option.ext
  intro type
  rw [dependencyType_eq_some, mem_insertDependency h]
  cases row with
  | mk x y' type' =>
      by_cases hy : y = y'
      · subst hy
        simp [DependencyRow.key, eq_comm]
      · rw [Function.update_of_ne hy, dependencyType_eq_some]
        simp [DependencyRow.key, hy]

end Store

/-!
# Writing the dependency set
-/

theorem insertDependencies_dependencyType {id : ActionId}
    {existing : List ActionId} {deps : List ActionDependency} {s s' : Store}
    (h : StoredAction.insertDependencies id existing deps s = Except.ok s')
    {y : ActionId} (hy : y ∈ existing) :
    s'.dependencyType id y =
      writeAll ActionDependency.dependencyId
        (fun d => some d.dependencyType) (s.dependencyType id) deps y := by
  induction deps generalizing s with
  | nil =>
      cases h
      rfl
  | cons dep rest ih =>
      unfold StoredAction.insertDependencies at h
      split at h
      · split at h
        · rename_i mid hmid
          rw [ih h, Store.insertDependency_dependencyType hmid, writeAll_cons]
        · cases h
      · rename_i hnot
        have hne : dep.dependencyId ≠ y := fun heq => hnot (heq ▸ hy)
        rw [ih h, writeAll_cons]
        exact writeAll_congr (Function.update_of_ne hne.symm _ _).symm

theorem storeDependencyKeys_dependencies {id : ActionId}
    {keys : List ActionDependencyKey} {s s' : Store}
    (h : StoredAction.storeDependencyKeys id keys s = Except.ok s') :
    s'.dependencies = s.dependencies := by
  induction keys generalizing s with
  | nil =>
      cases h
      rfl
  | cons key rest ih =>
      unfold StoredAction.storeDependencyKeys at h
      split at h
      · rename_i mid hmid
        rw [ih h]
        unfold Store.insertKey at hmid
        split at hmid
        · cases hmid
          rfl
        · cases hmid
      · cases h

/-!
# Required and optional sources
-/

/-- The metadata or one of the required keys names `d` as required. -/
def StoredAction.RequiredSource (self : StoredAction) (s : Store)
    (d : ActionId) : Prop :=
  ActionDependency.required d ∈ self.dependencies ∨
    exists key, key ∈ self.dependencyKeys.required ∧
      { keyId := key, actionId := d } ∈ s.keys

theorem mem_resolveDependencyKeys {s : Store}
    {keys : List ActionDependencyKey} {d : ActionId} :
    d ∈ s.resolveDependencyKeys keys ↔
      exists key, key ∈ keys ∧ { keyId := key, actionId := d } ∈ s.keys := by
  unfold Store.resolveDependencyKeys
  rw [List.mem_dedup, List.mem_map]
  constructor
  · intro h
    rcases h with ⟨row, hrow, hd⟩
    rcases List.mem_filter.mp hrow with ⟨hmem, hkey⟩
    refine ⟨row.keyId, of_decide_eq_true hkey, ?_⟩
    rw [<- hd]
    exact hmem
  · intro h
    rcases h with ⟨key, hkey, hmem⟩
    exact ⟨_, List.mem_filter.mpr ⟨hmem, decide_eq_true hkey⟩, rfl⟩

theorem required_mem_dependencySet {self : StoredAction} {s : Store}
    {d : ActionId} :
    ActionDependency.required d ∈ self.dependencySet s ↔
      self.RequiredSource s d := by
  unfold StoredAction.dependencySet StoredAction.RequiredSource
  rw [<- mem_resolveDependencyKeys]
  simp [ActionDependency.required, ActionDependency.optional]

theorem eq_required_or_optional (dep : ActionDependency) :
    dep = ActionDependency.required dep.dependencyId ∨
      dep = ActionDependency.optional dep.dependencyId := by
  cases dep with
  | mk d type =>
      cases type with
      | required => exact Or.inl rfl
      | optional => exact Or.inr rfl

theorem pair_sublist_iff {α : Type} {a b : α} {before rest : List α}
    (h : a ∉ before) :
    [a, b].Sublist (before ++ a :: rest) ↔ b ∈ rest := by
  induction before with
  | nil => rw [List.nil_append, List.cons_sublist_cons, List.singleton_sublist]
  | cons x xs ih =>
      rw [List.mem_cons, not_or] at h
      rw [<- ih h.right, List.cons_append]
      constructor
      · intro hsub
        cases hsub with
        | cons _ hsub => exact hsub
        | cons_cons _ _ => exact absurd rfl h.left
      · intro hsub
        exact hsub.cons x

theorem written_eq (deps : List ActionDependency) (dep : ActionDependency)
    {rest : List ActionDependency}
    (hrequired : ActionDependency.required dep.dependencyId ∉ rest)
    (hoptional : ActionDependency.optional dep.dependencyId ∉ rest)
    (table : ActionId -> Option DependencyType) :
    writeAll ActionDependency.dependencyId (fun e => some e.dependencyType)
        table (deps ++ dep :: rest) dep.dependencyId =
      some dep.dependencyType := by
  refine writeAll_of_last ?_ table
  intro e he hd
  rcases eq_required_or_optional e with heq | heq
  · rw [hd] at heq
    exact hrequired (heq ▸ he)
  · rw [hd] at heq
    exact hoptional (heq ▸ he)

theorem written_required_iff {deps : List ActionDependency}
    (hnodup : deps.Nodup) {d : ActionId}
    (hmem : ActionDependency.required d ∈ deps)
    (table : ActionId -> Option DependencyType) :
    writeAll ActionDependency.dependencyId (fun e => some e.dependencyType)
        table deps d = some DependencyType.required ↔
      ¬ [ActionDependency.required d, ActionDependency.optional d].Sublist
        deps := by
  rcases List.append_of_mem hmem with ⟨before, rest, hdeps⟩
  subst hdeps
  rw [List.nodup_middle, List.nodup_cons, List.mem_append, not_or] at hnodup
  rcases hnodup with ⟨⟨hbefore, hrest⟩, hothers⟩
  rw [pair_sublist_iff hbefore]
  by_cases hoptional : ActionDependency.optional d ∈ rest
  · rcases List.append_of_mem hoptional with ⟨middle, last, heq⟩
    subst heq
    have hlast : ActionDependency.optional d ∉ last := by
      have htail := (List.nodup_append.mp hothers).right.left
      rw [List.nodup_middle, List.nodup_cons] at htail
      exact fun h => htail.left (List.mem_append_right _ h)
    have hwritten := written_eq
      (before ++ ActionDependency.required d :: middle)
      (ActionDependency.optional d)
      (fun h => hrest (List.mem_append_right _ (List.mem_cons_of_mem _ h)))
      hlast table
    rw [List.append_assoc, List.cons_append] at hwritten
    constructor
    · intro h
      cases hwritten.symm.trans h
    · intro h
      exact absurd hoptional h
  · constructor
    · intro _
      exact hoptional
    · intro _
      exact written_eq before (ActionDependency.required d) hrest hoptional
        table

/-- Every existing action with a required source is stored as required. -/
def StoredAction.RequiredWins (self : StoredAction) (id : ActionId)
    (s s' : Store) : Prop :=
  forall d, d ∈ s.ids -> self.RequiredSource s d ->
    { actionId := id, dependencyId := d,
      dependencyType := DependencyType.required } ∈ s'.dependencies

theorem required_wins_iff (self : StoredAction) (id : ActionId)
    (iter : IterOrder ActionDependency) (s s' : Store)
    (h : self.updateDependencyKeys id iter s = Except.ok s') :
    self.RequiredWins id s s' ↔
      forall d, d ∈ s.ids ->
        ¬ [ActionDependency.required d, ActionDependency.optional d].Sublist
          (iter.order (self.dependencySet s)) := by
  rcases bind_eq_ok h with ⟨mid, hmid, hkeys⟩
  have hrow : forall d, d ∈ s.ids -> self.RequiredSource s d ->
      ({ actionId := id, dependencyId := d,
         dependencyType := DependencyType.required } ∈ s'.dependencies ↔
        ¬ [ActionDependency.required d, ActionDependency.optional d].Sublist
          (iter.order (self.dependencySet s))) := by
    intro d hd hsource
    rw [storeDependencyKeys_dependencies hkeys, <- Store.dependencyType_eq_some,
      insertDependencies_dependencyType hmid hd]
    apply written_required_iff
    · exact (iter.perm _).nodup_iff.mpr (List.nodup_dedup _)
    · exact (iter.perm _).mem_iff.mpr (required_mem_dependencySet.mpr hsource)
  constructor
  · intro hwins d hd hsub
    have hsource : self.RequiredSource s d :=
      required_mem_dependencySet.mp
        ((iter.perm _).mem_iff.mp (hsub.subset List.mem_cons_self))
    exact (hrow d hd hsource).mp (hwins d hd hsource) hsub
  · intro horder d hd hsource
    exact (hrow d hd hsource).mpr (horder d hd)

/-- The first action records a key, the second one is optional after it. -/
def contestedQueue : List Transaction :=
  [Transaction.queueAction (plainSubmission 1 [] { record := ["draft"] }),
    Transaction.queueAction
      (plainSubmission 2 [ActionDependency.optional 1] {})]

/-- The second action once `apply_local` has named the key as required. -/
def contested : StoredAction :=
  { StoredAction.withoutState { type := "plain", version := 1 }
      { required := ["draft"] }
      { created := 2, dependencies := [ActionDependency.optional 1] } with
    id := some 2 }

def IterOrder.reversed (α : Type) : IterOrder α where
  order := List.reverse
  perm := List.reverse_perm

theorem contested_required_last :
    exists s s', runAll Store.empty contestedQueue = some s ∧
      contested.updateDependencyKeys 2 (IterOrder.identity _) s =
        Except.ok s' ∧
      contested.RequiredSource s 1 ∧ contested.RequiredWins 2 s s' := by
  refine ⟨_, _, rfl, rfl, ?_, ?_⟩
  · exact Or.inr ⟨"draft", by decide, by decide⟩
  · rw [required_wins_iff contested 2 (IterOrder.identity _) _ _ rfl]
    decide

theorem contested_optional_last :
    exists s s', runAll Store.empty contestedQueue = some s ∧
      contested.updateDependencyKeys 2 (IterOrder.reversed _) s =
        Except.ok s' ∧
      1 ∈ s.ids ∧ contested.RequiredSource s 1 ∧
      s'.dependencies =
        [{ actionId := 2, dependencyId := 1,
           dependencyType := DependencyType.optional }] ∧
      ¬ contested.RequiredWins 2 s s' := by
  refine ⟨_, _, rfl, rfl, by decide, ?_, rfl, ?_⟩
  · exact Or.inr ⟨"draft", by decide, by decide⟩
  · intro hwins
    have hrow := hwins 1 (by decide) (Or.inr ⟨"draft", by decide, by decide⟩)
    revert hrow
    decide

end ActionQueue
end MailClient
