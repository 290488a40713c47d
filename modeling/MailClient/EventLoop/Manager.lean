import MailClient.Foundation.TopologicalSort
import MailClient.Foundation.Transition

/-!
# The order of event sources

Sources are polled after the sources they depend on.  The order is rebuilt
whenever a source is added or removed, and a source that closes a cycle is
meant to be rejected.
-/

namespace MailClient
namespace EventLoop

open Foundation Foundation.TransitionSystem
open Relation (TransGen ReflTransGen)

abbrev TypeId := Nat

/-- What the order depends on of `EventSourceData`. -/
structure EventSourceData where
  id : TypeId
  dependencies : List TypeId
  deriving DecidableEq, Repr

structure EventManager where
  sources : List EventSourceData
  execOrder : List TypeId
  deriving DecidableEq, Repr

inductive AddError where
  | duplicateEventSource
  | cyclicDependency
  deriving DecidableEq, Repr

/-!
# The sorter
-/

def addSource (sorter : TopologicalSort TypeId) (source : EventSourceData) :
    TopologicalSort TypeId :=
  source.dependencies.foldl
    (fun sorter id => sorter.addDependency id source.id)
    (sorter.insert source.id)

def sorterOf (sources : List EventSourceData) : TopologicalSort TypeId :=
  sources.foldl addSource (TopologicalSort.empty TypeId)

/-- Only the first pop tells a cycle. -/
def executionOrder (order : PopOrder TypeId)
    (sorter : TopologicalSort TypeId) : Option (List TypeId) :=
  match sorter.pop order with
  | some (id, rest) => some (id :: rest.popAll order)
  | none => if sorter.isEmpty then some [] else none

namespace EventManager

def empty : EventManager where
  sources := []
  execOrder := []

def isRegistered (s : EventManager) (id : TypeId) : Bool :=
  s.sources.any (fun source => source.id = id)

/-- The order is cleared first, and stays so if there is a cycle. -/
def rebuildExecutionOrder (order : PopOrder TypeId) (s : EventManager) :
    EventManager × Except AddError Unit :=
  match executionOrder order (sorterOf s.sources) with
  | some execOrder => ({ s with execOrder := execOrder }, Except.ok ())
  | none =>
      ({ s with execOrder := [] }, Except.error AddError.cyclicDependency)

/-- None if it panics, because the order is expected to be rebuilt. -/
def remove (id : TypeId) (order : PopOrder TypeId) (s : EventManager) :
    Option EventManager :=
  match ({ s with
      sources := s.sources.filter (fun source => source.id ≠ id) } :
        EventManager).rebuildExecutionOrder order with
  | (s', Except.ok ()) => some s'
  | (_, Except.error _) => none

/-- Each time the order is rebuilt, the sorter can pop in another order. -/
def add (source : EventSourceData) (first second : PopOrder TypeId)
    (s : EventManager) : Option (EventManager × Except AddError Unit) :=
  if s.isRegistered source.id then
    some (s, Except.error AddError.duplicateEventSource)
  else
    match ({ s with sources := s.sources ++ [source] } :
        EventManager).rebuildExecutionOrder first with
    | (s', Except.error AddError.cyclicDependency) =>
        (s'.remove source.id second).map (fun s'' =>
          (s'', Except.error AddError.cyclicDependency))
    | (s', r) => some (s', r)

end EventManager

inductive ManagerCall where
  | add (source : EventSourceData) (first second : PopOrder TypeId)
  | remove (id : TypeId) (order : PopOrder TypeId)

/-- The manager after a call that has not panicked. -/
def EventManager.next (s : EventManager) : ManagerCall -> Option EventManager
  | ManagerCall.add source first second => (s.add source first second).map Prod.fst
  | ManagerCall.remove id order => s.remove id order

def managing : TransitionSystem EventManager ManagerCall where
  init s := s = EventManager.empty
  step s call s' := s.next call = some s'

/-!
# What the sorter holds
-/

/-- A source depends on another id, registered or not. -/
def DependsOn (sources : List EventSourceData) (source dependency : TypeId) :
    Prop :=
  exists data, data ∈ sources ∧ data.id = source ∧
    dependency ∈ data.dependencies

structure Holds (sources : List EventSourceData)
    (sorter : TopologicalSort TypeId) : Prop where
  closed : sorter.Closed
  edges : forall x y, sorter.Edge x y ↔ DependsOn sources y x
  nodes : forall x, x ∈ sorter.nodes ↔
    x ∈ sources.map EventSourceData.id ∨ exists y, DependsOn sources y x

theorem holds_nil : Holds [] (TopologicalSort.empty TypeId) := by
  refine ⟨TopologicalSort.closed_empty, ?_, ?_⟩
  · intro x y
    simp [TopologicalSort.Edge, TopologicalSort.empty, DependsOn]
  · intro x
    simp [TopologicalSort.empty, DependsOn]

variable {sources : List EventSourceData} {sorter : TopologicalSort TypeId}

theorem dependsOn_append {source : EventSourceData} {x y : TypeId} :
    DependsOn (sources ++ [source]) y x ↔
      DependsOn sources y x ∨ (source.id = y ∧ x ∈ source.dependencies) := by
  unfold DependsOn
  simp only [List.mem_append, List.mem_singleton]
  constructor
  · intro h
    rcases h with ⟨data, hdata | hdata, hid, hx⟩
    · exact Or.inl ⟨data, hdata, hid, hx⟩
    · rw [hdata] at hid hx
      exact Or.inr ⟨hid, hx⟩
  · intro h
    rcases h with ⟨data, hdata, hid, hx⟩ | ⟨hid, hx⟩
    · exact ⟨data, Or.inl hdata, hid, hx⟩
    · exact ⟨source, Or.inr rfl, hid, hx⟩

theorem foldl_addDependency (id : TypeId) (dependencies : List TypeId)
    (hclosed : sorter.Closed) (hid : id ∈ sorter.nodes) :
    let sorter' := dependencies.foldl
      (fun sorter dependency => sorter.addDependency dependency id) sorter
    sorter'.Closed ∧
      (forall x y, sorter'.Edge x y ↔
        sorter.Edge x y ∨ (id = y ∧ x ∈ dependencies)) ∧
      forall x, x ∈ sorter'.nodes ↔ x ∈ sorter.nodes ∨ x ∈ dependencies := by
  induction dependencies generalizing sorter with
  | nil => exact ⟨hclosed, by simp, by simp⟩
  | cons dependency rest ih =>
      have hnodes : id ∈ (sorter.addDependency dependency id).nodes :=
        TopologicalSort.mem_addDependency_nodes.mpr (Or.inl rfl)
      rcases ih (hclosed.addDependency dependency id) hnodes with
        ⟨hclosed', hedges, hmem⟩
      refine ⟨hclosed', ?_, ?_⟩
      · intro x y
        refine (hedges x y).trans ?_
        unfold TopologicalSort.Edge
        rw [TopologicalSort.mem_addDependency_edges, Prod.mk.injEq,
          List.mem_cons]
        constructor
        · intro h
          rcases h with (⟨hx, hy⟩ | hold) | ⟨hy, hx⟩
          · exact Or.inr ⟨hy.symm, Or.inl hx⟩
          · exact Or.inl hold
          · exact Or.inr ⟨hy, Or.inr hx⟩
        · intro h
          rcases h with hold | ⟨hy, hx | hx⟩
          · exact Or.inl (Or.inr hold)
          · exact Or.inl (Or.inl ⟨hx, hy.symm⟩)
          · exact Or.inr ⟨hy, hx⟩
      · intro x
        refine (hmem x).trans ?_
        rw [TopologicalSort.mem_addDependency_nodes, List.mem_cons]
        constructor
        · intro h
          rcases h with (hx | hx | hx) | hx
          · rw [hx]
            exact Or.inl hid
          · exact Or.inr (Or.inl hx)
          · exact Or.inl hx
          · exact Or.inr (Or.inr hx)
        · intro h
          rcases h with hx | hx | hx
          · exact Or.inl (Or.inr (Or.inr hx))
          · exact Or.inl (Or.inr (Or.inl hx))
          · exact Or.inr hx

theorem Holds.addSource (h : Holds sources sorter) (source : EventSourceData) :
    Holds (sources ++ [source]) (addSource sorter source) := by
  have hinsert : forall x, x ∈ (sorter.insert source.id).nodes ↔
      x = source.id ∨ x ∈ sorter.nodes := fun x => List.mem_insert_iff
  have hall := foldl_addDependency source.id source.dependencies
    (h.closed.insert source.id) ((hinsert _).mpr (Or.inl rfl))
  rcases hall with ⟨hclosed, hedges, hnodes⟩
  refine ⟨hclosed, ?_, ?_⟩
  · intro x y
    rw [dependsOn_append, <- h.edges]
    exact hedges x y
  · intro x
    refine (hnodes x).trans ?_
    rw [hinsert, h.nodes, List.map_append, List.map_singleton, List.mem_append,
      List.mem_singleton]
    simp only [dependsOn_append, exists_or]
    constructor
    · intro hx
      rcases hx with (hx | hx | hx) | hx
      · exact Or.inl (Or.inr hx)
      · exact Or.inl (Or.inl hx)
      · exact Or.inr (Or.inl hx)
      · exact Or.inr (Or.inr ⟨source.id, rfl, hx⟩)
    · intro hx
      rcases hx with (hx | hx) | hx | ⟨y, _, hx⟩
      · exact Or.inl (Or.inr (Or.inl hx))
      · exact Or.inl (Or.inl hx)
      · exact Or.inl (Or.inr (Or.inr hx))
      · exact Or.inr hx

theorem foldl_addSource {more : List EventSourceData} (h : Holds sources sorter) :
    Holds (sources ++ more) (more.foldl addSource sorter) := by
  induction more generalizing sources sorter with
  | nil =>
      rw [List.append_nil]
      exact h
  | cons source rest ih =>
      have hrest := ih (h.addSource source)
      rw [List.append_assoc] at hrest
      exact hrest

theorem sorterOf_holds (sources : List EventSourceData) :
    Holds sources (sorterOf sources) :=
  foldl_addSource holds_nil

theorem Holds.acyclic (h : Holds sources sorter)
    (hacyclic : Acyclic (DependsOn sources)) : Acyclic sorter.Edge := by
  intro x hcycle
  refine hacyclic x (Relation.transGen_swap.mp ?_)
  exact TransGen.mono (fun a b hedge => (h.edges a b).mp hedge) _ _ hcycle

/-!
# The order of sources without a cycle
-/

theorem executionOrder_eq_none {order : PopOrder TypeId} :
    executionOrder order sorter = none ↔
      sorter.ready = [] ∧ sorter.nodes ≠ [] := by
  unfold executionOrder
  rw [<- @TopologicalSort.pop_isNone _ _ _ order]
  cases hpop : sorter.pop order with
  | none =>
      dsimp only
      split
      · rename_i hempty
        simp [List.isEmpty_iff.mp hempty]
      · rename_i hempty
        have hne : sorter.nodes ≠ [] :=
          fun hnil => hempty (List.isEmpty_iff.mpr hnil)
        simp [hne]
  | some popped => simp

theorem executionOrder_eq_some {order : PopOrder TypeId}
    {execOrder : List TypeId} (h : executionOrder order sorter = some execOrder) :
    execOrder = sorter.popAll order := by
  unfold executionOrder at h
  split at h
  · rename_i id rest hpop
    rw [TopologicalSort.popAll_of_pop hpop]
    exact (Option.some.inj h).symm
  · rename_i hpop
    split at h
    · rename_i hempty
      unfold TopologicalSort.isEmpty at hempty
      rw [<- Option.some.inj h]
      unfold TopologicalSort.popAll
      rw [List.isEmpty_iff.mp hempty]
      rfl
    · cases h

/-- A source comes once, and after everything that it depends on. -/
structure Ordered (sources : List EventSourceData) (execOrder : List TypeId) :
    Prop where
  nodup : execOrder.Nodup
  registered : forall source, source ∈ sources -> source.id ∈ execOrder
  after : forall source before after, source ∈ sources ->
    execOrder = before ++ source.id :: after ->
    forall dependency, dependency ∈ source.dependencies -> dependency ∈ before

theorem ordered_popAll (hacyclic : Acyclic (DependsOn sources))
    (order : PopOrder TypeId) :
    Ordered sources ((sorterOf sources).popAll order) := by
  have hholds := sorterOf_holds sources
  have hgrounded : forall x, x ∈ (sorterOf sources).nodes ->
      x ∈ (sorterOf sources).popAll order := by
    intro x hx
    refine (TopologicalSort.mem_popAll hholds.closed order).mpr ⟨hx, ?_⟩
    intro y _
    exact hholds.acyclic hacyclic y
  refine ⟨TopologicalSort.drain_nodup _ _ _, ?_, ?_⟩
  · intro source hsource
    exact hgrounded source.id ((hholds.nodes _).mpr
      (Or.inl (List.mem_map_of_mem hsource)))
  · intro source before after hsource hsplit dependency hdependency
    have hedge : DependsOn sources source.id dependency :=
      ⟨source, hsource, rfl, hdependency⟩
    have hmem := hgrounded dependency ((hholds.nodes _).mpr
      (Or.inr ⟨source.id, hedge⟩))
    rw [hsplit, List.mem_append, List.mem_cons] at hmem
    rcases hmem with hbefore | hself | hafter
    · exact hbefore
    · rw [hself] at hedge
      exact absurd (TransGen.single hedge) (hacyclic source.id)
    · have hordered := TopologicalSort.drain_ordered order
        (sorterOf sources).nodes.length (sorterOf sources)
      change ((sorterOf sources).popAll order).Pairwise _ at hordered
      rw [hsplit] at hordered
      have hrest := (List.pairwise_append.mp hordered).right.left
      exact absurd (TransGen.single ((hholds.edges _ _).mpr hedge))
        ((List.pairwise_cons.mp hrest).left dependency hafter)

theorem exists_executionOrder (hacyclic : Acyclic (DependsOn sources))
    (order : PopOrder TypeId) :
    executionOrder order (sorterOf sources) =
      some ((sorterOf sources).popAll order) := by
  have hholds := sorterOf_holds sources
  cases horder : executionOrder order (sorterOf sources) with
  | none =>
      rcases executionOrder_eq_none.mp horder with ⟨hready, hnodes⟩
      exact absurd (TopologicalSort.nodes_eq_nil_of_ready_eq_nil
        (hholds.acyclic hacyclic) hholds.closed hready) hnodes
  | some execOrder => rw [executionOrder_eq_some horder]

/-!
# Sources that are all held up
-/

/-- Every source waits for another one, and all of these are registered. -/
def AllWait (sources : List EventSourceData) : Prop :=
  forall source, source ∈ sources -> source.dependencies ≠ [] ∧
    forall dependency, dependency ∈ source.dependencies ->
      dependency ∈ sources.map EventSourceData.id

theorem executionOrder_eq_none_iff
    (hunique : (sources.map EventSourceData.id).Nodup) (hne : sources ≠ [])
    (order : PopOrder TypeId) :
    executionOrder order (sorterOf sources) = none ↔ AllWait sources := by
  have hholds := sorterOf_holds sources
  rw [executionOrder_eq_none]
  constructor
  · intro h source hsource
    have hwaits : forall x, x ∈ (sorterOf sources).nodes ->
        exists y, DependsOn sources x y := by
      intro x hx
      by_contra hnone
      have hready : x ∈ (sorterOf sources).ready := by
        refine TopologicalSort.mem_ready.mpr ⟨hx, ?_⟩
        intro e he hend
        refine hnone ⟨e.1, (hholds.edges e.1 x).mp ?_⟩
        rw [<- hend]
        exact he
      rw [h.left] at hready
      cases hready
    constructor
    · rcases hwaits source.id ((hholds.nodes _).mpr
        (Or.inl (List.mem_map_of_mem hsource))) with
        ⟨dependency, data, hdata, hid, hdependency⟩
      rw [List.inj_on_of_nodup_map hunique hdata hsource hid] at hdependency
      exact List.ne_nil_of_mem hdependency
    · intro dependency hdependency
      rcases hwaits dependency ((hholds.nodes _).mpr
        (Or.inr ⟨source.id, source, hsource, rfl, hdependency⟩)) with
        ⟨_, data, hdata, hid, _⟩
      exact List.mem_map.mpr ⟨data, hdata, hid⟩
  · intro h
    constructor
    · refine List.eq_nil_iff_forall_not_mem.mpr ?_
      intro x hx
      rcases TopologicalSort.mem_ready.mp hx with ⟨hnode, hfirst⟩
      have hregistered : x ∈ sources.map EventSourceData.id := by
        rcases (hholds.nodes x).mp hnode with hmem | ⟨_, data, hdata, _, hx'⟩
        · exact hmem
        · exact (h data hdata).right x hx'
      rcases List.mem_map.mp hregistered with ⟨source, hsource, hid⟩
      rcases List.exists_mem_of_ne_nil _ (h source hsource).left with
        ⟨dependency, hdependency⟩
      have hedge := (hholds.edges dependency x).mpr
        ⟨source, hsource, hid, hdependency⟩
      exact hfirst _ hedge rfl
    · rcases List.exists_mem_of_ne_nil _ hne with ⟨source, hsource⟩
      exact List.ne_nil_of_mem ((hholds.nodes source.id).mpr
        (Or.inl (List.mem_map_of_mem hsource)))

/-!
# Calls
-/

/-- The graph with the new source has a cycle through it. -/
def ClosesCycle (s : EventManager) (source : EventSourceData) : Prop :=
  TransGen (DependsOn (s.sources ++ [source])) source.id source.id

/-- What a call is meant to do. -/
def Answers (s : EventManager) : ManagerCall -> Prop
  | ManagerCall.add source first second =>
      (s.isRegistered source.id = true ->
        s.add source first second =
          some (s, Except.error AddError.duplicateEventSource)) ∧
      (s.isRegistered source.id = false -> ClosesCycle s source ->
        s.add source first second =
          some (s, Except.error AddError.cyclicDependency)) ∧
      (s.isRegistered source.id = false -> ¬ ClosesCycle s source ->
        exists s', s.add source first second = some (s', Except.ok ()) ∧
          s'.sources = s.sources ++ [source] ∧
          Ordered s'.sources s'.execOrder)
  | ManagerCall.remove id order =>
      exists s', s.remove id order = some s' ∧
        s'.sources = s.sources.filter (fun source => source.id ≠ id) ∧
        Ordered s'.sources s'.execOrder

/-- A source that closes a cycle leaves none that could be popped. -/
def Detects (s : EventManager) : ManagerCall -> Prop
  | ManagerCall.add source _ _ =>
      s.isRegistered source.id = false -> ClosesCycle s source ->
        AllWait (s.sources ++ [source])
  | ManagerCall.remove _ _ => True

/-- A rejected source leaves the others to be popped as they were before. -/
def Restores (s : EventManager) : ManagerCall -> Prop
  | ManagerCall.add source _ second =>
      s.isRegistered source.id = false -> ClosesCycle s source ->
        s.execOrder = (sorterOf s.sources).popAll second
  | ManagerCall.remove _ _ => True

/-- The sources have no cycle, and the order is one of theirs. -/
structure Sorted (s : EventManager) : Prop where
  unique : (s.sources.map EventSourceData.id).Nodup
  acyclic : Acyclic (DependsOn s.sources)
  ordered : Ordered s.sources s.execOrder

theorem sorted_empty : Sorted EventManager.empty := by
  refine ⟨List.nodup_nil, ?_, List.nodup_nil, ?_, ?_⟩
  · intro x hcycle
    rcases Relation.TransGen.head'_iff.mp hcycle with ⟨_, hedge, _⟩
    rcases hedge with ⟨_, hdata, _⟩
    cases hdata
  · intro source hsource
    cases hsource
  · intro source _ _ hsource
    cases hsource

section Calls

variable {s s' : EventManager} {source : EventSourceData} {id : TypeId}
  {order first second : PopOrder TypeId}

theorem rebuild_of_acyclic (hacyclic : Acyclic (DependsOn s.sources))
    (order : PopOrder TypeId) :
    s.rebuildExecutionOrder order =
      ({ s with execOrder := (sorterOf s.sources).popAll order },
        Except.ok ()) := by
  unfold EventManager.rebuildExecutionOrder
  rw [exists_executionOrder hacyclic order]

theorem remove_of_acyclic (s : EventManager) (id : TypeId)
    (hacyclic : Acyclic (DependsOn
      (s.sources.filter (fun source => source.id ≠ id))))
    (order : PopOrder TypeId) :
    s.remove id order = some
      { sources := s.sources.filter (fun source => source.id ≠ id)
        execOrder := (sorterOf
          (s.sources.filter (fun source => source.id ≠ id))).popAll order } := by
  unfold EventManager.remove
  rw [rebuild_of_acyclic hacyclic]

theorem dependsOn_filter {p : EventSourceData -> Bool} {x y : TypeId}
    (h : DependsOn (sources.filter p) x y) : DependsOn sources x y := by
  rcases h with ⟨data, hdata, hid, hy⟩
  exact ⟨data, List.mem_of_mem_filter hdata, hid, hy⟩

theorem acyclic_add (h : Sorted s) (hopen : ¬ ClosesCycle s source) :
    Acyclic (DependsOn (s.sources ++ [source])) := by
  refine h.acyclic.add_source ?_ hopen
  intro x y hedge
  exact (dependsOn_append.mp hedge).imp id (fun hnew => hnew.left.symm)

theorem unique_append (h : Sorted s)
    (hnew : s.isRegistered source.id = false) :
    ((s.sources ++ [source]).map EventSourceData.id).Nodup := by
  rw [List.map_append, List.map_singleton, List.nodup_append]
  refine ⟨h.unique, List.nodup_singleton _, ?_⟩
  intro x hx y hy
  rcases List.mem_map.mp hx with ⟨data, hdata, hid⟩
  unfold EventManager.isRegistered at hnew
  have hne := List.any_eq_false.mp hnew data hdata
  rw [List.mem_singleton.mp hy, <- hid]
  simpa using hne

theorem filter_append_new (hnew : s.isRegistered source.id = false) :
    (s.sources ++ [source]).filter (fun data => data.id ≠ source.id) =
      s.sources := by
  rw [List.filter_append, List.filter_singleton]
  have hkept : s.sources.filter (fun data => data.id ≠ source.id) =
      s.sources := by
    refine List.filter_eq_self.mpr ?_
    intro data hdata
    unfold EventManager.isRegistered at hnew
    have hne := List.any_eq_false.mp hnew data hdata
    simpa using hne
  rw [hkept]
  simp

theorem Sorted.remove (h : Sorted s) (id : TypeId) (order : PopOrder TypeId) :
    exists s', s.remove id order = some s' ∧
      s'.sources = s.sources.filter (fun source => source.id ≠ id) ∧
      Sorted s' := by
  have hacyclic : Acyclic (DependsOn
      (s.sources.filter (fun source => source.id ≠ id))) :=
    h.acyclic.mono (fun _ _ hedge => dependsOn_filter hedge)
  exact ⟨_, remove_of_acyclic s id hacyclic order, rfl,
    (List.filter_sublist.map _).nodup h.unique, hacyclic,
    ordered_popAll hacyclic order⟩

theorem Sorted.addOpen (h : Sorted s)
    (hnew : s.isRegistered source.id = false)
    (hopen : ¬ ClosesCycle s source) (first second : PopOrder TypeId) :
    exists s', s.add source first second = some (s', Except.ok ()) ∧
      s'.sources = s.sources ++ [source] ∧ Sorted s' := by
  have hacyclic := acyclic_add h hopen
  refine ⟨{ sources := s.sources ++ [source]
            execOrder := (sorterOf (s.sources ++ [source])).popAll first },
    ?_, rfl, unique_append h hnew, hacyclic, ordered_popAll hacyclic first⟩
  unfold EventManager.add
  rw [hnew, rebuild_of_acyclic hacyclic]
  rfl

theorem Sorted.addCycle (h : Sorted s)
    (hnew : s.isRegistered source.id = false)
    (hnone : executionOrder first (sorterOf (s.sources ++ [source])) = none)
    (second : PopOrder TypeId) :
    exists s', s.add source first second =
        some (s', Except.error AddError.cyclicDependency) ∧
      (s' = s ↔ s.execOrder = (sorterOf s.sources).popAll second) ∧
      Sorted s' := by
  have hremove := remove_of_acyclic
    { sources := s.sources ++ [source], execOrder := [] } source.id
    (by
      rw [filter_append_new hnew]
      exact h.acyclic) second
  rw [filter_append_new hnew] at hremove
  refine ⟨{ sources := s.sources
            execOrder := (sorterOf s.sources).popAll second },
    ?_, ⟨?_, ?_⟩, h.unique, h.acyclic, ordered_popAll h.acyclic second⟩
  · unfold EventManager.add EventManager.rebuildExecutionOrder
    rw [hnew, hnone]
    change Option.map _ (EventManager.remove source.id second _) = _
    rw [hremove]
    rfl
  · intro hsame
    exact (congrArg EventManager.execOrder hsame).symm
  · intro hsame
    rw [<- hsame]

theorem executionOrder_of_cyclic
    (hnew : s.isRegistered source.id = false)
    (h : s.add source first second =
      some (s', Except.error AddError.cyclicDependency)) :
    executionOrder first (sorterOf (s.sources ++ [source])) = none := by
  cases horder : executionOrder first (sorterOf (s.sources ++ [source])) with
  | none => rfl
  | some execOrder =>
      have hrebuild : ({ s with sources := s.sources ++ [source] } :
          EventManager).rebuildExecutionOrder first =
            ({ sources := s.sources ++ [source], execOrder := execOrder },
              Except.ok ()) := by
        unfold EventManager.rebuildExecutionOrder
        rw [horder]
      unfold EventManager.add at h
      rw [hnew, if_neg Bool.false_ne_true, hrebuild] at h
      cases h

theorem Sorted.next (h : Sorted s) {call : ManagerCall}
    (hdetects : Detects s call) :
    (Restores s call -> Answers s call) ∧
      forall s', s.next call = some s' -> Sorted s' := by
  cases call with
  | remove id order =>
      rcases h.remove id order with ⟨s', hremove, hsources, hsorted⟩
      refine ⟨fun _ => ⟨s', hremove, hsources, hsorted.ordered⟩, ?_⟩
      intro s'' hnext
      change s.remove id order = some s'' at hnext
      rw [hremove, Option.some.injEq] at hnext
      rw [<- hnext]
      exact hsorted
  | add source first second =>
      change s.isRegistered source.id = false -> ClosesCycle s source -> _
        at hdetects
      cases hnew : s.isRegistered source.id with
      | true =>
          have hadd : s.add source first second =
              some (s, Except.error AddError.duplicateEventSource) := by
            unfold EventManager.add
            rw [hnew]
            rfl
          refine ⟨fun _ => ⟨fun _ => hadd, ?_, ?_⟩, ?_⟩
          · intro hfalse
            rw [hnew] at hfalse
            cases hfalse
          · intro hfalse
            rw [hnew] at hfalse
            cases hfalse
          · intro s' hnext
            change (s.add source first second).map Prod.fst = some s' at hnext
            rw [hadd] at hnext
            rw [<- Option.some.inj hnext]
            exact h
      | false =>
          have hregistered : s.isRegistered source.id = true ->
              s.add source first second =
                some (s, Except.error AddError.duplicateEventSource) := by
            intro htrue
            rw [hnew] at htrue
            cases htrue
          by_cases hcycle : ClosesCycle s source
          · have hnone := (executionOrder_eq_none_iff (unique_append h hnew)
              (by simp) first).mpr (hdetects hnew hcycle)
            rcases h.addCycle hnew hnone second with
              ⟨s', hadd, hbefore, hsorted⟩
            refine ⟨fun hrestores => ⟨hregistered, ?_, ?_⟩, ?_⟩
            · intro _ _
              rw [hadd, hbefore.mpr (hrestores hnew hcycle)]
            · intro _ hopen
              exact absurd hcycle hopen
            · intro s'' hnext
              change (s.add source first second).map Prod.fst = some s''
                at hnext
              rw [hadd] at hnext
              rw [<- Option.some.inj hnext]
              exact hsorted
          · rcases h.addOpen hnew hcycle first second with
              ⟨s', hadd, hsources, hsorted⟩
            refine ⟨fun _ => ⟨hregistered, ?_, fun _ _ => ⟨s', hadd, hsources,
              hsorted.ordered⟩⟩, ?_⟩
            · intro _ hcycle'
              exact absurd hcycle' hcycle
            · intro s'' hnext
              change (s.add source first second).map Prod.fst = some s''
                at hnext
              rw [hadd] at hnext
              rw [<- Option.some.inj hnext]
              exact hsorted

theorem Sorted.detects (h : Sorted s) {call : ManagerCall}
    (hanswers : Answers s call) : Detects s call ∧ Restores s call := by
  cases call with
  | remove id order => exact ⟨True.intro, True.intro⟩
  | add source first second =>
      constructor
      · intro hnew hcycle
        exact (executionOrder_eq_none_iff (unique_append h hnew) (by simp)
          first).mp (executionOrder_of_cyclic hnew
            (hanswers.right.left hnew hcycle))
      · intro hnew hcycle
        have hadd := hanswers.right.left hnew hcycle
        rcases h.addCycle hnew (executionOrder_of_cyclic hnew hadd) second with
          ⟨s', hadd', hbefore, _⟩
        rw [hadd] at hadd'
        cases hadd'
        exact hbefore.mp rfl

end Calls

/-!
# Runs
-/

theorem sorted_of_reachable {s : EventManager}
    (h : ReachableWhen managing Detects s) : Sorted s := by
  refine invariant_when Sorted ?_ ?_ h
  · intro s hinit
    change s = EventManager.empty at hinit
    rw [hinit]
    exact sorted_empty
  · intro s call s' _ hsorted hdetects hstep
    exact (hsorted.next hdetects).right s' hstep

theorem sources_ordered {s : EventManager}
    (h : ReachableWhen managing Detects s) :
    Ordered s.sources s.execOrder ∧
      forall call, Answers s call ↔ Detects s call ∧ Restores s call := by
  have hsorted := sorted_of_reachable h
  exact ⟨hsorted.ordered, fun _ => ⟨fun hanswers => hsorted.detects hanswers,
    fun hmeets => (hsorted.next hmeets.left).left hmeets.right⟩⟩

/-!
# Two sources that depend on each other
-/

def sourceD : EventSourceData := ⟨1, [2]⟩

def sourceE : EventSourceData := ⟨2, [1]⟩

/-- It depends on nothing. -/
def sourceA : EventSourceData := ⟨0, []⟩

theorem sourceD_open : ¬ ClosesCycle EventManager.empty sourceD := by
  have hedge : forall x y, DependsOn [sourceD] x y -> x = 1 ∧ y = 2 := by
    intro x y h
    rcases h with ⟨data, hdata, hid, hy⟩
    rw [List.mem_singleton.mp hdata] at hid hy
    exact ⟨hid.symm, List.mem_singleton.mp hy⟩
  intro hcycle
  rcases Relation.TransGen.head'_iff.mp hcycle with ⟨x, hfirst, hpath⟩
  rw [(hedge _ _ hfirst).right] at hpath
  rcases Relation.ReflTransGen.cases_head hpath with heq | ⟨y, hsecond, _⟩
  · cases heq
  · cases (hedge _ _ hsecond).left

def withSourceD : EventManager where
  sources := [sourceD]
  execOrder := [2, 1]

theorem withSourceD_reachable : ReachableWhen managing Detects withSourceD := by
  refine ReachableWhen.next
    (l := ManagerCall.add sourceD (PopOrder.first TypeId)
      (PopOrder.first TypeId)) (ReachableWhen.start rfl) ?_ ?_
  · intro _ hcycle
    exact absurd hcycle sourceD_open
  · change EventManager.next _ _ = _
    decide +kernel

theorem second_source_answered :
    Answers withSourceD (ManagerCall.add sourceE (PopOrder.first TypeId)
      (PopOrder.first TypeId)) := by
  refine ((sources_ordered withSourceD_reachable).right _).mpr ⟨?_, ?_⟩
  · intro _ _
    unfold AllWait
    decide
  · intro _ _
    decide +kernel

/-- Next to an independent source, the two are never polled. -/
theorem cycle_not_detected :
    exists s, managing.Reachable s ∧
      (exists s', s.add sourceE (PopOrder.first TypeId)
          (PopOrder.first TypeId) = some (s', Except.ok ()) ∧
        s'.execOrder = [0] ∧
        s'.remove 0 (PopOrder.first TypeId) = none) ∧
      ClosesCycle s sourceE := by
  refine ⟨{ sources := [sourceA, sourceD], execOrder := [2, 1, 0] }, ?_, ?_, ?_⟩
  · refine @Reachable.replay _ _ managing EventManager.empty EventManager.next
      (fun _ _ _ h => h) _
      [ManagerCall.add sourceA (PopOrder.first TypeId) (PopOrder.first TypeId),
        ManagerCall.add sourceD (PopOrder.first TypeId)
          (PopOrder.first TypeId)] (ReachableWhen.start rfl) ?_
    decide +kernel
  · exact ⟨{ sources := [sourceA, sourceD, sourceE], execOrder := [0] },
      by decide +kernel, rfl, by decide +kernel⟩
  · have hback : DependsOn ([sourceA, sourceD] ++ [sourceE]) 2 1 :=
      ⟨sourceE, by decide, rfl, by decide⟩
    have hforth : DependsOn ([sourceA, sourceD] ++ [sourceE]) 1 2 :=
      ⟨sourceD, by decide, rfl, by decide⟩
    exact (TransGen.single hback).tail hforth

end EventLoop
end MailClient
