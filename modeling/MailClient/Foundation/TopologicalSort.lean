import Mathlib.Data.Fintype.EquivFin
import Mathlib.Data.List.Basic
import Mathlib.Data.List.Dedup
import Mathlib.Order.WellFounded
import MailClient.Foundation.Graph

/-!
# Topological sorting of a growing graph

The third-party sorter used by the client is a graph to which precedence
constraints are added one at a time and from which nodes without remaining
predecessors are popped.  Which of several such nodes is popped depends on the
iteration order of a hash map, so it is a parameter here.
-/

namespace MailClient
namespace Foundation

/-- Of two members of a list one stands before the other. -/
theorem pair_sublist_or {α : Type} {xs : List α} {x y : α} (hx : x ∈ xs)
    (hy : y ∈ xs) (hne : x ≠ y) : [x, y].Sublist xs ∨ [y, x].Sublist xs := by
  induction xs with
  | nil => cases hx
  | cons z rest ih =>
      rcases List.mem_cons.mp hx with heq | hx'
      · subst heq
        have hy' := (List.mem_cons.mp hy).resolve_left hne.symm
        exact Or.inl ((List.singleton_sublist.mpr hy').cons_cons _)
      · rcases List.mem_cons.mp hy with heq | hy'
        · subst heq
          exact Or.inr ((List.singleton_sublist.mpr hx').cons_cons _)
        · rcases ih hx' hy' with h | h
          · exact Or.inl (h.cons z)
          · exact Or.inr (h.cons z)

structure TopologicalSort (node : Type) where
  nodes : List node
  edges : List (node × node)

/--
A choice of one element of a list.  It fails exactly on the empty list and
never returns a foreign element.
-/
structure PopOrder (node : Type) where
  choose : List node -> Option node
  choose_mem : forall xs x, choose xs = some x -> x ∈ xs
  choose_none : forall xs, choose xs = none -> xs = []

namespace PopOrder

def first (node : Type) : PopOrder node where
  choose := List.head?
  choose_mem := by
    intro xs x h
    exact List.mem_of_mem_head? h
  choose_none := by
    intro xs h
    exact List.head?_eq_none_iff.mp h

end PopOrder

namespace TopologicalSort

variable {node : Type}

def empty (node : Type) : TopologicalSort node where
  nodes := []
  edges := []

def isEmpty (t : TopologicalSort node) : Bool :=
  t.nodes.isEmpty

variable [DecidableEq node]

/-- `before` has to be popped before `after`. -/
def addDependency (t : TopologicalSort node) (before after : node) :
    TopologicalSort node where
  nodes := (t.nodes.insert before).insert after
  edges := t.edges.insert (before, after)

/-- A node without a constraint. -/
def insert (t : TopologicalSort node) (x : node) : TopologicalSort node where
  nodes := t.nodes.insert x
  edges := t.edges

def ready (t : TopologicalSort node) : List node :=
  t.nodes.filter (fun x => t.edges.all (fun e => e.2 ≠ x))

def remove (t : TopologicalSort node) (x : node) : TopologicalSort node where
  nodes := t.nodes.filter (fun y => y ≠ x)
  edges := t.edges.filter (fun e => e.1 ≠ x)

def pop (t : TopologicalSort node) (order : PopOrder node) :
    Option (node × TopologicalSort node) :=
  (order.choose t.ready).map (fun x => (x, t.remove x))

/-!
# Membership

A sorter that was only ever filled by `addDependency` holds exactly the end
points of its edges.
-/

variable {t t' : TopologicalSort node} {x : node} {order : PopOrder node}

theorem mem_addDependency_edges {before after : node} {e : node × node} :
    e ∈ (t.addDependency before after).edges ↔
      e = (before, after) ∨ e ∈ t.edges := by
  exact List.mem_insert_iff

theorem mem_addDependency_nodes {before after : node} :
    x ∈ (t.addDependency before after).nodes ↔
      x = after ∨ x = before ∨ x ∈ t.nodes := by
  unfold addDependency
  rw [List.mem_insert_iff, List.mem_insert_iff]

def Spanned (t : TopologicalSort node) : Prop :=
  forall x, x ∈ t.nodes ↔ exists e, e ∈ t.edges ∧ (x = e.1 ∨ x = e.2)

omit [DecidableEq node] in
theorem spanned_empty : Spanned (empty node) := by
  intro x
  simp [empty]

theorem Spanned.addDependency (h : t.Spanned) (before after : node) :
    (t.addDependency before after).Spanned := by
  intro x
  rw [mem_addDependency_nodes]
  constructor
  · intro hx
    rcases hx with hx | hx | hx
    · exact ⟨(before, after), mem_addDependency_edges.mpr (Or.inl rfl),
        Or.inr hx⟩
    · exact ⟨(before, after), mem_addDependency_edges.mpr (Or.inl rfl),
        Or.inl hx⟩
    · rcases (h x).mp hx with ⟨e, he, hxe⟩
      exact ⟨e, mem_addDependency_edges.mpr (Or.inr he), hxe⟩
  · intro hx
    rcases hx with ⟨e, he, hxe⟩
    rcases mem_addDependency_edges.mp he with he | he
    · subst he
      rcases hxe with hxe | hxe
      · exact Or.inr (Or.inl hxe)
      · exact Or.inl hxe
    · exact Or.inr (Or.inr ((h x).mpr ⟨e, he, hxe⟩))

/-!
# Adding many constraints

Both loops of the client add the constraints between one node and a list of
others.  `pairs` describes the added edges.
-/

theorem foldl_addDependency {α : Type} (f g : α -> node) (xs : List α)
    (t : TopologicalSort node) (ht : t.Spanned) :
    let t' := xs.foldl (fun t x => t.addDependency (f x) (g x)) t
    t'.Spanned ∧
      forall e, e ∈ t'.edges ↔
        e ∈ t.edges ∨ exists x, x ∈ xs ∧ e = (f x, g x) := by
  induction xs generalizing t with
  | nil =>
      exact ⟨ht, by simp⟩
  | cons x rest ih =>
      have hrest := ih (t.addDependency (f x) (g x)) (ht.addDependency _ _)
      refine ⟨hrest.left, ?_⟩
      intro e
      refine Iff.trans (hrest.right e) ?_
      rw [mem_addDependency_edges]
      constructor
      · intro he
        rcases he with (he | he) | ⟨y, hy, he⟩
        · exact Or.inr ⟨x, List.mem_cons_self, he⟩
        · exact Or.inl he
        · exact Or.inr ⟨y, List.mem_cons_of_mem _ hy, he⟩
      · intro he
        rcases he with he | ⟨y, hy, he⟩
        · exact Or.inl (Or.inr he)
        · rcases List.mem_cons.mp hy with hy | hy
          · subst hy
            exact Or.inl (Or.inl he)
          · exact Or.inr ⟨y, hy, he⟩

/-!
# Popping
-/

theorem mem_ready :
    x ∈ t.ready ↔ x ∈ t.nodes ∧ forall e, e ∈ t.edges -> e.2 ≠ x := by
  unfold ready
  rw [List.mem_filter, List.all_eq_true]
  simp only [decide_eq_true_eq]

theorem pop_isNone :
    (t.pop order).isNone = true ↔ t.ready = [] := by
  unfold pop
  rw [Option.isNone_iff_eq_none, Option.map_eq_none_iff]
  constructor
  · exact order.choose_none _
  · intro hnil
    cases hchoose : order.choose t.ready with
    | none =>
        rfl
    | some x =>
        have hmem := order.choose_mem _ _ hchoose
        rw [hnil] at hmem
        cases hmem

theorem pop_eq_some (h : t.pop order = some (x, t')) :
    x ∈ t.ready ∧ t' = t.remove x := by
  unfold pop at h
  rcases Option.map_eq_some_iff.mp h with ⟨y, hy, heq⟩
  cases heq
  exact ⟨order.choose_mem _ _ hy, rfl⟩

theorem mem_nodes_of_pop (h : t.pop order = some (x, t')) : x ∈ t.nodes :=
  (mem_ready.mp (pop_eq_some h).left).left

theorem pop_nodes_subset {y : node} (h : t.pop order = some (x, t'))
    (hy : y ∈ t'.nodes) :
    y ∈ t.nodes := by
  rw [(pop_eq_some h).right] at hy
  exact List.mem_of_mem_filter hy

/-!
# Acyclic sorters

On an acyclic graph there is always a node to pop, so popping empties the
sorter.
-/

def Edge (t : TopologicalSort node) (x y : node) : Prop :=
  (x, y) ∈ t.edges

/-- The edges only mention nodes of the sorter. -/
def Closed (t : TopologicalSort node) : Prop :=
  forall e, e ∈ t.edges -> e.1 ∈ t.nodes ∧ e.2 ∈ t.nodes

omit [DecidableEq node] in
theorem Spanned.closed (h : t.Spanned) :
    t.Closed := by
  intro e he
  exact ⟨(h e.1).mpr ⟨e, he, Or.inl rfl⟩, (h e.2).mpr ⟨e, he, Or.inr rfl⟩⟩

omit [DecidableEq node] in
theorem closed_empty : Closed (empty node) :=
  fun _ he => nomatch he

theorem Closed.insert (h : t.Closed) (x : node) :
    (t.insert x).Closed := by
  intro e he
  have hends := h e he
  constructor
  · exact List.mem_insert_of_mem hends.left
  · exact List.mem_insert_of_mem hends.right

theorem Closed.addDependency (h : t.Closed) (before after : node) :
    (t.addDependency before after).Closed := by
  intro e he
  rw [mem_addDependency_nodes, mem_addDependency_nodes]
  rcases mem_addDependency_edges.mp he with rfl | he
  · exact ⟨Or.inr (Or.inl rfl), Or.inl rfl⟩
  · have hends := h e he
    exact ⟨Or.inr (Or.inr hends.left), Or.inr (Or.inr hends.right)⟩

/-- No node on the way to `x` lies on a cycle. -/
def Grounded (t : TopologicalSort node) (x : node) : Prop :=
  forall y, Relation.ReflTransGen t.Edge y x ->
    ¬ Relation.TransGen t.Edge y y

theorem not_grounded_of_ready_eq_nil (hclosed : t.Closed)
    (hready : t.ready = []) (hx : x ∈ t.nodes) : ¬ t.Grounded x := by
  intro hgrounded
  let way := {y // y ∈ t.nodes ∧ Relation.ReflTransGen t.Edge y x}
  let before : way -> way -> Prop :=
    fun a b => Relation.TransGen t.Edge a.1 b.1
  have hfinite : Finite way := by
    refine Finite.of_injective
      (fun y : way => (⟨y.1, y.2.left⟩ : {y // y ∈ t.nodes})) ?_
    intro a b h
    exact Subtype.ext (Subtype.mk.inj h)
  have htrans : IsTrans _ before := ⟨fun a b c hab hbc => hab.trans hbc⟩
  have hirrefl : Std.Irrefl before := ⟨fun a => hgrounded a.1 a.2.right⟩
  have hwf : WellFounded before := Finite.wellFounded_of_trans_of_irrefl before
  rcases hwf.has_min Set.univ ⟨⟨x, hx, Relation.ReflTransGen.refl⟩, trivial⟩
    with ⟨y, _, hmin⟩
  have hy : y.1 ∉ t.ready := by
    rw [hready]
    exact List.not_mem_nil
  rw [mem_ready] at hy
  apply hy
  refine ⟨y.2.left, ?_⟩
  intro e he heq
  have hedge : t.Edge e.1 y.1 := by
    rw [<- heq]
    exact he
  apply hmin ⟨e.1, (hclosed e he).left,
    Relation.ReflTransGen.head hedge y.2.right⟩ trivial
  exact Relation.TransGen.single hedge

theorem nodes_eq_nil_of_ready_eq_nil (hacyclic : Acyclic t.Edge)
    (hclosed : t.Closed) (hready : t.ready = []) :
    t.nodes = [] := by
  by_contra hne
  rcases List.exists_mem_of_ne_nil _ hne with ⟨x, hx⟩
  exact not_grounded_of_ready_eq_nil hclosed hready hx (fun y _ => hacyclic y)

theorem remove_closed (hclosed : t.Closed) (hx : x ∈ t.ready) :
    (t.remove x).Closed := by
  intro e he
  rcases List.mem_filter.mp he with ⟨hedge, hne⟩
  have hends := hclosed e hedge
  have hsecond := (mem_ready.mp hx).right e hedge
  constructor
  · exact List.mem_filter.mpr ⟨hends.left, hne⟩
  · exact List.mem_filter.mpr ⟨hends.right, decide_eq_true hsecond⟩

theorem remove_acyclic (hacyclic : Acyclic t.Edge) :
    Acyclic (t.remove x).Edge :=
  hacyclic.mono (fun _ _ h => List.mem_of_mem_filter h)

theorem mem_remove_nodes {y : node} :
    y ∈ (t.remove x).nodes ↔ y ∈ t.nodes ∧ y ≠ x := by
  unfold remove
  rw [List.mem_filter]
  simp

theorem remove_length (hx : x ∈ t.nodes) :
    (t.remove x).nodes.length < t.nodes.length := by
  apply List.length_filter_lt_length_iff_exists.mpr
  exact ⟨x, hx, by simp⟩

/-!
# Popping everything
-/

/-- `while let Some(x) = sorter.pop()`. -/
def drain (order : PopOrder node) : Nat -> TopologicalSort node -> List node
  | 0, _ => []
  | n + 1, t =>
      match t.pop order with
      | none => []
      | some (x, t') => x :: drain order n t'

theorem drain_zero (order : PopOrder node) (t : TopologicalSort node) :
    drain order 0 t = [] :=
  rfl

theorem drain_none (h : t.pop order = none) (n : Nat) :
    drain order (n + 1) t = [] := by
  rw [drain, h]

theorem drain_some (h : t.pop order = some (x, t')) (n : Nat) :
    drain order (n + 1) t = x :: drain order n t' := by
  rw [drain, h]

def popAll (t : TopologicalSort node) (order : PopOrder node) : List node :=
  drain order t.nodes.length t

theorem path_of_remove {y z : node} (hx : x ∈ t.ready) (hne : y ≠ x)
    (hpath : Relation.ReflTransGen t.Edge y z) :
    z ≠ x ∧ Relation.ReflTransGen (t.remove x).Edge y z := by
  induction hpath with
  | refl => exact ⟨hne, Relation.ReflTransGen.refl⟩
  | tail _ hedge ih =>
      have hkept : (t.remove x).Edge _ _ :=
        List.mem_filter.mpr ⟨hedge, decide_eq_true ih.left⟩
      exact ⟨(mem_ready.mp hx).right _ hedge, ih.right.tail hkept⟩

theorem grounded_of_ready (hx : x ∈ t.ready) : t.Grounded x := by
  have hfirst : forall y, ¬ t.Edge y x :=
    fun y hedge => (mem_ready.mp hx).right _ hedge rfl
  intro y hpath hcycle
  rcases Relation.ReflTransGen.cases_tail hpath with rfl | ⟨z, _, hedge⟩
  · rcases Relation.TransGen.tail'_iff.mp hcycle with ⟨z, _, hedge⟩
    exact hfirst z hedge
  · exact hfirst z hedge

theorem grounded_remove_iff {z : node} (hx : x ∈ t.ready) :
    (t.remove x).Grounded z ↔ t.Grounded z := by
  have hmono : forall a b, (t.remove x).Edge a b -> t.Edge a b :=
    fun a b h => List.mem_of_mem_filter h
  constructor
  · intro hgrounded y hpath hcycle
    rcases Relation.TransGen.tail'_iff.mp hcycle with ⟨w, hway, hedge⟩
    have hne : y ≠ x := (mem_ready.mp hx).right _ hedge
    have hway' := path_of_remove hx hne hway
    have hedge' : (t.remove x).Edge w y :=
      List.mem_filter.mpr ⟨hedge, decide_eq_true hway'.left⟩
    exact hgrounded y (path_of_remove hx hne hpath).right
      (Relation.TransGen.tail' hway'.right hedge')
  · intro hgrounded y hpath hcycle
    exact hgrounded y (Relation.ReflTransGen.mono hmono _ _ hpath)
      (Relation.TransGen.mono hmono _ _ hcycle)

theorem mem_drain {n : Nat} (hclosed : t.Closed) (hn : t.nodes.length ≤ n) :
    x ∈ drain order n t ↔ x ∈ t.nodes ∧ t.Grounded x := by
  induction n generalizing t with
  | zero =>
      have hnil : t.nodes = [] := List.length_eq_zero_iff.mp (Nat.le_zero.mp hn)
      rw [drain_zero, hnil]
      constructor
      · intro h
        cases h
      · intro h
        cases h.left
  | succ n ih =>
      cases hpop : t.pop order with
      | none =>
          have hready : t.ready = [] := by
            rw [<- pop_isNone, hpop]
            rfl
          have hnone : forall y, y ∈ t.nodes -> ¬ t.Grounded y :=
            fun y hy => not_grounded_of_ready_eq_nil hclosed hready hy
          simp only [drain_none hpop, List.not_mem_nil, false_iff, not_and]
          exact hnone x
      | some popped =>
          rcases popped with ⟨y, t'⟩
          rcases pop_eq_some hpop with ⟨hy, rfl⟩
          have hnode := (mem_ready.mp hy).left
          have hlength := remove_length hnode
          have hrest := ih (remove_closed hclosed hy) (by omega)
          simp only [drain_some hpop, List.mem_cons, hrest, mem_remove_nodes,
            grounded_remove_iff hy]
          constructor
          · rintro (rfl | ⟨⟨hx, _⟩, hgrounded⟩)
            · exact ⟨hnode, grounded_of_ready hy⟩
            · exact ⟨hx, hgrounded⟩
          · rintro ⟨hx, hgrounded⟩
            by_cases heq : x = y
            · exact Or.inl heq
            · exact Or.inr ⟨⟨hx, heq⟩, hgrounded⟩

theorem drain_subset {n : Nat} (hx : x ∈ drain order n t) :
    x ∈ t.nodes := by
  induction n generalizing t with
  | zero =>
      rw [drain_zero] at hx
      cases hx
  | succ n ih =>
      cases hpop : t.pop order with
      | none =>
          rw [drain_none hpop] at hx
          cases hx
      | some popped =>
          rcases popped with ⟨y, t'⟩
          rw [drain_some hpop] at hx
          rcases List.mem_cons.mp hx with hx | hx
          · rw [hx]
            exact mem_nodes_of_pop hpop
          · exact pop_nodes_subset hpop (ih hx)

theorem drain_nodup (order : PopOrder node) (n : Nat)
    (t : TopologicalSort node) : (drain order n t).Nodup := by
  induction n generalizing t with
  | zero =>
      rw [drain_zero]
      exact List.nodup_nil
  | succ n ih =>
      cases hpop : t.pop order with
      | none =>
          rw [drain_none hpop]
          exact List.nodup_nil
      | some popped =>
          rcases popped with ⟨x, t'⟩
          rcases pop_eq_some hpop with ⟨_, heq⟩
          subst heq
          rw [drain_some hpop]
          rw [List.nodup_cons]
          refine ⟨?_, ih _⟩
          intro hx
          exact (mem_remove_nodes.mp (drain_subset hx)).right rfl

theorem drain_ordered (order : PopOrder node) (n : Nat)
    (t : TopologicalSort node) :
    (drain order n t).Pairwise
      (fun x y => ¬ Relation.TransGen t.Edge y x) := by
  induction n generalizing t with
  | zero =>
      rw [drain_zero]
      exact List.Pairwise.nil
  | succ n ih =>
      cases hpop : t.pop order with
      | none =>
          rw [drain_none hpop]
          exact List.Pairwise.nil
      | some popped =>
          rcases popped with ⟨x, t'⟩
          rcases pop_eq_some hpop with ⟨hready, heq⟩
          subst heq
          rw [drain_some hpop]
          rw [List.pairwise_cons]
          constructor
          · intro y _ hpath
            rcases Relation.TransGen.tail'_iff.mp hpath with ⟨z, _, hedge⟩
            exact (mem_ready.mp hready).right _ hedge rfl
          · refine (ih (t.remove x)).imp_of_mem ?_
            intro y z _ hz hremaining hpath
            have hne := (mem_remove_nodes.mp (drain_subset hz)).right
            rcases Relation.TransGen.tail'_iff.mp hpath with ⟨w, hway, hedge⟩
            have hway' := path_of_remove hready hne hway
            have hedge' : (t.remove x).Edge w y :=
              List.mem_filter.mpr ⟨hedge, decide_eq_true hway'.left⟩
            exact hremaining (Relation.TransGen.tail' hway'.right hedge')

theorem mem_popAll (hclosed : t.Closed) (order : PopOrder node) :
    x ∈ t.popAll order ↔ x ∈ t.nodes ∧ t.Grounded x :=
  mem_drain hclosed le_rfl

theorem drain_of_le {n m : Nat} (hn : t.nodes.length ≤ n) (hm : n ≤ m) :
    drain order n t = drain order m t := by
  induction n generalizing m t with
  | zero =>
      have hnil : t.nodes = [] := List.length_eq_zero_iff.mp (Nat.le_zero.mp hn)
      have hempty : drain order m t = [] := by
        refine List.eq_nil_iff_forall_not_mem.mpr ?_
        intro x hx
        have hmem := drain_subset hx
        rw [hnil] at hmem
        cases hmem
      rw [drain_zero, hempty]
  | succ n ih =>
      rcases Nat.exists_eq_add_of_le' (Nat.le_trans (Nat.succ_le_succ
        (Nat.zero_le n)) hm) with ⟨k, hk⟩
      rw [hk]
      cases hpop : t.pop order with
      | none => rw [drain_none hpop, drain_none hpop]
      | some popped =>
          rcases popped with ⟨x, t'⟩
          have hlength : t'.nodes.length < t.nodes.length := by
            rw [(pop_eq_some hpop).right]
            exact remove_length (mem_nodes_of_pop hpop)
          rw [drain_some hpop, drain_some hpop,
            ih (m := k) (by omega) (by omega)]

theorem popAll_of_pop (h : t.pop order = some (x, t')) :
    t.popAll order = x :: t'.popAll order := by
  have hlength : t'.nodes.length < t.nodes.length := by
    rw [(pop_eq_some h).right]
    exact remove_length (mem_nodes_of_pop h)
  unfold popAll
  rcases Nat.exists_eq_add_of_lt hlength with ⟨k, hk⟩
  rw [hk, drain_some h, drain_of_le le_rfl (Nat.le_add_right _ k)]

end TopologicalSort

end Foundation
end MailClient
