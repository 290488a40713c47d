import Mathlib.Data.Fintype.EquivFin
import Mathlib.Logic.Relation
import Mathlib.Order.WellFounded

/-!
# Acyclic relations

A directed graph is a relation.  The lemmas describe how acyclicity is kept
when edges are removed and when new edges leave from a single node.
-/

namespace MailClient
namespace Foundation

open Relation

def Acyclic {node : Type} (edge : node -> node -> Prop) : Prop :=
  forall x, ¬ TransGen edge x x

namespace Acyclic

variable {node : Type} {edge edge' : node -> node -> Prop}

theorem mono (hacyclic : Acyclic edge)
    (hsub : forall x y, edge' x y -> edge x y) : Acyclic edge' := by
  intro x hcycle
  exact hacyclic x (TransGen.mono hsub _ _ hcycle)

/--
A path of the larger graph either uses old edges only or passes through the
node the new edges leave from.
-/
theorem path_through_source {source : node}
    (hnew : forall x y, edge' x y -> edge x y ∨ x = source)
    {x y : node} (hpath : TransGen edge' x y) :
    TransGen edge x y ∨
      (ReflTransGen edge' x source ∧ TransGen edge' source y) := by
  induction hpath with
  | single hxy =>
      rcases hnew _ _ hxy with hold | hsource
      · exact Or.inl (TransGen.single hold)
      · subst hsource
        exact Or.inr ⟨ReflTransGen.refl, TransGen.single hxy⟩
  | tail hxb hbc ih =>
      rcases hnew _ _ hbc with hold | hsource
      · rcases ih with hleft | ⟨hto, hfrom⟩
        · exact Or.inl (TransGen.tail hleft hold)
        · exact Or.inr ⟨hto, TransGen.tail hfrom hbc⟩
      · subst hsource
        exact Or.inr ⟨hxb.to_reflTransGen, TransGen.single hbc⟩

theorem add_source {source : node} (hacyclic : Acyclic edge)
    (hnew : forall x y, edge' x y -> edge x y ∨ x = source)
    (hsource : ¬ TransGen edge' source source) : Acyclic edge' := by
  intro x hcycle
  rcases path_through_source hnew hcycle with hold | ⟨hto, hfrom⟩
  · exact hacyclic x hold
  · exact hsource (TransGen.trans_left hfrom hto)

theorem wellFounded (hacyclic : Acyclic edge) {sources : List node}
    (hsources : forall x y, edge x y -> x ∈ sources) : WellFounded edge := by
  let before : {x // x ∈ sources} -> {x // x ∈ sources} -> Prop :=
    fun a b => TransGen edge a.1 b.1
  have hfinite : Finite {x // x ∈ sources} := by
    classical exact inferInstance
  have htrans : IsTrans _ before := ⟨fun a b c hab hbc => hab.trans hbc⟩
  have hirrefl : Std.Irrefl before := ⟨fun a => hacyclic a.1⟩
  have hwf : WellFounded before := Finite.wellFounded_of_trans_of_irrefl before
  have hsource : forall a : {x // x ∈ sources}, Acc edge a.1 := by
    intro a
    induction a using hwf.induction with
    | h a ih =>
        constructor
        intro x hx
        exact ih ⟨x, hsources x a.1 hx⟩ (TransGen.single hx)
  constructor
  intro y
  constructor
  intro x hx
  exact hsource ⟨x, hsources x y hx⟩

end Acyclic

theorem not_cycle_of_acc {node : Type} {edge : node -> node -> Prop} {x : node}
    (h : Acc edge x) : ¬ TransGen edge x x := by
  have hacc := h.transGen
  clear h
  induction hacc with
  | intro y _ ih =>
      intro hcycle
      exact ih y hcycle hcycle

theorem acc_of_path {node : Type} {edge : node -> node -> Prop} {x y : node}
    (h : Acc edge y) (hpath : ReflTransGen edge x y) : Acc edge x := by
  induction hpath using ReflTransGen.head_induction_on with
  | refl => exact h
  | head hedge _ ih => exact ih.inv hedge

end Foundation
end MailClient
