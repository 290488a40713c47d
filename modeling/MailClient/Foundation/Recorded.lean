import Mathlib.Data.Finset.Filter
import Mathlib.Data.Finset.SDiff

/-!
# Changes of a set with a record

A change takes elements out of a set or puts elements in, and records those
that really left or entered it.  To undo the changes, the elements recorded as
removed are put in again and then those recorded as applied are taken out.
Nothing in the record says in which order things happened, so an element that
was first removed and then applied is lost.
-/

namespace MailClient
namespace Foundation

section Recorded

variable {α : Type} {before after : Finset α} {removed applied : List α}
  {x : α}

/-- What the two records say about an element. -/
structure Recorded (before after : Finset α) (removed applied : List α) :
    Prop where
  lost : forall x, x ∈ before -> x ∉ after -> x ∈ removed
  gained : forall x, x ∉ before -> x ∈ after -> x ∈ applied
  of_removed : forall x, x ∈ removed -> x ∉ applied -> x ∈ before ∧ x ∉ after
  of_applied : forall x, x ∈ applied -> x ∉ removed -> x ∉ before ∧ x ∈ after

namespace Recorded

theorem refl (s : Finset α) : Recorded s s [] [] :=
  ⟨fun _ h hn => absurd h hn, fun _ hn h => absurd h hn,
    fun _ h => (nomatch h), fun _ h => (nomatch h)⟩

section Changes

variable [DecidableEq α]

theorem remove (h : Recorded before after removed applied) (xs : List α) :
    Recorded before (after \ xs.toFinset)
      (removed ++ xs.filter (fun x => x ∈ after)) applied := by
  refine ⟨?_, ?_, ?_, ?_⟩
  · intro x hx hgone
    rw [List.mem_append]
    by_cases hafter : x ∈ after
    · refine Or.inr ?_
      simp only [Finset.mem_sdiff, hafter, List.mem_toFinset, true_and,
        not_not] at hgone
      simp [hgone, hafter]
    · exact Or.inl (h.lost x hx hafter)
  · intro x hx hin
    exact h.gained x hx (Finset.mem_sdiff.mp hin).left
  · intro x hx hnot
    rcases List.mem_append.mp hx with hx | hx
    · have hold := h.of_removed x hx hnot
      exact ⟨hold.left, fun hin => hold.right (Finset.mem_sdiff.mp hin).left⟩
    · simp only [List.mem_filter, decide_eq_true_eq] at hx
      refine ⟨?_, ?_⟩
      · by_contra hbefore
        exact hnot (h.gained x hbefore hx.right)
      · simp [hx.left]
  · intro x hx hnot
    rw [List.mem_append, not_or] at hnot
    have hold := h.of_applied x hx hnot.left
    refine ⟨hold.left, ?_⟩
    have hkept := hnot.right
    simp only [List.mem_filter, hold.right, decide_true, and_true] at hkept
    simp [hold.right, hkept]

theorem apply (h : Recorded before after removed applied) (xs : List α) :
    Recorded before (after ∪ xs.toFinset) removed
      (applied ++ xs.filter (fun x => x ∉ after)) := by
  refine ⟨?_, ?_, ?_, ?_⟩
  · intro x hx hout
    exact h.lost x hx (fun hin => hout (Finset.mem_union_left _ hin))
  · intro x hx hin
    rw [List.mem_append]
    by_cases hafter : x ∈ after
    · exact Or.inl (h.gained x hx hafter)
    · refine Or.inr ?_
      simp only [Finset.mem_union, hafter, List.mem_toFinset, false_or] at hin
      simp [hin, hafter]
  · intro x hx hnot
    rw [List.mem_append, not_or] at hnot
    have hold := h.of_removed x hx hnot.left
    refine ⟨hold.left, ?_⟩
    have hkept := hnot.right
    simp only [List.mem_filter, hold.right, not_false_eq_true, decide_true,
      and_true] at hkept
    simp [hold.right, hkept]
  · intro x hx hnot
    rcases List.mem_append.mp hx with hx | hx
    · have hold := h.of_applied x hx hnot
      exact ⟨hold.left, Finset.mem_union_left _ hold.right⟩
    · simp only [List.mem_filter, decide_eq_true_eq] at hx
      refine ⟨?_, ?_⟩
      · intro hbefore
        exact hnot (h.lost x hbefore hx.right)
      · simp [hx.left]

end Changes

theorem drop (h : Recorded before after removed applied) {p : α -> Prop}
    [DecidablePred p] (hremoved : forall x, x ∈ removed -> ¬ p x)
    (happlied : forall x, x ∈ applied -> ¬ p x) :
    Recorded (before.filter (fun x => ¬ p x))
      (after.filter (fun x => ¬ p x)) removed applied := by
  refine ⟨?_, ?_, ?_, ?_⟩
  · intro x hx hout
    rw [Finset.mem_filter] at hx
    exact h.lost x hx.left
      (fun hin => hout (Finset.mem_filter.mpr ⟨hin, hx.right⟩))
  · intro x hout hx
    rw [Finset.mem_filter] at hx
    exact h.gained x
      (fun hin => hout (Finset.mem_filter.mpr ⟨hin, hx.right⟩)) hx.left
  · intro x hx hnot
    have hold := h.of_removed x hx hnot
    exact ⟨Finset.mem_filter.mpr ⟨hold.left, hremoved x hx⟩,
      fun hin => hold.right (Finset.mem_filter.mp hin).left⟩
  · intro x hx hnot
    have hold := h.of_applied x hx hnot
    exact ⟨fun hin => hold.left (Finset.mem_filter.mp hin).left,
      Finset.mem_filter.mpr ⟨hold.right, happlied x hx⟩⟩

theorem trans {middle : Finset α} {removed' applied' : List α}
    (h : Recorded before middle removed applied)
    (h' : Recorded middle after removed' applied') :
    Recorded before after (removed ++ removed') (applied ++ applied') := by
  refine ⟨?_, ?_, ?_, ?_⟩
  · intro x hbefore hafter
    rw [List.mem_append]
    by_cases hmiddle : x ∈ middle
    · exact Or.inr (h'.lost x hmiddle hafter)
    · exact Or.inl (h.lost x hbefore hmiddle)
  · intro x hbefore hafter
    rw [List.mem_append]
    by_cases hmiddle : x ∈ middle
    · exact Or.inl (h.gained x hbefore hmiddle)
    · exact Or.inr (h'.gained x hmiddle hafter)
  · intro x hx hnot
    rw [List.mem_append, not_or] at hnot
    rcases List.mem_append.mp hx with hx | hx
    · have hold := h.of_removed x hx hnot.left
      exact ⟨hold.left, fun hin => hnot.right (h'.gained x hold.right hin)⟩
    · have hnew := h'.of_removed x hx hnot.right
      refine ⟨?_, hnew.right⟩
      by_contra hbefore
      exact hnot.left (h.gained x hbefore hnew.left)
  · intro x hx hnot
    rw [List.mem_append, not_or] at hnot
    rcases List.mem_append.mp hx with hx | hx
    · have hold := h.of_applied x hx hnot.left
      refine ⟨hold.left, ?_⟩
      by_contra hafter
      exact hnot.right (h'.lost x hold.right hafter)
    · have hnew := h'.of_applied x hx hnot.right
      exact ⟨fun hin => hnot.left (h.lost x hin hnew.left), hnew.right⟩

theorem undo_iff (h : Recorded before after removed applied) :
    (x ∈ after ∨ x ∈ removed) ∧ x ∉ applied ↔
      x ∈ before ∧ ¬ (x ∈ removed ∧ x ∈ applied) := by
  constructor
  · rintro ⟨hin, happlied⟩
    refine ⟨?_, fun hboth => happlied hboth.right⟩
    rcases hin with hafter | hremoved
    · by_contra hbefore
      exact happlied (h.gained x hbefore hafter)
    · exact (h.of_removed x hremoved happlied).left
  · rintro ⟨hbefore, hboth⟩
    constructor
    · by_cases hafter : x ∈ after
      · exact Or.inl hafter
      · exact Or.inr (h.lost x hbefore hafter)
    · intro happlied
      by_cases hremoved : x ∈ removed
      · exact hboth ⟨hremoved, happlied⟩
      · exact (h.of_applied x happlied hremoved).left hbefore

end Recorded

/-!
# Undoing several records
-/

/-- A record, with the elements that get lost when it is undone. -/
structure UndoEntry (α : Type) where
  dropped : α -> Prop
  removed : List α
  applied : List α

namespace UndoEntry

def Mentions (e : UndoEntry α) (x : α) : Prop :=
  e.dropped x ∨ x ∈ e.removed ∨ x ∈ e.applied

/-- The effect of undoing one record on membership. -/
def After (e : UndoEntry α) (member : α -> Prop) (x : α) : Prop :=
  ((member x ∧ ¬ e.dropped x) ∨ x ∈ e.removed) ∧ x ∉ e.applied

theorem foldl_after {entries : List (UndoEntry α)} {member : α -> Prop}
    (h : entries.Pairwise (fun e e' => forall x, e.Mentions x ->
      ¬ e'.Mentions x)) :
    entries.foldl (fun member e => e.After member) member x ↔
      ((member x ∧ forall e, e ∈ entries -> ¬ e.dropped x) ∨
        exists e, e ∈ entries ∧ x ∈ e.removed) ∧
        forall e, e ∈ entries -> x ∉ e.applied := by
  induction entries generalizing member with
  | nil => simp
  | cons e rest ih =>
      rw [List.foldl_cons, ih h.of_cons]
      have hrest := (List.pairwise_cons.mp h).left
      by_cases hmentions : e.Mentions x
      · have hnone : forall e', e' ∈ rest -> ¬ e'.Mentions x :=
          fun e' he' => hrest e' he' x hmentions
        have hdropped : forall e', e' ∈ rest -> ¬ e'.dropped x :=
          fun e' he' hd => hnone e' he' (Or.inl hd)
        have hremoved : ¬ exists e', e' ∈ rest ∧ x ∈ e'.removed :=
          fun ⟨e', he', hr⟩ => hnone e' he' (Or.inr (Or.inl hr))
        have happlied : forall e', e' ∈ rest -> x ∉ e'.applied :=
          fun e' he' ha => hnone e' he' (Or.inr (Or.inr ha))
        simp only [After, List.forall_mem_cons, List.exists_mem_cons_iff,
          iff_true_intro hdropped, iff_true_intro happlied,
          iff_false_intro hremoved]
        tauto
      · have hdropped : ¬ e.dropped x := fun hd => hmentions (Or.inl hd)
        have hremoved : x ∉ e.removed :=
          fun hr => hmentions (Or.inr (Or.inl hr))
        have happlied : x ∉ e.applied :=
          fun ha => hmentions (Or.inr (Or.inr ha))
        simp only [After, List.forall_mem_cons, List.exists_mem_cons_iff,
          hdropped, hremoved, happlied]
        tauto

end UndoEntry

end Recorded

end Foundation
end MailClient
