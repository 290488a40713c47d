import Mathlib.Algebra.BigOperators.Group.Finset.Basic
import Mathlib.Algebra.Group.Basic

/-!
# Totals kept beside the entries

Entries by key, and totals over the entries that are not computed from them but
adjusted whenever an entry changes.  A change sees one entry and all totals.  It
tracks a weight of entries if it keeps what the totals count besides the entry.
-/

namespace MailClient
namespace Foundation

/-- One entry with the totals. -/
structure Cell (σ ι A : Type) where
  entry : σ
  totals : ι -> A

structure Ledger (κ σ ι A : Type) where
  entries : κ -> σ
  totals : ι -> A

section Tracks

variable {σ ι A : Type} [AddCommMonoid A]
variable {weight : σ -> ι -> A} {shown : ι -> Prop}
variable {f g : Cell σ ι A -> Cell σ ι A}

/-- The new entry depends on the old one only, and the totals follow it. -/
structure Tracks (weight : σ -> ι -> A) (shown : ι -> Prop)
    (f : Cell σ ι A -> Cell σ ι A) : Prop where
  entry : forall c c', c.entry = c'.entry -> (f c).entry = (f c').entry
  totals : forall c i, shown i -> forall base,
    c.totals i = base + weight c.entry i ->
    (f c).totals i = base + weight (f c).entry i

theorem Tracks.id : Tracks weight shown (fun c => c) :=
  ⟨fun _ _ h => h, fun _ _ _ _ h => h⟩

theorem Tracks.comp (hg : Tracks weight shown g) (hf : Tracks weight shown f) :
    Tracks weight shown (fun c => g (f c)) := by
  refine ⟨?_, ?_⟩
  · intro c c' h
    exact hg.entry _ _ (hf.entry c c' h)
  · intro c i hi base h
    exact hg.totals _ i hi base (hf.totals c i hi base h)

theorem Tracks.foldl {α : Type}
    {step : α -> Cell σ ι A -> Cell σ ι A}
    (h : forall a, Tracks weight shown (step a)) (xs : List α) :
    Tracks weight shown (fun c => xs.foldl (fun c a => step a c) c) := by
  induction xs with
  | nil => exact Tracks.id
  | cons a rest ih => exact ih.comp (h a)

theorem Tracks.choose {F : σ -> Cell σ ι A -> Cell σ ι A}
    (h : forall e, Tracks weight shown (F e)) :
    Tracks weight shown (fun c => F c.entry c) := by
  refine ⟨?_, ?_⟩
  · intro c c' heq
    rw [heq]
    exact (h c'.entry).entry c c' heq
  · intro c i hi base hc
    exact (h c.entry).totals c i hi base hc

end Tracks

namespace Ledger

variable {κ σ ι A : Type} [DecidableEq κ]

def change (f : Cell σ ι A -> Cell σ ι A) (k : κ)
    (s : Ledger κ σ ι A) : Ledger κ σ ι A :=
  let c := f ⟨s.entries k, s.totals⟩
  { entries := Function.update s.entries k c.entry
    totals := c.totals }

/-- The changes of the selected keys, in order. -/
def run (selected : κ -> Bool)
    (changes : List (κ × (Cell σ ι A -> Cell σ ι A)))
    (s : Ledger κ σ ι A) : Ledger κ σ ι A :=
  changes.foldl (fun s c => if selected c.1 then s.change c.2 c.1 else s) s

variable {selected selected' : κ -> Bool} {s s' : Ledger κ σ ι A}
variable {changes : List (κ × (Cell σ ι A -> Cell σ ι A))}

theorem run_cons (c : κ × (Cell σ ι A -> Cell σ ι A)) :
    run selected (c :: changes) s =
      run selected changes (if selected c.1 then s.change c.2 c.1 else s) :=
  rfl

variable [AddCommMonoid A] {weight : σ -> ι -> A} {shown : ι -> Prop}

/-- The total is that of the given keys on top of a base. -/
def Balanced (weight : σ -> ι -> A) (keys : Finset κ) (base : A)
    (i : ι) (s : Ledger κ σ ι A) : Prop :=
  s.totals i = base + ∑ k ∈ keys, weight (s.entries k) i

theorem Balanced.change {keys : Finset κ} {base : A} {i : ι}
    (h : Balanced weight keys base i s) {k : κ} (hk : k ∈ keys)
    {f : Cell σ ι A -> Cell σ ι A} (hf : Tracks weight shown f)
    (hi : shown i) : Balanced weight keys base i (s.change f k) := by
  have hothers : ∑ k' ∈ keys.erase k, weight ((s.change f k).entries k') i =
      ∑ k' ∈ keys.erase k, weight (s.entries k') i := by
    apply Finset.sum_congr rfl
    intro k' hk'
    unfold Ledger.change
    dsimp only
    rw [Function.update_of_ne (Finset.ne_of_mem_erase hk')]
  have hown : (s.change f k).entries k = (f ⟨s.entries k, s.totals⟩).entry :=
    Function.update_self k _ s.entries
  unfold Balanced at h ⊢
  rw [← Finset.add_sum_erase _ _ hk, hothers, hown, add_left_comm, add_comm]
  apply hf.totals ⟨s.entries k, s.totals⟩ i hi
  dsimp only
  rw [h, ← Finset.add_sum_erase _ _ hk, add_left_comm, add_comm]

theorem Balanced.run {keys : Finset κ} {base : A} {i : ι}
    (hselected : forall c, c ∈ changes -> selected c.1 = true -> c.1 ∈ keys)
    (hchanges : forall c, c ∈ changes -> Tracks weight shown c.2)
    (hi : shown i) (h : Balanced weight keys base i s) :
    Balanced weight keys base i (s.run selected changes) := by
  induction changes generalizing s with
  | nil => exact h
  | cons c rest ih =>
      rw [run_cons]
      apply ih
      · exact fun c' hc' => hselected c' (List.mem_cons_of_mem c hc')
      · exact fun c' hc' => hchanges c' (List.mem_cons_of_mem c hc')
      · split
        · rename_i hsel
          exact h.change (hselected c List.mem_cons_self hsel)
            (hchanges c List.mem_cons_self) hi
        · exact h

theorem run_agree
    (hselected : forall k, selected k = true -> selected' k = true)
    (hchanges : forall c, c ∈ changes -> Tracks weight shown c.2)
    (h : forall k, selected k = true -> s.entries k = s'.entries k)
    {k : κ} (hk : selected k = true) :
    (s.run selected changes).entries k =
      (s'.run selected' changes).entries k := by
  induction changes generalizing s s' with
  | nil => exact h k hk
  | cons c rest ih =>
      rw [run_cons, run_cons]
      apply ih (fun c' hc' => hchanges c' (List.mem_cons_of_mem c hc'))
      intro k' hk'
      by_cases hkey : k' = c.1
      · subst hkey
        rw [if_pos hk', if_pos (hselected _ hk')]
        unfold Ledger.change
        dsimp only
        rw [Function.update_self, Function.update_self]
        exact (hchanges c List.mem_cons_self).entry _ _ (h _ hk')
      · have hkept : forall (b : Bool) (s : Ledger κ σ ι A),
            (if b then s.change c.2 c.1 else s).entries k' = s.entries k' := by
          intro b s
          cases b with
          | false => rfl
          | true => exact Function.update_of_ne hkey _ s.entries
        rw [hkept, hkept]
        exact h k' hk'

end Ledger

section Partial

variable {κ σ ι A : Type} [DecidableEq κ]
variable [AddCancelCommMonoid A]
variable {weight : σ -> ι -> A} {shown : ι -> Prop}
variable {changes : List (κ × (Cell σ ι A -> Cell σ ι A))}

open Ledger

/--
Totals that count all keys are read, but only the changes of some keys are made:
what is missing is what the changes of the others would do to the totals.
-/
theorem Ledger.run_totals_eq_iff {keys part : Finset κ}
    {s s' : Ledger κ σ ι A} {base : A} {i : ι}
    (hpart : part ⊆ keys) (hi : shown i)
    (hkeys : forall c, c ∈ changes -> c.1 ∈ keys)
    (hchanges : forall c, c ∈ changes -> Tracks weight shown c.2)
    (hentries : forall k, k ∈ part -> s'.entries k = s.entries k)
    (htotals : s'.totals i = s.totals i)
    (h : Balanced weight keys base i s) :
    (s'.run (fun k => k ∈ part) changes).totals i =
        (s.run (fun _ => true) changes).totals i ↔
      ∑ k ∈ keys \ part, weight ((s.run (fun _ => true) changes).entries k) i =
        ∑ k ∈ keys \ part, weight (s.entries k) i := by
  have hall : Balanced weight keys base i (s.run (fun _ => true) changes) :=
    h.run (fun c hc _ => hkeys c hc) hchanges hi
  have hsome : Balanced weight part
      (base + ∑ k ∈ keys \ part, weight (s.entries k) i) i s' := by
    unfold Balanced at h ⊢
    rw [htotals, h, ← Finset.sum_sdiff hpart, add_assoc]
    congr 2
    exact Finset.sum_congr rfl (fun k hk => by rw [hentries k hk])
  have hrun : Balanced weight part
      (base + ∑ k ∈ keys \ part, weight (s.entries k) i) i
      (s'.run (fun k => k ∈ part) changes) :=
    hsome.run (fun c _ hc => of_decide_eq_true hc) hchanges hi
  have hagree : ∑ k ∈ part,
      weight ((s'.run (fun k => k ∈ part) changes).entries k) i =
      ∑ k ∈ part, weight ((s.run (fun _ => true) changes).entries k) i := by
    apply Finset.sum_congr rfl
    intro k hk
    rw [run_agree (fun _ _ => rfl) hchanges
      (fun k hk => hentries k (of_decide_eq_true hk)) (decide_eq_true hk)]
  unfold Balanced at hall hrun
  rw [hall, hrun, hagree, ← Finset.sum_sdiff hpart, ← add_assoc]
  constructor
  · intro heq
    exact (add_left_cancel (add_right_cancel heq)).symm
  · intro heq
    rw [heq]

end Partial

end Foundation
end MailClient
