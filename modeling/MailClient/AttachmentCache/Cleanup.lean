import Mathlib.Data.Rat.Defs
import Mathlib.Data.List.Sort
import Mathlib.Order.BoundedOrder.Basic
import Mathlib.Algebra.BigOperators.Group.List.Basic
import Mathlib.Tactic.Linarith
import MailClient.AttachmentCache.Cache

/-!
# Which attachments the cleanup deletes

The attachments are sorted by their utility, from zero to infinity, and deleted
until enough bytes are freed.  Those without any utility are deleted anyway, and
those that cannot be requested again are never deleted.
-/

namespace MailClient
namespace AttachmentCache

variable {utility : Type} [LinearOrder utility] [BoundedOrder utility]

/-- A row of the cache with the utility of its attachment. -/
structure CachedAttachment (utility : Type) where
  utility : utility
  id : LocalAttachmentId
  row : CacheRow
  deriving DecidableEq, Repr

namespace CachedAttachment

def size (att : CachedAttachment utility) : Nat := att.row.size

def totalSize (atts : List (CachedAttachment utility)) : Nat :=
  (atts.map size).sum

end CachedAttachment

open CachedAttachment

/-- A sort that puts attachments of the same utility in any order. -/
structure SortUnstable (utility : Type) [LinearOrder utility] where
  sort : List (CachedAttachment utility) -> List (CachedAttachment utility)
  perm : forall atts, (sort atts).Perm atts
  sorted : forall atts,
    (sort atts).Pairwise (fun a b => a.utility ≤ b.utility)

namespace SortUnstable

def stable (utility : Type) [LinearOrder utility] : SortUnstable utility where
  sort := fun atts => atts.insertionSort (fun a b => a.utility ≤ b.utility)
  perm := fun atts => List.perm_insertionSort _ atts
  sorted := by
    intro atts
    have htotal : Std.Total (fun a b : CachedAttachment utility =>
        a.utility ≤ b.utility) := ⟨fun a b => le_total a.utility b.utility⟩
    have htrans : IsTrans (CachedAttachment utility)
        (fun a b => a.utility ≤ b.utility) := ⟨fun _ _ _ h h' => h.trans h'⟩
    exact List.pairwise_insertionSort _ atts

end SortUnstable

/-!
# Utilities
-/

/-- What decides whether the content can be requested again. -/
structure Requestable where
  isDraft : Bool
  inOutbox : Bool
  /-- `AttachmentType::Remote(Some(_))`. -/
  isRemote : Bool
  deriving DecidableEq, Repr

/-- The score is what has been multiplied up, and none if that is not a number. -/
def getUtility (score : Option utility) (att : Requestable) (size : Nat) :
    utility :=
  if att.isDraft || att.inOutbox || !att.isRemote then ⊤
  else if size = 0 then ⊥
  else score.getD ⊥

/-!
# The cleanup
-/

/-- A conversion of a float to an integer drops the fraction. -/
def asI64 (x : Rat) : Int := x.num.tdiv x.den

/-- How much more is meant to be deleted than is too much. -/
def overFactor : Rat := 1 / 10

def bytesToDelete (currentSize maxSize : Nat) : Int :=
  ((currentSize : Int) - maxSize) + maxSize * asI64 overFactor

/-- The loop over the sorted attachments. -/
def takeUseless :
    Int -> List (CachedAttachment utility) -> List (CachedAttachment utility)
  | _, [] => []
  | bytes, att :: rest =>
      if bytes < 0 ∧ ⊥ < att.utility then []
      else if att.utility = ⊤ then []
      else att :: takeUseless (bytes - att.size) rest

def attachmentsToDelete (order : SortUnstable utility)
    (atts : List (CachedAttachment utility)) (bytes : Int) :
    List (CachedAttachment utility) :=
  takeUseless bytes (order.sort atts)

/-- What `do_cleanup_cache` deletes of the attachments in the cache. -/
def doCleanupCache (order : SortUnstable utility) (maxSize : Nat)
    (atts : List (CachedAttachment utility)) :
    List (CachedAttachment utility) :=
  if totalSize atts < maxSize then []
  else attachmentsToDelete order atts (bytesToDelete (totalSize atts) maxSize)

/-!
# What is meant to be left
-/

/-- What cannot be requested again is kept, and what is useless is not. -/
structure Selects (atts chosen kept : List (CachedAttachment utility)) :
    Prop where
  perm : (chosen ++ kept).Perm atts
  retained : forall a, a ∈ chosen -> a.utility ≠ ⊤
  useless : forall a, a ∈ kept -> a.utility ≠ ⊥
  downward : forall a b, a ∈ chosen -> b ∈ kept -> a.utility ≤ b.utility

/-- The over-delete share is free, unless nothing more may be deleted. -/
def FreesShare (maxSize : Nat) (kept : List (CachedAttachment utility)) :
    Prop :=
  (totalSize kept : Rat) ≤ maxSize - maxSize * overFactor ∨
    forall a, a ∈ kept -> a.utility = ⊤

/-- No attachment ends up between the share and the limit. -/
def FillsNoShare (maxSize : Nat) (sorted : List (CachedAttachment utility)) :
    Prop :=
  forall before a after, sorted = before ++ a :: after -> ⊥ < a.utility ->
    a.utility < ⊤ -> totalSize (a :: after) < maxSize ->
    10 * totalSize (a :: after) ≤ 9 * maxSize

/-!
# The loop
-/

omit [LinearOrder utility] [BoundedOrder utility] in
theorem totalSize_append (s t : List (CachedAttachment utility)) :
    totalSize (s ++ t) = totalSize s + totalSize t := by
  unfold totalSize
  rw [List.map_append, List.sum_append]

omit [LinearOrder utility] [BoundedOrder utility] in
theorem totalSize_perm {s t : List (CachedAttachment utility)}
    (h : s.Perm t) : totalSize s = totalSize t :=
  (h.map size).sum_eq

theorem bytesToDelete_eq (currentSize maxSize : Nat) :
    bytesToDelete currentSize maxSize = (currentSize : Int) - maxSize := by
  have hzero : asI64 overFactor = 0 := by decide +kernel
  unfold bytesToDelete
  rw [hzero]
  omega

/-- What the loop takes and where it stops. -/
structure Taken (bytes : Int)
    (sorted chosen kept : List (CachedAttachment utility)) : Prop where
  split : sorted = chosen ++ kept
  finite : forall a, a ∈ chosen -> a.utility ≠ ⊤
  wanted : forall before a after, chosen = before ++ a :: after ->
    ⊥ < a.utility -> (totalSize before : Int) ≤ bytes
  stops : forall a rest, kept = a :: rest ->
    (bytes < totalSize chosen ∧ ⊥ < a.utility) ∨ a.utility = ⊤

theorem takeUseless_taken (bytes : Int)
    (sorted : List (CachedAttachment utility)) :
    exists kept, Taken bytes sorted (takeUseless bytes sorted) kept := by
  induction sorted generalizing bytes with
  | nil =>
      refine ⟨[], rfl, ?_, ?_, ?_⟩
      · intro a ha
        cases ha
      · intro before a after h
        cases before with
        | nil => cases h
        | cons _ _ => cases h
      · intro a rest h
        cases h
  | cons att rest ih =>
      unfold takeUseless
      have hnone : forall before (a : CachedAttachment utility) after,
          ([] : List (CachedAttachment utility)) ≠ before ++ a :: after := by
        intro before a after h
        cases before with
        | nil => cases h
        | cons _ _ => cases h
      by_cases hdone : bytes < 0 ∧ ⊥ < att.utility
      · rw [if_pos hdone]
        refine ⟨att :: rest, rfl, ?_, ?_, ?_⟩
        · intro a ha
          cases ha
        · intro before a after h
          exact absurd h (hnone before a after)
        · intro a rest' h
          cases h
          exact Or.inl hdone
      · rw [if_neg hdone]
        by_cases htop : att.utility = ⊤
        · rw [if_pos htop]
          refine ⟨att :: rest, rfl, ?_, ?_, ?_⟩
          · intro a ha
            cases ha
          · intro before a after h
            exact absurd h (hnone before a after)
          · intro a rest' h
            cases h
            exact Or.inr htop
        · rw [if_neg htop]
          rcases ih (bytes - att.size) with ⟨kept, htaken⟩
          refine ⟨kept, ?_, ?_, ?_, ?_⟩
          · rw [List.cons_append, <- htaken.split]
          · intro a ha
            rcases List.mem_cons.mp ha with ha | ha
            · rw [ha]
              exact htop
            · exact htaken.finite a ha
          · intro before a after h hpos
            cases before with
            | nil =>
                cases h
                have hbytes : ¬ bytes < 0 := fun hneg => hdone ⟨hneg, hpos⟩
                change (0 : Int) ≤ bytes
                omega
            | cons first before =>
                rw [List.cons_append, List.cons.injEq] at h
                have hrest := htaken.wanted before a after h.right hpos
                change ((first.size + totalSize before : Nat) : Int) ≤ bytes
                rw [<- h.left]
                omega
          · intro a rest' h
            cases htaken.stops a rest' h with
            | inl hstop =>
                refine Or.inl ⟨?_, hstop.right⟩
                have hless := hstop.left
                change bytes < ((att.size + totalSize _ : Nat) : Int)
                omega
            | inr hstop => exact Or.inr hstop

/-!
# What the cleanup leaves
-/

section Cleanup

variable {bytes : Int} {sorted chosen kept : List (CachedAttachment utility)}

theorem Taken.kept_top (h : Taken bytes sorted chosen kept)
    (hsorted : sorted.Pairwise (fun a b => a.utility ≤ b.utility))
    {a : CachedAttachment utility} {rest : List (CachedAttachment utility)}
    (hkept : kept = a :: rest) (htop : a.utility = ⊤) :
    forall b, b ∈ kept -> b.utility = ⊤ := by
  rw [h.split, hkept] at hsorted
  have hrest := (List.pairwise_cons.mp
    (List.pairwise_append.mp hsorted).right.left).left
  intro b hb
  rw [hkept] at hb
  rcases List.mem_cons.mp hb with hb | hb
  · rw [hb]
    exact htop
  · have hle := hrest b hb
    rw [htop] at hle
    exact top_le_iff.mp hle

theorem Taken.selects [Nontrivial utility]
    (h : Taken bytes sorted chosen kept)
    (hsorted : sorted.Pairwise (fun a b => a.utility ≤ b.utility))
    {atts : List (CachedAttachment utility)} (hperm : sorted.Perm atts) :
    Selects atts chosen kept := by
  have hall := hsorted
  rw [h.split] at hall
  refine ⟨?_, h.finite, ?_, ?_⟩
  · rw [<- h.split]
    exact hperm
  · intro b hb
    cases hkept : kept with
    | nil =>
        rw [hkept] at hb
        cases hb
    | cons a rest =>
        have hfirst : ⊥ < a.utility := by
          cases h.stops a rest hkept with
          | inl hstop => exact hstop.right
          | inr htop =>
              rw [htop]
              exact bot_lt_top
        rw [hkept] at hb hall
        rcases List.mem_cons.mp hb with hb | hb
        · rw [hb]
          exact ne_of_gt hfirst
        · have hle := (List.pairwise_cons.mp
            (List.pairwise_append.mp hall).right.left).left b hb
          exact ne_of_gt (lt_of_lt_of_le hfirst hle)
  · intro a b ha hb
    exact (List.pairwise_append.mp hall).right.right a ha b hb

omit [LinearOrder utility] [BoundedOrder utility] in
theorem share_iff {maxSize : Nat} {total : Nat} :
    (total : Rat) ≤ maxSize - maxSize * overFactor ↔
      10 * total ≤ 9 * maxSize := by
  unfold overFactor
  constructor
  · intro h
    have hrat : (10 * total : Rat) ≤ 9 * maxSize := by linarith
    exact_mod_cast hrat
  · intro h
    have hrat : (10 * total : Rat) ≤ 9 * maxSize := by exact_mod_cast h
    linarith

theorem Taken.freesShare_iff {maxSize : Nat}
    (h : Taken ((totalSize sorted : Int) - maxSize) sorted chosen kept)
    (hsorted : sorted.Pairwise (fun a b => a.utility ≤ b.utility)) :
    FreesShare maxSize kept ↔ FillsNoShare maxSize sorted := by
  have htotal : totalSize sorted = totalSize chosen + totalSize kept := by
    rw [<- totalSize_append, <- h.split]
  unfold FreesShare
  rw [share_iff]
  constructor
  · intro hfrees before a after heq hpos hfinite hless
    have hcut := heq
    rw [h.split] at hcut
    rcases List.append_eq_append_iff.mp hcut with
      ⟨more, hbefore, hkept⟩ | ⟨more, hchosen, hrest⟩
    · -- the attachment is kept
      cases hfrees with
      | inl hshare =>
          rw [hkept, totalSize_append] at hshare
          omega
      | inr htop =>
          have hmem : a ∈ kept := by
            rw [hkept]
            exact List.mem_append_right _ List.mem_cons_self
          exact absurd (htop a hmem) (ne_of_lt hfinite)
    · cases more with
      | nil =>
          rw [List.nil_append] at hrest
          cases hfrees with
          | inl hshare =>
              rw [hrest]
              exact hshare
          | inr htop =>
              have hmem : a ∈ kept := by
                rw [<- hrest]
                exact List.mem_cons_self
              exact absurd (htop a hmem) (ne_of_lt hfinite)
      | cons first more =>
          -- the attachment is taken while more than the limit is left
          rw [List.cons_append, List.cons.injEq] at hrest
          rw [<- hrest.left] at hchosen
          have hwanted := h.wanted before a more hchosen hpos
          have hsplit : totalSize sorted =
              totalSize before + totalSize (a :: after) := by
            rw [heq, totalSize_append]
          omega
  · intro hfills
    cases hkept : kept with
    | nil =>
        refine Or.inr ?_
        intro b hb
        cases hb
    | cons a rest =>
        by_cases htop : a.utility = ⊤
        · refine Or.inr ?_
          rw [<- hkept]
          exact h.kept_top hsorted hkept htop
        · cases h.stops a rest hkept with
          | inr htop' => exact absurd htop' htop
          | inl hstop =>
              refine Or.inl ?_
              have hless := hstop.left
              rw [hkept] at htotal
              refine hfills chosen a rest ?_ hstop.right
                (lt_top_iff_ne_top.mpr htop) (by omega)
              rw [<- hkept]
              exact h.split

end Cleanup

theorem cleanup_frees [Nontrivial utility] (order : SortUnstable utility)
    (maxSize : Nat) (atts : List (CachedAttachment utility))
    (h : maxSize ≤ totalSize atts) :
    (exists kept, Selects atts (doCleanupCache order maxSize atts) kept ∧
      FreesShare maxSize kept) ↔ FillsNoShare maxSize (order.sort atts) := by
  rcases takeUseless_taken (bytesToDelete (totalSize atts) maxSize)
    (order.sort atts) with ⟨kept, htaken⟩
  have hchosen : doCleanupCache order maxSize atts =
      takeUseless (bytesToDelete (totalSize atts) maxSize)
        (order.sort atts) := by
    unfold doCleanupCache attachmentsToDelete
    rw [if_neg (Nat.not_lt.mpr h)]
  rw [hchosen]
  have hselects := htaken.selects (order.sorted atts) (order.perm atts)
  rw [bytesToDelete_eq, <- totalSize_perm (order.perm atts)] at htaken
  rw [<- htaken.freesShare_iff (order.sorted atts)]
  constructor
  · intro hfrees
    rcases hfrees with ⟨kept', hselects', hfrees⟩
    -- what is kept is known up to its order
    have hperm : kept'.Perm kept := (List.perm_append_left_iff _).mp
      (hselects'.perm.trans hselects.perm.symm)
    unfold FreesShare at hfrees ⊢
    rw [totalSize_perm hperm] at hfrees
    refine hfrees.imp id ?_
    intro htop a ha
    exact htop a (hperm.symm.subset ha)
  · intro hfrees
    exact ⟨kept, hselects, hfrees⟩

/-- Drafts, outgoing messages and files that are not remote are never chosen. -/
theorem chosen_requestable (order : SortUnstable utility) (maxSize : Nat)
    {atts : List (CachedAttachment utility)} {a : CachedAttachment utility}
    (ha : a ∈ doCleanupCache order maxSize atts) {score : Option utility}
    {att : Requestable} (hutility : a.utility = getUtility score att a.size) :
    att.isDraft = false ∧ att.inOutbox = false ∧ att.isRemote = true := by
  have hfinite : a.utility ≠ ⊤ := by
    unfold doCleanupCache at ha
    split at ha
    · cases ha
    · rcases takeUseless_taken (bytesToDelete (totalSize atts) maxSize)
        (order.sort atts) with ⟨kept, htaken⟩
      exact htaken.finite a ha
  rw [hutility] at hfinite
  unfold getUtility at hfinite
  split at hfinite
  · exact absurd rfl hfinite
  · rename_i hrequestable
    simpa [and_assoc] using hrequestable

/-!
# Caches of three and of two attachments
-/

def cached (utility : Fin 10) (id size : Nat) : CachedAttachment (Fin 10) :=
  ⟨utility, id, ⟨⟨id, "file"⟩, size⟩⟩

theorem cleanup_frees_share :
    exists kept, Selects [cached 9 3 40, cached 1 1 30, cached 2 2 50]
      (doCleanupCache (SortUnstable.stable (Fin 10)) 100
        [cached 9 3 40, cached 1 1 30, cached 2 2 50]) kept ∧
      FreesShare 100 kept := by
  refine (cleanup_frees _ 100 _ (by decide)).mpr ?_
  have hsorted : (SortUnstable.stable (Fin 10)).sort
      [cached 9 3 40, cached 1 1 30, cached 2 2 50] =
        [cached 1 1 30, cached 2 2 50, cached 9 3 40] := by
    decide
  rw [hsorted]
  intro before a after heq _ hfinite hless
  rcases before with _ | ⟨_, _ | ⟨_, _ | ⟨_, _⟩⟩⟩
  · cases heq
    revert hless
    decide
  · cases heq
    decide
  · cases heq
    revert hfinite
    decide
  · simp at heq

/-- The second attachment stays, and leaves five bytes of the share. -/
theorem share_not_freed :
    100 ≤ totalSize [cached 1 1 10, cached 2 2 95] ∧
    ¬ exists kept, Selects [cached 1 1 10, cached 2 2 95]
      (doCleanupCache (SortUnstable.stable (Fin 10)) 100
        [cached 1 1 10, cached 2 2 95]) kept ∧
      FreesShare 100 kept := by
  refine ⟨by decide, ?_⟩
  intro h
  rcases h with ⟨kept, hselects, hfrees⟩
  have hchosen : doCleanupCache (SortUnstable.stable (Fin 10)) 100
      [cached 1 1 10, cached 2 2 95] = [cached 1 1 10] := by
    decide +kernel
  have hperm : kept.Perm [cached 2 2 95] := by
    have hall := hselects.perm
    rw [hchosen] at hall
    exact (List.perm_append_left_iff [cached 1 1 10]).mp hall
  rw [List.perm_singleton.mp hperm] at hfrees
  cases hfrees with
  | inl hshare =>
      rw [share_iff] at hshare
      revert hshare
      decide
  | inr htop =>
      have hlast := htop (cached 2 2 95) (List.mem_singleton_self _)
      revert hlast
      decide

end AttachmentCache
end MailClient
