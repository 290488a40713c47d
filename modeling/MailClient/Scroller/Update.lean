import Mathlib.Data.List.Forall2
import Mathlib.Order.Lattice.Nat

/-!
# List updates of a scroller

The worker of a scroller describes every change of its item list by one
`ScrollerListUpdate`, which the client splices into its own copy.  This module
models the updates, the client's splice and the difference computed by
`calculate_scroller_update`, and proves what the client holds after applying
it.
-/

namespace MailClient
namespace Scroller

abbrev Uuid := Nat

inductive ScrollerSource where
  | scrollEvent (id : Uuid)
  | database
  | invalidation
  deriving DecidableEq, Repr

inductive MailContextError where
  | missingContext
  | noConnection
  | taskCancelled
  | other (code : Nat)
  deriving DecidableEq, Repr

/--
`ScrollerEq`: items that look the same to the client.  The comparison is
derived field by field, so it is an equivalence.
-/
structure ScrollerEq (item : Type) where
  scrollerEq : item -> item -> Bool
  refl : forall a, scrollerEq a a = true
  symm : forall a b, scrollerEq a b = true -> scrollerEq b a = true
  trans : forall a b c, scrollerEq a b = true -> scrollerEq b c = true ->
    scrollerEq a c = true

def ScrollerEq.ofEq (item : Type) [DecidableEq item] : ScrollerEq item where
  scrollerEq a b := decide (a = b)
  refl _ := decide_eq_true rfl
  symm _ _ h := decide_eq_true (of_decide_eq_true h).symm
  trans _ _ _ h h' :=
    decide_eq_true ((of_decide_eq_true h).trans (of_decide_eq_true h'))

inductive ScrollerListUpdate (item : Type) where
  | none
  | append (items : List item)
  | replaceFrom (idx : Nat) (items : List item)
  | replaceBefore (idx : Nat) (items : List item)
  | replaceRange (first last : Nat) (items : List item)
  deriving DecidableEq, Repr

inductive ScrollerStatusUpdate where
  | fetchNewStart
  | fetchNewEnd
  deriving DecidableEq, Repr

/-- `src` and `scroller_id` are the same for all parts of one update. -/
inductive ScrollerUpdate (item : Type) where
  | list (src : ScrollerSource) (scrollerId : Uuid)
      (update : ScrollerListUpdate item)
  | status (src : ScrollerSource) (update : ScrollerStatusUpdate)
  | categoryViewChanged (src : ScrollerSource)
  | error (src : ScrollerSource) (e : MailContextError)
  deriving DecidableEq, Repr

namespace ScrollerUpdate

variable {item : Type}

def src : ScrollerUpdate item -> ScrollerSource
  | list src _ _ => src
  | status src _ => src
  | categoryViewChanged src => src
  | error src _ => src

def isSome : ScrollerUpdate item -> Bool
  | list _ _ ScrollerListUpdate.none => false
  | _ => true

def isError : ScrollerUpdate item -> Bool
  | error _ _ => true
  | _ => false

def isScrollEvent (u : ScrollerUpdate item) : Bool :=
  match u.src with
  | ScrollerSource.scrollEvent _ => true
  | _ => false

end ScrollerUpdate

/-!
# The client
-/

/-- `Vec::splice` over a range; `none` is its panic on an invalid range. -/
def splice {item : Type} (first last : Nat) (items current : List item) :
    Option (List item) :=
  if first ≤ last ∧ last ≤ current.length then
    some (current.take first ++ items ++ current.drop last)
  else
    none

def applyListUpdate {item : Type} (current : List item) :
    ScrollerListUpdate item -> Option (List item)
  | ScrollerListUpdate.none => some current
  | ScrollerListUpdate.append items => some (current ++ items)
  | ScrollerListUpdate.replaceFrom idx items =>
      splice idx current.length items current
  | ScrollerListUpdate.replaceBefore idx items => splice 0 idx items current
  | ScrollerListUpdate.replaceRange first last items =>
      splice first last items current

def applyScrollerUpdate {item : Type} (current : List item) :
    ScrollerUpdate item -> Option (List item)
  | ScrollerUpdate.list _ _ update => applyListUpdate current update
  | _ => some current

def applyAll {item : Type} (current : List item) :
    List (ScrollerUpdate item) -> Option (List item)
  | [] => some current
  | u :: rest => (applyScrollerUpdate current u).bind (fun c => applyAll c rest)

/-!
# The difference of two lists
-/

section Difference

variable {item : Type} (E : ScrollerEq item)

def prefixCount : List item -> List item -> Nat
  | a :: old, b :: new =>
      if E.scrollerEq a b then prefixCount old new + 1 else 0
  | _, _ => 0

def suffixCount (old new : List item) : Nat :=
  prefixCount E old.reverse new.reverse

def calculateScrollerUpdate (old new : List item) : ScrollerListUpdate item :=
  let prefixLength := prefixCount E old new
  if old.length = new.length ∧ prefixLength = old.length then
    ScrollerListUpdate.none
  else if prefixLength = old.length then
    ScrollerListUpdate.append (new.drop prefixLength)
  else
    let suffixLength := suffixCount E old new
    if suffixLength = 0 then
      ScrollerListUpdate.replaceFrom prefixLength (new.drop prefixLength)
    else if prefixLength = 0 then
      ScrollerListUpdate.replaceBefore (old.length - suffixLength)
        (new.take (new.length - suffixLength))
    else if prefixLength > new.length - suffixLength then
      ScrollerListUpdate.replaceFrom 0 new
    else
      ScrollerListUpdate.replaceRange prefixLength
        (old.length - suffixLength)
        ((new.take (new.length - suffixLength)).drop prefixLength)

/-- Lists the client cannot tell apart. -/
def Mirrors (xs ys : List item) : Prop :=
  List.Forall₂ (fun a b => E.scrollerEq a b = true) xs ys

end Difference

namespace Mirrors

variable {item : Type} {E : ScrollerEq item}

theorem refl (xs : List item) : Mirrors E xs xs := by
  induction xs with
  | nil =>
      exact List.Forall₂.nil
  | cons x rest ih =>
      exact List.Forall₂.cons (E.refl x) ih

theorem symm {xs ys : List item} (h : Mirrors E xs ys) : Mirrors E ys xs := by
  induction h with
  | nil =>
      exact List.Forall₂.nil
  | cons hab _ ih =>
      exact List.Forall₂.cons (E.symm _ _ hab) ih

theorem trans {xs ys zs : List item} (hxy : Mirrors E xs ys)
    (hyz : Mirrors E ys zs) : Mirrors E xs zs := by
  induction hxy generalizing zs with
  | nil =>
      exact hyz
  | cons hab _ ih =>
      cases hyz with
      | cons hbc hrest =>
          exact List.Forall₂.cons (E.trans _ _ _ hab hbc) (ih hrest)

theorem append {xs ys xs' ys' : List item} (h : Mirrors E xs ys)
    (h' : Mirrors E xs' ys') : Mirrors E (xs ++ xs') (ys ++ ys') :=
  List.rel_append h h'

theorem length_eq {xs ys : List item} (h : Mirrors E xs ys) :
    xs.length = ys.length :=
  List.Forall₂.length_eq h

end Mirrors

/-!
# Common ends
-/

section CommonEnds

variable {item : Type} (E : ScrollerEq item)

theorem prefixCount_le (old new : List item) :
    prefixCount E old new ≤ old.length ∧
      prefixCount E old new ≤ new.length := by
  induction old generalizing new with
  | nil =>
      cases new with
      | nil => exact ⟨Nat.le_refl _, Nat.le_refl _⟩
      | cons b new => exact ⟨Nat.le_refl _, Nat.zero_le _⟩
  | cons a old ih =>
      cases new with
      | nil =>
          exact ⟨Nat.zero_le _, Nat.le_refl _⟩
      | cons b new =>
          unfold prefixCount
          split
          · exact ⟨Nat.succ_le_succ (ih new).left,
              Nat.succ_le_succ (ih new).right⟩
          · exact ⟨Nat.zero_le _, Nat.zero_le _⟩

theorem prefixCount_mirrors (old new : List item) :
    Mirrors E (old.take (prefixCount E old new))
      (new.take (prefixCount E old new)) := by
  induction old generalizing new with
  | nil =>
      cases new with
      | nil => exact List.Forall₂.nil
      | cons b new => exact List.Forall₂.nil
  | cons a old ih =>
      cases new with
      | nil =>
          exact List.Forall₂.nil
      | cons b new =>
          unfold prefixCount
          split
          · rename_i hab
            exact List.Forall₂.cons hab (ih new)
          · exact List.Forall₂.nil

theorem suffixCount_le (old new : List item) :
    suffixCount E old new ≤ old.length ∧
      suffixCount E old new ≤ new.length := by
  have h := prefixCount_le E old.reverse new.reverse
  rw [List.length_reverse, List.length_reverse] at h
  exact h

theorem suffixCount_mirrors (old new : List item) :
    Mirrors E (old.drop (old.length - suffixCount E old new))
      (new.drop (new.length - suffixCount E old new)) := by
  have hle := suffixCount_le E old new
  have h := prefixCount_mirrors E old.reverse new.reverse
  have hold : old.reverse.take (suffixCount E old new) =
      (old.drop (old.length - suffixCount E old new)).reverse :=
    List.take_reverse
  have hnew : new.reverse.take (suffixCount E old new) =
      (new.drop (new.length - suffixCount E old new)).reverse :=
    List.take_reverse
  unfold Mirrors
  rw [<- List.forall₂_reverse_iff, <- hold, <- hnew]
  exact h

/-!
# Applying the difference

The only update that a client in step with the worker cannot apply is a range
that ends before it starts.  It is sent when the common ends overlap in the old
list but not in the new one.
-/

def RangeInverted (old new : List item) : Prop :=
  prefixCount E old new ≠ old.length ∧
    old.length < prefixCount E old new + suffixCount E old new ∧
    prefixCount E old new + suffixCount E old new ≤ new.length

instance (old new : List item) : Decidable (RangeInverted E old new) :=
  inferInstanceAs (Decidable (_ ∧ _ ∧ _))

variable {E}

theorem splice_mirrors {client old new items : List item} {first last : Nat}
    (next : Nat) (hclient : Mirrors E client old) (hfirst : first ≤ last)
    (hlast : last ≤ old.length)
    (hhead : Mirrors E (old.take first) (new.take first))
    (htail : Mirrors E (old.drop last) (new.drop next))
    (hitems : new = new.take first ++ items ++ new.drop next) :
    exists c, splice first last items client = some c ∧ Mirrors E c new := by
  have hlength := hclient.length_eq
  refine ⟨client.take first ++ items ++ client.drop last, ?_, ?_⟩
  · unfold splice
    rw [if_pos ⟨hfirst, by rw [hlength]; exact hlast⟩]
  · rw [hitems]
    have hhead' : Mirrors E (client.take first) (new.take first) :=
      Mirrors.trans (List.forall₂_take first hclient) hhead
    have htail' : Mirrors E (client.drop last) (new.drop next) :=
      Mirrors.trans (List.forall₂_drop last hclient) htail
    exact (hhead'.append (Mirrors.refl items)).append htail'

theorem replaceFrom_mirrors {client old new : List item} {first : Nat}
    (hclient : Mirrors E client old) (hfirst : first ≤ old.length)
    (hhead : Mirrors E (old.take first) (new.take first)) :
    exists c, applyListUpdate client
        (ScrollerListUpdate.replaceFrom first (new.drop first)) = some c ∧
      Mirrors E c new := by
  unfold applyListUpdate
  rw [hclient.length_eq]
  refine splice_mirrors new.length hclient hfirst (Nat.le_refl _)
    hhead ?_ ?_
  · rw [List.drop_length, List.drop_length]
    exact List.Forall₂.nil
  · rw [List.drop_length, List.append_nil, List.take_append_drop]

theorem replaceAll_mirrors (E : ScrollerEq item) (client new : List item) :
    exists c, applyListUpdate client (ScrollerListUpdate.replaceFrom 0 new) =
      some c ∧ Mirrors E c new :=
  replaceFrom_mirrors (Mirrors.refl client) (Nat.zero_le _) List.Forall₂.nil

theorem take_drop_split (new : List item) {first next : Nat}
    (h : first ≤ next) :
    new = new.take first ++ (new.take next).drop first ++ new.drop next := by
  have hhead : new.take first = (new.take next).take first := by
    rw [List.take_take, Nat.min_eq_left h]
  rw [hhead, List.take_append_drop, List.take_append_drop]

theorem calculateScrollerUpdate_mirrors {client old new : List item}
    (hclient : Mirrors E client old) (hrange : ¬ RangeInverted E old new) :
    exists c, applyListUpdate client (calculateScrollerUpdate E old new) =
      some c ∧ Mirrors E c new := by
  have hprefix := prefixCount_le E old new
  have hsuffix := suffixCount_le E old new
  have hhead := prefixCount_mirrors E old new
  have htail := suffixCount_mirrors E old new
  unfold calculateScrollerUpdate
  dsimp only
  split
  · -- Same length and all equal.
    rename_i hsame
    refine ⟨client, rfl, ?_⟩
    rw [hsame.right, List.take_length, hsame.left, List.take_length] at hhead
    exact hclient.trans hhead
  · split
    · -- The old list is the beginning of the new one.
      rename_i hall
      refine ⟨client ++ new.drop (prefixCount E old new), rfl, ?_⟩
      rw [hall, List.take_length] at hhead
      rw [hall]
      have hjoined := (hclient.trans hhead).append
        (Mirrors.refl (E := E) (new.drop old.length))
      rw [List.take_append_drop] at hjoined
      exact hjoined
    · rename_i hsome
      split
      · exact replaceFrom_mirrors hclient hprefix.left hhead
      · split
        · refine splice_mirrors (new.length - suffixCount E old new)
            hclient (Nat.zero_le _) (Nat.sub_le _ _) List.Forall₂.nil htail ?_
          rw [List.take_zero, List.nil_append, List.take_append_drop]
        · split
          · exact replaceAll_mirrors E client new
          · rename_i hover
            have hfits : prefixCount E old new ≤
                old.length - suffixCount E old new := by
              by_contra hnot
              apply hrange
              refine ⟨hsome, ?_, ?_⟩
              · omega
              · omega
            exact splice_mirrors _ hclient hfits (Nat.sub_le _ _) hhead htail
              (take_drop_split new (Nat.le_of_not_lt hover))

theorem calculateScrollerUpdate_inverted {client old new : List item}
    (hrange : RangeInverted E old new) :
    applyListUpdate client (calculateScrollerUpdate E old new) = none := by
  have hprefix := prefixCount_le E old new
  have hsuffix := suffixCount_le E old new
  rcases hrange with ⟨hsome, hover, hfits⟩
  unfold calculateScrollerUpdate
  dsimp only
  rw [if_neg (fun h => hsome h.right), if_neg hsome, if_neg (by omega),
    if_neg (by omega), if_neg (by omega)]
  show splice _ _ _ client = none
  unfold splice
  rw [if_neg (by omega)]

example : calculateScrollerUpdate (ScrollerEq.ofEq Nat) [1, 2, 2, 3]
    [1, 2, 2, 9, 2, 2, 3] = ScrollerListUpdate.replaceRange 3 1 [9] := by
  decide

/-!
# Exact differences
-/

/-- The indices of an update are valid for a list of this length. -/
def ScrollerListUpdate.Fits (length : Nat) : ScrollerListUpdate item -> Prop
  | none => True
  | append _ => True
  | replaceFrom idx _ => idx ≤ length
  | replaceBefore idx _ => idx ≤ length
  | replaceRange first last _ => first ≤ last ∧ last ≤ length

theorem fits_iff (old : List item) (update : ScrollerListUpdate item) :
    update.Fits old.length ↔ exists c, applyListUpdate old update = some c := by
  have hsplice (first last : Nat) (items : List item) :
      (first ≤ last ∧ last ≤ old.length) ↔
        exists c, splice first last items old = some c := by
    unfold splice
    split
    · rename_i h
      exact iff_of_true h ⟨_, rfl⟩
    · rename_i h
      exact iff_of_false h (fun hsome => nomatch hsome.choose_spec)
  cases update with
  | none => exact iff_of_true trivial ⟨old, rfl⟩
  | append items => exact iff_of_true trivial ⟨old ++ items, rfl⟩
  | replaceFrom idx items =>
      have h := hsplice idx old.length items
      rw [and_iff_left (Nat.le_refl _)] at h
      exact h
  | replaceBefore idx items =>
      have h := hsplice 0 idx items
      rw [and_iff_right (Nat.zero_le _)] at h
      exact h
  | replaceRange first last items => exact hsplice first last items

variable (E)

/-- The numbers of items that two lists have in common at their beginnings. -/
def CommonPrefixes (old new : List item) : Set Nat :=
  { k | k ≤ old.length ∧ k ≤ new.length ∧
    Mirrors E (old.take k) (new.take k) }

/-- The length of the longest common beginning. -/
noncomputable def longestPrefix (old new : List item) : Nat :=
  sSup (CommonPrefixes E old new)

noncomputable def longestSuffix (old new : List item) : Nat :=
  longestPrefix E old.reverse new.reverse

theorem le_prefixCount {old new : List item} {k : Nat} (hold : k ≤ old.length)
    (hnew : k ≤ new.length) (h : Mirrors E (old.take k) (new.take k)) :
    k ≤ prefixCount E old new := by
  induction k generalizing old new with
  | zero => exact Nat.zero_le _
  | succ k ih =>
      cases old with
      | nil => exact absurd hold (Nat.not_succ_le_zero k)
      | cons a old =>
          cases new with
          | nil => exact absurd hnew (Nat.not_succ_le_zero k)
          | cons b new =>
              rw [List.take_succ_cons, List.take_succ_cons] at h
              cases h with
              | cons hab hrest =>
                  unfold prefixCount
                  rw [if_pos hab]
                  exact Nat.succ_le_succ (ih (Nat.le_of_succ_le_succ hold)
                    (Nat.le_of_succ_le_succ hnew) hrest)

theorem prefixCount_eq_longest (old new : List item) :
    prefixCount E old new = longestPrefix E old new := by
  have hgreatest :
      IsGreatest (CommonPrefixes E old new) (prefixCount E old new) := by
    constructor
    · have hle := prefixCount_le E old new
      exact ⟨hle.left, hle.right, prefixCount_mirrors E old new⟩
    · intro k hk
      exact le_prefixCount E hk.left hk.right.left hk.right.right
  exact hgreatest.csSup_eq.symm

/--
The update has valid indices and turns the old list into one that the client
cannot tell from the new one.
-/
def Exact (old new : List item) : Prop :=
  (calculateScrollerUpdate E old new).Fits old.length ∧
    exists c, applyListUpdate old (calculateScrollerUpdate E old new) =
      some c ∧ Mirrors E c new

/-- The common ends overlap in the old list but not in the new one. -/
def EndsOverlap (old new : List item) : Prop :=
  longestPrefix E old new < old.length ∧
    old.length < longestPrefix E old new + longestSuffix E old new ∧
    longestPrefix E old new + longestSuffix E old new ≤ new.length

theorem rangeInverted_iff (old new : List item) :
    RangeInverted E old new ↔ EndsOverlap E old new := by
  have hle := (prefixCount_le E old new).left
  have hne : prefixCount E old new ≠ old.length ↔
      prefixCount E old new < old.length :=
    ⟨lt_of_le_of_ne hle, ne_of_lt⟩
  unfold RangeInverted EndsOverlap suffixCount longestSuffix
  rw [hne, prefixCount_eq_longest, prefixCount_eq_longest]

/-- The difference is exact unless the common ends overlap in the old list. -/
theorem calculateScrollerUpdate_exact_iff (old new : List item) :
    Exact E old new ↔ ¬ EndsOverlap E old new := by
  rw [<- rangeInverted_iff]
  constructor
  · intro hexact hrange
    rcases hexact.right with ⟨c, hc, _⟩
    rw [calculateScrollerUpdate_inverted hrange] at hc
    cases hc
  · intro hrange
    rcases calculateScrollerUpdate_mirrors (Mirrors.refl old) hrange with
      ⟨c, hc, hmirrors⟩
    exact ⟨(fits_iff _ _).mpr ⟨c, hc⟩, c, hc, hmirrors⟩

/-- Inserting `9, 2, 2` into `1, 2, 2, 3` is sent as the range from 3 to 1. -/
theorem repeated_items_not_exact :
    ¬ Exact (ScrollerEq.ofEq Nat) [1, 2, 2, 3] [1, 2, 2, 9, 2, 2, 3] := by
  have hupdate : calculateScrollerUpdate (ScrollerEq.ofEq Nat) [1, 2, 2, 3]
      [1, 2, 2, 9, 2, 2, 3] = ScrollerListUpdate.replaceRange 3 1 [9] := by
    decide
  intro hexact
  have hfits := hexact.left
  rw [hupdate] at hfits
  exact absurd hfits.left (by decide)

end CommonEnds

end Scroller
end MailClient
