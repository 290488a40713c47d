import MailClient.Recurrence.Fact
import Mathlib.Data.Finset.Basic
import Mathlib.Data.List.DropRight
import Mathlib.Data.List.Nodup

/-!
# Picking items by their position

The collection behind `BYSETPOS`.  The items of a group are pushed one by one;
an item whose position from the front is wanted is returned at once if no
position from the back is wanted, and is kept otherwise.  Of the other items
the last ones are kept, as many as the farthest position from the back asks
for.  After the group is closed the wanted items are pulled in order.

The counters are those of a release build: they wrap where a debug build
panics.
-/

namespace MailClient
namespace Recurrence

inductive PickerState where
  | opened (len : Int)
  | closed
  deriving DecidableEq, Repr

structure Picker (item : Type) where
  front : List item
  frontIdxs : Finset Int
  back : List (Int × item)
  backIdxs : Finset Int
  /-- `back.capacity()`. -/
  backCap : Nat
  state : PickerState

namespace Picker

variable {item : Type}

def new (idxs : List Int) : Option (Picker item) :=
  let frontIdxs := idxs.filter (fun idx => 0 < idx)
  let backIdxs := idxs.filter (fun idx => ¬ 0 < idx)
  let backCap := backIdxs.foldl (fun cap idx => max cap idx.natAbs) 0
  if frontIdxs.length = 0 ∧ backCap = 0 then
    none
  else
    some
      { front := []
        frontIdxs := frontIdxs.toFinset
        back := []
        backIdxs := backIdxs.toFinset
        backCap := backCap
        state := PickerState.opened 0 }

def push (p : Picker item) (x : item) : Picker item × Option item :=
  match p.state with
  | PickerState.closed => (p, none)
  | PickerState.opened len =>
      let len := wrap 16 (len + 1)
      let p := { p with state := PickerState.opened len }
      if len ∈ p.frontIdxs then
        if p.backIdxs = ∅ then
          (p, some x)
        else
          ({ p with front := p.front ++ [x] }, none)
      else if p.backIdxs ≠ ∅ then
        let back := if p.back.length = p.backCap then p.back.tail else p.back
        ({ p with back := back ++ [(len, x)] }, none)
      else
        (p, none)

/-- The positions of the kept items become those from the back. -/
def close (p : Picker item) : Picker item :=
  match p.state with
  | PickerState.closed => p
  | PickerState.opened len =>
      { p with
        back := p.back.map (fun e => (wrap 16 (wrap 16 (e.1 - len) - 1), e.2))
        state := PickerState.closed }

/-- The loop of `pull` drops the kept items whose position is not wanted. -/
def skip (p : Picker item) : Picker item :=
  { p with back := p.back.dropWhile (fun e => e.1 ∉ p.backIdxs) }

/-- The earlier of the first items of the front and the back. -/
def takeEarlier [LT item] [DecidableLT item] (p : Picker item) :
    Picker item × Option item :=
  match p.front, p.back with
  | f :: front, b :: back =>
      if f < b.2 then
        ({ p with front := front }, some f)
      else
        ({ p with back := back }, some b.2)
  | f :: front, [] => ({ p with front := front }, some f)
  | [], b :: back => ({ p with back := back }, some b.2)
  | [], [] => ({ p with state := PickerState.opened 0 }, none)

def pull [LT item] [DecidableLT item] (p : Picker item) :
    Picker item × Option item :=
  match p.state with
  | PickerState.opened _ => (p, none)
  | PickerState.closed => p.skip.takeEarlier

def reset (p : Picker item) : Picker item :=
  { p with front := [], back := [], state := PickerState.opened 0 }

theorem natAbs_le_foldl_max {idxs : List Int} (cap : Nat) :
    cap ≤ idxs.foldl (fun cap idx => max cap idx.natAbs) cap ∧
      forall i, i ∈ idxs ->
        i.natAbs ≤ idxs.foldl (fun cap idx => max cap idx.natAbs) cap := by
  induction idxs generalizing cap with
  | nil => exact ⟨le_rfl, fun i hi => nomatch hi⟩
  | cons idx idxs ih =>
      rw [List.foldl_cons]
      have hrest := ih (max cap idx.natAbs)
      refine ⟨le_trans (le_max_left _ _) hrest.left, ?_⟩
      intro i hi
      rcases List.mem_cons.mp hi with rfl | hi
      · exact le_trans (le_max_right _ _) hrest.left
      · exact hrest.right i hi

/-- Positions are `i16`, and the capacity covers those from the back. -/
structure Sound (p : Picker item) : Prop where
  front : forall i, i ∈ p.frontIdxs -> 1 ≤ i ∧ i < 2 ^ 15
  back : forall i, i ∈ p.backIdxs -> -2 ^ 15 ≤ i ∧ i ≤ -1 ∧ -i ≤ p.backCap

variable {p : Picker item} {xs : List item}

theorem Sound.capacity (h : p.Sound) (hne : p.backIdxs ≠ ∅) :
    1 ≤ p.backCap := by
  rcases Finset.nonempty_iff_ne_empty.mpr hne with ⟨i, hi⟩
  have hbounds := h.back i hi
  omega

theorem new_none_iff {idxs : List Int} (hidxs : forall i, i ∈ idxs -> i ≠ 0) :
    (new idxs : Option (Picker item)) = none ↔ idxs = [] := by
  unfold new
  constructor
  · intro h
    dsimp only at h
    split at h
    · rename_i hempty
      rw [List.eq_nil_iff_forall_not_mem]
      intro i hi
      by_cases hpos : 0 < i
      · have hmem : i ∈ idxs.filter (fun idx => 0 < idx) :=
          List.mem_filter.mpr ⟨hi, decide_eq_true hpos⟩
        rw [List.length_eq_zero_iff.mp hempty.left] at hmem
        cases hmem
      · have hmem : i ∈ idxs.filter (fun idx => ¬ 0 < idx) :=
          List.mem_filter.mpr ⟨hi, decide_eq_true hpos⟩
        have hle := (natAbs_le_foldl_max 0).right i hmem
        have hne := hidxs i hi
        omega
    · cases h
  · rintro rfl
    rfl

theorem new_eq_some {idxs : List Int} (h : new idxs = some p) :
    p.reset = p ∧ (forall i, i ∈ p.frontIdxs ↔ i ∈ idxs ∧ 0 < i) ∧
      (forall i, i ∈ p.backIdxs ↔ i ∈ idxs ∧ ¬ 0 < i) ∧
      forall i, i ∈ p.backIdxs -> i.natAbs ≤ p.backCap := by
  unfold new at h
  dsimp only at h
  split at h
  · cases h
  · cases h
    refine ⟨rfl, ?_, ?_, ?_⟩
    · intro i
      simp
    · intro i
      simp
    · intro i hi
      exact (natAbs_le_foldl_max 0).right i (List.mem_toFinset.mp hi)

theorem new_sound {idxs : List Int} (h : new idxs = some p)
    (hidxs : forall i, i ∈ idxs -> i ≠ 0 ∧ -2 ^ 15 ≤ i ∧ i < 2 ^ 15) :
    p.Sound := by
  rcases new_eq_some h with ⟨_, hfront, hback, hcap⟩
  constructor
  · intro i hi
    have hmem := (hfront i).mp hi
    have hbounds := hidxs i hmem.left
    omega
  · intro i hi
    have hmem := (hback i).mp hi
    have hbounds := hidxs i hmem.left
    have hle := hcap i hi
    omega

theorem pull_opened [LT item] [DecidableLT item] {len : Int}
    (h : p.state = PickerState.opened len) : p.pull = (p, none) := by
  unfold pull
  rw [h]

/-!
# Pushing
-/

/-- The items whose position from the front is wanted. -/
def selected (p : Picker item) (xs : List item) : List item :=
  ((xs.zipIdx 1).filter (fun e => wrap 16 e.2 ∈ p.frontIdxs)).map Prod.fst

/-- The other items, with their positions. -/
def others (p : Picker item) (xs : List item) : List (Int × item) :=
  ((xs.zipIdx 1).filter (fun e => ¬ wrap 16 e.2 ∈ p.frontIdxs)).map
    (fun e => (wrap 16 e.2, e.1))

/-- The picker that a group `xs` has been pushed on. -/
def holding (p : Picker item) (xs : List item) : Picker item :=
  { p with
    front := if p.backIdxs = ∅ then [] else p.selected xs
    back := if p.backIdxs = ∅ then [] else (p.others xs).rtake p.backCap
    state := PickerState.opened (wrap 16 xs.length) }

/-- The item after `n` others is selected and none is kept. -/
def Returned (p : Picker item) (n : Nat) : Prop :=
  p.backIdxs = ∅ ∧ wrap 16 (n + 1) ∈ p.frontIdxs

instance (p : Picker item) (n : Nat) : Decidable (p.Returned n) :=
  inferInstanceAs (Decidable (_ ∧ _))

theorem holding_nil (p : Picker item) : p.holding [] = p.reset := by
  unfold holding reset selected others
  simp [wrap]

theorem selected_concat (p : Picker item) (xs : List item) (x : item) :
    p.selected (xs ++ [x]) =
      p.selected xs ++
        if wrap 16 (xs.length + 1) ∈ p.frontIdxs then [x] else [] := by
  unfold selected
  rw [List.zipIdx_append, List.filter_append, List.map_append,
    List.zipIdx_singleton, Nat.add_comm 1 xs.length]
  by_cases h : wrap 16 (xs.length + 1) ∈ p.frontIdxs
  · rw [if_pos h, List.filter_cons_of_pos (by simpa using h)]
    rfl
  · rw [if_neg h, List.filter_cons_of_neg (by simpa using h)]
    rfl

theorem others_concat (p : Picker item) (xs : List item) (x : item) :
    p.others (xs ++ [x]) =
      p.others xs ++
        if wrap 16 (xs.length + 1) ∈ p.frontIdxs then []
        else [(wrap 16 (xs.length + 1), x)] := by
  unfold others
  rw [List.zipIdx_append, List.filter_append, List.map_append,
    List.zipIdx_singleton, Nat.add_comm 1 xs.length]
  by_cases h : wrap 16 (xs.length + 1) ∈ p.frontIdxs
  · rw [if_pos h, List.filter_cons_of_neg (by simpa using h)]
    rfl
  · rw [if_neg h, List.filter_cons_of_pos (by simpa using h)]
    rfl

theorem evict_rtake {entry : Type} (l : List entry) {cap : Nat}
    (hcap : 1 ≤ cap) :
    (if (l.rtake cap).length = cap then (l.rtake cap).tail else l.rtake cap) =
      l.rtake (cap - 1) := by
  unfold List.rtake
  rw [List.length_drop]
  split
  · rename_i hfull
    rw [List.tail_drop]
    congr 1
    omega
  · rename_i hroom
    congr 1
    omega

theorem wrap_succ (n : Int) : wrap 16 (wrap 16 n + 1) = wrap 16 (n + 1) := by
  unfold wrap
  omega

theorem push_holding (hcapacity : p.backIdxs ≠ ∅ -> 1 ≤ p.backCap)
    (xs : List item) (x : item) :
    (p.holding xs).push x =
      (p.holding (xs ++ [x]),
        if p.Returned xs.length then some x else none) := by
  unfold push
  dsimp only [holding, Returned]
  rw [wrap_succ, selected_concat, others_concat]
  by_cases hback : p.backIdxs = ∅
  · by_cases hfront : wrap 16 (xs.length + 1) ∈ p.frontIdxs
    · simp [hfront, hback]
    · simp [hfront, hback]
  · by_cases hfront : wrap 16 (xs.length + 1) ∈ p.frontIdxs
    · simp [hfront, hback]
    · have hcap' : p.backCap = (p.backCap - 1) + 1 := by
        have hpos := hcapacity hback
        omega
      have hback' : (p.others xs ++ [(wrap 16 (xs.length + 1), x)]).rtake p.backCap =
          (p.others xs).rtake (p.backCap - 1) ++ [(wrap 16 (xs.length + 1), x)] := by
        rw [hcap', List.rtake_concat_succ]
        rfl
      simp [hfront, hback, evict_rtake _ (hcapacity hback), hback']

theorem holding_reset (p : Picker item) (xs : List item) :
    (p.holding xs).reset = p.reset :=
  rfl

theorem close_reset (p : Picker item) : p.close.reset = p.reset := by
  unfold close
  split
  · rfl
  · rfl

theorem selected_sublist (p : Picker item) (xs : List item) :
    (p.selected xs).Sublist xs := by
  have h := (List.filter_sublist (l := xs.zipIdx 1)
    (p := fun e => decide (wrap 16 e.2 ∈ p.frontIdxs))).map Prod.fst
  rw [List.zipIdx_map_fst] at h
  exact h

theorem others_items (p : Picker item) (xs : List item) :
    (p.others xs).map Prod.snd =
      ((xs.zipIdx 1).filter (fun e => ¬ wrap 16 e.2 ∈ p.frontIdxs)).map
        Prod.fst := by
  unfold others
  rw [List.map_map]
  rfl

theorem others_sublist (p : Picker item) (xs : List item) :
    ((p.others xs).map Prod.snd).Sublist xs := by
  have h := (List.filter_sublist (l := xs.zipIdx 1)
    (p := fun e => decide (¬ wrap 16 e.2 ∈ p.frontIdxs))).map Prod.fst
  rw [List.zipIdx_map_fst] at h
  rw [others_items]
  exact h

theorem rtake_sublist {entry : Type} (l : List entry) (n : Nat) :
    (l.rtake n).Sublist l :=
  List.drop_sublist _ _

theorem selected_apart (p : Picker item) (hxs : xs.Nodup) {x : item}
    (hx : x ∈ p.selected xs) : x ∉ (p.others xs).map Prod.snd := by
  rw [others_items]
  intro hother
  rcases List.mem_map.mp hx with ⟨e, he, rfl⟩
  rcases List.mem_map.mp hother with ⟨e', he', heq⟩
  rcases List.mem_filter.mp he with ⟨hmem, hselected⟩
  rcases List.mem_filter.mp he' with ⟨hmem', hother'⟩
  have hkeys : ((xs.zipIdx 1).map Prod.fst).Nodup := by
    rw [List.zipIdx_map_fst]
    exact hxs
  cases List.inj_on_of_nodup_map hkeys hmem' hmem heq
  simp only [decide_not, Bool.not_eq_true'] at hother'
  rw [hother'] at hselected
  cases hselected

/-!
# Pulling
-/

/-- What a closed picker still returns. -/
def Wanted (p : Picker item) (x : item) : Prop :=
  x ∈ p.front ∨ exists i, i ∈ p.backIdxs ∧ (i, x) ∈ p.back

theorem mem_dropWhile_iff {i : Int} {x : item} (hi : i ∈ p.backIdxs) :
    (i, x) ∈ p.back.dropWhile (fun e => e.1 ∉ p.backIdxs) ↔
      (i, x) ∈ p.back := by
  constructor
  · intro h
    exact (List.dropWhile_sublist _).subset h
  · intro h
    rw [<- List.takeWhile_append_dropWhile (p := fun e =>
      decide (e.1 ∉ p.backIdxs)) (l := p.back)] at h
    rcases List.mem_append.mp h with hdropped | hkept
    · have hnot := List.mem_takeWhile_imp hdropped
      simp [hi] at hnot
    · exact hkept

theorem skip_wanted (p : Picker item) (x : item) :
    p.skip.Wanted x ↔ p.Wanted x := by
  unfold Wanted skip
  refine or_congr Iff.rfl (exists_congr (fun i => ?_))
  exact and_congr_right (fun hi => mem_dropWhile_iff hi)

theorem skip_head {b : Int × item} {back : List (Int × item)}
    (h : p.skip.back = b :: back) : b.1 ∈ p.backIdxs := by
  have hhead := List.head?_dropWhile_not (fun e : Int × item =>
    decide (e.1 ∉ p.backIdxs)) p.back
  change List.dropWhile _ _ = _ at h
  rw [h] at hhead
  simpa using hhead

def size (p : Picker item) : Nat :=
  p.front.length + p.back.length

theorem skip_size (p : Picker item) : p.skip.size ≤ p.size :=
  Nat.add_le_add_left (List.dropWhile_sublist _).length_le _

section Pulling

variable [LinearOrder item]

/-- Calling `pull` until it returns `None` gives the items `ys`. -/
inductive Drains : Picker item -> List item -> Picker item -> Prop where
  | done {p p' : Picker item} (h : p.pull = (p', none)) : Drains p [] p'
  | more {p p' p'' : Picker item} {y : item} {ys : List item}
      (h : p.pull = (p', some y)) (hrest : Drains p' ys p'') :
      Drains p (y :: ys) p''

/-- A closed picker whose items are in order, each of them kept once. -/
structure Ordered (p : Picker item) : Prop where
  closed : p.state = PickerState.closed
  front : p.front.Pairwise (· < ·)
  back : (p.back.map Prod.snd).Pairwise (· < ·)
  apart : forall x, x ∈ p.front -> x ∉ p.back.map Prod.snd

theorem skip_ordered (h : p.Ordered) : p.skip.Ordered where
  closed := h.closed
  front := h.front
  back := h.back.sublist ((List.dropWhile_sublist _).map Prod.snd)
  apart := by
    intro x hx hmem
    exact h.apart x hx (((List.dropWhile_sublist _).map Prod.snd).subset hmem)

theorem take_front (h : p.Ordered) {f : item} {front : List item}
    (hfront : p.front = f :: front)
    (hleast : forall x, x ∈ p.back.map Prod.snd -> f < x) :
    Ordered { p with front := front } ∧
      (forall x, p.Wanted x ↔ x = f ∨ Wanted { p with front := front } x) ∧
      forall x, Wanted { p with front := front } x -> f < x := by
  have hpairwise := List.pairwise_cons.mp (hfront ▸ h.front)
  refine ⟨⟨h.closed, hpairwise.right, h.back, ?_⟩, ?_, ?_⟩
  · intro x hx
    exact h.apart x (hfront ▸ List.mem_cons_of_mem f hx)
  · intro x
    unfold Wanted
    rw [hfront, List.mem_cons, or_assoc]
  · intro x hx
    rcases hx with hx | ⟨i, _, hx⟩
    · exact hpairwise.left x hx
    · exact hleast x (List.mem_map_of_mem hx)

theorem take_back (h : p.Ordered) {b : Int × item} {back : List (Int × item)}
    (hback : p.back = b :: back) (hwanted : b.1 ∈ p.backIdxs)
    (hleast : forall x, x ∈ p.front -> b.2 < x) :
    Ordered { p with back := back } ∧
      (forall x, p.Wanted x ↔ x = b.2 ∨ Wanted { p with back := back } x) ∧
      forall x, Wanted { p with back := back } x -> b.2 < x := by
  have hpairwise : ((b :: back).map Prod.snd).Pairwise (· < ·) :=
    hback ▸ h.back
  rw [List.map_cons, List.pairwise_cons] at hpairwise
  refine ⟨⟨h.closed, h.front, hpairwise.right, ?_⟩, ?_, ?_⟩
  · intro x hx hmem
    apply h.apart x hx
    rw [hback, List.map_cons]
    exact List.mem_cons_of_mem _ hmem
  · intro x
    unfold Wanted
    rw [hback]
    constructor
    · rintro (hx | ⟨i, hi, hx⟩)
      · exact Or.inr (Or.inl hx)
      · rcases List.mem_cons.mp hx with heq | hx
        · exact Or.inl (congrArg Prod.snd heq)
        · exact Or.inr (Or.inr ⟨i, hi, hx⟩)
    · rintro (rfl | hx | ⟨i, hi, hx⟩)
      · exact Or.inr ⟨b.1, hwanted, List.mem_cons_self⟩
      · exact Or.inl hx
      · exact Or.inr ⟨i, hi, List.mem_cons_of_mem b hx⟩
  · intro x hx
    rcases hx with hx | ⟨i, _, hx⟩
    · exact hleast x hx
    · exact hpairwise.left x (List.mem_map_of_mem hx)

theorem takeEarlier_front {f : item} {front : List item}
    (hfront : p.front = f :: front)
    (hback : forall b back, p.back = b :: back -> f < b.2) :
    p.takeEarlier = ({ p with front := front }, some f) := by
  unfold takeEarlier
  split
  · rename_i f' front' b back hfront' hback'
    cases hfront.symm.trans hfront'
    rw [if_pos (hback b back hback')]
  · rename_i f' front' hfront' _
    cases hfront.symm.trans hfront'
    rfl
  · rename_i b back hfront' _
    cases hfront.symm.trans hfront'
  · rename_i hfront' _
    cases hfront.symm.trans hfront'

theorem takeEarlier_back {b : Int × item} {back : List (Int × item)}
    (hback : p.back = b :: back)
    (hfront : forall f front, p.front = f :: front -> ¬ f < b.2) :
    p.takeEarlier = ({ p with back := back }, some b.2) := by
  unfold takeEarlier
  split
  · rename_i f front b' back' hfront' hback'
    cases hback.symm.trans hback'
    rw [if_neg (hfront f front hfront')]
  · rename_i f front _ hback'
    cases hback.symm.trans hback'
  · rename_i b' back' _ hback'
    cases hback.symm.trans hback'
    rfl
  · rename_i _ hback'
    cases hback.symm.trans hback'

theorem takeEarlier_none (hfront : p.front = []) (hback : p.back = []) :
    p.takeEarlier = (p.reset, none) := by
  unfold takeEarlier reset
  rw [hfront, hback]

theorem takeEarlier_cases (h : p.Ordered)
    (hhead : forall b back, p.back = b :: back -> b.1 ∈ p.backIdxs) :
    (p.takeEarlier = (p.reset, none) ∧ forall x, ¬ p.Wanted x) ∨
      exists p' y, p.takeEarlier = (p', some y) ∧ p'.Ordered ∧
        p'.reset = p.reset ∧ p'.size < p.size ∧
        (forall x, p.Wanted x ↔ x = y ∨ p'.Wanted x) ∧
        forall x, p'.Wanted x -> y < x := by
  by_cases hempty : p.front = [] ∧ p.back = []
  · refine Or.inl ⟨takeEarlier_none hempty.left hempty.right, ?_⟩
    rintro x (hx | ⟨i, _, hx⟩)
    · rw [hempty.left] at hx
      cases hx
    · rw [hempty.right] at hx
      cases hx
  · right
    by_cases hfirst : exists f front, p.front = f :: front ∧
        forall b back, p.back = b :: back -> f < b.2
    · rcases hfirst with ⟨f, front, hfront, hlt⟩
      have hleast : forall x, x ∈ p.back.map Prod.snd -> f < x := by
        intro x hx
        cases hback : p.back with
        | nil =>
            rw [hback] at hx
            cases hx
        | cons b back =>
            have hpairwise := h.back
            rw [hback, List.map_cons] at hpairwise hx
            rcases List.mem_cons.mp hx with rfl | hx
            · exact hlt b back hback
            · exact lt_trans (hlt b back hback)
                ((List.pairwise_cons.mp hpairwise).left x hx)
      rcases take_front h hfront hleast with ⟨hordered, hwanted, hafter⟩
      refine ⟨_, f, takeEarlier_front hfront hlt, hordered, rfl, ?_, hwanted,
        hafter⟩
      unfold size
      rw [hfront, List.length_cons]
      dsimp only
      omega
    · have hback : exists b back, p.back = b :: back := by
        cases hback : p.back with
        | cons b back => exact ⟨b, back, rfl⟩
        | nil =>
            exfalso
            cases hfront : p.front with
            | nil => exact hempty ⟨hfront, hback⟩
            | cons f front =>
                refine hfirst ⟨f, front, hfront, fun b back heq => ?_⟩
                cases hback.symm.trans heq
      rcases hback with ⟨b, back, hback⟩
      have hnot : forall f front, p.front = f :: front -> ¬ f < b.2 := by
        intro f front hfront hlt
        refine hfirst ⟨f, front, hfront, fun b' back' heq => ?_⟩
        cases hback.symm.trans heq
        exact hlt
      have hleast : forall x, x ∈ p.front -> b.2 < x := by
        intro x hx
        have hne : b.2 ≠ x := by
          rintro rfl
          apply h.apart _ hx
          rw [hback]
          exact List.mem_cons_self
        refine lt_of_le_of_ne ?_ hne
        cases hfront : p.front with
        | nil =>
            rw [hfront] at hx
            cases hx
        | cons f front =>
            have hpairwise := h.front
            rw [hfront] at hpairwise hx
            rcases List.mem_cons.mp hx with rfl | hx
            · exact not_lt.mp (hnot x front hfront)
            · exact le_trans (not_lt.mp (hnot f front hfront))
                (le_of_lt ((List.pairwise_cons.mp hpairwise).left x hx))
      rcases take_back h hback (hhead b back hback) hleast with
        ⟨hordered, hwanted, hafter⟩
      refine ⟨_, b.2, takeEarlier_back hback hnot, hordered, rfl, ?_, hwanted,
        hafter⟩
      unfold size
      rw [hback, List.length_cons]
      dsimp only
      omega

theorem pull_cases (h : p.Ordered) :
    (p.pull = (p.reset, none) ∧ forall x, ¬ p.Wanted x) ∨
      exists p' y, p.pull = (p', some y) ∧ p'.Ordered ∧
        p'.reset = p.reset ∧ p'.size < p.size ∧
        (forall x, p.Wanted x ↔ x = y ∨ p'.Wanted x) ∧
        forall x, p'.Wanted x -> y < x := by
  have hpull : p.pull = p.skip.takeEarlier := by
    unfold pull
    rw [h.closed]
  rw [hpull]
  rcases takeEarlier_cases (skip_ordered h) (fun b back => skip_head) with
    ⟨hnone, hempty⟩ |
    ⟨p', y, hsome, hordered, hreset, hsize, hwanted, hafter⟩
  · refine Or.inl ⟨hnone, fun x hx => ?_⟩
    exact hempty x ((skip_wanted p x).mpr hx)
  · refine Or.inr ⟨p', y, hsome, hordered, hreset,
      lt_of_lt_of_le hsize (skip_size p), ?_, hafter⟩
    intro x
    rw [<- skip_wanted p, hwanted x]

theorem drains_ordered (h : p.Ordered) :
    exists ys, Drains p ys p.reset ∧ ys.Pairwise (· < ·) ∧
      forall x, x ∈ ys ↔ p.Wanted x := by
  induction hn : p.size using Nat.strong_induction_on generalizing p with
  | _ n ih =>
      rcases pull_cases h with ⟨hnone, hempty⟩ |
        ⟨p', y, hsome, hordered, hreset, hsize, hwanted, hafter⟩
      · refine ⟨[], Drains.done hnone, List.Pairwise.nil, ?_⟩
        intro x
        exact iff_of_false List.not_mem_nil (hempty x)
      · rcases ih p'.size (hn ▸ hsize) hordered rfl with
          ⟨ys, hdrains, hpairwise, hmem⟩
        rw [hreset] at hdrains
        refine ⟨y :: ys, Drains.more hsome hdrains, ?_, ?_⟩
        · exact List.pairwise_cons.mpr
            ⟨fun x hx => hafter x ((hmem x).mp hx), hpairwise⟩
        · intro x
          rw [List.mem_cons, hmem x, hwanted x]

/-!
# A whole group
-/

omit [LinearOrder item] in
theorem close_holding_front (p : Picker item) (xs : List item) :
    (p.holding xs).close.front.Sublist (p.selected xs) := by
  show (if _ then _ else _ : List item).Sublist _
  split
  · exact List.nil_sublist _
  · exact List.Sublist.refl _

omit [LinearOrder item] in
theorem close_holding_back (p : Picker item) (xs : List item) :
    ((p.holding xs).close.back.map Prod.snd).Sublist
      ((p.others xs).map Prod.snd) := by
  show (List.map Prod.snd (List.map _ (p.holding xs).back)).Sublist _
  rw [List.map_map]
  show (List.map Prod.snd (if _ then _ else _)).Sublist _
  split
  · exact List.nil_sublist _
  · exact (rtake_sublist _ _).map Prod.snd

theorem eq_of_sorted {ys : List item} (hxs : xs.Pairwise (· < ·))
    (hys : ys.Pairwise (· < ·)) (h : forall x, x ∈ xs ↔ x ∈ ys) : xs = ys := by
  have hperm : xs.Perm ys :=
    (List.perm_ext_iff_of_nodup (hxs.imp (fun hlt => ne_of_lt hlt))
      (hys.imp (fun hlt => ne_of_lt hlt))).mpr h
  exact hperm.eq_of_pairwise
    (fun a b _ _ hab hba => absurd hab (lt_asymm hba)) hxs hys

theorem close_holding_ordered (p : Picker item) (hxs : xs.Pairwise (· < ·)) :
    (p.holding xs).close.Ordered where
  closed := rfl
  front := hxs.sublist ((close_holding_front p xs).trans
    (selected_sublist p xs))
  back := hxs.sublist ((close_holding_back p xs).trans (others_sublist p xs))
  apart := by
    intro x hx hmem
    exact selected_apart p (hxs.imp (fun h => ne_of_lt h))
      ((close_holding_front p xs).subset hx)
      ((close_holding_back p xs).subset hmem)

omit [LinearOrder item] in
theorem close_holding_mem (p : Picker item) {x : item}
    (h : (p.holding xs).close.Wanted x) : x ∈ xs := by
  rcases h with hx | ⟨i, _, hx⟩
  · exact (selected_sublist p xs).subset ((close_holding_front p xs).subset hx)
  · exact (others_sublist p xs).subset
      ((close_holding_back p xs).subset (List.mem_map_of_mem hx))

theorem mem_rtake {entry : Type} {l l' : List entry} {e : entry} {n : Nat}
    (h : l'.length < n) : e ∈ (l ++ e :: l').rtake n := by
  unfold List.rtake
  rw [List.drop_append_of_le_length]
  · exact List.mem_append_right _ List.mem_cons_self
  · rw [List.length_append, List.length_cons]
    omega

/-- The position from the back that `close` gives to a kept item. -/
def fromBack (len k : Int) : Int :=
  wrap 16 (wrap 16 (k - len) - 1)

/--
What a picker with positions from the back takes from a group: the items at a
wanted position from the front, and of the others, as far as there is room for
them, those at a wanted position from the back.
-/
def Picks (p : Picker item) (xs : List item) (x : item) : Prop :=
  x ∈ p.selected xs ∨
    exists before k after, p.others xs = before ++ (k, x) :: after ∧
      after.length < p.backCap ∧ fromBack (wrap 16 xs.length) k ∈ p.backIdxs

omit [LinearOrder item] in
theorem Picks.mem {x : item} (h : p.Picks xs x) : x ∈ xs := by
  rcases h with hx | ⟨before, k, after, hsplit, _⟩
  · exact (selected_sublist p xs).subset hx
  · refine (others_sublist p xs).subset ?_
    rw [hsplit, List.map_append]
    exact List.mem_append_right _ List.mem_cons_self

theorem mem_rtake_iff {entry : Type} {l : List entry} {e : entry} {n : Nat} :
    e ∈ l.rtake n ↔
      exists before after, l = before ++ e :: after ∧ after.length < n := by
  constructor
  · intro he
    rcases List.append_of_mem he with ⟨before, after, hsplit⟩
    refine ⟨l.take (l.length - n) ++ before, after, ?_, ?_⟩
    · rw [List.append_assoc, <- hsplit]
      exact (List.take_append_drop _ l).symm
    · have hlength := congrArg List.length hsplit
      unfold List.rtake at hlength
      rw [List.length_drop, List.length_append, List.length_cons] at hlength
      omega
  · intro hex
    rcases hex with ⟨before, after, hsplit, hlt⟩
    rw [hsplit]
    exact mem_rtake hlt

omit [LinearOrder item] in
theorem close_holding_picks (hback : p.backIdxs ≠ ∅) {x : item} :
    (p.holding xs).close.Wanted x ↔ p.Picks xs x := by
  have hclose : (p.holding xs).close.back =
      ((p.others xs).rtake p.backCap).map
        (fun e => (fromBack (wrap 16 xs.length) e.1, e.2)) := by
    show List.map _ (if _ then _ else _) = _
    rw [if_neg hback]
    rfl
  have hfront : (p.holding xs).close.front = p.selected xs := if_neg hback
  unfold Wanted
  rw [hclose, hfront]
  refine or_congr Iff.rfl ?_
  constructor
  · rintro ⟨i, hi, hx⟩
    rcases List.mem_map.mp hx with ⟨⟨k, y⟩, hk, heq⟩
    cases heq
    rcases mem_rtake_iff.mp hk with ⟨before, after, hsplit, hlt⟩
    exact ⟨before, k, after, hsplit, hlt, hi⟩
  · intro hex
    rcases hex with ⟨before, k, after, hsplit, hlt, hi⟩
    exact ⟨_, hi, List.mem_map.mpr
      ⟨(k, x), mem_rtake_iff.mpr ⟨before, after, hsplit, hlt⟩, rfl⟩⟩

omit [LinearOrder item] in
theorem not_wanted_of_empty (hback : p.backIdxs = ∅) (xs : List item) (x : item) :
    ¬ (p.holding xs).close.Wanted x := by
  rintro (hx | ⟨i, hi, _⟩)
  · change x ∈ (if _ then _ else _ : List item) at hx
    rw [if_pos hback] at hx
    cases hx
  · change i ∈ p.backIdxs at hi
    rw [hback] at hi
    exact absurd hi (Finset.notMem_empty i)

/-- The item between `before` and `after` has a wanted position. -/
def Positioned (p : Picker item) (before after : List item) : Prop :=
  (before.length + 1 : Int) ∈ p.frontIdxs ∨
    -(after.length + 1 : Int) ∈ p.backIdxs

theorem wrap_of_lt {n : Int} (hn : -2 ^ 15 ≤ n) (hn' : n < 2 ^ 15) :
    wrap 16 n = n := by
  unfold wrap
  omega

theorem wrap_from_back (k len : Int) :
    wrap 16 (wrap 16 (wrap 16 k - wrap 16 len) - 1) = wrap 16 (k - len - 1) := by
  unfold wrap
  omega

omit [LinearOrder item] in
theorem positioned_wanted (h : p.Sound) (hback : p.backIdxs ≠ ∅)
    {before after : List item} {x : item}
    (hpositioned : p.Positioned before after) :
    (p.holding (before ++ x :: after)).close.Wanted x := by
  have hzip : (before ++ x :: after).zipIdx 1 =
      before.zipIdx 1 ++ (x, before.length + 1) ::
        after.zipIdx (before.length + 2) := by
    rw [List.zipIdx_append, List.zipIdx_cons, Nat.add_comm 1, Nat.add_assoc]
  by_cases hselected : wrap 16 (before.length + 1) ∈ p.frontIdxs
  · left
    show x ∈ (if _ then _ else _ : List item)
    rw [if_neg hback]
    unfold selected
    rw [hzip, List.filter_append, List.map_append, List.filter_cons_of_pos]
    · exact List.mem_append_right _ List.mem_cons_self
    · simpa using hselected
  · have hmem : -(after.length + 1 : Int) ∈ p.backIdxs := by
      rcases hpositioned with hfront | hmem
      · have hbounds := h.front _ hfront
        rw [wrap_of_lt (by omega) hbounds.right] at hselected
        exact absurd hfront hselected
      · exact hmem
    have hbounds := h.back _ hmem
    right
    refine ⟨_, hmem, List.mem_map.mpr
      ⟨(wrap 16 (before.length + 1), x), ?_, ?_⟩⟩
    · show _ ∈ (if _ then _ else _ : List (Int × item))
      rw [if_neg hback]
      unfold others
      rw [hzip, List.filter_append, List.map_append, List.filter_cons_of_pos]
      · apply mem_rtake
        have hle := List.length_filter_le
          (fun e : item × Nat => decide (¬ wrap 16 e.2 ∈ p.frontIdxs))
          (after.zipIdx (before.length + 2))
        rw [List.length_zipIdx] at hle
        rw [List.length_map]
        omega
      · simpa using hselected
    · have hlength : ((before ++ x :: after).length : Int) =
          before.length + 1 + after.length := by
        rw [List.length_append, List.length_cons]
        omega
      rw [hlength, wrap_from_back, Prod.mk.injEq]
      refine ⟨?_, rfl⟩
      rw [wrap_of_lt (by omega) (by omega)]
      omega

theorem group_drains (p : Picker item) (hxs : xs.Pairwise (· < ·)) :
    exists ys, Drains (p.holding xs).close ys p.reset ∧
      ys.Pairwise (· < ·) ∧ (forall y, y ∈ ys -> y ∈ xs) ∧
      (p.backIdxs = ∅ -> ys = []) ∧
      (forall x, x ∈ ys ↔ (p.holding xs).close.Wanted x) := by
  rcases drains_ordered (close_holding_ordered p hxs) with
    ⟨ys, hdrains, hpairwise, hmem⟩
  rw [close_reset, holding_reset] at hdrains
  refine ⟨ys, hdrains, hpairwise, ?_, ?_, hmem⟩
  · intro y hy
    exact close_holding_mem p ((hmem y).mp hy)
  · intro hback
    rw [List.eq_nil_iff_forall_not_mem]
    exact fun y hy => not_wanted_of_empty hback xs y ((hmem y).mp hy)

end Pulling

end Picker

end Recurrence
end MailClient
