import MailClient.Recurrence.Picker

/-!
# The selection of a picker

The simplest way to select items by position is to collect a whole group and
look at the position of each item from both ends.  The picker returns the same
items without collecting them all, in every round, and is as good as new after
it.
-/

namespace MailClient
namespace Recurrence

namespace Picker

variable {item : Type}

/-- The items at the positions `idxs`, which count from one, and negative ones
from the back. -/
def pick (idxs : List Int) (xs : List item) : List item :=
  ((xs.zipIdx 1).filter (fun e =>
    (e.2 : Int) ∈ idxs ∨ -((xs.length : Int) - e.2 + 1) ∈ idxs)).map Prod.fst

/-- Pushing the items of a group, with the items that are returned at once. -/
def pushAll : Picker item -> List item -> Picker item × List item
  | p, [] => (p, [])
  | p, x :: xs =>
      let pushed := p.push x
      let rest := pushAll pushed.1 xs
      (rest.1, pushed.2.toList ++ rest.2)

/-- `with_capacity` may make more room than it is asked for. -/
def roomy (p : Picker item) (cap : Nat) : Picker item :=
  { p with backCap := cap }

section Rounds

variable [LinearOrder item]

/--
A round pushes the items of a group, closes the picker and pulls until nothing
is left.
-/
inductive Rounds : Picker item -> List (List item) -> List (List item) ->
    Picker item -> Prop where
  | nil {p : Picker item} : Rounds p [] [] p
  | cons {p p' p'' : Picker item} {xs ys : List item}
      {xss outs : List (List item)}
      (hpull : Drains (p.pushAll xs).1.close ys p')
      (hrest : Rounds p' xss outs p'') :
      Rounds p (xs :: xss) (((p.pushAll xs).2 ++ ys) :: outs) p''

theorem Drains.unique {p q q' : Picker item} {ys ys' : List item}
    (h : Drains p ys q) (h' : Drains p ys' q') : ys = ys' ∧ q = q' := by
  induction h generalizing ys' q' with
  | done hpull =>
      cases h' with
      | done hpull' =>
          cases hpull.symm.trans hpull'
          exact ⟨rfl, rfl⟩
      | more hpull' _ => cases hpull.symm.trans hpull'
  | more hpull _ ih =>
      cases h' with
      | done hpull' => cases hpull.symm.trans hpull'
      | more hpull' hrest' =>
          cases hpull.symm.trans hpull'
          rcases ih hrest' with ⟨hys, hq⟩
          exact ⟨by rw [hys], hq⟩

theorem Rounds.unique {p q q' : Picker item} {xss outs outs' : List (List item)}
    (h : Rounds p xss outs q) (h' : Rounds p xss outs' q') :
    outs = outs' ∧ q = q' := by
  induction h generalizing outs' q' with
  | nil =>
      cases h'
      exact ⟨rfl, rfl⟩
  | cons hpull _ ih =>
      cases h' with
      | cons hpull' hrest' =>
          rcases hpull.unique hpull' with ⟨hys, hp⟩
          subst hys
          subst hp
          rcases ih hrest' with ⟨houts, hq⟩
          exact ⟨by rw [houts], hq⟩

end Rounds

/-!
# Pushing a group
-/

theorem pushAll_holding {p : Picker item} (h : p.Sound) (xs ys : List item) :
    ((p.holding xs).pushAll ys).1 = p.holding (xs ++ ys) ∧
      (p.backIdxs = ∅ -> p.selected (xs ++ ys) =
        p.selected xs ++ ((p.holding xs).pushAll ys).2) ∧
      (p.backIdxs ≠ ∅ -> ((p.holding xs).pushAll ys).2 = []) := by
  induction ys generalizing xs with
  | nil =>
      rw [List.append_nil]
      exact ⟨rfl, fun _ => (List.append_nil _).symm, fun _ => rfl⟩
  | cons y ys ih =>
      rcases ih (xs ++ [y]) with ⟨hpicker, hall, hnone⟩
      rw [List.append_assoc, List.singleton_append] at hpicker hall
      unfold pushAll
      dsimp only
      rw [push_holding h.capacity]
      dsimp only
      refine ⟨hpicker, ?_, ?_⟩
      · intro hback
        rw [hall hback, selected_concat, List.append_assoc]
        congr 2
        by_cases hfront : wrap 16 (xs.length + 1) ∈ p.frontIdxs
        · rw [if_pos hfront, if_pos ⟨hback, hfront⟩]
          rfl
        · rw [if_neg hfront, if_neg (fun hreturned => hfront hreturned.right)]
          rfl
      · intro hback
        rw [hnone hback, if_neg (fun hreturned => hback hreturned.left)]
        rfl

/-!
# What a group returns
-/

theorem mem_zipIdx_one {xs : List item} {e : item × Nat}
    (h : e ∈ xs.zipIdx 1) : 1 ≤ e.2 ∧ e.2 ≤ xs.length := by
  have hbounds := List.mem_zipIdx (x := e.1) (i := e.2) h
  omega

/-- Position `k` of a group of `len` items is wanted. -/
def Chosen (p : Picker item) (len k : Int) : Prop :=
  k ∈ p.frontIdxs ∨ k - len - 1 ∈ p.backIdxs

theorem mem_selected {p : Picker item} {xs : List item}
    (hlen : xs.length < 2 ^ 15) {x : item} :
    x ∈ p.selected xs ↔
      exists k : Nat, (x, k) ∈ xs.zipIdx 1 ∧ (k : Int) ∈ p.frontIdxs := by
  unfold selected
  rw [List.mem_map]
  constructor
  · rintro ⟨⟨y, k⟩, he, rfl⟩
    rcases List.mem_filter.mp he with ⟨hmem, hfront⟩
    have hbounds := mem_zipIdx_one hmem
    have hfront' := of_decide_eq_true hfront
    rw [wrap_of_lt (by omega) (by omega)] at hfront'
    exact ⟨k, hmem, hfront'⟩
  · rintro ⟨k, hmem, hfront⟩
    have hbounds := mem_zipIdx_one hmem
    refine ⟨(x, k), List.mem_filter.mpr ⟨hmem, ?_⟩, rfl⟩
    rw [wrap_of_lt (by omega) (by omega)]
    exact decide_eq_true hfront

theorem mem_others {p : Picker item} {xs : List item}
    (hlen : xs.length < 2 ^ 15) {i : Int} {x : item} :
    (i, x) ∈ p.others xs ↔
      exists k : Nat, (x, k) ∈ xs.zipIdx 1 ∧ i = k ∧ i ∉ p.frontIdxs := by
  unfold others
  rw [List.mem_map]
  constructor
  · rintro ⟨⟨y, k⟩, he, heq⟩
    rcases List.mem_filter.mp he with ⟨hmem, hother⟩
    have hbounds := mem_zipIdx_one hmem
    have hother' := of_decide_eq_true hother
    rw [wrap_of_lt (by omega) (by omega)] at hother'
    rw [wrap_of_lt (by omega) (by omega)] at heq
    cases heq
    exact ⟨k, hmem, rfl, hother'⟩
  · rintro ⟨k, hmem, rfl, hother⟩
    have hbounds := mem_zipIdx_one hmem
    refine ⟨(x, k), List.mem_filter.mpr ⟨hmem, ?_⟩, ?_⟩
    · rw [wrap_of_lt (by omega) (by omega)]
      exact decide_eq_true hother
    · rw [wrap_of_lt (by omega) (by omega)]

theorem closed_entry {len : Nat} (hlen : len < 2 ^ 15) {k : Int}
    (hk : 1 ≤ k) (hk' : k ≤ len) :
    wrap 16 (wrap 16 (k - wrap 16 len) - 1) = k - len - 1 := by
  rw [wrap_of_lt (n := len) (by omega) (by omega),
    wrap_of_lt (n := k - len) (by omega) (by omega),
    wrap_of_lt (by omega) (by omega)]

theorem close_holding_wanted {p : Picker item} (hback : p.backIdxs ≠ ∅)
    {xs : List item} (hlen : xs.length < 2 ^ 15) {x : item} :
    (p.holding xs).close.Wanted x ↔
      x ∈ p.selected xs ∨ exists k : Int,
        (k, x) ∈ (p.others xs).rtake p.backCap ∧
          k - xs.length - 1 ∈ p.backIdxs := by
  have hposition : forall {k : Int} {y : item}, (k, y) ∈ p.others xs ->
      1 ≤ k ∧ k ≤ xs.length := by
    intro k y hmem
    rcases (mem_others hlen).mp hmem with ⟨n, hn, rfl, _⟩
    have hbounds := mem_zipIdx_one hn
    omega
  unfold Wanted close holding
  dsimp only
  rw [if_neg hback, if_neg hback]
  refine or_congr Iff.rfl ⟨?_, ?_⟩
  · rintro ⟨i, hi, hmem⟩
    rcases List.mem_map.mp hmem with ⟨⟨k, y⟩, hk, heq⟩
    have hbounds := hposition ((rtake_sublist _ _).subset hk)
    dsimp only at heq
    rw [closed_entry hlen hbounds.left hbounds.right] at heq
    cases heq
    exact ⟨k, hk, hi⟩
  · rintro ⟨k, hk, hi⟩
    have hbounds := hposition ((rtake_sublist _ _).subset hk)
    refine ⟨_, hi, List.mem_map.mpr ⟨(k, x), hk, ?_⟩⟩
    dsimp only
    rw [closed_entry hlen hbounds.left hbounds.right]

theorem zipIdx_split {xs : List item} {x : item} {k : Nat}
    (h : (x, k) ∈ xs.zipIdx 1) :
    exists before after, xs = before ++ x :: after ∧
      k = before.length + 1 := by
  have hmem := List.mem_zipIdx h
  rcases hmem with ⟨hle, hlt, hx⟩
  have hk : k - 1 < xs.length := by omega
  refine ⟨xs.take (k - 1), xs.drop k, ?_, ?_⟩
  · rw [hx]
    have hsplit := List.take_append_drop (k - 1) xs
    rw [List.drop_eq_getElem_cons hk] at hsplit
    have hsucc : k - 1 + 1 = k := by omega
    rw [hsucc] at hsplit
    exact hsplit.symm
  · rw [List.length_take]
    omega

theorem close_holding_chosen {p : Picker item} (h : p.Sound)
    (hback : p.backIdxs ≠ ∅) {xs : List item} (hlen : xs.length < 2 ^ 15)
    {x : item} :
    (p.holding xs).close.Wanted x ↔
      exists k : Nat, (x, k) ∈ xs.zipIdx 1 ∧ p.Chosen xs.length k := by
  constructor
  · intro hwanted
    rcases (close_holding_wanted hback hlen).mp hwanted with
      hx | ⟨i, hmem, hi⟩
    · rcases (mem_selected hlen).mp hx with ⟨k, hk, hfront⟩
      exact ⟨k, hk, Or.inl hfront⟩
    · rcases (mem_others hlen).mp ((rtake_sublist _ _).subset hmem) with
        ⟨k, hk, rfl, _⟩
      exact ⟨k, hk, Or.inr hi⟩
  · rintro ⟨k, hk, hchosen⟩
    rcases zipIdx_split hk with ⟨before, after, hxs, hbefore⟩
    rw [hxs]
    apply positioned_wanted h hback
    rw [hxs, List.length_append, List.length_cons, hbefore] at hchosen
    unfold Chosen at hchosen
    unfold Positioned
    push_cast at hchosen ⊢
    have hposition : (before.length + 1 - (before.length + (after.length + 1))
        - 1 : Int) = -(after.length + 1) := by
      omega
    rw [hposition] at hchosen
    exact hchosen

/-!
# Whole rounds
-/

theorem mem_pick {idxs : List Int} {xs : List item} {x : item} :
    x ∈ pick idxs xs ↔ exists k : Nat, (x, k) ∈ xs.zipIdx 1 ∧
      ((k : Int) ∈ idxs ∨ -((xs.length : Int) - k + 1) ∈ idxs) := by
  unfold pick
  rw [List.mem_map]
  constructor
  · rintro ⟨⟨y, k⟩, he, rfl⟩
    rcases List.mem_filter.mp he with ⟨hmem, hk⟩
    exact ⟨k, hmem, of_decide_eq_true hk⟩
  · rintro ⟨k, hmem, hk⟩
    exact ⟨(x, k), List.mem_filter.mpr ⟨hmem, decide_eq_true hk⟩, rfl⟩

variable {idxs : List Int} {p : Picker item}

/-- The positions that a picker was made for. -/
structure Holds (p : Picker item) (idxs : List Int) : Prop where
  reset : p.reset = p
  sound : p.Sound
  front : forall i, i ∈ p.frontIdxs ↔ i ∈ idxs ∧ 0 < i
  back : forall i, i ∈ p.backIdxs ↔ i ∈ idxs ∧ ¬ 0 < i

theorem new_holds (h : new idxs = some p)
    (hidxs : forall i, i ∈ idxs -> i ≠ 0 ∧ -2 ^ 15 ≤ i ∧ i < 2 ^ 15)
    {cap : Nat} (hcap : p.backCap ≤ cap) : (p.roomy cap).Holds idxs := by
  rcases new_eq_some h with ⟨hreset, hfront, hback, _⟩
  have hsound := new_sound h hidxs
  refine ⟨?_, ⟨hsound.front, ?_⟩, hfront, hback⟩
  · unfold reset at hreset
    unfold roomy reset
    rw [<- hreset]
  · intro i hi
    have hbounds := hsound.back i hi
    show _ ∧ _ ∧ -i ≤ (cap : Int)
    omega

theorem Holds.chosen_iff (h : p.Holds idxs) {len k : Nat} (hk : 1 ≤ k)
    (hk' : k ≤ len) :
    p.Chosen len k ↔
      ((k : Int) ∈ idxs ∨ -((len : Int) - k + 1) ∈ idxs) := by
  have heq : (k : Int) - len - 1 = -((len : Int) - k + 1) := by omega
  unfold Chosen
  rw [heq, h.front, h.back]
  constructor
  · rintro (hfront | hback)
    · exact Or.inl hfront.left
    · exact Or.inr hback.left
  · rintro (hfront | hback)
    · exact Or.inl ⟨hfront, by omega⟩
    · exact Or.inr ⟨hback, by omega⟩

section Order

variable [LinearOrder item]

theorem pick_sorted (idxs : List Int) {xs : List item}
    (hxs : xs.Pairwise (· < ·)) : (pick idxs xs).Pairwise (· < ·) := by
  unfold pick
  have hsublist := (List.filter_sublist (l := xs.zipIdx 1)
    (p := fun e => decide ((e.2 : Int) ∈ idxs ∨
      -((xs.length : Int) - e.2 + 1) ∈ idxs))).map Prod.fst
  rw [List.zipIdx_map_fst] at hsublist
  exact hxs.sublist hsublist

theorem Holds.round (h : p.Holds idxs) {xs : List item}
    (hxs : xs.Pairwise (· < ·)) (hlen : xs.length < 2 ^ 15) :
    exists ys, Drains (p.pushAll xs).1.close ys p ∧
      (p.pushAll xs).2 ++ ys = pick idxs xs := by
  have hpushed := pushAll_holding h.sound [] xs
  rw [holding_nil, h.reset, List.nil_append] at hpushed
  rcases hpushed with ⟨hpicker, hall, hnone⟩
  rw [hpicker]
  rcases drains_ordered (close_holding_ordered p hxs) with
    ⟨ys, hdrains, hsorted, hmem⟩
  rw [close_reset, holding_reset, h.reset] at hdrains
  refine ⟨ys, hdrains, ?_⟩
  by_cases hback : p.backIdxs = ∅
  · -- Nothing is kept, the selected items were returned at once.
    have hys : ys = [] := by
      rcases group_drains p hxs with ⟨ys', hdrains', _, _, hempty, _⟩
      rw [h.reset] at hdrains'
      rw [(hdrains.unique hdrains').left]
      exact hempty hback
    rw [hys, List.append_nil]
    have hout := hall hback
    change p.selected xs = [] ++ _ at hout
    rw [List.nil_append] at hout
    rw [<- hout]
    apply eq_of_sorted (hxs.sublist (selected_sublist p xs))
      (pick_sorted idxs hxs)
    intro x
    rw [mem_selected hlen, mem_pick]
    apply exists_congr
    intro k
    apply and_congr_right
    intro hk
    have hbounds := mem_zipIdx_one hk
    rw [<- h.chosen_iff hbounds.left hbounds.right]
    unfold Chosen
    rw [hback]
    simp
  · rw [hnone hback, List.nil_append]
    apply eq_of_sorted hsorted (pick_sorted idxs hxs)
    intro x
    rw [hmem, close_holding_chosen h.sound hback hlen, mem_pick]
    apply exists_congr
    intro k
    apply and_congr_right
    intro hk
    have hbounds := mem_zipIdx_one hk
    exact h.chosen_iff hbounds.left hbounds.right

theorem Holds.rounds (h : p.Holds idxs) (xss : List (List item))
    (hxss : forall xs, xs ∈ xss ->
      xs.Pairwise (· < ·) ∧ xs.length < 2 ^ 15) :
    Rounds p xss (xss.map (pick idxs)) p := by
  induction xss with
  | nil => exact Rounds.nil
  | cons xs xss ih =>
      have hxs := hxss xs List.mem_cons_self
      rcases h.round hxs.left hxs.right with ⟨ys, hdrains, hpick⟩
      rw [List.map_cons, <- hpick]
      exact Rounds.cons hdrains
        (ih (fun xs' hxs' => hxss xs' (List.mem_cons_of_mem xs hxs')))

/--
In any number of rounds, each of them returns the items that the positions name
and leaves the picker as it was made.
-/
theorem picker_rounds (h : new idxs = some p)
    (hidxs : forall i, i ∈ idxs -> i ≠ 0 ∧ -2 ^ 15 ≤ i ∧ i < 2 ^ 15)
    {cap : Nat} (hcap : p.backCap ≤ cap) (xss outs : List (List item))
    (p' : Picker item)
    (hxss : forall xs, xs ∈ xss ->
      xs.Pairwise (· < ·) ∧ xs.length < 2 ^ 15) :
    Rounds (p.roomy cap) xss outs p' ↔
      outs = xss.map (pick idxs) ∧ p' = p.roomy cap := by
  have hrounds := (new_holds h hidxs hcap).rounds xss hxss
  constructor
  · intro h'
    rcases h'.unique hrounds with ⟨houts, hp'⟩
    exact ⟨houts, hp'⟩
  · rintro ⟨rfl, rfl⟩
    exact hrounds

/-- The two examples of the documentation, one round after the other. -/
theorem picker_rounds_second_third_last :
    exists p : Picker Int, new [2, -3] = some p ∧
      Rounds p [[100, 200, 300], [100, 200, 300, 400, 500]]
        [[100, 200], [200, 300]] p := by
  have hnew : exists p : Picker Int, new [2, -3] = some p := ⟨_, rfl⟩
  rcases hnew with ⟨p, hp⟩
  refine ⟨p, hp, ?_⟩
  exact (picker_rounds hp (by decide) (le_refl p.backCap) _ _ p
    (by decide)).mpr ⟨by decide, rfl⟩

end Order

end Picker

end Recurrence
end MailClient
