import MailClient.Recurrence.Found

/-!
# The groups of a search

With `BYSETPOS` the search divides the occurrences into groups.  A group is
closed when `next_occur_of` returns an instant that is not before its end, and
`next_instance_of` of that instant is the end of the next one.
-/

namespace MailClient
namespace Recurrence

open Foundation

namespace Cursor

/-- On its way from `b` the search is led to `n`. -/
def Comes (c : Cursor) (b n : Int) : Prop :=
  exists x, Relation.ReflTransGen (Goes c) b x ∧
    nextOccurOf c.fact x = some n ∧ x ≤ n

/-- `n` is the first instant of its group that the search is led to. -/
def Opens (c : Cursor) (b : Int) (endOf : Int -> Int) (n : Int) : Prop :=
  Comes c b n ∧ forall m, Comes c b m -> m < n -> endOf m ≠ endOf n

/--
Up to `y` the end of every group is known: `next_instance_of` does not fail for
the instants that open a group after the first one, which ends at `r`.
-/
def Divided (c : Cursor) (b r : Int) (endOf : Int -> Int) (y : Int) : Prop :=
  forall n, r ≤ n -> n ≤ y -> Opens c b endOf n ->
    nextInstanceOf c.start c.freq c.interval n ≠ none

/-- The instants of a set, in order. -/
structure Lists (xs : List Int) (S : Int -> Prop) : Prop where
  ordered : xs.Pairwise (· < ·)
  members : forall x, x ∈ xs ↔ S x

/--
What a picker selects.  Without positions from the back an occurrence is
selected by the number of those before it in its group, otherwise by its
position in the group, provided that the search is led past the group.
-/
inductive Selects (c : Cursor) (b r : Int) (endOf : Int -> Int)
    (p : Picker Int) (d : Int) : Prop where
  | atOnce {xs : List Int} (hdivided : Divided c b r endOf d)
      (hxs : Lists xs (fun x => Leads c x b ∧ x < d ∧ endOf x = endOf d))
      (hreturned : p.Returned xs.length)
  | atEnd {xs : List Int} {n : Int} (hback : p.backIdxs ≠ ∅)
      (hxs : Lists xs (fun x => Leads c x b ∧ endOf x = endOf d))
      (hpicks : p.Picks xs d) (hcomes : Comes c b n) (hpast : endOf d ≤ n)
      (hdivided : Divided c b r endOf n)

theorem Lists.unique {xs ys : List Int} {S : Int -> Prop} (hxs : Lists xs S)
    (hys : Lists ys S) : xs = ys :=
  Picker.eq_of_sorted hxs.ordered hys.ordered
    (fun x => (hxs.members x).trans (hys.members x).symm)

/-- The ends of groups are those that the search computes. -/
structure Divides (c : Cursor) (r : Int) (endOf : Int -> Int) : Prop where
  after : forall x, x < endOf x
  within : forall x y, x ≤ y -> y < endOf x -> endOf y = endOf x
  first : forall x, x < r -> endOf x = r
  repeats : forall n r', r ≤ n ->
    nextInstanceOf c.start c.freq c.interval n = some r' -> endOf n = r'

theorem Divides.le {c : Cursor} {r : Int} {endOf : Int -> Int}
    (h : Divides c r endOf) {x n : Int} (hlt : x < endOf n) :
    endOf x ≤ endOf n := by
  rcases le_or_gt n x with hle | hbefore
  · rw [h.within n x hle hlt]
  · rcases le_or_gt (endOf x) n with hle | hwithin
    · exact le_trans hle (le_of_lt (h.after n))
    · rw [<- h.within x n (le_of_lt hbefore) hwithin]

/-!
# Where a search in groups stands
-/

/-- The search stands in the group that ends at `e`. -/
structure Stands (c : Cursor) (b r : Int) (endOf : Int -> Int) (s : Position)
    (xs : List Int) (e : Int) : Prop where
  way : Relation.ReflTransGen (Goes c) b s.curr
  repeatAt : s.repeatAt = some e
  curr_le : s.curr ≤ e
  first_le : r ≤ e
  ends_le : forall x, x < e -> endOf x ≤ e
  ahead : forall n, nextOccurOf c.fact s.curr = some n -> s.curr ≤ n -> n < e ->
    endOf n = e
  behind : forall x n, Relation.ReflTransGen (Goes c) b x -> x < s.curr ->
    nextOccurOf c.fact x = some n -> x ≤ n -> n < e
  listed : Lists xs (fun x => Leads c x b ∧ x < s.curr ∧ endOf x = e)
  divided : forall n, r ≤ n -> n < e -> Opens c b endOf n ->
    nextInstanceOf c.start c.freq c.interval n ≠ none

section Standing

variable {c : Cursor} {b r : Int} {endOf : Int -> Int}

theorem Leads.way {d : Int} (h : Leads c d b) :
    Relation.ReflTransGen (Goes c) b d :=
  (leads_iff.mp h).left

theorem Leads.occur {d : Int} (h : Leads c d b) :
    nextOccurOf c.fact d = some d :=
  (leads_iff.mp h).right.left

section Place

variable {s : Position} {xs : List Int} {e : Int}
  (hs : Stands c b r endOf s xs e)

include hs

/-- What the search is led to from here on comes after the next instant. -/
theorem Stands.next_le {next n : Int}
    (hnext : nextOccurOf c.fact s.curr = some next) (hcomes : Comes c b n)
    (hle : e ≤ n) : next ≤ n := by
  rcases hcomes with ⟨x, hx, hn, hxn⟩
  rcases lt_trichotomy x s.curr with hlt | rfl | hlt
  · exact absurd (hs.behind x n hx hlt hn hxn) (not_lt.mpr hle)
  · exact le_of_eq (Option.some.inj (hnext.symm.trans hn))
  · exact le_trans (returned_le hs.way hx hlt hnext) hxn

theorem Stands.occur_lt {next x : Int}
    (hnext : nextOccurOf c.fact s.curr = some next) (hx : Leads c x b)
    (hlt : x < next) : x < s.curr := by
  rcases lt_trichotomy x s.curr with hbefore | rfl | hbefore
  · exact hbefore
  · cases hnext.symm.trans hx.occur
    exact absurd hlt (lt_irrefl _)
  · exact absurd (returned_le hs.way hx.way hbefore hnext) (not_le.mpr hlt)

variable (hdivides : Divides c r endOf)

include hdivides

theorem Stands.opens {next : Int}
    (hnext : nextOccurOf c.fact s.curr = some next) (hle : e ≤ next) :
    Opens c b endOf next := by
  refine ⟨⟨s.curr, hs.way, hnext, le_trans hs.curr_le hle⟩, ?_⟩
  intro m hm hlt hsame
  rcases le_or_gt e m with hpast | hwithin
  · exact absurd (hs.next_le hnext hm hpast) (not_le.mpr hlt)
  · have hafter := hdivides.after next
    have hends := hs.ends_le m hwithin
    omega

theorem Stands.ends {next r' : Int} (h : EndsGroup c s next r') :
    Stands c b r endOf { s with repeatAt := some r' } [] r' := by
  rcases h.past with ⟨e', he', hle⟩
  cases hs.repeatAt.symm.trans he'
  have hfirst := hs.first_le
  have hcurr := hs.curr_le
  have hends := hdivides.repeats next r' (by omega) h.repeats
  have hafter := hdivides.after next
  rw [hends] at hafter
  refine ⟨hs.way, rfl, ?_, by omega, ?_, ?_, ?_, ⟨List.Pairwise.nil, ?_⟩, ?_⟩
  · dsimp only
    omega
  · intro x hx
    rw [<- hends] at hx ⊢
    exact hdivides.le hx
  · intro n hn _ _
    cases h.occur.symm.trans hn
    exact hends
  · intro x n hx hlt hn hxn
    have hbehind := hs.behind x n hx hlt hn hxn
    omega
  · intro x
    refine iff_of_false List.not_mem_nil ?_
    rintro ⟨_, hlt, hsame⟩
    have hbefore := hs.ends_le x (by dsimp only at hlt; omega)
    omega
  · intro n hn hlt hopens
    rcases lt_or_ge n e with hold | hnew
    · exact hs.divided n hn hold hopens
    · rcases eq_or_lt_of_le (hs.next_le h.occur hopens.left hnew) with
        rfl | hlater
      · exact Option.ne_none_iff_exists'.mpr ⟨r', h.repeats⟩
      · refine absurd ?_ (hopens.right next (hs.opens hdivides h.occur hle).left
          hlater)
        exact (hdivides.within next n (le_of_lt hlater)
          (hends ▸ hlt)).symm

theorem Stands.jumps {next : Int} (h : Jumps c s next) :
    Stands c b r endOf { s with curr := next } xs e := by
  have hlater := h.later
  have hlt := h.within e hs.repeatAt
  have hends := hs.ahead next h.occur (le_of_lt hlater) hlt
  refine ⟨hs.way.tail (Goes.jumps h.occur hlater), hs.repeatAt, le_of_lt hlt,
    hs.first_le, hs.ends_le, ?_, ?_, ⟨hs.listed.ordered, ?_⟩, hs.divided⟩
  · intro n hn hle hwithin
    rw [<- hends] at hwithin ⊢
    exact hdivides.within next n hle hwithin
  · intro x n hx hxlt hn hxn
    rcases lt_trichotomy x s.curr with hbefore | rfl | hbefore
    · exact hs.behind x n hx hbefore hn hxn
    · cases h.occur.symm.trans hn
      exact hlt
    · exact absurd (returned_le hs.way hx hbefore h.occur) (not_le.mpr hxlt)
  · intro x
    rw [hs.listed.members]
    refine and_congr_right (fun hx => and_congr_left (fun _ => ?_))
    exact ⟨fun hbefore => lt_trans hbefore hlater, hs.occur_lt h.occur hx⟩

theorem Stands.rests {curr : Int} (h : Rests c s curr) :
    Stands c b r endOf { s with curr := curr } (xs ++ [s.curr]) e := by
  rcases h.curr_eq with ⟨rfl, _⟩
  have hlt := h.within e hs.repeatAt
  have hends := hs.ahead s.curr h.occur le_rfl hlt
  refine ⟨hs.way.tail (Goes.rests h.occur h.after), hs.repeatAt, hlt,
    hs.first_le, hs.ends_le, ?_, ?_, ⟨?_, ?_⟩, hs.divided⟩
  · intro n hn hle hwithin
    rw [<- hends] at hwithin ⊢
    exact hdivides.within s.curr n (le_of_lt hle) hwithin
  · intro x n hx hxlt hn hxn
    rcases eq_or_lt_of_le (Int.lt_add_one_iff.mp hxlt) with rfl | hbefore
    · cases h.occur.symm.trans hn
      exact hlt
    · exact hs.behind x n hx hbefore hn hxn
  · refine (Gathered.concat (s := s) ⟨hs.listed.ordered, ?_⟩).ordered
    exact fun x hx => ((hs.listed.members x).mp hx).right.left
  · intro x
    have hleads : Leads c s.curr b :=
      leads_iff.mpr ⟨hs.way, h.occur, h.after⟩
    rw [List.mem_append, hs.listed.members, List.mem_singleton]
    constructor
    · rintro (⟨hx, hbefore, hsame⟩ | rfl)
      · exact ⟨hx, lt_trans hbefore (Int.lt_succ _), hsame⟩
      · exact ⟨hleads, Int.lt_succ _, hends⟩
    · rintro ⟨hx, hbefore, hsame⟩
      rcases eq_or_lt_of_le (Int.lt_add_one_iff.mp hbefore) with heq | hbefore
      · exact Or.inr heq
      · exact Or.inl ⟨hx, hbefore, hsame⟩

end Place

/-!
# What is selected
-/

/-- A search in groups at its begin. -/
def grouped (b r : Int) : Place :=
  ({ curr := b, repeatAt := some r }, [])

variable (hdivides : Divides c r endOf)

include hdivides

theorem stands_begin (hle : b ≤ r) :
    Stands c b r endOf (grouped b r).1 (grouped b r).2 r := by
  refine ⟨Relation.ReflTransGen.refl, rfl, hle, le_rfl, ?_, ?_, ?_,
    ⟨List.Pairwise.nil, ?_⟩, ?_⟩
  · exact fun x hx => le_of_eq (hdivides.first x hx)
  · exact fun n _ _ hn => hdivides.first n hn
  · exact fun x n hx hlt => absurd (way_le hx) (not_le.mpr hlt)
  · intro x
    refine iff_of_false List.not_mem_nil ?_
    exact fun hx => absurd (way_le hx.left.way) (not_le.mpr hx.right.left)
  · exact fun n hle hlt => absurd hle (not_le.mpr hlt)

theorem stands_way (hle : b ≤ r) {a : Place}
    (hway : Relation.ReflTransGen (Step c) (grouped b r) a) :
    exists e, Stands c b r endOf a.1 a.2 e := by
  induction hway with
  | refl => exact ⟨r, stands_begin hdivides hle⟩
  | tail _ hstep ih =>
      rcases ih with ⟨e, hs⟩
      cases hstep with
      | ends h => exact ⟨_, hs.ends hdivides h⟩
      | jumps h => exact ⟨e, hs.jumps hdivides h⟩
      | rests h => exact ⟨e, hs.rests hdivides h⟩

/-- The search ends a group to go on to an instant that the groups lead to. -/
theorem Stands.crosses {s : Position} {xs : List Int} {e n : Int}
    (hs : Stands c b r endOf s xs e)
    (hnext : nextOccurOf c.fact s.curr = some n)
    (hdivided : Divided c b r endOf n) :
    exists s' xs' e', Relation.ReflTransGen (Step c) (s, xs) (s', xs') ∧
      s'.curr = s.curr ∧ Stands c b r endOf s' xs' e' ∧ n < e' := by
  rcases lt_or_ge n e with hlt | hle
  · exact ⟨s, xs, e, Relation.ReflTransGen.refl, rfl, hs, hlt⟩
  · rcases Option.ne_none_iff_exists'.mp (hdivided n
      (le_trans hs.first_le hle) le_rfl (hs.opens hdivides hnext hle)) with
      ⟨r', hr'⟩
    have hends : EndsGroup c s n r' := ⟨hnext, ⟨e, hs.repeatAt, hle⟩, hr'⟩
    have hafter := hdivides.after n
    rw [hdivides.repeats n r' (le_trans hs.first_le hle) hr'] at hafter
    exact ⟨_, [], r', Relation.ReflTransGen.single (Step.ends hends), rfl,
      hs.ends hdivides hends, hafter⟩

omit hdivides in
theorem Stands.withinGroup {s : Position} {xs : List Int} {e n : Int}
    (hs : Stands c b r endOf s xs e) (hlt : n < e) : WithinGroup s n := by
  intro r' hr'
  cases hs.repeatAt.symm.trans hr'
  exact hlt

omit hdivides in
theorem Divided.before {n y : Int} (h : Divided c b r endOf y) (hle : n ≤ y) :
    Divided c b r endOf n :=
  fun m hfirst hm => h m hfirst (le_trans hm hle)

theorem stands_at (hle : b ≤ r) {y : Int}
    (hway : Relation.ReflTransGen (Goes c) b y)
    (hdivided : Divided c b r endOf y) :
    exists s xs e, Relation.ReflTransGen (Step c) (grouped b r) (s, xs) ∧
      s.curr = y ∧ Stands c b r endOf s xs e := by
  induction hway with
  | refl =>
      exact ⟨_, _, r, Relation.ReflTransGen.refl, rfl,
        stands_begin hdivides hle⟩
  | tail _ hgoes ih =>
      rcases ih (hdivided.before (le_of_lt hgoes.lt)) with
        ⟨s, xs, e, hplace, rfl, hs⟩
      cases hgoes with
      | jumps h hlt =>
          rcases hs.crosses hdivides h hdivided with
            ⟨s', xs', e', hsteps, hcurr, hs', hn⟩
          have hjumps : Jumps c s' _ :=
            ⟨hcurr ▸ h, hs'.withinGroup hn, hcurr ▸ hlt⟩
          exact ⟨_, xs', e', (hplace.trans hsteps).tail (Step.jumps hjumps),
            rfl, hs'.jumps hdivides hjumps⟩
      | rests h hadd =>
          rcases hs.crosses hdivides h
            (hdivided.before (le_of_lt (Int.lt_succ _))) with
            ⟨s', xs', e', hsteps, hcurr, hs', hn⟩
          have hrests : Rests c s' (s.curr + 1) :=
            ⟨hcurr ▸ h, hcurr ▸ hs'.withinGroup hn, hcurr ▸ hadd⟩
          exact ⟨_, _, e', (hplace.trans hsteps).tail (Step.rests hrests),
            rfl, hs'.rests hdivides hrests⟩

/-- A group whose end the search has left behind has given what is selected. -/
theorem found_behind (hle : b ≤ r) {p : Picker Int} (hback : p.backIdxs ≠ ∅)
    {d : Int} {ds : List Int}
    (hds : Lists ds (fun x => Leads c x b ∧ endOf x = endOf d))
    (hpicks : p.Picks ds d) {a : Place}
    (hway : Relation.ReflTransGen (Step c) (grouped b r) a) {e : Int}
    (he : a.1.repeatAt = some e) (hlt : endOf d < e) :
    Found c (some p) (grouped b r) d := by
  have hleads : Leads c d b := ((hds.members d).mp (hpicks.mem)).left
  have hafter := hdivides.after d
  induction hway generalizing e with
  | refl =>
      cases he
      have hfirst := hdivides.first d (by omega)
      omega
  | tail hplace hstep ih =>
      cases hstep with
      | jumps _ => exact ih he hlt
      | rests _ => exact ih he hlt
      | @ends s xs next r' h =>
          cases he
          rcases stands_way hdivides hle hplace with ⟨e, hs⟩
          rcases lt_trichotomy (endOf d) e with hbefore | heq | hbefore
          · exact ih hs.repeatAt hbefore
          · have hxs : Lists xs (fun x => Leads c x b ∧ endOf x = endOf d) := by
              refine ⟨hs.listed.ordered, fun x => ?_⟩
              rw [hs.listed.members, heq]
              refine and_congr_right (fun hx => ?_)
              rw [and_iff_right_iff_imp]
              intro hsame
              rcases h.past with ⟨e', he', hpast⟩
              cases hs.repeatAt.symm.trans he'
              have hx' := hdivides.after x
              exact hs.occur_lt h.occur hx (by omega)
            rw [hds.unique hxs] at hpicks
            exact ⟨_, hplace, Gives.selected h rfl
              ((Picker.close_holding_picks hback).mpr hpicks)⟩
          · -- The search would have been led to `d` before it ends this group.
            exfalso
            have hpast : e ≤ d := by
              by_contra hwithin
              have hends := hs.ends_le d (not_le.mp hwithin)
              omega
            have hnext := hs.next_le h.occur
              ⟨d, hleads.way, hleads.occur, le_rfl⟩ hpast
            have hends := hdivides.repeats next _ (by
              rcases h.past with ⟨e', he', hpast'⟩
              cases hs.repeatAt.symm.trans he'
              exact le_trans hs.first_le hpast') h.repeats
            have hsame := hdivides.within next d hnext (by omega)
            omega

theorem found_selects (hle : b ≤ r) {p : Picker Int} {d : Int} :
    Found c (some p) (grouped b r) d ↔
      Leads c d b ∧ Selects c b r endOf p d := by
  constructor
  · rintro ⟨a, hway, hgives⟩
    rcases stands_way hdivides hle hway with ⟨e, hs⟩
    cases hgives with
    | @atOnce s xs curr h honce =>
        rcases h.curr_eq with ⟨rfl, _⟩
        have hlt := h.within e hs.repeatAt
        have hends := hs.ahead s.curr h.occur le_rfl hlt
        refine ⟨leads_iff.mpr ⟨hs.way, h.occur, h.after⟩,
          Selects.atOnce ?_ (hends ▸ hs.listed) honce⟩
        exact fun n hfirst hn => hs.divided n hfirst (lt_of_le_of_lt hn hlt)
    | @selected s xs next r' p' d h hq hd =>
        cases hq
        have hback : p.backIdxs ≠ ∅ :=
          fun hempty => Picker.not_wanted_of_empty hempty xs d hd
        have hpicks := (Picker.close_holding_picks hback).mp hd
        have hmem := (hs.listed.members d).mp hpicks.mem
        rcases h.past with ⟨e', he', hpast⟩
        cases hs.repeatAt.symm.trans he'
        refine ⟨hmem.left, Selects.atEnd hback ⟨hs.listed.ordered, ?_⟩ hpicks
          ⟨s.curr, hs.way, h.occur, le_trans hs.curr_le hpast⟩
          (hmem.right.right ▸ hpast) ?_⟩
        · intro x
          rw [hs.listed.members, hmem.right.right]
          refine and_congr_right (fun hx => ?_)
          rw [and_iff_right_iff_imp]
          intro hsame
          have hafter := hdivides.after x
          exact hs.occur_lt h.occur hx (by omega)
        · have hends := hs.ends hdivides h
          have hafter := hdivides.after next
          rw [hdivides.repeats next r' (le_trans hs.first_le hpast) h.repeats]
            at hafter
          exact fun n hfirst hn =>
            hends.divided n hfirst (lt_of_le_of_lt hn hafter)
  · rintro ⟨hleads, hselects⟩
    cases hselects with
    | @atOnce xs hdivided hxs hreturned =>
        rcases stands_at hdivides hle hleads.way hdivided with
          ⟨s, ys, e, hway, rfl, hs⟩
        rcases hs.crosses hdivides hleads.occur hdivided with
          ⟨s', ys', e', hsteps, hcurr, hs', hn⟩
        have hends := hs'.ahead s'.curr (hcurr ▸ hleads.occur) le_rfl
          (hcurr ▸ hn)
        have hys := hs'.listed
        rw [hcurr] at hends
        rw [hcurr, <- hends] at hys
        rw [hxs.unique hys] at hreturned
        have hrests : Rests c s' (s.curr + 1) :=
          ⟨hcurr ▸ hleads.occur, hcurr ▸ hs'.withinGroup hn,
            hcurr ▸ (leads_iff.mp hleads).right.right⟩
        refine ⟨_, hway.trans hsteps, ?_⟩
        have hgives := Gives.atOnce (q := some p) hrests hreturned
        rw [hcurr] at hgives
        exact hgives
    | @atEnd xs n hback hxs hpicks hcomes hpast hdivided =>
        rcases hcomes with ⟨x, hx, hn, hxn⟩
        rcases stands_at hdivides hle hx (hdivided.before hxn) with
          ⟨s, ys, e, hway, rfl, hs⟩
        rcases hs.crosses hdivides hn hdivided with
          ⟨s', ys', e', hsteps, _, hs', hlt⟩
        exact found_behind hdivides hle hback hxs hpicks
          (hway.trans hsteps) hs'.repeatAt (lt_of_le_of_lt hpast hlt)

end Standing

end Cursor

end Recurrence
end MailClient
