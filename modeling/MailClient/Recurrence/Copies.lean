import MailClient.Recurrence.Series

/-!
# Copies of an iterator

The derived `clone` copies the deque of the kept items with room for those it
holds at that time, but a picker takes the room of its deque for the number of
items it has to keep.  A copy goes on like the original as long as its room
makes no difference for the dates that are still produced.
-/

namespace MailClient
namespace Recurrence

open Foundation

/-!
# Pickers with another room
-/

namespace Picker

variable {item : Type}

def withRoom (p : Picker item) (room : Nat) : Picker item :=
  { p with backCap := room }

/--
The copy of a picker, with room for `room` items.  `push` drops an item before
it adds one to a full deque, so only a deque without room ever grows, to
`grown`, and that is with the first item it gets.
-/
def clone (p : Picker item) (room grown : Nat) : Picker item :=
  p.withRoom (if room = 0 then grown else room)

/--
If the item has a wanted position from the back of the group and is not selected
from the front, it is kept with room for `room` items if and only if it is with
the room of the picker.
-/
def Fits (p : Picker item) (room : Nat) (xs : List item) (x : item) : Prop :=
  forall before k after, p.others xs = before ++ (k, x) :: after ->
    fromBack (wrap 16 xs.length) k ∈ p.backIdxs ->
      (after.length < room ↔ after.length < p.backCap)

theorem withRoom_picks {p : Picker item} {room : Nat} {xs : List item}
    {x : item} (hfits : p.Fits room xs x) :
    (p.withRoom room).Picks xs x ↔ p.Picks xs x := by
  refine or_congr Iff.rfl ?_
  constructor
  · intro hex
    rcases hex with ⟨before, k, after, hsplit, hlt, hi⟩
    exact ⟨before, k, after, hsplit, (hfits before k after hsplit hi).mp hlt, hi⟩
  · intro hex
    rcases hex with ⟨before, k, after, hsplit, hlt, hi⟩
    exact ⟨before, k, after, hsplit, (hfits before k after hsplit hi).mpr hlt,
      hi⟩

theorem withRoom_holding {p : Picker item} {xs : List item}
    (h : xs = [] ∨ p.backIdxs = ∅) (room : Nat) :
    (p.withRoom room).holding xs = (p.holding xs).withRoom room := by
  rcases h with rfl | hback
  · rw [holding_nil, holding_nil]
    rfl
  · unfold holding withRoom
    simp only [if_pos hback]

theorem Ordered.withRoom [LinearOrder item] {q : Picker item} (h : q.Ordered)
    (room : Nat) : (q.withRoom room).Ordered :=
  ⟨h.closed, h.front, h.back, h.apart⟩

end Picker

/-!
# Between two calls
-/

namespace Cursor

/-- The search stands at a position, with the occurrences of its group. -/
structure Along (inv : Position -> Prop) (p : Picker Int) (s : Position)
    (xs : List Int) : Prop where
  holds : inv s
  matched : Matched s (some p)
  gathered : Gathered s xs

/--
A search between two calls: its picker is closed and still returns items of the
last group, or it has nothing to keep.
-/
inductive Waits (c : Cursor) (inv : Position -> Prop) (p : Picker Int) :
    Cursor -> Prop where
  | closed {s : Position} {q : Picker Int} (h : Along inv p s [])
      (hq : q.Ordered) (hreset : q.reset = p.reset)
      (hbehind : forall x, q.Wanted x -> x < s.curr) :
      Waits c inv p { c.standing s (some p) [] with picker := some q }
  | opened {s : Position} {xs : List Int} (h : Along inv p s xs)
      (hnone : xs = [] ∨ p.backIdxs = ∅) :
      Waits c inv p (c.standing s (some p) xs)

/-- Where a pass leads from an instant: further on, or to the next date. -/
def Onward (c : Cursor) (inv : Position -> Prop) (p : Picker Int) (n : Int) :
    Flow Cursor (Option Int × Cursor) -> Prop
  | Flow.again c' => exists s xs, Along inv p s xs ∧ n ≤ s.curr ∧
      c' = c.standing s (some p) xs
  | Flow.done r => forall d, r.1 = some d ->
      Waits c inv p r.2 ∧ d < r.2.curr ∧ n ≤ r.2.curr

section Between

variable {c : Cursor} {inv : Position -> Prop} (hsteady : Steady c inv)
  {p : Picker Int} (hcapacity : p.backIdxs ≠ ∅ -> 1 ≤ p.backCap)

include hsteady

theorem Along.step {s s' : Position} {xs xs' : List Int} (h : Along inv p s xs)
    (hstep : Step c (s, xs) (s', xs')) (hmatched : Matched s' (some p))
    (hxs : Gathered s' xs') : Along inv p s' xs' :=
  ⟨(hsteady.keeps s s' h.holds (move_of_step hstep)).left, hmatched, hxs⟩

include hcapacity

theorem visit_onward {s : Position} {xs : List Int} (h : Along inv p s xs)
    {next : Int} (hnext : nextOccurOf c.fact s.curr = some next)
    (hwithin : WithinGroup s next) :
    Onward c inv p s.curr ((c.standing s (some p) xs).visit next) := by
  unfold visit
  rw [standing_curr]
  by_cases hback : next < s.curr
  · rw [if_pos hback]
    exact fun d hd => nomatch hd
  rw [if_neg hback]
  by_cases hrests : next = s.curr
  · rw [if_pos hrests]
    subst hrests
    cases hadd : addSeconds 1 s.curr with
    | none => exact fun d hd => nomatch hd
    | some curr =>
        have hstep : Rests c s curr := ⟨hnext, hwithin, hadd⟩
        rcases hstep.curr_eq with ⟨rfl, _⟩
        have hnew := h.step hsteady (Step.rests hstep) h.matched
          h.gathered.concat
        have hpush := Picker.push_holding hcapacity xs s.curr
        dsimp only [standing, Option.map_some]
        rw [hpush]
        by_cases hreturned : p.Returned xs.length
        · rw [if_pos hreturned]
          intro d hd
          cases hd
          exact ⟨Waits.opened hnew (Or.inr hreturned.left), Int.lt_succ _,
            le_of_lt (Int.lt_succ _)⟩
        · rw [if_neg hreturned]
          exact ⟨_, _, hnew, le_of_lt (Int.lt_succ _), rfl⟩
  · rw [if_neg hrests]
    have hlt : s.curr < next := lt_of_le_of_ne (not_lt.mp hback)
      (Ne.symm hrests)
    have hjumps : Step c (s, xs) ({ s with curr := next }, xs) :=
      Step.jumps ⟨hnext, hwithin, hlt⟩
    have hnew := h.step hsteady hjumps h.matched (h.gathered.later (le_of_lt hlt))
    exact ⟨_, _, hnew, le_of_lt hlt, rfl⟩

theorem pass_onward {s : Position} {xs : List Int} (h : Along inv p s xs) :
    Onward c inv p s.curr (c.standing s (some p) xs).pass := by
  cases hnext : nextOccurOf c.fact s.curr with
  | none =>
      rw [pass_fails hnext]
      exact fun d hd => nomatch hd
  | some next =>
      by_cases hwithin : WithinGroup s next
      · rw [pass_within _ xs hnext hwithin]
        exact visit_onward hsteady hcapacity h hnext hwithin
      · rcases (Option.any_eq_true _ _).mp (any_repeatAt.mpr hwithin) with
          ⟨r, hr, hle⟩
        have hle' := of_decide_eq_true hle
        rw [pass_end xs rfl hnext hr hle']
        cases hinstance : nextInstanceOf c.start c.freq c.interval next with
        | none => exact fun d hd => nomatch hd
        | some r' =>
            have hends : EndsGroup c s next r' := ⟨hnext, ⟨r, hr, hle'⟩, hinstance⟩
            have hstep : Step c (s, xs) ({ s with repeatAt := some r' }, []) :=
              Step.ends hends
            have hnew := h.step hsteady hstep
              (h.matched.ends hends) (Gathered.nil _)
            have hreset : (p.holding xs).close.reset = p.reset :=
              Picker.close_reset _
            dsimp only
            rcases Picker.pull_cases
              (Picker.close_holding_ordered p h.gathered.ordered) with
              ⟨hpull, _⟩ | ⟨q, y, hpull, hq, hqreset, _, hwanted, _⟩
            · rw [hpull, hreset, <- Picker.holding_nil]
              have hlater : WithinGroup { s with repeatAt := some r' } next := by
                intro r'' hr''
                cases hr''
                exact hsteady.after s next r' h.holds hends
              exact visit_onward hsteady hcapacity hnew hnext hlater
            · rw [hpull]
              have hbefore : forall x, (p.holding xs).close.Wanted x ->
                  x < s.curr :=
                fun x hx => h.gathered.before x (Picker.close_holding_mem p hx)
              intro d hd
              cases hd
              exact ⟨Waits.closed hnew hq (hqreset.trans hreset)
                (fun x hx => hbefore x ((hwanted x).mpr (Or.inr hx))),
                hbefore y ((hwanted y).mpr (Or.inl rfl)), le_rfl⟩

theorem search_onward {s : Position} {xs : List Int} (h : Along inv p s xs)
    {d : Int} {c' : Cursor}
    (hrun : Returns search (c.standing s (some p) xs) (some d, c')) :
    Waits c inv p c' ∧ d < c'.curr ∧ s.curr ≤ c'.curr := by
  refine Returns.keeps
    (fun c' => exists t ys, Along inv p t ys ∧ s.curr ≤ t.curr ∧
      c' = c.standing t (some p) ys)
    (fun r => forall d, r.1 = some d ->
      Waits c inv p r.2 ∧ d < r.2.curr ∧ s.curr ≤ r.2.curr)
    ?_ ?_ hrun ⟨s, xs, h, le_rfl, rfl⟩ d rfl
  · rintro fuel _ c'' ⟨t, ys, hy, hle, rfl⟩ hpass
    have honward := pass_onward hsteady hcapacity hy
    rw [Option.some.inj hpass] at honward
    rcases honward with ⟨t', ys', hy', hle', rfl⟩
    exact ⟨t', ys', hy', le_trans hle hle', rfl⟩
  · rintro fuel _ r ⟨t, ys, hy, hle, rfl⟩ hpass d hd
    have honward := pass_onward hsteady hcapacity hy
    rw [Option.some.inj hpass] at honward
    rcases honward d hd with ⟨hwaits, hlt, hle'⟩
    exact ⟨hwaits, hlt, le_trans hle hle'⟩

theorem Waits.nextInner {c1 c2 : Cursor} (h : Waits c inv p c1) {d : Int}
    (hrun : Returns nextInner c1 (some d, c2)) :
    Waits c inv p c2 ∧ d < c2.curr ∧ c1.curr ≤ c2.curr := by
  cases h with
  | @opened s xs h _ =>
      rw [returns_of_drained (standing_drained c s (some p) xs)] at hrun
      exact search_onward hsteady hcapacity h hrun
  | @closed s q h hq hreset hbehind =>
      rcases hrun with ⟨fuel, hfuel⟩
      unfold Cursor.nextInner pull at hfuel
      dsimp only at hfuel
      rcases Picker.pull_cases hq with ⟨hpull, _⟩ |
        ⟨q', y, hpull, hq', hqreset, _, hwanted, _⟩
      · rw [hpull, hreset, <- Picker.holding_nil] at hfuel
        exact search_onward hsteady hcapacity h ⟨fuel, hfuel⟩
      · rw [hpull] at hfuel
        cases hfuel
        exact ⟨Waits.closed h hq' (hqreset.trans hreset)
          (fun x hx => hbehind x ((hwanted x).mpr (Or.inr hx))),
          hbehind _ ((hwanted _).mpr (Or.inl rfl)), le_rfl⟩

end Between

theorem Calls.append {c c' c'' : Cursor} {ds ds' : List Int}
    (h : Calls c ds c') (h' : Calls c' ds' c'') : Calls c (ds ++ ds') c'' := by
  induction h with
  | nothing _ => exact h'
  | date hdate _ ih => exact Calls.date hdate (ih h')

theorem Waits.calls {c : Cursor} {inv : Position -> Prop}
    (hsteady : Steady c inv) {p : Picker Int}
    (hcapacity : p.backIdxs ≠ ∅ -> 1 ≤ p.backCap) {c1 c2 : Cursor}
    {ds : List Int} (h : Waits c inv p c1) (hcalls : Calls c1 ds c2) :
    Waits c inv p c2 ∧ c1.curr ≤ c2.curr ∧ forall d, d ∈ ds -> d < c2.curr := by
  induction hcalls with
  | nothing _ => exact ⟨h, le_rfl, List.forall_mem_nil _⟩
  | date hdate _ ih =>
      rcases h.nextInner hsteady hcapacity hdate with ⟨hwaits, hlt, hle⟩
      rcases ih hwaits with ⟨hlast, hle', hds⟩
      exact ⟨hlast, le_trans hle hle',
        List.forall_mem_cons.mpr ⟨lt_of_lt_of_le hlt hle', hds⟩⟩

/-!
# What a copy finds
-/

/-- `clone`; the deque of a picker gets the room of `Picker.clone`. -/
def clone (c : Cursor) (room grown : Nat) : Cursor :=
  { c with picker := c.picker.map (fun p => p.clone room grown) }

/-- The room of the copy makes no difference for `x` in a group still to end. -/
def FitsFrom (c : Cursor) (p : Picker Int) (room : Nat) (a : Place) (x : Int) :
    Prop :=
  forall s xs next r, Relation.ReflTransGen (Step c) a (s, xs) ->
    EndsGroup c s next r -> p.Fits room xs x

theorem found_withRoom {c : Cursor} {p : Picker Int} {room : Nat} {a : Place}
    {x : Int} (hfits : p.backIdxs ≠ ∅ -> FitsFrom c p room a x) :
    Found c (some (p.withRoom room)) a x ↔ Found c (some p) a x := by
  refine exists_congr (fun b => and_congr_right (fun hway => ?_))
  constructor
  · intro hgives
    cases hgives with
    | atOnce h honce => exact Gives.atOnce h honce
    | selected h hq hd =>
        cases hq
        by_cases hback : p.backIdxs = ∅
        · exact absurd hd
            (Picker.not_wanted_of_empty (p := p.withRoom room) hback _ x)
        · rw [Picker.close_holding_picks (p := p.withRoom room) hback,
            Picker.withRoom_picks (hfits hback _ _ _ _ hway h),
            <- Picker.close_holding_picks hback] at hd
          exact Gives.selected h rfl hd
  · intro hgives
    cases hgives with
    | atOnce h honce => exact Gives.atOnce h honce
    | selected h hq hd =>
        cases hq
        by_cases hback : p.backIdxs = ∅
        · exact absurd hd (Picker.not_wanted_of_empty hback _ x)
        · rw [Picker.close_holding_picks hback,
            <- Picker.withRoom_picks (hfits hback _ _ _ _ hway h),
            <- Picker.close_holding_picks (p := p.withRoom room) hback] at hd
          exact Gives.selected h rfl hd

/-- The dates that a waiting search finds, in order. -/
theorem Waits.raws {c : Cursor} {inv : Position -> Prop}
    (hsteady : Steady c inv) {p : Picker Int}
    (hcapacity : p.backIdxs ≠ ∅ -> 1 ≤ p.backCap) {s : Position}
    {q : Picker Int} (h : Along inv p s []) (hq : q.Ordered)
    (hreset : q.reset = p.reset)
    (hbehind : forall x, q.Wanted x -> x < s.curr) :
    exists ds, Raws { c.standing s (some p) [] with picker := some q } ds ∧
      ds.Pairwise (· < ·) ∧
      (forall x, x ∈ ds ↔ q.Wanted x ∨ Found c (some p) (s, []) x) ∧
      forall x, Found c (some p) (s, []) x -> s.curr ≤ x := by
  rcases raws_walk hsteady (q := some p) (by
    intro p' hp'
    cases hp'
    exact hcapacity) h.holds h.matched h.gathered with
    ⟨ds, hraws, hordered, hfound, hmem⟩
  rcases Picker.drains_ordered hq with ⟨ys, hdrains, hys, hwanted⟩
  have hahead : forall x, Found c (some p) (s, []) x -> s.curr ≤ x := by
    intro x hx
    rcases (hmem x ((hfound x).mpr hx)).right with ⟨hnil, _⟩ | hle
    · cases hnil
    · exact hle
  refine ⟨ys ++ ds, raws_drains hdrains rfl rfl ?_, ?_, ?_, hahead⟩
  · rw [hreset, <- Picker.holding_nil]
    exact hraws
  · refine List.pairwise_append.mpr ⟨hys, hordered, ?_⟩
    intro x hx y hy
    exact lt_of_lt_of_le (hbehind x ((hwanted x).mp hx))
      (hahead y ((hfound y).mp hy))
  · intro x
    rw [List.mem_append, hwanted, hfound]

/-- What is left of the original and of a copy. -/
theorem Waits.copy {c : Cursor} {inv : Position -> Prop}
    (hsteady : Steady c inv) {p : Picker Int}
    (hcapacity : p.backIdxs ≠ ∅ -> 1 ≤ p.backCap) {c1 : Cursor}
    (h : Waits c inv p c1) (room : Nat) {grown : Nat} (hgrown : 1 ≤ grown) :
    exists ds ds', Raws c1 ds ∧ Raws (c1.clone room grown) ds' ∧
      ds.Pairwise (· < ·) ∧ ds'.Pairwise (· < ·) ∧
      (forall x, x ∈ ds' -> x ∈ ds ∨ c1.curr ≤ x) ∧
      forall x, FitsFrom c p (if room = 0 then grown else room)
        ({ curr := c1.curr, repeatAt := c1.repeatAt }, []) x ->
          (x ∈ ds' ↔ x ∈ ds) := by
  have hroom : (p.clone room grown).backIdxs ≠ ∅ ->
      1 ≤ (p.clone room grown).backCap := by
    intro _
    show 1 ≤ if room = 0 then grown else room
    split
    · exact hgrown
    · omega
  cases h with
  | @closed s q h hq hreset hbehind =>
      rcases Waits.raws hsteady hcapacity h hq hreset hbehind with
        ⟨ds, hraws, hordered, hmem, _⟩
      rcases Waits.raws hsteady hroom ⟨h.holds, h.matched, h.gathered⟩
        (hq.withRoom (if room = 0 then grown else room))
        (congrArg (fun p => p.clone room grown) hreset) hbehind with
        ⟨ds', hraws', hordered', hmem', hahead⟩
      refine ⟨ds, ds', hraws, hraws', hordered, hordered', ?_, ?_⟩
      · intro x hx
        rcases (hmem' x).mp hx with hx | hx
        · exact Or.inl ((hmem x).mpr (Or.inl hx))
        · exact Or.inr (hahead x hx)
      · intro x hfits
        rw [hmem, hmem']
        exact or_congr Iff.rfl (found_withRoom (fun _ => hfits))
  | @opened s xs h hnone =>
      have hwalk {q : Picker Int} (hq : q.backIdxs = p.backIdxs)
          (hcap : q.backIdxs ≠ ∅ -> 1 ≤ q.backCap) :
          exists ds, Raws (c.standing s (some q) xs) ds ∧
            ds.Pairwise (· < ·) ∧
            (forall x, x ∈ ds ↔ Found c (some q) (s, xs) x) ∧
            forall x, x ∈ ds -> s.curr ≤ x := by
        rcases raws_walk hsteady (q := some q) (by
          intro q' hq'
          cases hq'
          exact hcap) h.holds h.matched h.gathered with
          ⟨ds, hraws, hordered, hfound, hmem⟩
        refine ⟨ds, hraws, hordered, hfound, fun x hx => ?_⟩
        rcases (hmem x hx).right with ⟨hold, hkeeps⟩ | hle
        · rcases hkeeps with ⟨q', hq', hback⟩
          cases hq'
          rcases hnone with rfl | hempty
          · cases hold
          · exact absurd (hq.trans hempty) hback
        · exact hle
      rcases hwalk rfl hcapacity with ⟨ds, hraws, hordered, hmem, _⟩
      rcases hwalk (q := p.clone room grown) rfl hroom with
        ⟨ds', hraws', hordered', hmem', hahead⟩
      have hcopy : (c.standing s (some p) xs).clone room grown =
          c.standing s (some (p.clone room grown)) xs := by
        unfold clone standing
        rw [Option.map_some, Option.map_some, Option.map_some]
        exact congrArg (fun q => { c with
          picker := some q, repeatAt := s.repeatAt, curr := s.curr })
          (Picker.withRoom_holding hnone _).symm
      refine ⟨ds, ds', hraws, hcopy ▸ hraws', hordered, hordered',
        fun x hx => Or.inr (hahead x hx), ?_⟩
      intro x hfits
      rw [hmem, hmem']
      refine found_withRoom (fun hback => ?_)
      rcases hnone with rfl | hempty
      · exact hfits
      · exact absurd hempty hback

end Cursor

/-!
# Iterators that go on
-/

namespace RecurIterator

def clone (it : RecurIterator) (room grown : Nat) : RecurIterator :=
  { it with toCursor := it.toCursor.clone room grown }

/-- The next calls return these dates. -/
inductive Takes : RecurIterator -> List Int -> RecurIterator -> Prop where
  | nothing (it : RecurIterator) : Takes it [] it
  | date {it it' it'' : RecurIterator} {d : Int} {ds : List Int}
      (h : Returns nextDate it (some d, it')) (hrest : Takes it' ds it'') :
      Takes it (d :: ds) it''

theorem Takes.advances {it it' : RecurIterator} {dates : List Int}
    (htakes : Takes it dates it') (h : it.Ready) {ds : List Int}
    (hraws : Cursor.Raws it.toCursor ds) :
    exists found ds', ds = found ++ ds' ∧
      Cursor.Calls it.toCursor found it'.toCursor ∧
      Cursor.Raws it'.toCursor ds' ∧ it'.Ready ∧
      forall more, it.rest (found ++ more) = dates ++ it'.rest more := by
  induction htakes generalizing ds with
  | nothing it =>
      exact ⟨[], ds, rfl, Cursor.Calls.nothing _, hraws, h, fun _ => rfl⟩
  | date hdate _ ih =>
      rcases h.nextDate hraws with ⟨it', hnone, _⟩ |
        ⟨e, it', found, ds', hsome, hadvances⟩
      · cases hnone.unique nextDate_grows hdate
      cases hsome.unique nextDate_grows hdate
      rcases ih hadvances.ready hadvances.raws with
        ⟨found', ds'', hsplit, hcalls, hraws'', hready, hrest⟩
      refine ⟨found ++ found', ds'', ?_, hadvances.calls.append hcalls, hraws'',
        hready, fun more => ?_⟩
      · rw [hadvances.split, hsplit, List.append_assoc]
      · rw [List.append_assoc, hadvances.rest, hrest, List.cons_append]

/-!
# Two series
-/

/-- The dates of the rule that the search finds before `x`. -/
def earlier (recur : Recur) (it : RecurIterator) (x : Int) : Set Int :=
  { y | Cursor.Found it.toCursor it.picker
      (beginAt recur it.start it.start, []) y ∧
    Within it.start it.untilAt y ∧ y < x }

end RecurIterator

end Recurrence
end MailClient
