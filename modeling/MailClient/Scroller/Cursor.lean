import Mathlib.Data.List.Dedup
import MailClient.Foundation.Transition

/-!
# The cursor over a scroller

The cursor that swipes through a list keeps the ids it came from, the current
id and the id it announced last.  The list changes under it at any time.
-/

namespace MailClient
namespace Scroller

open Foundation

structure CursorState (id : Type) where
  prevs : List id
  curr : id
  next : Option id
deriving DecidableEq, Repr

inductive NextMailCursorItem (item : Type) where
  | none
  | some (item : item)
  | maybe
deriving DecidableEq, Repr

namespace NextMailCursorItem

def toOption {item : Type} : NextMailCursorItem item -> Option item
  | none => Option.none
  | some item => Option.some item
  | maybe => Option.none

end NextMailCursorItem

/--
The list is gone with its scroller; there is no state if the cursor was made on
an item that was not listed.
-/
structure MailCursor (item id : Type) where
  items : Option (List item)
  state : Option (CursorState id)
deriving DecidableEq, Repr

def takeWhileInclusive {value : Type} (p : value -> Bool) : List value -> List value
  | [] => []
  | x :: xs => if p x then x :: takeWhileInclusive p xs else [x]

section Operations

variable {item id : Type} [DecidableEq id] (itemId : item -> id)

def MailCursor.find (items : List item) (i : id) : Option item :=
  items.find? (fun item => itemId item = i)

namespace CursorState

/-- The loop of `peek_prev`, from the last id on. -/
def popUnlisted (items : List item) : List id -> Option item × List id
  | [] => (none, [])
  | prev :: rest =>
      match MailCursor.find itemId items prev with
      | some item => (some item, prev :: rest)
      | none => popUnlisted items rest

def peekPrev (items : List item) (s : CursorState id) : Option item × CursorState id :=
  let popped := popUnlisted itemId items s.prevs.reverse
  (popped.1, { s with prevs := popped.2.reverse })

/-- An item that the cursor has not come by. -/
def isNew (s : CursorState id) (item : item) : Bool :=
  !s.prevs.contains (itemId item) && s.curr != itemId item

def peekNext (items : List item) (s : CursorState id) :
    NextMailCursorItem item × CursorState id :=
  match s.next.bind (MailCursor.find itemId items) with
  | some next => (NextMailCursorItem.some next, s)
  | none =>
      match items.find? (s.isNew itemId) with
      | some item =>
          (NextMailCursorItem.some item, { s with next := some (itemId item) })
      | none => (NextMailCursorItem.maybe, { s with next := none })

def gotoPrev (s : CursorState id) : CursorState id :=
  match s.prevs.getLast? with
  | none => s
  | some prev => { prevs := s.prevs.dropLast, curr := prev, next := some s.curr }

def gotoNext (s : CursorState id) : CursorState id :=
  match s.next with
  | none => s
  | some next => { prevs := s.prevs ++ [s.curr], curr := next, next := none }

end CursorState

namespace MailCursor

def new (lookingAt : id) (items : List item) : MailCursor item id :=
  let prevs := takeWhileInclusive (· != lookingAt) (items.map itemId)
  { items := some items
    state :=
      if lookingAt ∈ prevs then
        some { prevs := prevs.dropLast, curr := lookingAt, next := none }
      else
        none }

def peekPrev (c : MailCursor item id) : Option item × MailCursor item id :=
  match c.state, c.items with
  | some s, some items =>
      ((s.peekPrev itemId items).1, { c with state := some (s.peekPrev itemId items).2 })
  | _, _ => (none, c)

def peekNext (c : MailCursor item id) :
    NextMailCursorItem item × MailCursor item id :=
  match c.state, c.items with
  | some s, some items =>
      ((s.peekNext itemId items).1, { c with state := some (s.peekNext itemId items).2 })
  | _, _ => (NextMailCursorItem.none, c)

def gotoPrev (c : MailCursor item id) : MailCursor item id :=
  { c with state := c.state.map CursorState.gotoPrev }

def gotoNext (c : MailCursor item id) : MailCursor item id :=
  { c with state := c.state.map CursorState.gotoNext }

/-- What `fetch_next` does when the scroller has been updated. -/
def fetchNext (c : MailCursor item id) : Option item × MailCursor item id :=
  match c.peekNext itemId with
  | (NextMailCursorItem.some item, c) => (some item, c.gotoNext)
  | (_, c) => (none, c)

end MailCursor

/-!
# Runs
-/

inductive CursorEvent (item : Type) where
  | change (items : List item)
  | drop
  | peekPrev
  | peekNext
  | gotoPrev
  | gotoNext
  | fetchNext
deriving DecidableEq, Repr

/-- The list of a scroller that is gone does not come back. -/
def MailCursor.after (c : MailCursor item id) : CursorEvent item -> MailCursor item id
  | CursorEvent.change items => { c with items := c.items.map (fun _ => items) }
  | CursorEvent.drop => { c with items := none }
  | CursorEvent.peekPrev => (c.peekPrev itemId).2
  | CursorEvent.peekNext => (c.peekNext itemId).2
  | CursorEvent.gotoPrev => c.gotoPrev
  | CursorEvent.gotoNext => c.gotoNext
  | CursorEvent.fetchNext => (c.fetchNext itemId).2

/-- The cursors on a list of distinct items, and all that may happen to them. -/
def cursors : TransitionSystem (MailCursor item id) (CursorEvent item) where
  init c := exists lookingAt items,
    (items.map itemId).Nodup ∧ c = MailCursor.new itemId lookingAt items
  step c event c' := c' = c.after itemId event

/-!
# Where a move lands
-/

namespace CursorState

def PrevListed (s : CursorState id) (ids : List id) : Prop :=
  forall prev, s.prevs.getLast? = some prev -> prev ∈ ids

def NextListed (s : CursorState id) (ids : List id) : Prop :=
  match s.next with
  | some next => next ∈ ids
  | none => forall i, i ∈ ids -> i ∈ s.prevs ∨ i = s.curr

end CursorState

namespace MailCursor

def curr (c : MailCursor item id) : Option id :=
  c.state.map CursorState.curr

/-- Where a move has to lead after such a peek. -/
def goal (peeked : Option item) (c : MailCursor item id) : Option id :=
  (peeked.map itemId).or c.curr

/--
Moves lead where peeks on the same list point, made just before or not, and no
id is visited twice.
-/
structure LandsWherePeeked (c : MailCursor item id) : Prop where
  prev : c.gotoPrev.curr = c.goal itemId (c.peekPrev itemId).1
  prevPeeked : (c.peekPrev itemId).2.gotoPrev.curr = c.goal itemId (c.peekPrev itemId).1
  next : c.gotoNext.curr = c.goal itemId (c.peekNext itemId).1.toOption
  nextPeeked : (c.peekNext itemId).2.gotoNext.curr =
    c.goal itemId (c.peekNext itemId).1.toOption
  unvisited : forall s, c.state = some s -> s.curr ∉ s.prevs
  distinct : forall s, c.state = some s -> s.prevs.Nodup

/--
The ids that a move would take are listed, and if none is announced there is
nothing to announce.
-/
def Settled (c : MailCursor item id) : Prop :=
  forall s, c.state = some s ->
    match c.items with
    | none => s.prevs = [] ∧ s.next = none
    | some items => s.PrevListed (items.map itemId) ∧ s.NextListed (items.map itemId)

end MailCursor

namespace CursorState

/-- The ids come by, the current one, and the one announced. -/
def trail (s : CursorState id) : List id :=
  s.prevs ++ s.curr :: s.next.toList

end CursorState

end Operations

section Moves

variable {id : Type}

namespace CursorState

variable {s : CursorState id}

theorem gotoPrev_nil (h : s.prevs = []) : s.gotoPrev = s := by
  unfold gotoPrev
  rw [h]
  rfl

theorem gotoPrev_concat {before : List id} {prev : id}
    (h : s.prevs = before ++ [prev]) :
    s.gotoPrev = { prevs := before, curr := prev, next := some s.curr } := by
  unfold gotoPrev
  rw [h, List.getLast?_concat, List.dropLast_concat]

theorem gotoNext_none (h : s.next = none) : s.gotoNext = s := by
  unfold gotoNext
  rw [h]

theorem gotoNext_some {next : id} (h : s.next = some next) :
    s.gotoNext = { prevs := s.prevs ++ [s.curr], curr := next, next := none } := by
  unfold gotoNext
  rw [h]

theorem trail_gotoNext (s : CursorState id) : s.gotoNext.trail = s.trail := by
  cases hnext : s.next with
  | none => rw [gotoNext_none hnext]
  | some next =>
      rw [gotoNext_some hnext]
      unfold trail
      rw [hnext, List.append_assoc]
      rfl

theorem trail_gotoPrev (s : CursorState id) : s.gotoPrev.trail <+: s.trail := by
  rcases List.eq_nil_or_concat s.prevs with hnil | ⟨before, prev, hconcat⟩
  · simp only [gotoPrev_nil hnil, List.prefix_refl]
  · rw [List.concat_eq_append] at hconcat
    rw [gotoPrev_concat hconcat]
    unfold trail
    rw [hconcat, List.append_assoc]
    exact ⟨s.next.toList, by simp⟩

def Fresh (s : CursorState id) : Prop :=
  s.trail.Nodup

theorem Fresh.unvisited (h : s.Fresh) : s.curr ∉ s.prevs := by
  intro hmem
  exact (List.nodup_append.mp h).right.right _ hmem _ List.mem_cons_self rfl

theorem Fresh.distinct (h : s.Fresh) : s.prevs.Nodup :=
  (List.nodup_append.mp h).left

theorem Fresh.next_ne (h : s.Fresh) {next : id} (hnext : s.next = some next) :
    next ≠ s.curr := by
  have hrest := (List.nodup_append.mp h).right.left
  rw [hnext] at hrest
  intro heq
  exact (List.nodup_cons.mp hrest).left (List.mem_singleton.mpr heq.symm)

theorem nodup_announce (h : s.Fresh) {i : id} (hprevs : i ∉ s.prevs)
    (hcurr : i ≠ s.curr) :
    ({ s with next := some i } : CursorState id).Fresh := by
  have hparts := List.nodup_append.mp h
  unfold Fresh trail
  refine List.nodup_append.mpr ⟨hparts.left, ?_, ?_⟩
  · exact List.nodup_cons.mpr ⟨fun hmem => hcurr (List.mem_singleton.mp hmem).symm,
      List.nodup_singleton i⟩
  · intro a ha b hb
    rcases List.mem_cons.mp hb with rfl | hb
    · exact hparts.right.right a ha _ List.mem_cons_self
    · cases List.mem_singleton.mp hb
      exact fun heq => hprevs (heq ▸ ha)

theorem curr_gotoPrev_iff (h : s.Fresh) :
    s.gotoPrev.curr = s.curr ↔ s.prevs = [] := by
  constructor
  · intro hcurr
    rcases List.eq_nil_or_concat s.prevs with hnil | ⟨before, prev, hconcat⟩
    · exact hnil
    · rw [List.concat_eq_append] at hconcat
      rw [gotoPrev_concat hconcat] at hcurr
      have hprev : prev = s.curr := hcurr
      have hmem : prev ∈ s.prevs := by
        rw [hconcat]
        exact List.mem_append_right _ (List.mem_singleton_self prev)
      exact absurd (hprev ▸ hmem) h.unvisited
  · intro hnil
    rw [gotoPrev_nil hnil]

theorem curr_gotoNext_iff (h : s.Fresh) :
    s.gotoNext.curr = s.curr ↔ s.next = none := by
  constructor
  · intro hcurr
    cases hnext : s.next with
    | none => rfl
    | some next =>
        rw [gotoNext_some hnext] at hcurr
        exact absurd hcurr (h.next_ne hnext)
  · intro hnone
    rw [gotoNext_none hnone]

end CursorState

end Moves

section Lemmas

variable {item id : Type} [DecidableEq id] {itemId : item -> id}

theorem find_eq_some {items : List item} {i : id} {x : item}
    (h : MailCursor.find itemId items i = some x) : x ∈ items ∧ itemId x = i := by
  unfold MailCursor.find at h
  have hx := List.find?_some h
  exact ⟨List.mem_of_find?_eq_some h, of_decide_eq_true hx⟩

theorem find_eq_none {items : List item} {i : id}
    (h : MailCursor.find itemId items i = none) : i ∉ items.map itemId := by
  intro hmem
  rcases List.mem_map.mp hmem with ⟨x, hx, rfl⟩
  exact List.find?_eq_none.mp h x hx (decide_eq_true rfl)

namespace CursorState

theorem popUnlisted_spec (itemId : item -> id) (items : List item) (ids : List id) :
    exists dropped, ids = dropped ++ (popUnlisted itemId items ids).2 ∧
      (forall i, i ∈ dropped -> i ∉ items.map itemId) ∧
      ((popUnlisted itemId items ids = (none, [])) ∨
        exists x rest, popUnlisted itemId items ids = (some x, itemId x :: rest) ∧
          x ∈ items) := by
  induction ids with
  | nil => exact ⟨[], rfl, fun _ h => absurd h List.not_mem_nil, Or.inl rfl⟩
  | cons prev rest ih =>
      unfold popUnlisted
      cases hfind : MailCursor.find itemId items prev with
      | some x =>
          rcases find_eq_some hfind with ⟨hx, rfl⟩
          exact ⟨[], rfl, fun _ h => absurd h List.not_mem_nil,
            Or.inr ⟨x, rest, rfl, hx⟩⟩
      | none =>
          rcases ih with ⟨dropped, hrest, hdropped, hresult⟩
          refine ⟨prev :: dropped, congrArg (prev :: ·) hrest, ?_, hresult⟩
          intro i hi
          rcases List.mem_cons.mp hi with rfl | hi
          · exact find_eq_none hfind
          · exact hdropped i hi

theorem peekPrev_spec (itemId : item -> id) (items : List item) (s : CursorState id) :
    exists kept dropped, s.prevs = kept ++ dropped ∧
      (forall i, i ∈ dropped -> i ∉ items.map itemId) ∧
      (s.peekPrev itemId items).2 = { s with prevs := kept } ∧
      ((kept = [] ∧ (s.peekPrev itemId items).1 = none) ∨
        exists before x, kept = before ++ [itemId x] ∧ x ∈ items ∧
          (s.peekPrev itemId items).1 = some x) := by
  rcases popUnlisted_spec itemId items s.prevs.reverse with
    ⟨dropped, hprevs, hdropped, hresult⟩
  refine ⟨(popUnlisted itemId items s.prevs.reverse).2.reverse, dropped.reverse, ?_, ?_,
    rfl, ?_⟩
  · rw [<- List.reverse_append, <- hprevs, List.reverse_reverse]
  · exact fun i hi => hdropped i (List.mem_reverse.mp hi)
  · unfold peekPrev
    rcases hresult with hnone | ⟨x, rest, hsome, hx⟩
    · rw [hnone]
      exact Or.inl ⟨rfl, rfl⟩
    · rw [hsome]
      exact Or.inr ⟨rest.reverse, x, List.reverse_cons, hx, rfl⟩

variable {s : CursorState id}

theorem isNew_iff {x : item} :
    s.isNew itemId x = true ↔ itemId x ∉ s.prevs ∧ itemId x ≠ s.curr := by
  unfold isNew
  rw [Bool.and_eq_true, Bool.not_eq_true', List.contains_eq_mem,
    decide_eq_false_iff_not, bne_iff_ne, ne_comm]

theorem peekNext_spec (itemId : item -> id) (items : List item) (s : CursorState id) :
    (exists x, x ∈ items ∧ s.next = some (itemId x) ∧
      s.peekNext itemId items = (NextMailCursorItem.some x, s)) ∨
    ((forall n, s.next = some n -> n ∉ items.map itemId) ∧
      ((exists x, items.find? (s.isNew itemId) = some x ∧
        s.peekNext itemId items =
          (NextMailCursorItem.some x, { s with next := some (itemId x) })) ∨
      (items.find? (s.isNew itemId) = none ∧
        s.peekNext itemId items =
          (NextMailCursorItem.maybe, { s with next := none })))) := by
  unfold peekNext
  cases hnext : s.next.bind (MailCursor.find itemId items) with
  | some x =>
      rcases Option.bind_eq_some_iff.mp hnext with ⟨n, hn, hfind⟩
      rcases find_eq_some hfind with ⟨hx, rfl⟩
      exact Or.inl ⟨x, hx, hn, rfl⟩
  | none =>
      have hunlisted : forall n, s.next = some n -> n ∉ items.map itemId :=
        fun n hn => find_eq_none (Option.bind_eq_none_iff.mp hnext n hn)
      refine Or.inr ⟨hunlisted, ?_⟩
      cases hfind : items.find? (s.isNew itemId) with
      | some x => exact Or.inl ⟨x, rfl, rfl⟩
      | none => exact Or.inr ⟨rfl, rfl⟩

/-!
# The ids of the trail are distinct
-/

theorem trail_peekPrev (itemId : item -> id) (items : List item) (s : CursorState id) :
    List.Sublist (s.peekPrev itemId items).2.trail s.trail := by
  rcases peekPrev_spec itemId items s with ⟨kept, dropped, hprevs, _, hstate, _⟩
  rw [hstate]
  unfold trail
  rw [hprevs]
  exact (List.sublist_append_left kept dropped).append_right _

theorem Fresh.peekNext (h : s.Fresh) (items : List item) :
    (s.peekNext itemId items).2.Fresh := by
  rcases peekNext_spec itemId items s with ⟨x, _, _, heq⟩ | ⟨_, ⟨x, hfind, heq⟩ | ⟨_, heq⟩⟩
  · rw [heq]
    exact h
  · rw [heq]
    have hnew := isNew_iff.mp (List.find?_some hfind)
    exact nodup_announce h hnew.left hnew.right
  · rw [heq]
    have hsub : List.Sublist (s.prevs ++ [s.curr]) s.trail :=
      List.Sublist.append_left (List.cons_sublist_cons.mpr (List.nil_sublist _)) _
    exact List.Nodup.sublist hsub h

/-!
# Moves and peeks
-/

theorem gotoPrev_peekPrev (itemId : item -> id) (items : List item) (s : CursorState id) :
    (s.peekPrev itemId items).2.gotoPrev.curr =
      ((s.peekPrev itemId items).1.map itemId).getD s.curr := by
  rcases peekPrev_spec itemId items s with
    ⟨kept, _, _, _, hstate, ⟨rfl, hresult⟩ | ⟨before, x, rfl, _, hresult⟩⟩
  · rw [hstate, hresult, gotoPrev_nil rfl]
    rfl
  · rw [hstate, hresult, gotoPrev_concat rfl]
    rfl

theorem gotoNext_peekNext (itemId : item -> id) (items : List item) (s : CursorState id) :
    (s.peekNext itemId items).2.gotoNext.curr =
      ((s.peekNext itemId items).1.toOption.map itemId).getD s.curr := by
  rcases peekNext_spec itemId items s with ⟨x, _, hnext, heq⟩ | ⟨_, ⟨x, _, heq⟩ | ⟨_, heq⟩⟩
  · rw [heq, gotoNext_some hnext]
    rfl
  · rw [heq, gotoNext_some rfl]
    rfl
  · rw [heq, gotoNext_none rfl]
    rfl

theorem gotoPrev_iff (hfresh : s.Fresh) (items : List item) :
    s.gotoPrev.curr = ((s.peekPrev itemId items).1.map itemId).getD s.curr ↔
      s.PrevListed (items.map itemId) := by
  rcases peekPrev_spec itemId items s with
    ⟨kept, dropped, hprevs, hdropped, _, hresult⟩
  rcases List.eq_nil_or_concat dropped with rfl | ⟨init, last, hconcat⟩
  · -- nothing was dropped, so that the last id is the item that was found
    rw [List.append_nil] at hprevs
    rcases hresult with ⟨rfl, hresult⟩ | ⟨before, x, rfl, hx, hresult⟩
    · rw [hresult, gotoPrev_nil hprevs]
      refine ⟨fun _ prev hprev => ?_, fun _ => rfl⟩
      rw [hprevs] at hprev
      cases hprev
    · rw [hresult, gotoPrev_concat hprevs]
      refine ⟨fun _ prev hprev => ?_, fun _ => rfl⟩
      rw [hprevs, List.getLast?_concat] at hprev
      cases hprev
      exact List.mem_map_of_mem hx
  · -- the last id is not listed, so that the move leads to it and the peek does not
    rw [List.concat_eq_append] at hconcat
    subst hconcat
    rw [<- List.append_assoc] at hprevs
    have hlast : last ∉ items.map itemId :=
      hdropped last (List.mem_append_right _ (List.mem_singleton_self last))
    have hmem : last ∈ s.prevs := by
      rw [hprevs]
      exact List.mem_append_right _ (List.mem_singleton_self last)
    constructor
    · intro heq
      rw [gotoPrev_concat hprevs] at heq
      rcases hresult with ⟨_, hresult⟩ | ⟨_, x, _, hx, hresult⟩
      · rw [hresult] at heq
        have hcurr : last = s.curr := heq
        exact absurd (hcurr ▸ hmem) hfresh.unvisited
      · rw [hresult] at heq
        have hitem : last = itemId x := heq
        exact absurd (List.mem_map_of_mem hx) (hitem ▸ hlast)
    · intro hlisted
      rw [PrevListed, hprevs, List.getLast?_concat] at hlisted
      exact absurd (hlisted last rfl) hlast

theorem gotoNext_iff (hfresh : s.Fresh) (items : List item) :
    s.gotoNext.curr = ((s.peekNext itemId items).1.toOption.map itemId).getD s.curr ↔
      s.NextListed (items.map itemId) := by
  unfold NextListed
  rcases peekNext_spec itemId items s with
    ⟨x, hx, hnext, heq⟩ | ⟨hunlisted, ⟨x, hfind, heq⟩ | ⟨hnone, heq⟩⟩
  · rw [heq, gotoNext_some hnext, hnext]
    exact ⟨fun _ => List.mem_map_of_mem hx, fun _ => rfl⟩
  · rw [heq]
    have hmem : itemId x ∈ items.map itemId :=
      List.mem_map_of_mem (List.mem_of_find?_eq_some hfind)
    have hnew := isNew_iff.mp (List.find?_some hfind)
    cases hnext : s.next with
    | none =>
        rw [gotoNext_none hnext]
        constructor
        · intro hcurr
          exact absurd hcurr.symm hnew.right
        · intro hvisited
          rcases hvisited _ hmem with hprevs | hcurr
          · exact absurd hprevs hnew.left
          · exact absurd hcurr hnew.right
    | some next =>
        have hlisted := hunlisted next hnext
        rw [gotoNext_some hnext]
        constructor
        · intro hitem
          have hitem' : next = itemId x := hitem
          exact absurd hmem (hitem' ▸ hlisted)
        · intro hmem
          exact absurd hmem hlisted
  · rw [heq]
    cases hnext : s.next with
    | none =>
        rw [gotoNext_none hnext]
        refine ⟨fun _ i hi => ?_, fun _ => rfl⟩
        rcases List.mem_map.mp hi with ⟨x, hx, rfl⟩
        by_contra hnew
        rw [not_or] at hnew
        exact List.find?_eq_none.mp hnone x hx (isNew_iff.mpr hnew)
    | some next =>
        rw [gotoNext_some hnext]
        constructor
        · intro hcurr
          exact absurd hcurr (hfresh.next_ne hnext)
        · intro hmem
          exact absurd hmem (hunlisted next hnext)

end CursorState

theorem takeWhileInclusive_of_mem {lookingAt : id} {ids : List id}
    (h : lookingAt ∈ takeWhileInclusive (· != lookingAt) ids) :
    exists rest, ids = takeWhileInclusive (· != lookingAt) ids ++ rest ∧
      exists before, takeWhileInclusive (· != lookingAt) ids = before ++ [lookingAt] := by
  induction ids with
  | nil => cases h
  | cons i ids ih =>
      unfold takeWhileInclusive at h ⊢
      by_cases hi : i = lookingAt
      · subst hi
        rw [bne_self_eq_false, if_neg Bool.false_ne_true]
        exact ⟨ids, rfl, [], rfl⟩
      · rw [if_pos (bne_iff_ne.mpr hi)] at h
        rw [if_pos (bne_iff_ne.mpr hi)]
        rcases List.mem_cons.mp h with heq | hmem
        · exact absurd heq.symm hi
        · rcases ih hmem with ⟨rest, hrest, before, hbefore⟩
          exact ⟨rest, congrArg (i :: ·) hrest, i :: before, congrArg (i :: ·) hbefore⟩

namespace MailCursor

theorem new_spec (itemId : item -> id) (lookingAt : id) (items : List item) :
    (new itemId lookingAt items).items = some items ∧
      ((new itemId lookingAt items).state = none ∨
        exists before rest, items.map itemId = before ++ lookingAt :: rest ∧
          (new itemId lookingAt items).state =
            some { prevs := before, curr := lookingAt, next := none }) := by
  refine ⟨rfl, ?_⟩
  by_cases h : lookingAt ∈ takeWhileInclusive (· != lookingAt) (items.map itemId)
  · rcases takeWhileInclusive_of_mem h with ⟨rest, hrest, before, hbefore⟩
    refine Or.inr ⟨before, rest, ?_, ?_⟩
    · rw [hrest, hbefore, List.append_assoc]
      rfl
    · unfold new
      dsimp only
      rw [if_pos h, hbefore, List.dropLast_concat]
  · refine Or.inl ?_
    unfold new
    dsimp only
    rw [if_neg h]

/-- The state, if there is one, is such a state. -/
def Has (p : CursorState id -> Prop) (c : MailCursor item id) : Prop :=
  forall s, c.state = some s -> p s

variable {s : CursorState id} {c : MailCursor item id}

omit [DecidableEq id] in
theorem Has.map {p : CursorState id -> Prop} (h : c.Has p)
    {f : CursorState id -> CursorState id} (hf : forall s, p s -> p (f s)) :
    ({ c with state := c.state.map f } : MailCursor item id).Has p := by
  intro s' hs'
  rcases Option.map_eq_some_iff.mp hs' with ⟨s, hs, rfl⟩
  exact hf s (h s hs)

theorem peekPrev_eq (c : MailCursor item id) {items : List item}
    (hstate : c.state = some s) (hitems : c.items = some items) :
    c.peekPrev itemId =
      ((s.peekPrev itemId items).1, { c with state := some (s.peekPrev itemId items).2 }) := by
  unfold peekPrev
  rw [hstate, hitems]

theorem peekNext_eq (c : MailCursor item id) {items : List item}
    (hstate : c.state = some s) (hitems : c.items = some items) :
    c.peekNext itemId =
      ((s.peekNext itemId items).1, { c with state := some (s.peekNext itemId items).2 }) := by
  unfold peekNext
  rw [hstate, hitems]

theorem peekPrev_none (c : MailCursor item id) (h : c.state = none ∨ c.items = none) :
    c.peekPrev itemId = (none, c) := by
  unfold peekPrev
  rcases h with h | h
  · rw [h]
  · rw [h]
    cases c.state <;> rfl

theorem peekNext_none (c : MailCursor item id) (h : c.state = none ∨ c.items = none) :
    c.peekNext itemId = (NextMailCursorItem.none, c) := by
  unfold peekNext
  rcases h with h | h
  · rw [h]
  · rw [h]
    cases c.state <;> rfl

/-- What all events preserve of the state, given the list. -/
structure Preserved (itemId : item -> id) (p : Option (List item) -> CursorState id -> Prop) :
    Prop where
  peekPrev : forall items s, p (some items) s ->
    p (some items) (s.peekPrev itemId items).2
  peekNext : forall items s, p (some items) s ->
    p (some items) (s.peekNext itemId items).2
  gotoPrev : forall items s, p items s -> p items s.gotoPrev
  gotoNext : forall items s, p items s -> p items s.gotoNext
  drop : forall items s, p items s -> p none s

theorem Preserved.peeks {p : Option (List item) -> CursorState id -> Prop}
    (hp : Preserved itemId p) (h : c.Has (p c.items)) :
    (c.peekPrev itemId).2.Has (p (c.peekPrev itemId).2.items) ∧
      (c.peekNext itemId).2.Has (p (c.peekNext itemId).2.items) := by
  cases hstate : c.state with
  | none =>
      rw [peekPrev_none c (Or.inl hstate), peekNext_none c (Or.inl hstate)]
      exact ⟨h, h⟩
  | some s =>
      cases hitems : c.items with
      | none =>
          rw [peekPrev_none c (Or.inr hitems), peekNext_none c (Or.inr hitems)]
          exact ⟨h, h⟩
      | some items =>
          have hs := h s hstate
          rw [hitems] at hs
          rw [peekPrev_eq c hstate hitems, peekNext_eq c hstate hitems]
          dsimp only [Has]
          rw [hitems]
          constructor
          · rintro _ ⟨⟩
            exact hp.peekPrev items s hs
          · rintro _ ⟨⟩
            exact hp.peekNext items s hs

theorem Preserved.after {p : Option (List item) -> CursorState id -> Prop}
    (hp : Preserved itemId p) (h : c.Has (p c.items)) (event : CursorEvent item)
    (hchange : forall items, event = CursorEvent.change items -> c.items.isSome ->
      c.Has (p (some items))) :
    (c.after itemId event).Has (p (c.after itemId event).items) := by
  have hgotoNext : forall c : MailCursor item id, c.Has (p c.items) ->
      c.gotoNext.Has (p c.gotoNext.items) :=
    fun c h => h.map (hp.gotoNext c.items)
  cases event with
  | change items =>
      cases hitems : c.items with
      | none =>
          unfold MailCursor.after
          dsimp only
          rw [hitems] at h ⊢
          exact h
      | some old =>
          have hsome := hchange items rfl (hitems ▸ rfl)
          unfold MailCursor.after
          dsimp only
          rw [hitems]
          exact hsome
  | drop => exact fun s hs => hp.drop c.items s (h s hs)
  | peekPrev => exact (hp.peeks h).left
  | peekNext => exact (hp.peeks h).right
  | gotoPrev => exact h.map (hp.gotoPrev c.items)
  | gotoNext => exact hgotoNext c h
  | fetchNext =>
      have hpeek := (hp.peeks h).right
      unfold MailCursor.after fetchNext
      dsimp only
      split
      · rename_i x c' heq
        rw [heq] at hpeek
        exact hgotoNext c' hpeek
      · rename_i result c' _ heq
        rw [heq] at hpeek
        exact hpeek

theorem preserved_fresh (itemId : item -> id) :
    Preserved itemId (fun _ => CursorState.Fresh) where
  peekPrev items s h := List.Nodup.sublist (CursorState.trail_peekPrev itemId items s) h
  peekNext items _ h := h.peekNext items
  gotoPrev _ s h := List.Nodup.sublist (CursorState.trail_gotoPrev s).sublist h
  gotoNext _ s h := by
    unfold CursorState.Fresh
    rw [CursorState.trail_gotoNext]
    exact h
  drop _ _ h := h

theorem fresh_of_reachable (h : (cursors itemId).Reachable c) :
    c.Has CursorState.Fresh := by
  apply TransitionSystem.invariant (fun c => c.Has CursorState.Fresh) ?_ ?_ h
  · rintro c ⟨lookingAt, items, hdistinct, rfl⟩
    rcases new_spec itemId lookingAt items with ⟨_, hnone | ⟨before, rest, hids, hsome⟩⟩
    · intro s hs
      rw [hnone] at hs
      cases hs
    · intro s hs
      rw [hsome] at hs
      cases hs
      rw [hids] at hdistinct
      have hsub : List.Sublist (before ++ [lookingAt]) (before ++ lookingAt :: rest) :=
        List.Sublist.append_left (List.cons_sublist_cons.mpr (List.nil_sublist _)) _
      exact List.Nodup.sublist hsub hdistinct
  · rintro c event _ _ hfresh rfl
    exact (preserved_fresh itemId).after hfresh event (fun _ _ _ => hfresh)

theorem landsWherePeeked_of_none (h : c.state = none) :
    c.LandsWherePeeked itemId := by
  have hnone : forall s, c.state = some s -> False := by
    intro s hs
    rw [h] at hs
    cases hs
  have hstays : c.gotoPrev = c ∧ c.gotoNext = c := by
    rcases c with ⟨items, state⟩
    cases h
    exact ⟨rfl, rfl⟩
  constructor
  · rw [peekPrev_none c (Or.inl h), hstays.left]
    rfl
  · rw [peekPrev_none c (Or.inl h), hstays.left]
    rfl
  · rw [peekNext_none c (Or.inl h), hstays.right]
    rfl
  · rw [peekNext_none c (Or.inl h), hstays.right]
    rfl
  · exact fun s hs => (hnone s hs).elim
  · exact fun s hs => (hnone s hs).elim

omit [DecidableEq id] in
theorem goal_eq (h : c.state = some s) (peeked : Option item) :
    c.goal itemId peeked = some ((peeked.map itemId).getD s.curr) := by
  unfold goal curr
  rw [h]
  cases peeked <;> rfl

omit [DecidableEq id] in
theorem curr_moved (h : c.state = some s) :
    c.gotoPrev.curr = some s.gotoPrev.curr ∧ c.gotoNext.curr = some s.gotoNext.curr := by
  unfold curr gotoPrev gotoNext
  rw [h]
  exact ⟨rfl, rfl⟩

theorem landsWherePeeked_gone (hstate : c.state = some s)
    (hitems : c.items = none) (hfresh : s.Fresh) :
    c.LandsWherePeeked itemId ↔ s.prevs = [] ∧ s.next = none := by
  have hprev : c.peekPrev itemId = (none, c) := peekPrev_none c (Or.inr hitems)
  have hnext : c.peekNext itemId = (NextMailCursorItem.none, c) :=
    peekNext_none c (Or.inr hitems)
  have hmoved := curr_moved hstate
  have hgoal : c.goal itemId none = some s.curr := goal_eq hstate none
  rw [<- CursorState.curr_gotoPrev_iff hfresh, <- CursorState.curr_gotoNext_iff hfresh]
  constructor
  · intro hlands
    have hlandsPrev := hlands.prev
    have hlandsNext := hlands.next
    rw [hprev, hmoved.left, hgoal] at hlandsPrev
    rw [hnext, hmoved.right] at hlandsNext
    exact ⟨Option.some.inj hlandsPrev, Option.some.inj (hlandsNext.trans hgoal)⟩
  · rintro ⟨hstaysPrev, hstaysNext⟩
    have hprevs : c.gotoPrev.curr = c.goal itemId none := by
      rw [hmoved.left, hgoal, hstaysPrev]
    have hnexts : c.gotoNext.curr = c.goal itemId none := by
      rw [hmoved.right, hgoal, hstaysNext]
    constructor
    · rw [hprev]
      exact hprevs
    · rw [hprev]
      exact hprevs
    · rw [hnext]
      exact hnexts
    · rw [hnext]
      exact hnexts
    · intro s' hs'
      cases hstate.symm.trans hs'
      exact hfresh.unvisited
    · intro s' hs'
      cases hstate.symm.trans hs'
      exact hfresh.distinct

theorem landsWherePeeked_listed {items : List item} (hstate : c.state = some s)
    (hitems : c.items = some items) (hfresh : s.Fresh) :
    c.LandsWherePeeked itemId ↔
      s.PrevListed (items.map itemId) ∧ s.NextListed (items.map itemId) := by
  have hmoved := curr_moved hstate
  have hgoal : forall peeked, c.goal itemId peeked = _ := goal_eq hstate
  have hpeekPrev : c.peekPrev itemId = _ := peekPrev_eq c hstate hitems
  have hpeekNext : c.peekNext itemId = _ := peekNext_eq c hstate hitems
  rw [<- CursorState.gotoPrev_iff hfresh, <- CursorState.gotoNext_iff hfresh]
  constructor
  · intro hlands
    have hlandsPrev := hlands.prev
    have hlandsNext := hlands.next
    rw [hpeekPrev, hmoved.left, hgoal] at hlandsPrev
    rw [hpeekNext, hmoved.right, hgoal] at hlandsNext
    exact ⟨Option.some.inj hlandsPrev, Option.some.inj hlandsNext⟩
  · rintro ⟨hlandsPrev, hlandsNext⟩
    constructor
    · rw [hpeekPrev, hmoved.left, hgoal, hlandsPrev]
    · rw [hpeekPrev, hgoal]
      exact congrArg some (CursorState.gotoPrev_peekPrev itemId items s)
    · rw [hpeekNext, hmoved.right, hgoal, hlandsNext]
    · rw [hpeekNext, hgoal]
      exact congrArg some (CursorState.gotoNext_peekNext itemId items s)
    · intro s' hs'
      cases hstate.symm.trans hs'
      exact hfresh.unvisited
    · intro s' hs'
      cases hstate.symm.trans hs'
      exact hfresh.distinct

/--
In every state that can be reached: moves lead where peeks point exactly if the
ids they would take are listed.
-/
theorem landsWherePeeked_iff {c : MailCursor item id} (h : (cursors itemId).Reachable c) :
    c.LandsWherePeeked itemId ↔ c.Settled itemId := by
  unfold Settled
  cases hstate : c.state with
  | none =>
      refine ⟨fun _ s hs => ?_, fun _ => landsWherePeeked_of_none hstate⟩
      cases hs
  | some s =>
      have hfresh := fresh_of_reachable h s hstate
      cases hitems : c.items with
      | none =>
          rw [landsWherePeeked_gone hstate hitems hfresh]
          dsimp only
          refine ⟨fun hs s' hs' => ?_, fun hs => hs s rfl⟩
          cases hs'
          exact hs
      | some items =>
          rw [landsWherePeeked_listed hstate hitems hfresh]
          dsimp only
          refine ⟨fun hs s' hs' => ?_, fun hs => hs s rfl⟩
          cases hs'
          exact hs

/-- On the last of three mails, when the second one is gone. -/
def secondGone : MailCursor Nat Nat :=
  (new (fun mail => mail) 3 [1, 2, 3]).after (fun mail => mail)
    (CursorEvent.change [1, 3])

theorem secondGone_reachable : (cursors fun mail => mail).Reachable secondGone := by
  have hstart : (cursors fun mail => mail).Reachable
      (new (fun mail => mail) 3 [1, 2, 3]) :=
    TransitionSystem.ReachableWhen.start ⟨3, [1, 2, 3], by decide, rfl⟩
  exact hstart.step rfl

/-- The peek goes on to the first mail, and the move leads to the second. -/
theorem secondGone_taken :
    ¬ forall c : MailCursor Nat Nat,
      (cursors fun mail => mail).Reachable c ->
        c.LandsWherePeeked (fun mail => mail) := by
  intro hall
  have hprev := (hall secondGone secondGone_reachable).prev
  revert hprev
  decide

theorem secondGone_settles :
    secondGone.LandsWherePeeked (fun mail => mail) ↔
      secondGone.Settled (fun mail => mail) :=
  landsWherePeeked_iff secondGone_reachable

end MailCursor

end Lemmas

end Scroller
end MailClient
