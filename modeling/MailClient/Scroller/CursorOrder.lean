import MailClient.Scroller.Cursor

/-!
# Swiping forwards

As long as the list goes on to begin with what is left of the cursor's trail,
the next item is below the current one and the previous one is above it.
-/

namespace MailClient
namespace Scroller

open Foundation

section Operations

variable {item id : Type} [DecidableEq id] (itemId : item -> id)

/-!
# What is above and below the current item
-/

def above (ids : List id) (curr : id) : List id :=
  ids.takeWhile (· != curr)

def below (ids : List id) (curr : id) : List id :=
  (ids.dropWhile (· != curr)).tail

/--
What is announced is below the current item, and directly below it unless an
earlier announcement still stands; what is behind is above it.
-/
structure CursorState.Forwards (items : List item) (s : CursorState id) : Prop where
  next : forall x, (s.peekNext itemId items).1.toOption = some x ->
    itemId x ∈ below (items.map itemId) s.curr
  direct : (forall n, s.next = some n -> n ∉ below (items.map itemId) s.curr) ->
    (s.peekNext itemId items).1.toOption.map itemId =
      (below (items.map itemId) s.curr).head?
  prev : forall x, (s.peekPrev itemId items).1 = some x ->
    itemId x ∈ above (items.map itemId) s.curr

def MailCursor.Forwards (c : MailCursor item id) : Prop :=
  forall s items, c.state = some s -> c.items = some items ->
    s.curr ∈ items.map itemId -> s.Forwards itemId items

/-- What is still listed of the trail begins the list, in the same order. -/
def CursorState.Leads (ids : List id) (s : CursorState id) : Prop :=
  s.trail.filter (· ∈ ids) <+: ids

/-- The list is one of distinct items, and goes on to begin with the trail. -/
def MailCursor.Keeps (c : MailCursor item id) : CursorEvent item -> Prop
  | CursorEvent.change items =>
      (items.map itemId).Nodup ∧ forall s, c.state = some s -> s.Leads (items.map itemId)
  | _ => True

end Operations

section Lemmas

variable {item id : Type} [DecidableEq id] {itemId : item -> id}

/-!
# Never backwards
-/

theorem above_append {before : List id} {curr : id} (h : curr ∉ before)
    (after : List id) :
    above (before ++ curr :: after) curr = before := by
  unfold above
  rw [List.takeWhile_append_of_pos]
  · rw [List.takeWhile_cons_of_neg (by simp), List.append_nil]
  · intro i hi
    exact bne_iff_ne.mpr (fun heq => h (heq ▸ hi))

theorem below_append {before : List id} {curr : id} (h : curr ∉ before)
    (after : List id) :
    below (before ++ curr :: after) curr = after := by
  unfold below
  rw [List.dropWhile_append_of_pos]
  · rw [List.dropWhile_cons_of_neg (by simp)]
    rfl
  · intro i hi
    exact bne_iff_ne.mpr (fun heq => h (heq ▸ hi))

omit [DecidableEq id] in
theorem eq_of_first {ids lead before after : List id} {i : id} (hdistinct : ids.Nodup)
    (hlead : lead <+: ids) (hids : ids = before ++ i :: after)
    (hbefore : forall a, a ∈ before -> a ∈ lead) (hi : i ∉ lead) : lead = before := by
  have hprefix : before <+: ids := ⟨i :: after, hids.symm⟩
  rcases List.prefix_or_prefix_of_prefix hlead hprefix with ⟨rest, hrest⟩ | ⟨rest, hrest⟩
  · cases rest with
    | nil => rw [<- hrest, List.append_nil]
    | cons a rest =>
        have hnodup : (lead ++ a :: rest).Nodup :=
          hrest ▸ List.Nodup.sublist hprefix.sublist hdistinct
        have hmem : a ∈ lead := by
          apply hbefore
          rw [<- hrest]
          exact List.mem_append_right _ List.mem_cons_self
        exact absurd rfl ((List.nodup_append.mp hnodup).right.right a hmem a
          List.mem_cons_self)
  · cases rest with
    | nil => rw [<- hrest, List.append_nil]
    | cons a rest =>
        rcases hlead with ⟨tail, htail⟩
        rw [<- hrest, hids, List.append_assoc, List.append_cancel_left_eq,
          List.cons_append, List.cons.injEq] at htail
        refine absurd ?_ hi
        rw [<- hrest, <- htail.left]
        exact List.mem_append_right _ List.mem_cons_self

namespace CursorState

structure InOrder (itemId : item -> id) (items : List item) (s : CursorState id) :
    Prop where
  fresh : s.Fresh
  listed : (items.map itemId).Nodup
  leads : s.Leads (items.map itemId)

theorem filter_unlisted {ids unlisted : List id}
    (h : forall i, i ∈ unlisted -> i ∉ ids) : unlisted.filter (· ∈ ids) = [] :=
  List.filter_eq_nil_iff.mpr (fun i hi => by
    rw [decide_eq_true_eq]
    exact h i hi)

theorem filter_listed {ids : List id} {i : id} (h : i ∈ ids) (rest : List id) :
    (i :: rest).filter (· ∈ ids) = i :: rest.filter (· ∈ ids) :=
  List.filter_cons_of_pos (decide_eq_true_eq.mpr h)

variable {items : List item} {s : CursorState id}

theorem leads_peekPrev (h : s.Leads (items.map itemId)) :
    (s.peekPrev itemId items).2.Leads (items.map itemId) := by
  rcases peekPrev_spec itemId items s with ⟨kept, dropped, hprevs, hdropped, hstate, _⟩
  rw [hstate]
  unfold Leads trail at h ⊢
  rw [hprevs, List.filter_append, List.filter_append, filter_unlisted hdropped,
    List.append_nil] at h
  rw [List.filter_append]
  exact h

theorem filter_trail {ids : List id} (h : forall n, s.next = some n -> n ∉ ids) :
    s.trail.filter (· ∈ ids) = (s.prevs ++ [s.curr]).filter (· ∈ ids) := by
  have hnext : s.next.toList.filter (· ∈ ids) = [] := by
    apply filter_unlisted
    intro n hn
    exact h n (Option.mem_toList.mp hn)
  have htrail : s.trail = (s.prevs ++ [s.curr]) ++ s.next.toList := by
    unfold trail
    rw [List.append_assoc]
    rfl
  rw [htrail, List.filter_append, hnext, List.append_nil]

theorem ids_of_find {x : item} (h : s.InOrder itemId items)
    (hunlisted : forall n, s.next = some n -> n ∉ items.map itemId)
    (hfind : items.find? (s.isNew itemId) = some x) :
    exists after, items.map itemId =
      (s.prevs ++ [s.curr]).filter (· ∈ items.map itemId) ++ itemId x :: after := by
  rcases List.find?_eq_some_iff_append.mp hfind with ⟨hnew, before, after, heq, hbefore⟩
  have hids : items.map itemId = before.map itemId ++ itemId x :: after.map itemId := by
    rw [heq, List.map_append, List.map_cons]
  have hleads := h.leads
  rw [Leads, filter_trail hunlisted] at hleads
  refine ⟨after.map itemId, ?_⟩
  rw [eq_of_first h.listed hleads hids, <- hids]
  · intro a ha
    rcases List.mem_map.mp ha with ⟨y, hy, rfl⟩
    have hvisited : itemId y ∈ s.prevs ++ [s.curr] := by
      have hold := hbefore y hy
      by_contra hnot
      rw [List.mem_append, List.mem_singleton, not_or] at hnot
      rw [isNew_iff.mpr hnot] at hold
      cases hold
    have hmem : itemId y ∈ items.map itemId := by
      rw [hids]
      exact List.mem_append_left _ ha
    exact List.mem_filter.mpr ⟨hvisited, decide_eq_true hmem⟩
  · intro hmem
    have hx := isNew_iff.mp hnew
    rcases List.mem_append.mp (List.mem_filter.mp hmem).left with hprevs | hcurr
    · exact hx.left hprevs
    · exact hx.right (List.mem_singleton.mp hcurr)

theorem leads_peekNext (h : s.InOrder itemId items) :
    (s.peekNext itemId items).2.Leads (items.map itemId) := by
  rcases peekNext_spec itemId items s with
    ⟨_, _, _, heq⟩ | ⟨hunlisted, ⟨x, hfind, heq⟩ | ⟨_, heq⟩⟩
  · rw [heq]
    exact h.leads
  · rcases ids_of_find h hunlisted hfind with ⟨after, hids⟩
    rw [heq]
    have htrail : trail { s with next := some (itemId x) } =
        (s.prevs ++ [s.curr]) ++ [itemId x] := by
      unfold trail
      rw [List.append_assoc]
      rfl
    have hmem : itemId x ∈ items.map itemId := by
      rw [hids]
      exact List.mem_append_right _ List.mem_cons_self
    have hx : [itemId x].filter (· ∈ items.map itemId) = [itemId x] :=
      filter_listed hmem []
    unfold Leads
    rw [htrail, List.filter_append, hx]
    refine ⟨after, ?_⟩
    rw [List.append_assoc]
    exact hids.symm
  · have hleads := h.leads
    rw [Leads, filter_trail hunlisted] at hleads
    rw [heq]
    exact hleads

theorem preserved_inOrder (itemId : item -> id) :
    MailCursor.Preserved itemId (fun items s =>
      s.Fresh ∧ forall listed, items = some listed -> s.InOrder itemId listed) := by
  have hfresh := MailCursor.preserved_fresh itemId
  constructor
  · rintro items s ⟨hs, h⟩
    refine ⟨hfresh.peekPrev items s hs, ?_⟩
    rintro _ ⟨⟩
    have horder := h items rfl
    exact ⟨hfresh.peekPrev items s hs, horder.listed, leads_peekPrev horder.leads⟩
  · rintro items s ⟨hs, h⟩
    refine ⟨hfresh.peekNext items s hs, ?_⟩
    rintro _ ⟨⟩
    have horder := h items rfl
    exact ⟨hfresh.peekNext items s hs, horder.listed, leads_peekNext horder⟩
  · rintro items s ⟨hs, h⟩
    refine ⟨hfresh.gotoPrev items s hs, ?_⟩
    rintro listed rfl
    have horder := h listed rfl
    exact ⟨hfresh.gotoPrev none s hs, horder.listed,
      ((trail_gotoPrev s).filter _).trans horder.leads⟩
  · rintro items s ⟨hs, h⟩
    refine ⟨hfresh.gotoNext items s hs, ?_⟩
    rintro listed rfl
    have horder := h listed rfl
    refine ⟨hfresh.gotoNext none s hs, horder.listed, ?_⟩
    rw [Leads, trail_gotoNext]
    exact horder.leads
  · rintro items s ⟨hs, _⟩
    exact ⟨hs, fun _ heq => (nomatch heq)⟩

theorem InOrder.around (h : s.InOrder itemId items)
    (hcurr : s.curr ∈ items.map itemId) :
    exists rest, items.map itemId =
      s.prevs.filter (· ∈ items.map itemId) ++
        s.curr :: (s.next.toList.filter (· ∈ items.map itemId) ++ rest) := by
  rcases h.leads with ⟨rest, hrest⟩
  refine ⟨rest, ?_⟩
  unfold trail at hrest
  rw [List.filter_append, filter_listed hcurr,
    List.append_assoc] at hrest
  exact hrest.symm

theorem Fresh.unvisited_filter (h : s.Fresh) (ids : List id) :
    s.curr ∉ s.prevs.filter (· ∈ ids) :=
  fun hmem => h.unvisited (List.mem_filter.mp hmem).left

theorem InOrder.announced (h : s.InOrder itemId items)
    (hcurr : s.curr ∈ items.map itemId) :
    (s.peekNext itemId items).1.toOption.map itemId =
      (below (items.map itemId) s.curr).head? := by
  have hbelow : forall after, items.map itemId =
      s.prevs.filter (· ∈ items.map itemId) ++ s.curr :: after ->
      below (items.map itemId) s.curr = after := by
    intro after hids
    have hsplit := below_append (h.fresh.unvisited_filter (items.map itemId)) after
    rw [<- hids] at hsplit
    exact hsplit
  rcases h.around hcurr with ⟨rest, hrest⟩
  rw [hbelow _ hrest]
  rcases peekNext_spec itemId items s with
    ⟨x, hx, hnext, heq⟩ | ⟨hunlisted, ⟨x, hfind, heq⟩ | ⟨hnone, heq⟩⟩
  · have hmem : itemId x ∈ items.map itemId := List.mem_map_of_mem hx
    rw [heq, hnext, Option.toList_some, filter_listed hmem]
    rfl
  · rcases ids_of_find h hunlisted hfind with ⟨after, hids⟩
    rw [List.filter_append, filter_listed hcurr,
      List.filter_nil, List.append_assoc] at hids
    rw [heq, <- hbelow _ hrest, hbelow _ hids]
    rfl
  · have hnext : s.next.toList.filter (· ∈ items.map itemId) = [] := by
      apply filter_unlisted
      intro n hn
      exact hunlisted n (Option.mem_toList.mp hn)
    rw [hnext, List.nil_append] at hrest
    rw [heq, hnext, List.nil_append]
    cases rest with
    | nil => rfl
    | cons a rest =>
        -- an item further down would be new
        have hlisted : a ∈ items.map itemId := by
          rw [hrest]
          exact List.mem_append_right _ (List.mem_cons_of_mem _ List.mem_cons_self)
        rcases List.mem_map.mp hlisted with ⟨y, hy, rfl⟩
        have hdistinct := h.listed
        rw [hrest] at hdistinct
        have hparts := List.nodup_append.mp hdistinct
        refine absurd (isNew_iff.mpr ⟨fun hprevs => ?_, fun hsame => ?_⟩)
          (List.find?_eq_none.mp hnone y hy)
        · have hvisited : itemId y ∈ s.prevs.filter (· ∈ items.map itemId) :=
            List.mem_filter.mpr ⟨hprevs, decide_eq_true hlisted⟩
          exact hparts.right.right _ hvisited _
            (List.mem_cons_of_mem _ List.mem_cons_self) rfl
        · apply (List.nodup_cons.mp hparts.right.left).left
          rw [<- hsame]
          exact List.mem_cons_self

theorem forwards_of_inOrder (h : s.InOrder itemId items)
    (hcurr : s.curr ∈ items.map itemId) :
    s.Forwards itemId items where
  next := by
    intro x hx
    have hhead := h.announced hcurr
    rw [hx] at hhead
    exact List.mem_of_mem_head? hhead.symm
  direct := fun _ => h.announced hcurr
  prev := by
    intro x hx
    rcases h.around hcurr with ⟨rest, hrest⟩
    have habove := above_append (h.fresh.unvisited_filter (items.map itemId))
      (s.next.toList.filter (· ∈ items.map itemId) ++ rest)
    rw [<- hrest] at habove
    rw [habove]
    rcases peekPrev_spec itemId items s with
      ⟨kept, dropped, hprevs, _, _, ⟨_, hresult⟩ | ⟨before, y, rfl, hy, hresult⟩⟩
    · rw [hresult] at hx
      cases hx
    · rw [hresult] at hx
      cases hx
      have hmem : itemId x ∈ s.prevs := by
        rw [hprevs]
        exact List.mem_append_left _
          (List.mem_append_right _ (List.mem_singleton_self _))
      exact List.mem_filter.mpr ⟨hmem, decide_eq_true (List.mem_map_of_mem hy)⟩

end CursorState

namespace MailCursor

theorem inOrder_of_reachable {c : MailCursor item id}
    (h : (cursors itemId).ReachableWhen (Keeps itemId) c) :
    c.Has (fun s => s.Fresh ∧
      forall listed, c.items = some listed -> s.InOrder itemId listed) := by
  apply TransitionSystem.invariant_when (fun c => c.Has (fun s => s.Fresh ∧
    forall listed, c.items = some listed -> s.InOrder itemId listed)) ?_ ?_ h
  · rintro c ⟨lookingAt, items, hdistinct, rfl⟩ s hs
    have hfresh := fresh_of_reachable
      (TransitionSystem.ReachableWhen.start ⟨lookingAt, items, hdistinct, rfl⟩) s hs
    refine ⟨hfresh, ?_⟩
    rintro _ ⟨⟩
    refine ⟨hfresh, hdistinct, ?_⟩
    rcases new_spec itemId lookingAt items with ⟨_, hnone | ⟨before, rest, hids, hsome⟩⟩
    · rw [hnone] at hs
      cases hs
    · rw [hsome] at hs
      cases hs
      have hall : (before ++ [lookingAt]).filter (· ∈ items.map itemId) =
          before ++ [lookingAt] := by
        apply List.filter_eq_self.mpr
        intro i hi
        rw [hids, decide_eq_true_eq]
        rcases List.mem_append.mp hi with hi | hi
        · exact List.mem_append_left _ hi
        · cases List.mem_singleton.mp hi
          exact List.mem_append_right _ List.mem_cons_self
      unfold CursorState.Leads CursorState.trail
      rw [Option.toList_none, hall, hids]
      exact ⟨rest, by rw [List.append_assoc]; rfl⟩
  · rintro c event _ _ hinv hkeeps rfl
    apply (CursorState.preserved_inOrder itemId).after hinv event
    rintro items rfl _ s hs
    refine ⟨(hinv s hs).left, ?_⟩
    rintro _ ⟨⟩
    exact ⟨(hinv s hs).left, hkeeps.left, hkeeps.right s hs⟩

/--
In every run whose lists go on to begin with what is left of the trail, peeks
never point backwards.
-/
theorem forwards_of_reachable {c : MailCursor item id}
    (h : (cursors itemId).ReachableWhen (Keeps itemId) c) : c.Forwards itemId := by
  intro s items hstate hitems hcurr
  exact CursorState.forwards_of_inOrder ((inOrder_of_reachable h s hstate).right items hitems)
    hcurr

/-- Between two mails, when the one below is gone. -/
def belowGone : MailCursor Nat Nat :=
  (new (fun mail => mail) 2 [1, 2, 3, 4]).after (fun mail => mail)
    (CursorEvent.change [1, 2, 4])

theorem belowGone_forwards : belowGone.Forwards (fun mail => mail) := by
  have hstart : (cursors fun mail => mail).ReachableWhen (Keeps fun mail => mail)
      (new (fun mail => mail) 2 [1, 2, 3, 4]) :=
    TransitionSystem.ReachableWhen.start ⟨2, [1, 2, 3, 4], by decide, rfl⟩
  have hkeeps : (new (fun mail => mail) 2 [1, 2, 3, 4]).Keeps (fun mail => mail)
      (CursorEvent.change [1, 2, 4]) := by
    refine ⟨by decide, ?_⟩
    rintro _ ⟨⟩
    show List.filter _ _ <+: _
    decide
  exact forwards_of_reachable (TransitionSystem.ReachableWhen.next hstart hkeeps rfl)

/-- A mail that arrives on top is announced as the next one. -/
theorem arrived_announced :
    ¬ forall c : MailCursor Nat Nat,
      (cursors fun mail => mail).ReachableWhen
        (fun _ event => forall items, event = CursorEvent.change items ->
          items.Nodup) c ->
        c.Forwards (fun mail => mail) := by
  intro hall
  have hstart : (cursors fun mail => mail).ReachableWhen
      (fun _ event => forall items, event = CursorEvent.change items -> items.Nodup)
      (new (fun mail => mail) 2 [1, 2, 3]) :=
    TransitionSystem.ReachableWhen.start ⟨2, [1, 2, 3], by decide, rfl⟩
  have hdistinct : forall items : List Nat,
      CursorEvent.change [4, 1, 2, 3] = CursorEvent.change items -> items.Nodup := by
    rintro _ ⟨⟩
    decide
  have harrived := TransitionSystem.ReachableWhen.next hstart hdistinct rfl
  have hnext := (hall _ harrived _ _ rfl rfl (by decide)).next 4 (by decide)
  revert hnext
  decide

/-!
# Sweeping a list
-/

/-- `fetch_next` again and again, while the list stays as it is. -/
def fetching (itemId : item -> id) : TransitionSystem (MailCursor item id) item where
  init := (cursors itemId).Reachable
  step c x c' := c.fetchNext itemId = (some x, c')

theorem fetchNext_spec {c : MailCursor item id} {s : CursorState id} {items : List item}
    (hstate : c.state = some s) (hitems : c.items = some items) (hfresh : s.Fresh) :
    (exists x, x ∈ items ∧ s.isNew itemId x = true ∧
      c.fetchNext itemId = (some x, { c with
        state := some { prevs := s.prevs ++ [s.curr], curr := itemId x, next := none } })) ∨
    ((forall x, x ∈ items -> s.isNew itemId x = false) ∧
      (c.fetchNext itemId).1 = none) := by
  unfold fetchNext
  rw [peekNext_eq c hstate hitems]
  rcases CursorState.peekNext_spec itemId items s with
    ⟨x, hx, hnext, hpeek⟩ | ⟨_, ⟨x, hfind, hpeek⟩ | ⟨hfind, hpeek⟩⟩
  · have hprevs : itemId x ∉ s.prevs := by
      intro hmem
      refine (List.nodup_append.mp hfresh).right.right _ hmem (itemId x) ?_ rfl
      rw [hnext]
      exact List.mem_cons_of_mem _ List.mem_cons_self
    refine Or.inl ⟨x, hx, CursorState.isNew_iff.mpr ⟨hprevs, hfresh.next_ne hnext⟩, ?_⟩
    simp only [hpeek, gotoNext, Option.map_some, CursorState.gotoNext_some hnext]
  · refine Or.inl ⟨x, List.mem_of_find?_eq_some hfind, List.find?_some hfind, ?_⟩
    simp only [hpeek, gotoNext, Option.map_some, CursorState.gotoNext]
  · refine Or.inr ⟨fun x hx => ?_, by rw [hpeek]⟩
    simpa using List.find?_eq_none.mp hfind x hx

/--
On a list that stays as it is, `fetch_next` brings the cursor past every item
that it has not come by, past none of them twice, and then gives nothing.
-/
theorem sweep_visits_all {c : MailCursor item id} (h : (cursors itemId).Reachable c)
    {s : CursorState id} {items : List item} (hstate : c.state = some s)
    (hitems : c.items = some items) :
    exists c' s', (fetching itemId).Runs c c' ∧ c'.state = some s' ∧
      (s'.prevs ++ [s'.curr]).Nodup ∧
      (forall x, x ∈ items -> itemId x ∈ s'.prevs ++ [s'.curr]) ∧
      (c'.fetchNext itemId).1 = none := by
  have hmore : forall d : MailCursor item id,
      ((cursors itemId).Reachable d ∧ d.items = some items ∧
        exists t, d.state = some t) ->
      ¬ (d.fetchNext itemId).1 = none -> exists x d', (fetching itemId).step d x d' ∧
        ((cursors itemId).Reachable d' ∧ d'.items = some items ∧
          exists t, d'.state = some t) ∧
        d'.state.elim 0 (fun t => (items.filter (t.isNew itemId)).length) <
          d.state.elim 0 (fun t => (items.filter (t.isNew itemId)).length) := by
    rintro d ⟨hreach, hlist, t, ht⟩ hgoal
    rcases fetchNext_spec ht hlist (fresh_of_reachable hreach t ht) with
      ⟨x, hx, hnew, hfetch⟩ | ⟨_, hnone⟩
    · refine ⟨x, _, hfetch, ⟨?_, hlist, _, rfl⟩, ?_⟩
      · refine hreach.step (l := CursorEvent.fetchNext) ?_
        exact (congrArg Prod.snd hfetch).symm
      · rw [ht, Option.elim_some, Option.elim_some]
        have hleft : items.filter (CursorState.isNew itemId
            { prevs := t.prevs ++ [t.curr], curr := itemId x, next := none }) =
            (items.filter (t.isNew itemId)).filter (fun y => itemId y ≠ itemId x) := by
          rw [List.filter_filter]
          apply List.filter_congr
          intro y _
          rw [Bool.eq_iff_iff]
          simp [CursorState.isNew_iff, and_comm]
        rw [hleft]
        exact List.length_filter_lt_length_iff_exists.mpr
          ⟨x, List.mem_filter.mpr ⟨hx, hnew⟩, by simp⟩
    · exact absurd hnone hgoal
  rcases TransitionSystem.Runs.finishes hmore
    ⟨h, hitems, s, hstate⟩ with ⟨d, hruns, ⟨hreach, hlist, t, ht⟩, hgoal⟩
  have hfresh := fresh_of_reachable hreach t ht
  refine ⟨d, t, hruns, ht, ?_, ?_, hgoal⟩
  · refine hfresh.sublist ?_
    exact (List.Sublist.refl _).append (List.singleton_sublist.mpr List.mem_cons_self)
  · intro x hx
    rcases fetchNext_spec ht hlist hfresh with ⟨y, _, _, hfetch⟩ | ⟨hall, _⟩
    · rw [hfetch] at hgoal
      cases hgoal
    · have hold : ¬ (itemId x ∉ t.prevs ∧ itemId x ≠ t.curr) := by
        rw [<- CursorState.isNew_iff, hall x hx]
        exact Bool.false_ne_true
      rw [List.mem_append, List.mem_singleton]
      tauto

theorem belowGone_swept :
    exists c', (fetching fun mail => mail).Runs belowGone c' ∧
      exists s, c'.state = some s ∧ 1 ∈ s.prevs ++ [s.curr] ∧ 4 ∈ s.prevs ++ [s.curr] := by
  have hreach : (cursors fun mail => mail).Reachable belowGone :=
    TransitionSystem.Reachable.step (TransitionSystem.ReachableWhen.start
      ⟨2, [1, 2, 3, 4], by decide, rfl⟩) (l := CursorEvent.change [1, 2, 4]) rfl
  rcases sweep_visits_all hreach rfl rfl with ⟨c', s, hruns, hs, _, hall, _⟩
  exact ⟨c', hruns, s, hs, hall 1 (by decide), hall 4 (by decide)⟩

end MailCursor

end Lemmas

end Scroller
end MailClient
