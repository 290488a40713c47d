import MailClient.Recurrence.Search

/-!
# From the dates found to the dates produced

`next` skips the dates before the start and before the instant that the iterator
was fast-forwarded to, ends at the first date after the end of the rule, and
puts the start in front of a series that does not begin with it.
-/

namespace MailClient
namespace Recurrence

open Foundation

/-!
# The start of a cursor never changes
-/

namespace Cursor

theorem endGroup_start {c c' : Cursor} {next : Int} {found : Option Int}
    (h : c.endGroup next = some (c', found)) : c'.start = c.start := by
  unfold endGroup at h
  split at h
  · split at h
    · rcases Option.bind_eq_some_iff.mp h with ⟨r, _, hc'⟩
      cases hc'
      rfl
    · cases h
      rfl
  · cases h
    rfl

/-- Where a pass through the loop leads. -/
def flowCursor : Flow Cursor (Option Int × Cursor) -> Cursor
  | Flow.again c => c
  | Flow.done r => r.2

theorem visit_start (c : Cursor) (next : Int) :
    (flowCursor (c.visit next)).start = c.start := by
  unfold visit
  split
  · rfl
  · split
    · split
      · rfl
      · split
        · rfl
        · dsimp only
          split
          · rfl
          · rfl
    · rfl

theorem pass_start (c : Cursor) : (flowCursor c.pass).start = c.start := by
  unfold pass
  split
  · rfl
  · split
    · rfl
    · rename_i h
      exact endGroup_start h
    · rename_i c' h
      rw [visit_start]
      exact endGroup_start h

theorem pull_start (c : Cursor) : c.pull.1.start = c.start := by
  unfold pull
  split
  · rfl
  · rfl

theorem search_start {c : Cursor} {r : Option Int × Cursor}
    (h : Returns search c r) : r.2.start = c.start := by
  refine Returns.keeps (fun c' => c'.start = c.start)
    (fun r => r.2.start = c.start) ?_ ?_ h rfl
  · intro fuel s s' hs hpass
    have hstart := pass_start s
    rw [Option.some.inj hpass] at hstart
    exact hstart.trans hs
  · intro fuel s r hs hpass
    have hstart := pass_start s
    rw [Option.some.inj hpass] at hstart
    exact hstart.trans hs

theorem nextInner_start {c : Cursor} {r : Option Int × Cursor}
    (h : Returns nextInner c r) : r.2.start = c.start := by
  rcases h with ⟨fuel, hrun⟩
  have hpull := pull_start c
  unfold nextInner at hrun
  split at hrun
  · rename_i hc'
    cases hrun
    rw [hc'] at hpull
    exact hpull
  · rename_i hc'
    rw [hc'] at hpull
    exact (search_start ⟨fuel, hrun⟩).trans hpull

/-- Calls of `next_inner` that return these dates. -/
inductive Calls : Cursor -> List Int -> Cursor -> Prop where
  | nothing (c : Cursor) : Calls c [] c
  | date {c c' c'' : Cursor} {d : Int} {ds : List Int}
      (h : Returns nextInner c (some d, c')) (hrest : Calls c' ds c'') :
      Calls c (d :: ds) c''

end Cursor

/-!
# Filtering
-/

namespace RecurIterator

theorem nextInner_grows : Grows nextInner := by
  intro fuel it r hrun
  unfold nextInner at hrun ⊢
  split at hrun
  · exact hrun
  · exact Grows.map Cursor.nextInner_grows _ fuel it.toCursor r hrun

theorem nextWanted_grows : Grows nextWanted :=
  (nextInner_grows.map wanted).loop

theorem nextDate_grows : Grows nextDate := by
  intro fuel it r hrun
  unfold nextDate at hrun ⊢
  split at hrun
  · rename_i hcount
    rw [if_pos hcount]
    exact hrun
  · rename_i hcount
    rw [if_neg hcount]
    exact nextWanted_grows.map emit fuel it r hrun

theorem collect_body_grows :
    Grows (fun fuel (s : RecurIterator × List Int) =>
      (s.1.nextDate fuel).map (collectPass s.2)) := by
  intro fuel s r hrun
  exact nextDate_grows.map (collectPass s.2) fuel s.1 r hrun

theorem collect_grows : Grows collect :=
  collect_body_grows.loop

theorem Produces.unique {it : RecurIterator} {ds ds' : List Int}
    (h : it.Produces ds) (h' : it.Produces ds') : ds = ds' :=
  Returns.unique collect_grows h h'

/-- The dates of a series that are produced. -/
def accepted (start : Int) (since untilAt : Option Int) :
    List Int -> List Int
  | [] => []
  | d :: ds =>
      if d < start || since.any (fun since => d < since) then
        accepted start since untilAt ds
      else if untilAt.any (fun untilAt => untilAt < d) then
        []
      else
        d :: accepted start since untilAt ds

/-- There is a `COUNT` and it has been reached. -/
def spent (count : Option Nat) (emitted : Nat) : Bool :=
  count.any (fun count => count ≤ emitted)

/-- What is emitted of the accepted dates, the start first. -/
def emitAll (start : Int) (count : Option Nat) : Nat -> List Int -> List Int
  | _, [] => []
  | emitted, d :: ds =>
      if spent count emitted then
        []
      else if (emitted + 1) % 2 ^ 32 = 1 ∧ d ≠ start then
        start ::
          if spent count 1 then [] else d :: emitAll start count 2 ds
      else
        d :: emitAll start count ((emitted + 1) % 2 ^ 32) ds

theorem emitAll_spent {count : Option Nat} {emitted : Nat}
    (h : spent count emitted = true) (start : Int) (ds : List Int) :
    emitAll start count emitted ds = [] := by
  cases ds with
  | nil => rfl
  | cons d ds => exact if_pos h

section Steps

variable {it : RecurIterator}

theorem nextInner_returns (hnext : it.next = none) {r : Option Int × Cursor}
    (h : Returns Cursor.nextInner it.toCursor r) :
    Returns nextInner it (r.1, { it with toCursor := r.2 }) := by
  rcases h with ⟨fuel, hrun⟩
  refine ⟨fuel, ?_⟩
  unfold nextInner
  rw [hnext, hrun]
  rfl

theorem nextDate_eq (it : RecurIterator) (fuel : Nat) :
    it.nextDate fuel =
      if spent it.count it.emitted then some (none, it)
      else (it.nextWanted fuel).map emit :=
  rfl

theorem nextDate_spent (h : spent it.count it.emitted = true) :
    Returns nextDate it (none, it) :=
  ⟨0, if_pos h⟩

theorem nextDate_returns (hopen : ¬ spent it.count it.emitted = true)
    {r : Option Int × RecurIterator} (h : Returns nextWanted it r) :
    Returns nextDate it (emit r) := by
  rcases h with ⟨fuel, hrun⟩
  refine ⟨fuel, ?_⟩
  rw [nextDate_eq, if_neg hopen, hrun]
  rfl

theorem nextDate_skips (hopen : ¬ spent it.count it.emitted = true)
    {it' : RecurIterator} {found : Int}
    (hfound : Returns nextInner it (some found, it'))
    (hopen' : ¬ spent it'.count it'.emitted = true)
    (hskips : it'.skips found = true) {r : Option Int × RecurIterator}
    (h : Returns nextDate it' r) : Returns nextDate it r := by
  have hwanted : Returns (fun fuel it => (nextInner fuel it).map wanted) it
      (Flow.again it') := by
    have hagain : wanted (some found, it') = Flow.again it' := if_pos hskips
    rw [<- hagain]
    exact hfound.map wanted
  rcases h with ⟨fuel, hr⟩
  rw [nextDate_eq, if_neg hopen'] at hr
  rcases Option.map_eq_some_iff.mp hr with ⟨x, hx, rfl⟩
  exact nextDate_returns hopen
    (Returns.again (nextInner_grows.map wanted) hwanted ⟨fuel, hx⟩)

theorem nextDate_found (hopen : ¬ spent it.count it.emitted = true)
    {it' : RecurIterator} {found : Int}
    (hfound : Returns nextInner it (some found, it'))
    (hskips : ¬ it'.skips found = true) :
    Returns nextDate it (emit (some found, it')) := by
  apply nextDate_returns hopen
  apply Returns.done
  have hdone : wanted (some found, it') = Flow.done (some found, it') :=
    if_neg hskips
  rw [<- hdone]
  exact hfound.map wanted

theorem nextDate_pending {found : Int} (hnext : it.next = some found)
    (hopen : ¬ spent it.count it.emitted = true)
    (hskips : ¬ it.skips found = true) :
    Returns nextDate it (emit (some found, { it with next := none })) := by
  refine nextDate_found hopen ⟨0, ?_⟩ hskips
  unfold nextInner
  rw [hnext]

theorem collect_ends {it' : RecurIterator} {dates : List Int}
    (h : Returns nextDate it (none, it')) :
    Returns collect (it, dates) dates := by
  rcases h with ⟨fuel, hrun⟩
  apply Returns.done
  refine ⟨fuel, ?_⟩
  show (it.nextDate fuel).map (collectPass dates) = _
  rw [hrun]
  rfl

theorem collect_goes_on {it' : RecurIterator} {found : Int}
    {dates r : List Int} (h : Returns nextDate it (some found, it'))
    (hrest : Returns collect (it', dates ++ [found]) r) :
    Returns collect (it, dates) r := by
  rcases h with ⟨fuel, hrun⟩
  refine Returns.again collect_body_grows ⟨fuel, ?_⟩ hrest
  show (it.nextDate fuel).map (collectPass dates) = _
  rw [hrun]
  rfl

end Steps

theorem emit_over (it : RecurIterator) {found : Int}
    (huntil : it.untilAt.any (fun untilAt => untilAt < found) = true) :
    emit (some found, it) = (none, it) :=
  if_pos huntil

theorem emit_start (it : RecurIterator) {found : Int}
    (huntil : ¬ it.untilAt.any (fun untilAt => untilAt < found) = true)
    (hfirst : (it.emitted + 1) % 2 ^ 32 = 1 ∧ found ≠ it.start) :
    emit (some found, it) =
      (some it.start, { it with emitted := 1, next := some found }) := by
  unfold emit
  dsimp only
  rw [if_neg huntil, if_pos hfirst, hfirst.left]

theorem emit_found (it : RecurIterator) {found : Int}
    (huntil : ¬ it.untilAt.any (fun untilAt => untilAt < found) = true)
    (hlater : ¬ ((it.emitted + 1) % 2 ^ 32 = 1 ∧ found ≠ it.start)) :
    emit (some found, it) =
      (some found, { it with emitted := (it.emitted + 1) % 2 ^ 32 }) := by
  unfold emit
  dsimp only
  rw [if_neg huntil, if_neg hlater]

/-- A date that waits behind the start is within the rule. -/
def Ready (it : RecurIterator) : Prop :=
  forall found, it.next = some found -> it.emitted = 1 ∧
    ¬ it.skips found = true ∧
    ¬ it.untilAt.any (fun untilAt => untilAt < found) = true

/-- What an iterator produces if its search finds these dates. -/
def rest (it : RecurIterator) (ds : List Int) : List Int :=
  match it.next with
  | none =>
      emitAll it.start it.count it.emitted
        (accepted it.start it.since it.untilAt ds)
  | some found =>
      if spent it.count 1 then [] else
        found :: emitAll it.start it.count 2
          (accepted it.start it.since it.untilAt ds)

/-- The next date is produced, and the search goes on behind what it found. -/
structure Advances (it : RecurIterator) (ds : List Int) (d : Int)
    (it' : RecurIterator) (found ds' : List Int) : Prop where
  split : ds = found ++ ds'
  calls : Cursor.Calls it.toCursor found it'.toCursor
  raws : Cursor.Raws it'.toCursor ds'
  ready : it'.Ready
  rest : forall more, it.rest (found ++ more) = d :: it'.rest more

theorem nextDate_raws {c : Cursor} {ds : List Int} (h : Cursor.Raws c ds)
    {it : RecurIterator} (hc : it.toCursor = c) (hnext : it.next = none)
    (hopen : ¬ spent it.count it.emitted = true) :
    (exists it', Returns nextDate it (none, it') ∧ it.rest ds = []) ∨
      exists d it' found ds', Returns nextDate it (some d, it') ∧
        Advances it ds d it' found ds' := by
  have hrest (more : List Int) : it.rest more =
      emitAll it.start it.count it.emitted
        (accepted it.start it.since it.untilAt more) := by
    unfold rest
    rw [hnext]
  induction h generalizing it with
  | stop hstop =>
      rw [<- hc] at hstop
      have hinner := nextInner_returns hnext hstop
      exact Or.inl ⟨_, nextDate_returns hopen
        (Returns.done (hinner.map wanted)), hrest []⟩
  | @more c c' d ds hmore hraws ih =>
      rw [<- hc] at hmore
      have hinner : Returns nextInner it (some d, { it with toCursor := c' }) :=
        nextInner_returns hnext hmore
      have hstart : c'.start = it.start := Cursor.nextInner_start hmore
      have hskips : ({ it with toCursor := c' } : RecurIterator).skips d =
          (decide (d < it.start) || it.since.any (fun since => d < since)) := by
        unfold skips
        rw [hstart]
      by_cases hskip : (decide (d < it.start) ||
          it.since.any (fun since => d < since)) = true
      · have hgoes {r : Option Int × RecurIterator}
            (hr : Returns nextDate { it with toCursor := c' } r) :
            Returns nextDate it r :=
          nextDate_skips hopen hinner hopen (hskips.trans hskip) hr
        have hsame (more : List Int) :
            it.rest (d :: more) =
              RecurIterator.rest { it with toCursor := c' } more := by
          rw [hrest, accepted, if_pos hskip]
          unfold rest
          dsimp only
          rw [hnext, hstart]
        rcases @ih { it with toCursor := c' } rfl hnext hopen (by
          intro more
          unfold rest
          dsimp only
          rw [hnext]) with ⟨it', hnone, hnil⟩ |
          ⟨e, it', found, ds', hdate, hadvances⟩
        · exact Or.inl ⟨it', hgoes hnone, (hsame ds).trans hnil⟩
        · refine Or.inr ⟨e, it', d :: found, ds', hgoes hdate, ?_⟩
          refine ⟨congrArg (List.cons d) hadvances.split,
            Cursor.Calls.date hmore hadvances.calls, hadvances.raws,
            hadvances.ready, fun more => ?_⟩
          rw [List.cons_append, hsame]
          exact hadvances.rest more
      · have hdate := nextDate_found hopen hinner (by rw [hskips]; exact hskip)
        by_cases huntil : it.untilAt.any (fun untilAt => untilAt < d) = true
        · rw [emit_over { it with toCursor := c' } huntil] at hdate
          refine Or.inl ⟨_, hdate, ?_⟩
          rw [hrest, accepted, if_neg hskip, if_pos huntil]
          rfl
        have hone := Cursor.Calls.date hmore (Cursor.Calls.nothing c')
        right
        by_cases hfirst : (it.emitted + 1) % 2 ^ 32 = 1 ∧ d ≠ it.start
        · rw [emit_start { it with toCursor := c' } huntil
            (by dsimp only; rw [hstart]; exact hfirst)] at hdate
          refine ⟨_, _, [d], ds, hdate, rfl, hone, hraws, ?_, ?_⟩
          · intro found hfound
            cases hfound
            refine ⟨rfl, ?_, huntil⟩
            show ¬ RecurIterator.skips { it with toCursor := c' } d = true
            rw [hskips]
            exact hskip
          · intro more
            rw [hrest, List.singleton_append, accepted, if_neg hskip,
              if_neg huntil, emitAll, if_neg hopen, if_pos hfirst]
            unfold rest
            dsimp only
            rw [hstart]
        · rw [emit_found { it with toCursor := c' } huntil
            (by dsimp only; rw [hstart]; exact hfirst)] at hdate
          refine ⟨_, _, [d], ds, hdate, rfl, hone, hraws, ?_, ?_⟩
          · intro found hfound
            cases hnext.symm.trans hfound
          · intro more
            rw [hrest, List.singleton_append, accepted, if_neg hskip,
              if_neg huntil, emitAll, if_neg hopen, if_neg hfirst]
            unfold rest
            dsimp only
            rw [hnext, hstart]

theorem Ready.nextDate {it : RecurIterator} (h : it.Ready) {ds : List Int}
    (hraws : Cursor.Raws it.toCursor ds) :
    (exists it', Returns nextDate it (none, it') ∧ it.rest ds = []) ∨
      exists d it' found ds', Returns nextDate it (some d, it') ∧
        Advances it ds d it' found ds' := by
  by_cases hspent : spent it.count it.emitted = true
  · refine Or.inl ⟨it, nextDate_spent hspent, ?_⟩
    unfold rest
    split
    · exact emitAll_spent hspent _ _
    · rename_i found hnext
      rw [(h found hnext).left] at hspent
      exact if_pos hspent
  cases hnext : it.next with
  | none => exact nextDate_raws hraws rfl hnext hspent
  | some found =>
      rcases h found hnext with ⟨hemitted, hskips, huntil⟩
      have hpending := nextDate_pending hnext hspent hskips
      have hlater : ¬ ((it.emitted + 1) % 2 ^ 32 = 1 ∧ found ≠ it.start) := by
        rw [hemitted]
        exact fun hfirst => nomatch hfirst.left
      rw [emit_found { it with next := none } huntil hlater] at hpending
      refine Or.inr ⟨_, _, [], ds, hpending, rfl, Cursor.Calls.nothing _, hraws,
        ?_, ?_⟩
      · intro e he
        cases he
      · intro more
        rw [hemitted] at hspent
        unfold rest
        rw [hnext]
        dsimp only
        rw [if_neg hspent, hemitted]
        rfl

-- Each call takes the head off what is left to produce.
theorem Ready.collects {it : RecurIterator} (h : it.Ready) {ds : List Int}
    (hraws : Cursor.Raws it.toCursor ds) (dates : List Int) :
    Returns collect (it, dates) (dates ++ it.rest ds) := by
  generalize hrest : it.rest ds = left
  induction left generalizing it ds dates with
  | nil =>
      rcases h.nextDate hraws with ⟨it', hnone, _⟩ |
        ⟨d, it', found, ds', _, hadvances⟩
      · rw [List.append_nil]
        exact collect_ends hnone
      · rw [hadvances.split, hadvances.rest] at hrest
        cases hrest
  | cons d left ih =>
      rcases h.nextDate hraws with ⟨it', _, hnil⟩ |
        ⟨e, it', found, ds', hdate, hadvances⟩
      · cases hnil.symm.trans hrest
      · rw [hadvances.split, hadvances.rest] at hrest
        cases hrest
        have hgoes := ih hadvances.ready hadvances.raws (dates ++ [d]) rfl
        rw [List.append_assoc] at hgoes
        exact collect_goes_on hdate hgoes

theorem Ready.produces {it : RecurIterator} (h : it.Ready) {ds : List Int}
    (hraws : Cursor.Raws it.toCursor ds) : it.Produces (it.rest ds) :=
  h.collects hraws []

end RecurIterator

end Recurrence
end MailClient
