import MailClient.Foundation.Transition
import MailClient.Scroller.Worker

/-!
# The client's copy of the list

A client that applies every update it receives should hold the list of the
worker.  The updates are differences against the list before the command, so a
command that fails after it has changed the list leaves the client behind: the
error carries no list, and the next difference starts from another list.
-/

namespace MailClient
namespace Scroller

open Foundation
open TransitionSystem

section Mirror

variable {item id : Type} [DecidableEq id] (E : ScrollerEq item)
  (itemId : item -> id)

/-- `none` is a client that panicked in `splice`. -/
def InStep (client : Option (List item)) (w : Worker item) : Prop :=
  exists c, client = some c ∧ Mirrors E c w.items

/-!
# Commands that leave the client in step

The list before the command is what the client mirrors.  A command is settled
if every call after the first change of the list succeeds, or if the list it
leaves cannot be told apart from the one before, and if no difference is an
inverted range.
-/

/-- `current` is the list when `refresh` starts, `before` the client's. -/
def RefreshSettled (before current : List item) (force : Bool)
    (a : RefreshAnswers item) : Prop :=
  match a.context, a.visibleElements with
  | true, Except.ok visible =>
      match tryFetchFirstPage a with
      | Except.ok _ => force = true ∨ ¬ RangeInverted E current visible
      | Except.error _ => Mirrors E before visible
  | _, _ => Mirrors E before current

/-- The items the source has for a cleared list, unless the fetch fails. -/
def firstPage (w : Worker item) (a : FetchMoreAnswers item) :
    Option (List item) :=
  match (syncNext w a).result, fetchStats a with
  | Except.ok items, Except.ok (seen, total) =>
      if items.isEmpty && decide (seen < total) &&
          (!(syncNext w a).worker.task && a.offline) then
        none
      else
        some items
  | _, _ => none

def ResetSettled (w : Worker item) (a : ResetAnswers item) : Prop :=
  match firstPage { w with items := [] } a.fetchMore with
  | none => w.items = []
  | some items => RefreshSettled E w.items items true a.refresh

/-- Only a command that gets as far as `reset` changes the list. -/
def ChangeSettled (w : Worker item) (prepare : Except MailContextError Unit)
    (answer : Except MailContextError Bool)
    (emit : Except MailContextError Unit) (a : ResetAnswers item) : Prop :=
  match prepare, answer, emit with
  | Except.ok _, Except.ok task, Except.ok _ =>
      ResetSettled E { w with task := task } a
  | _, _, _ => True

def Settled (w : Worker item) : ScrollerCommand item -> Prop
  | ScrollerCommand.fetchMore _ _ => True
  | ScrollerCommand.refresh _ a => RefreshSettled E w.items w.items false a
  | ScrollerCommand.forceRefresh _ a => RefreshSettled E w.items w.items true a
  | ScrollerCommand.getItems _ => True
  | ScrollerCommand.fetchNew _ _ syncNew a =>
      syncNew = Except.ok () -> RefreshSettled E w.items w.items false a
  | ScrollerCommand.changeUnreadFilter _ a =>
      ChangeSettled E w (requireContext a.context) a.changeState
        (Except.ok ()) a.reset
  | ScrollerCommand.changeCategoryView _ a =>
      ChangeSettled E w (do requireContext a.context; a.categoryView)
        a.changeState a.emitCategoryView a.reset
  | ScrollerCommand.categoryViewChanged _ a =>
      a.didNotChange = true ∨
        ChangeSettled E w (do requireContext a.context; a.categoryView)
          a.changeState a.emitCategoryView a.reset
  | ScrollerCommand.changeLabel _ a _ =>
      ChangeSettled E w (do requireContext a.context; a.categoryView)
        a.changeState (Except.ok ()) a.reset
  | ScrollerCommand.changeInclude _ a =>
      w.supportsIncludeFilter = false ∨
        ChangeSettled E w (do requireContext a.context; a.categoryView)
          a.changeState (Except.ok ()) a.reset
  | ScrollerCommand.changeKeywords _ a =>
      ChangeSettled E w (requireContext a.context) a.changeState
        (Except.ok ()) a.reset
  | ScrollerCommand.clear _ a =>
      ChangeSettled E w (requireContext a.context) a.changeState
        (Except.ok ()) a.reset

/-!
# What a reply does to the client
-/

/-- The client is in step after the update, or the error, of a reply. -/
def Reply.Reaches (r : Reply item (ScrollerUpdate item))
    (client : List item) : Prop :=
  match r.result with
  | Except.ok u => InStep E (applyScrollerUpdate client u) r.worker
  | Except.error _ => Mirrors E client r.worker.items

theorem inStep_some {client : List item} {w : Worker item} :
    InStep E (some client) w ↔ Mirrors E client w.items := by
  constructor
  · rintro ⟨c, hc, hmirrors⟩
    cases hc
    exact hmirrors
  · intro h
    exact ⟨client, rfl, h⟩

theorem Reply.reaches_iff (r : Reply item (ScrollerUpdate item))
    (src : ScrollerSource) (client : List item) :
    r.Reaches E client ↔
      InStep E (applyScrollerUpdate client (r.update src)) r.worker := by
  unfold Reply.Reaches Reply.update
  cases r.result with
  | ok u => exact Iff.rfl
  | error e => exact (inStep_some E).symm

theorem applyAll_singleton (u : ScrollerUpdate item) (client : List item) :
    applyAll client [u] = applyScrollerUpdate client u :=
  Option.bind_fun_some _

theorem applyAll_announce (u : ScrollerUpdate item) (client : List item) :
    applyAll client (announce u) = applyScrollerUpdate client u := by
  unfold announce
  split
  · exact applyAll_singleton u client
  · rename_i hquiet
    cases u with
    | list src scrollerId update =>
        cases update with
        | none => rfl
        | append items => exact absurd rfl hquiet
        | replaceFrom idx items => exact absurd rfl hquiet
        | replaceBefore idx items => exact absurd rfl hquiet
        | replaceRange first last items => exact absurd rfl hquiet
    | status src update => rfl
    | categoryViewChanged src => rfl
    | error src e => rfl

theorem Reply.announced_inStep_iff (r : Reply item (ScrollerUpdate item))
    (src : ScrollerSource) (client : List item) :
    InStep E (applyAll client (r.announced src).2) (r.announced src).1 ↔
      r.Reaches E client := by
  unfold Reply.announced
  rw [applyAll_announce, Reply.reaches_iff E r src]

/-!
# Fetching more
-/

theorem syncNext_items (w : Worker item) (a : FetchMoreAnswers item) :
    (syncNext w a).worker.items = w.items := by
  have hwait : (waitForRequest w a).worker.items = w.items := by
    unfold waitForRequest
    split
    · rfl
    · split
      · rfl
      · rfl
  unfold syncNext
  split
  · rfl
  · dsimp only
    cases a.syncNext with
    | error e => exact hwait
    | ok answer =>
        cases (waitForRequest w a).result with
        | ok _ => exact hwait
        | error e =>
            dsimp only
            split
            · exact hwait
            · exact hwait

theorem appendItems_reaches (w : Worker item) (src : ScrollerSource)
    (items : List item) {client : List item}
    (hclient : Mirrors E client w.items) :
    (appendItems itemId w src items).Reaches E client := by
  unfold appendItems
  dsimp only
  split
  · exact (inStep_some E).mpr hclient
  · exact (inStep_some E).mpr (hclient.append (Mirrors.refl _))

theorem fetchMore_reaches (w : Worker item) (src : ScrollerSource)
    (a : FetchMoreAnswers item) {client : List item}
    (hclient : Mirrors E client w.items) :
    (fetchMore itemId w src a).Reaches E client := by
  have hsynced : Mirrors E client (syncNext w a).worker.items := by
    rw [syncNext_items]
    exact hclient
  unfold fetchMore
  dsimp only
  cases (syncNext w a).result with
  | error e => exact hsynced
  | ok items =>
      cases fetchStats a with
      | error e => exact hsynced
      | ok stats =>
          dsimp only
          split
          · exact appendItems_reaches E itemId _ src items hsynced
          · split
            · split
              · exact hsynced
              · exact (inStep_some E).mpr hsynced
            · exact (inStep_some E).mpr hsynced

/-!
# Refreshing and resetting
-/

theorem refreshUpdate_reaches_iff (w : Worker item) (force : Bool)
    (visible : List item) {client : List item}
    (hclient : force = false -> Mirrors E client w.items) :
    (exists c, applyListUpdate client (refreshUpdate E w force visible) =
        some c ∧ Mirrors E c visible) ↔
      force = true ∨ ¬ RangeInverted E w.items visible := by
  unfold refreshUpdate
  cases force with
  | true =>
      rw [if_pos rfl]
      exact iff_of_true (replaceAll_mirrors E client visible) (Or.inl rfl)
  | false =>
      rw [if_neg Bool.false_ne_true]
      constructor
      · rintro ⟨c, hc, _⟩
        refine Or.inr (fun hrange => ?_)
        rw [calculateScrollerUpdate_inverted hrange] at hc
        cases hc
      · intro h
        have hrange := h.resolve_left Bool.false_ne_true
        exact calculateScrollerUpdate_mirrors (hclient rfl) hrange

theorem refresh_reaches_iff (w : Worker item) (force : Bool)
    (src : ScrollerSource) (a : RefreshAnswers item)
    {client before : List item} (hclient : Mirrors E client before)
    (hcurrent : force = false -> before = w.items) :
    (refresh E w force src a).Reaches E client ↔
      RefreshSettled E before w.items force a := by
  have hsame : forall xs, Mirrors E client xs ↔ Mirrors E before xs :=
    fun xs => ⟨hclient.symm.trans, hclient.trans⟩
  unfold refresh RefreshSettled
  cases a.context with
  | false => exact hsame w.items
  | true =>
      cases a.visibleElements with
      | error e => exact hsame w.items
      | ok visible =>
          cases tryFetchFirstPage a with
          | error e => exact hsame visible
          | ok _ =>
              exact refreshUpdate_reaches_iff E w force visible
                (fun hforce => hcurrent hforce ▸ hclient)

theorem filterNewItemsForAppend_nil (items : List item) :
    filterNewItemsForAppend itemId [] items = items := by
  unfold filterNewItemsForAppend
  rw [List.filter_eq_self]
  intro a _
  rfl

theorem fetchMore_of_empty (w : Worker item) (src : ScrollerSource)
    (a : FetchMoreAnswers item) (hempty : w.items = []) :
    match firstPage w a with
    | none =>
        (exists e, (fetchMore itemId w src a).result = Except.error e) ∧
          (fetchMore itemId w src a).worker.items = []
    | some items =>
        (exists u, (fetchMore itemId w src a).result = Except.ok u) ∧
          (fetchMore itemId w src a).worker.items = items := by
  have hsynced : (syncNext w a).worker.items = [] := by
    rw [syncNext_items, hempty]
  unfold firstPage fetchMore
  dsimp only
  cases (syncNext w a).result with
  | error e => exact ⟨⟨e, rfl⟩, hsynced⟩
  | ok items =>
      cases fetchStats a with
      | error e => exact ⟨⟨e, rfl⟩, hsynced⟩
      | ok stats =>
          cases items with
          | nil =>
              dsimp only
              by_cases hseen : stats.1 < stats.2
              · cases hoffline : !(syncNext w a).worker.task && a.offline with
                | true => simp [hseen, hsynced]
                | false => simp [hseen, hsynced]
              · simp [hseen, hsynced]
          | cons x rest =>
              have hnew : filterNewItemsForAppend itemId
                  (syncNext w a).worker.items (x :: rest) = x :: rest := by
                rw [hsynced]
                exact filterNewItemsForAppend_nil itemId _
              unfold appendItems
              dsimp only
              rw [hnew]
              exact ⟨⟨_, rfl⟩, congrArg (· ++ (x :: rest)) hsynced⟩

theorem reset_reaches_iff (w : Worker item) (src : ScrollerSource)
    (a : ResetAnswers item) {client : List item}
    (hclient : Mirrors E client w.items) :
    (reset E itemId w src a).Reaches E client ↔ ResetSettled E w a := by
  have hfetched :=
    fetchMore_of_empty itemId { w with items := [] } src a.fetchMore rfl
  unfold reset ResetSettled
  cases hpage : firstPage { w with items := [] } a.fetchMore with
  | none =>
      rw [hpage] at hfetched
      rcases hfetched with ⟨⟨e, hresult⟩, hitems⟩
      dsimp only
      rw [hresult]
      show Mirrors E client _ ↔ _
      rw [hitems]
      constructor
      · intro h
        exact List.forall₂_nil_right_iff.mp (hclient.symm.trans h)
      · intro h
        rw [h] at hclient
        exact hclient
  | some items =>
      rw [hpage] at hfetched
      rcases hfetched with ⟨⟨u, hresult⟩, hitems⟩
      dsimp only
      rw [hresult]
      dsimp only
      rw [refresh_reaches_iff E _ true src a.refresh hclient
        (fun h => nomatch h), hitems]

theorem changeThenReset_reaches_iff (w : Worker item) (src : ScrollerSource)
    (prepare : Except MailContextError Unit)
    (answer : Except MailContextError Bool)
    (emit : Except MailContextError Unit) (a : ResetAnswers item)
    {client : List item} (hclient : Mirrors E client w.items) :
    (changeThenReset E itemId w src prepare answer emit a).Reaches E client ↔
      ChangeSettled E w prepare answer emit a := by
  unfold changeThenReset ChangeSettled
  cases prepare with
  | error e => exact iff_of_true hclient trivial
  | ok _ =>
      cases answer with
      | error e => exact iff_of_true hclient trivial
      | ok task =>
          cases emit with
          | error e => exact iff_of_true hclient trivial
          | ok _ => exact reset_reaches_iff E itemId _ src a hclient

/-!
# One command
-/

theorem applyAll_emitted (src : ScrollerSource) (a : ChangeAnswers item)
    (us : List (ScrollerUpdate item)) (client : List item) :
    applyAll client (emitted src a ++ us) = applyAll client us := by
  unfold emitted
  split
  · rfl
  · rfl

theorem applyAll_between_status (src : ScrollerSource) (notify : Bool)
    (u : ScrollerUpdate item) (client : List item) :
    applyAll client
        ((if notify then
            [ScrollerUpdate.status src ScrollerStatusUpdate.fetchNewStart]
          else []) ++ [u] ++
          (if notify then
            [ScrollerUpdate.status src ScrollerStatusUpdate.fetchNewEnd]
          else [])) =
      applyScrollerUpdate client u := by
  cases notify with
  | false => exact applyAll_singleton u client
  | true => exact applyAll_singleton u client

theorem fetchNew_reaches_iff (w : Worker item) (src : ScrollerSource)
    (syncNew : Except MailContextError Unit) (a : RefreshAnswers item)
    {client : List item} (hclient : Mirrors E client w.items) :
    (fetchNew E w src syncNew a).Reaches E client ↔
      (syncNew = Except.ok () ->
        RefreshSettled E w.items w.items false a) := by
  unfold fetchNew
  cases syncNew with
  | error e => exact iff_of_true hclient (fun h => nomatch h)
  | ok _ =>
      have hrefresh :=
        refresh_reaches_iff E w false src a hclient (fun _ => rfl)
      exact hrefresh.trans ⟨fun h _ => h, fun h => h rfl⟩

theorem handleCategoryChanged_reaches_iff (w : Worker item)
    (src : ScrollerSource) (a : ChangeAnswers item) {client : List item}
    (hclient : Mirrors E client w.items) :
    (handleCategoryChanged E itemId w src a).Reaches E client ↔
      a.didNotChange = true ∨
        ChangeSettled E w (do requireContext a.context; a.categoryView)
          a.changeState a.emitCategoryView a.reset := by
  unfold handleCategoryChanged
  cases (do requireContext a.context; a.categoryView :
      Except MailContextError Unit) with
  | error e => exact iff_of_true hclient (Or.inr trivial)
  | ok _ =>
      cases a.didNotChange with
      | true => exact iff_of_true ((inStep_some E).mpr hclient) (Or.inl rfl)
      | false =>
          have hchange := changeThenReset_reaches_iff E itemId w src
            (Except.ok ()) a.changeState a.emitCategoryView a.reset hclient
          exact hchange.trans
            ⟨Or.inr, fun h => h.resolve_left Bool.false_ne_true⟩

theorem changeInclude_reaches_iff (w : Worker item) (src : ScrollerSource)
    (a : ChangeAnswers item) {client : List item}
    (hclient : Mirrors E client w.items) :
    (changeInclude E itemId w src a).Reaches E client ↔
      w.supportsIncludeFilter = false ∨
        ChangeSettled E w (do requireContext a.context; a.categoryView)
          a.changeState (Except.ok ()) a.reset := by
  unfold changeInclude
  cases hinclude : w.supportsIncludeFilter with
  | false => exact iff_of_true ((inStep_some E).mpr hclient) (Or.inl rfl)
  | true =>
      have hchange := changeThenReset_reaches_iff E itemId
        { w with task := false } src
        (do requireContext a.context; a.categoryView) a.changeState
        (Except.ok ()) a.reset hclient
      rw [if_pos rfl, <- hinclude]
      refine hchange.trans ⟨Or.inr, fun h => h.resolve_left ?_⟩
      rw [hinclude]
      exact Bool.noConfusion

theorem changeKeywords_reaches_iff (w : Worker item) (src : ScrollerSource)
    (a : ChangeAnswers item) {client : List item}
    (hclient : Mirrors E client w.items) :
    (changeKeywords E itemId w src a).Reaches E client ↔
      ChangeSettled E w (requireContext a.context) a.changeState
        (Except.ok ()) a.reset := by
  unfold changeKeywords
  cases requireContext a.context with
  | error e => exact iff_of_true hclient trivial
  | ok _ =>
      exact changeThenReset_reaches_iff E itemId { w with task := false } src
        (Except.ok ()) a.changeState (Except.ok ()) a.reset hclient

theorem changeLabel_items (w : Worker item) (src : ScrollerSource)
    (a : ChangeAnswers item) (supports : Except MailContextError Bool) :
    (handleCommand E itemId w
        (ScrollerCommand.changeLabel src a supports)).1.items =
        (changeLabel E itemId w src a).worker.items ∧
      (handleCommand E itemId w
        (ScrollerCommand.changeLabel src a supports)).2 =
        announce ((changeLabel E itemId w src a).update src) := by
  unfold handleCommand Reply.announced
  dsimp only
  cases ((changeLabel E itemId w src a).update src).isError with
  | true => exact ⟨rfl, rfl⟩
  | false =>
      cases supports with
      | error e => exact ⟨rfl, rfl⟩
      | ok s => exact ⟨rfl, rfl⟩

/--
A client that mirrors the list before a command mirrors the list after it
exactly if the command is settled.
-/
theorem handleCommand_inStep_iff (w : Worker item)
    (cmd : ScrollerCommand item) {client : List item}
    (hclient : Mirrors E client w.items) :
    InStep E (applyAll client (handleCommand E itemId w cmd).2)
        (handleCommand E itemId w cmd).1 ↔
      Settled E w cmd := by
  cases cmd with
  | fetchMore src a =>
      refine iff_of_true ?_ trivial
      exact (Reply.announced_inStep_iff E _ src client).mpr
        (fetchMore_reaches E itemId w src a hclient)
  | refresh src a =>
      exact (Reply.announced_inStep_iff E _ src client).trans
        (refresh_reaches_iff E w false src a hclient (fun _ => rfl))
  | forceRefresh src a =>
      exact (Reply.announced_inStep_iff E _ src client).trans
        (refresh_reaches_iff E w true src a hclient (fun _ => rfl))
  | getItems src =>
      refine iff_of_true ?_ trivial
      show InStep E (applyAll client [getItems w src]) w
      rw [applyAll_singleton]
      exact replaceAll_mirrors E client w.items
  | fetchNew src notify syncNew a =>
      show InStep E (applyAll client (_ ++ [_] ++ _)) _ ↔ _
      rw [applyAll_between_status]
      exact (Reply.reaches_iff E _ src client).symm.trans
        (fetchNew_reaches_iff E w src syncNew a hclient)
  | changeUnreadFilter src a =>
      exact (Reply.announced_inStep_iff E _ src client).trans
        (changeThenReset_reaches_iff E itemId w src _ _ _ _ hclient)
  | changeCategoryView src a =>
      show InStep E (applyAll client (emitted src a ++ _)) _ ↔ _
      rw [applyAll_emitted]
      exact (Reply.announced_inStep_iff E _ src client).trans
        (changeThenReset_reaches_iff E itemId w src _ _ _ _ hclient)
  | categoryViewChanged src a =>
      have hreply := (Reply.announced_inStep_iff E _ src client).trans
        (handleCategoryChanged_reaches_iff E itemId w src a hclient)
      show InStep E (applyAll client ((if a.didNotChange then [] else _) ++ _))
        _ ↔ _
      split
      · exact hreply
      · rw [applyAll_emitted]
        exact hreply
  | changeLabel src a supports =>
      have hsent := changeLabel_items E itemId w src a supports
      have hchange := changeThenReset_reaches_iff E itemId w src
        (do requireContext a.context; a.categoryView) a.changeState
        (Except.ok ()) a.reset hclient
      unfold InStep
      rw [hsent.left, hsent.right, applyAll_announce]
      exact (Reply.reaches_iff E (changeLabel E itemId w src a) src
        client).symm.trans hchange
  | changeInclude src a =>
      exact (Reply.announced_inStep_iff E _ src client).trans
        (changeInclude_reaches_iff E itemId w src a hclient)
  | changeKeywords src a =>
      exact (Reply.announced_inStep_iff E _ src client).trans
        (changeKeywords_reaches_iff E itemId w src a hclient)
  | clear src a =>
      show InStep E (applyAll client [_]) _ ↔ _
      rw [applyAll_singleton]
      exact (Reply.reaches_iff E _ src client).symm.trans
        (changeThenReset_reaches_iff E itemId w src _ _ _ _ hclient)

/-!
# Runs of the worker and its client
-/

structure Session (item : Type) where
  worker : Worker item
  client : Option (List item)
  deriving DecidableEq

def Session.handle (σ : Session item) (cmd : ScrollerCommand item) :
    Session item :=
  { worker := (handleCommand E itemId σ.worker cmd).1
    client := σ.client.bind (fun c =>
      applyAll c (handleCommand E itemId σ.worker cmd).2) }

def scrollerSystem :
    TransitionSystem (Session item) (ScrollerCommand item) where
  init σ := σ.worker.items = [] ∧ σ.client = some []
  step σ cmd σ' := σ' = σ.handle E itemId cmd

theorem client_mirrors_items {σ : Session item}
    (hreach : ReachableWhen (scrollerSystem E itemId)
      (fun σ cmd => Settled E σ.worker cmd) σ) :
    exists c, σ.client = some c ∧ Mirrors E c σ.worker.items := by
  refine invariant_when (fun σ => InStep E σ.client σ.worker) ?_ ?_ hreach
  · rintro σ ⟨hitems, hclient⟩
    refine ⟨[], hclient, ?_⟩
    rw [hitems]
    exact List.Forall₂.nil
  · rintro σ cmd σ' _ ⟨c, hc, hmirrors⟩ hsettled hstep
    cases hstep
    unfold Session.handle
    rw [hc, Option.bind_some]
    exact (handleCommand_inStep_iff E itemId σ.worker cmd hmirrors).mpr
      hsettled

end Mirror

section Runs

def natItems : ScrollerEq Nat :=
  ScrollerEq.ofEq Nat

def newSession : Session Nat :=
  { worker :=
      { scrollerId := 1
        pageSize := 50
        items := []
        task := false
        executeOnOnline := false
        supportsIncludeFilter := false }
    client := some [] }

/-- A source that has these items and no other. -/
def foundMore (items : List Nat) : FetchMoreAnswers Nat :=
  { context := true
    waitContext := true
    online := true
    awaitTask := Except.ok ()
    syncNext := Except.ok (items, false)
    fetchContext := true
    seenCount := Except.ok items.length
    syncedTotal := Except.ok items.length
    allTotal := Except.ok items.length
    hasMore := Except.ok false
    offline := false }

def showing (items : List Nat) (total : Except MailContextError Nat) :
    RefreshAnswers Nat :=
  { context := true
    visibleElements := Except.ok items
    total := total
    seen := Except.ok items.length }

def cleared (first items : List Nat) : ChangeAnswers Nat :=
  { context := true
    categoryView := Except.ok ()
    didNotChange := false
    changeState := Except.ok false
    emitCategoryView := Except.ok ()
    reset :=
      { fetchMore := foundMore first
        refresh := showing items (Except.ok items.length) } }

def fetchTwo : ScrollerCommand Nat :=
  ScrollerCommand.fetchMore (ScrollerSource.scrollEvent 7) (foundMore [1, 2])

def showThree : ScrollerCommand Nat :=
  ScrollerCommand.refresh ScrollerSource.invalidation
    (showing [1, 3, 2] (Except.ok 3))

def clearAll : ScrollerCommand Nat :=
  ScrollerCommand.clear (ScrollerSource.scrollEvent 8) (cleared [4] [4, 5])

/-- The list is read, then the count of the first page fails. -/
def failAfterShowing : ScrollerCommand Nat :=
  ScrollerCommand.refresh ScrollerSource.database
    (showing [3] (Except.error MailContextError.noConnection))

def settledRun : Session Nat :=
  (((newSession.handle natItems id fetchTwo).handle natItems id
    showThree).handle natItems id clearAll)

theorem settledRun_mirrors :
    settledRun.client = some [4, 5] ∧
      exists c, settledRun.client = some c ∧
        Mirrors natItems c settledRun.worker.items := by
  refine ⟨by decide, client_mirrors_items natItems id ?_⟩
  refine ReachableWhen.next (ReachableWhen.next (ReachableWhen.next
    (ReachableWhen.start (s := newSession) ⟨rfl, rfl⟩) ?_
    (l := fetchTwo) rfl) ?_ (l := showThree) rfl) ?_ (l := clearAll) rfl
  · trivial
  · exact Or.inr (by decide)
  · exact Or.inl rfl

def failedRun : Session Nat :=
  (newSession.handle natItems id fetchTwo).handle natItems id failAfterShowing

theorem failedRun_leaves_client_behind :
    Reachable (scrollerSystem natItems id) failedRun ∧
      failedRun.client = some [1, 2] ∧ failedRun.worker.items = [3] ∧
      ¬ exists c, failedRun.client = some c ∧
        Mirrors natItems c failedRun.worker.items := by
  refine ⟨?_, by decide, by decide, ?_⟩
  · exact Reachable.step (l := failAfterShowing)
      (Reachable.step (l := fetchTwo)
        (ReachableWhen.start (s := newSession) ⟨rfl, rfl⟩) rfl) rfl
  · rintro ⟨c, hc, hmirrors⟩
    have hclient : failedRun.client = some [1, 2] := by decide
    rw [hclient] at hc
    cases hc
    exact absurd hmirrors.length_eq (by decide)

end Runs

end Scroller
end MailClient
