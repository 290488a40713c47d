import MailClient.Scroller.Update

/-!
# The scroller worker

The commands of one `ScrollerWorker`.  The source of the items, the network and
the user context are code outside the worker that may answer anything and fail
at any call, so their answers come with the command.  A command that the worker
schedules for itself is a later command of the run.
-/

namespace MailClient
namespace Scroller

structure Worker (item : Type) where
  scrollerId : Uuid
  pageSize : Nat
  items : List item
  /-- A request of the source is in flight. -/
  task : Bool
  /-- A task waits for the network to schedule another fetch. -/
  executeOnOnline : Bool
  /-- `alternative_labels.supports_include_filter()`. -/
  supportsIncludeFilter : Bool
  deriving DecidableEq, Repr

/-!
# Answers of the environment
-/

structure FetchMoreAnswers (item : Type) where
  context : Bool
  waitContext : Bool
  online : Bool
  awaitTask : Except MailContextError Unit
  /-- The next items and whether a task was started. -/
  syncNext : Except MailContextError (List item × Bool)
  fetchContext : Bool
  seenCount : Except MailContextError Nat
  syncedTotal : Except MailContextError Nat
  allTotal : Except MailContextError Nat
  hasMore : Except MailContextError Bool
  offline : Bool

structure RefreshAnswers (item : Type) where
  context : Bool
  visibleElements : Except MailContextError (List item)
  total : Except MailContextError Nat
  seen : Except MailContextError Nat

structure ResetAnswers (item : Type) where
  fetchMore : FetchMoreAnswers item
  refresh : RefreshAnswers item

structure ChangeAnswers (item : Type) where
  context : Bool
  /-- Loading the category view of a label, or enabling a category. -/
  categoryView : Except MailContextError Unit
  didNotChange : Bool
  /-- `change_state` or `clear` of the source; says if a task was started. -/
  changeState : Except MailContextError Bool
  emitCategoryView : Except MailContextError Unit
  reset : ResetAnswers item

/-!
# Fetching and refreshing
-/

section Functions

variable {item id : Type} [DecidableEq id] (E : ScrollerEq item)
  (itemId : item -> id)

/-- The result of a fallible method together with the worker after it. -/
structure Reply (item result : Type) where
  result : Except MailContextError result
  worker : Worker item

def filterNewItemsForAppend (existing items : List item) : List item :=
  items.filter (fun i => itemId i ∉ existing.map itemId)

def listUpdate (w : Worker item) (src : ScrollerSource)
    (update : ScrollerListUpdate item) : ScrollerUpdate item :=
  ScrollerUpdate.list src w.scrollerId update

def waitForRequest (w : Worker item) (a : FetchMoreAnswers item) :
    Reply item Unit :=
  if !a.waitContext then
    { result := Except.error MailContextError.missingContext, worker := w }
  else if w.task && a.online then
    { result := a.awaitTask, worker := { w with task := false } }
  else
    { result := Except.ok (), worker := w }

def syncNext (w : Worker item) (a : FetchMoreAnswers item) :
    Reply item (List item) :=
  if !a.context then
    { result := Except.error MailContextError.missingContext, worker := w }
  else
    let waited := waitForRequest w a
    match a.syncNext with
    | Except.error e => { result := Except.error e, worker := waited.worker }
    | Except.ok (items, task) =>
        let w' := { waited.worker with task := task }
        match waited.result with
        | Except.error e =>
            if items.isEmpty && !task then
              { result := Except.error e, worker := w' }
            else
              { result := Except.ok items, worker := w' }
        | Except.ok _ => { result := Except.ok items, worker := w' }

/-- `(seen, total)`; the other two numbers are only logged. -/
def fetchStats (a : FetchMoreAnswers item) :
    Except MailContextError (Nat × Nat) := do
  if !a.fetchContext then
    Except.error MailContextError.missingContext
  let seen <- a.seenCount
  let _ <- a.syncedTotal
  let total <- a.allTotal
  let _ <- a.hasMore
  Except.ok (seen, total)

def appendItems (w : Worker item) (src : ScrollerSource)
    (items : List item) : Reply item (ScrollerUpdate item) :=
  let newItems := filterNewItemsForAppend itemId w.items items
  if newItems.isEmpty then
    { result := Except.ok (listUpdate w src ScrollerListUpdate.none)
      worker := { w with executeOnOnline := false } }
  else
    { result := Except.ok
        (listUpdate w src (ScrollerListUpdate.append newItems))
      worker :=
        { w with
          executeOnOnline := false
          items := w.items ++ newItems } }

def fetchMore (w : Worker item) (src : ScrollerSource)
    (a : FetchMoreAnswers item) : Reply item (ScrollerUpdate item) :=
  let synced := syncNext w a
  let w₁ := synced.worker
  match synced.result with
  | Except.error e => { result := Except.error e, worker := w₁ }
  | Except.ok items =>
      match fetchStats a with
      | Except.error e => { result := Except.error e, worker := w₁ }
      | Except.ok (seen, total) =>
          if !items.isEmpty then
            appendItems itemId w₁ src items
          else if seen < total then
            let w₂ := { w₁ with executeOnOnline := true }
            if !w₁.task && a.offline then
              { result := Except.error MailContextError.noConnection
                worker := w₂ }
            else
              { result := Except.ok
                  (listUpdate w₂ src ScrollerListUpdate.none)
                worker := w₂ }
          else
            { result := Except.ok (listUpdate w₁ src ScrollerListUpdate.none)
              worker := w₁ }

/-- It may schedule another `FetchMore`; only its failure matters here. -/
def tryFetchFirstPage (a : RefreshAnswers item) :
    Except MailContextError Unit := do
  let _ <- a.total
  let _ <- a.seen
  Except.ok ()

def refreshUpdate (w : Worker item) (force : Bool) (visible : List item) :
    ScrollerListUpdate item :=
  if force then
    ScrollerListUpdate.replaceFrom 0 visible
  else
    calculateScrollerUpdate E w.items visible

def refresh (w : Worker item) (force : Bool) (src : ScrollerSource)
    (a : RefreshAnswers item) : Reply item (ScrollerUpdate item) :=
  if !a.context then
    { result := Except.error MailContextError.missingContext, worker := w }
  else
    match a.visibleElements with
    | Except.error e => { result := Except.error e, worker := w }
    | Except.ok visible =>
        let update := listUpdate w src (refreshUpdate E w force visible)
        -- The list is replaced before the first page is looked at.
        let w' := { w with items := visible }
        match tryFetchFirstPage a with
        | Except.error e => { result := Except.error e, worker := w' }
        | Except.ok _ => { result := Except.ok update, worker := w' }

def fetchNew (w : Worker item) (src : ScrollerSource)
    (syncNew : Except MailContextError Unit) (a : RefreshAnswers item) :
    Reply item (ScrollerUpdate item) :=
  match syncNew with
  | Except.error e => { result := Except.error e, worker := w }
  | Except.ok _ => refresh E w false src a

def getItems (w : Worker item) (src : ScrollerSource) : ScrollerUpdate item :=
  listUpdate w src (ScrollerListUpdate.replaceFrom 0 w.items)

def reset (w : Worker item) (src : ScrollerSource) (a : ResetAnswers item) :
    Reply item (ScrollerUpdate item) :=
  let fetched := fetchMore itemId { w with items := [] } src a.fetchMore
  match fetched.result with
  | Except.error e => { result := Except.error e, worker := fetched.worker }
  | Except.ok _ => refresh E fetched.worker true src a.refresh

/-!
# Changing the view
-/

/-- `change_state`: the old task is dropped before the source is asked. -/
def changeState (w : Worker item) (answer : Except MailContextError Bool) :
    Reply item Unit :=
  match answer with
  | Except.error e =>
      { result := Except.error e, worker := { w with task := false } }
  | Except.ok task =>
      { result := Except.ok (), worker := { w with task := task } }

def requireContext (context : Bool) : Except MailContextError Unit :=
  if context then
    Except.ok ()
  else
    Except.error MailContextError.missingContext

/--
The common part of the commands that change the view: everything that can fail
before the source changes, the change itself, an optional message, and `reset`.
-/
def changeThenReset (w : Worker item) (src : ScrollerSource)
    (prepare : Except MailContextError Unit)
    (answer : Except MailContextError Bool)
    (emit : Except MailContextError Unit) (a : ResetAnswers item) :
    Reply item (ScrollerUpdate item) :=
  match prepare with
  | Except.error e => { result := Except.error e, worker := w }
  | Except.ok _ =>
      let changed := changeState w answer
      match changed.result with
      | Except.error e =>
          { result := Except.error e, worker := changed.worker }
      | Except.ok _ =>
          match emit with
          | Except.error e =>
              { result := Except.error e, worker := changed.worker }
          | Except.ok _ => reset E itemId changed.worker src a

def changeUnreadFilter (w : Worker item) (src : ScrollerSource)
    (a : ChangeAnswers item) : Reply item (ScrollerUpdate item) :=
  changeThenReset E itemId w src (requireContext a.context) a.changeState
    (Except.ok ()) a.reset

def changeCategoryView (w : Worker item) (src : ScrollerSource)
    (a : ChangeAnswers item) : Reply item (ScrollerUpdate item) :=
  changeThenReset E itemId w src
    (do requireContext a.context; a.categoryView) a.changeState
    a.emitCategoryView a.reset

def handleCategoryChanged (w : Worker item) (src : ScrollerSource)
    (a : ChangeAnswers item) : Reply item (ScrollerUpdate item) :=
  match (do requireContext a.context; a.categoryView) with
  | Except.error e => { result := Except.error e, worker := w }
  | Except.ok _ =>
      if a.didNotChange then
        { result := Except.ok (listUpdate w src ScrollerListUpdate.none)
          worker := w }
      else
        changeThenReset E itemId w src (Except.ok ()) a.changeState
          a.emitCategoryView a.reset

def changeLabel (w : Worker item) (src : ScrollerSource)
    (a : ChangeAnswers item) : Reply item (ScrollerUpdate item) :=
  changeThenReset E itemId w src
    (do requireContext a.context; a.categoryView) a.changeState
    (Except.ok ()) a.reset

def changeInclude (w : Worker item) (src : ScrollerSource)
    (a : ChangeAnswers item) : Reply item (ScrollerUpdate item) :=
  if w.supportsIncludeFilter then
    changeLabel E itemId { w with task := false } src a
  else
    { result := Except.ok (listUpdate w src ScrollerListUpdate.none)
      worker := w }

def changeKeywords (w : Worker item) (src : ScrollerSource)
    (a : ChangeAnswers item) : Reply item (ScrollerUpdate item) :=
  match requireContext a.context with
  | Except.error e => { result := Except.error e, worker := w }
  | Except.ok _ =>
      changeThenReset E itemId { w with task := false } src (Except.ok ())
        a.changeState (Except.ok ()) a.reset

def clear (w : Worker item) (src : ScrollerSource) (a : ChangeAnswers item) :
    Reply item (ScrollerUpdate item) :=
  changeThenReset E itemId w src (requireContext a.context) a.changeState
    (Except.ok ()) a.reset

/-!
# Commands
-/

inductive ScrollerCommand (item : Type) where
  | fetchMore (src : ScrollerSource) (a : FetchMoreAnswers item)
  | refresh (src : ScrollerSource) (a : RefreshAnswers item)
  | forceRefresh (src : ScrollerSource) (a : RefreshAnswers item)
  | getItems (src : ScrollerSource)
  | fetchNew (src : ScrollerSource) (notify : Bool)
      (syncNew : Except MailContextError Unit) (a : RefreshAnswers item)
  | changeUnreadFilter (src : ScrollerSource) (a : ChangeAnswers item)
  | changeCategoryView (src : ScrollerSource) (a : ChangeAnswers item)
  | categoryViewChanged (src : ScrollerSource) (a : ChangeAnswers item)
  | changeLabel (src : ScrollerSource) (a : ChangeAnswers item)
      (supportsIncludeFilter : Except MailContextError Bool)
  | changeInclude (src : ScrollerSource) (a : ChangeAnswers item)
  | changeKeywords (src : ScrollerSource) (a : ChangeAnswers item)
  | clear (src : ScrollerSource) (a : ChangeAnswers item)

/-- `unwrap_or_else(|e| ScrollerUpdate::Error { src, error: e })`. -/
def Reply.update (r : Reply item (ScrollerUpdate item))
    (src : ScrollerSource) : ScrollerUpdate item :=
  match r.result with
  | Except.ok u => u
  | Except.error e => ScrollerUpdate.error src e

/-- Most commands stay silent about an empty update nobody asked for. -/
def announce (u : ScrollerUpdate item) : List (ScrollerUpdate item) :=
  if u.isSome || u.isScrollEvent then [u] else []

def Reply.announced (r : Reply item (ScrollerUpdate item))
    (src : ScrollerSource) : Worker item × List (ScrollerUpdate item) :=
  (r.worker, announce (r.update src))

/-- The message of `emit_category_view_changed`, if the command gets there. -/
def emitted (src : ScrollerSource) (a : ChangeAnswers item) :
    List (ScrollerUpdate item) :=
  match (do requireContext a.context; a.categoryView), a.changeState,
      a.emitCategoryView with
  | Except.ok _, Except.ok _, Except.ok _ =>
      [ScrollerUpdate.categoryViewChanged src]
  | _, _, _ => []

/--
The worker after a command and the updates it sent.  The final status of
`FetchNew` is sent by a task of its own, some time later.
-/
def handleCommand (w : Worker item) :
    ScrollerCommand item -> Worker item × List (ScrollerUpdate item)
  | ScrollerCommand.fetchMore src a =>
      (Scroller.fetchMore itemId w src a).announced src
  | ScrollerCommand.refresh src a =>
      (Scroller.refresh E w false src a).announced src
  | ScrollerCommand.forceRefresh src a =>
      (Scroller.refresh E w true src a).announced src
  | ScrollerCommand.getItems src => (w, [Scroller.getItems w src])
  | ScrollerCommand.fetchNew src notify syncNew a =>
      let reply := Scroller.fetchNew E w src syncNew a
      let status := fun u =>
        if notify then [ScrollerUpdate.status src u] else []
      (reply.worker,
        status ScrollerStatusUpdate.fetchNewStart ++ [reply.update src] ++
          status ScrollerStatusUpdate.fetchNewEnd)
  | ScrollerCommand.changeUnreadFilter src a =>
      (Scroller.changeUnreadFilter E itemId w src a).announced src
  | ScrollerCommand.changeCategoryView src a =>
      let (w', sent) :=
        (Scroller.changeCategoryView E itemId w src a).announced src
      (w', emitted src a ++ sent)
  | ScrollerCommand.categoryViewChanged src a =>
      let (w', sent) :=
        (Scroller.handleCategoryChanged E itemId w src a).announced src
      (w', (if a.didNotChange then [] else emitted src a) ++ sent)
  | ScrollerCommand.changeLabel src a supports =>
      let (w', sent) := (Scroller.changeLabel E itemId w src a).announced src
      let failed := ((Scroller.changeLabel E itemId w src a).update
        src).isError
      match failed, supports with
      | false, Except.ok s => ({ w' with supportsIncludeFilter := s }, sent)
      | _, _ => (w', sent)
  | ScrollerCommand.changeInclude src a =>
      (Scroller.changeInclude E itemId w src a).announced src
  | ScrollerCommand.changeKeywords src a =>
      (Scroller.changeKeywords E itemId w src a).announced src
  | ScrollerCommand.clear src a =>
      let reply := Scroller.clear E itemId w src a
      (reply.worker, [reply.update src])

end Functions

end Scroller
end MailClient
