import MailClient.Foundation.Transition
import MailClient.Scroller.Respawn

/-!
# Paging through a label

A `DataScrollerSource` asks the server for pages of a label.  A page that was
stored leaves an end cursor, a row keyed by the label, the read filter, the
direction and the categories, from which a later source continues.  Labels
differ in their order: most are shown from new to old, scheduled and snoozed
mail from old to new, and the inbox is ordered by snooze time.

The position of a cursor is left out.  What the database tells about the rows
up to a position, and the answers of the network, come with each call.
-/

namespace MailClient
namespace Scroller

open Foundation
open Labels (LabelTable fromOptRid)

/-!
# Orders
-/

inductive ScrollOrderDir where
  | asc
  | desc
  deriving DecidableEq, Repr

inductive ScrollOrderField where
  | time
  | snoozeTime
  deriving DecidableEq, Repr

namespace ScrollOrderDir

/-- Scheduled and snoozed mail. -/
def forLabel (id : LabelId) : ScrollOrderDir :=
  if id = "12" ∨ id = "16" then asc else desc

def forLocalLabel (labels : LabelTable) (id : LocalLabelId) :
    ScrollOrderDir :=
  match labels.localIdCounterpart id with
  | some remoteId => forLabel remoteId
  | none => desc

end ScrollOrderDir

namespace ScrollOrderField

/-- The snooze locations are the system labels `Inbox` and `Snoozed`. -/
def forLabel (id : LabelId) : ScrollOrderField :=
  match fromOptRid (some id) with
  | some 0 => snoozeTime
  | some 16 => snoozeTime
  | _ => time

def forLocalLabel (labels : LabelTable) (id : LocalLabelId) :
    ScrollOrderField :=
  match labels.localIdCounterpart id with
  | some remoteId => forLabel remoteId
  | none => time

end ScrollOrderField

/-!
# Cursors
-/

structure ScrollCursor where
  localLabelId : LocalLabelId
  unread : ReadFilter
  orderDir : ScrollOrderDir
  orderField : ScrollOrderField
  category : List LocalLabelId
  deriving DecidableEq, Repr

def canonicalCategory (category : List LocalLabelId) : List LocalLabelId :=
  category.insertionSort (fun a b => a ≤ b)

/-- A row of the scroll data, with the remote id of the last item. -/
structure EndCursor where
  localLabelId : LocalLabelId
  unread : ReadFilter
  orderDir : ScrollOrderDir
  orderField : ScrollOrderField
  category : List LocalLabelId
  itemId : String
  deriving DecidableEq, Repr

def EndCursor.toCursor (row : EndCursor) : ScrollCursor where
  localLabelId := row.localLabelId
  unread := row.unread
  orderDir := row.orderDir
  orderField := row.orderField
  category := row.category

/-- The columns that `find_with_key` looks at. -/
def EndCursor.hasKey (row : EndCursor) (localLabelId : LocalLabelId)
    (readFilter : ReadFilter) (orderDir : ScrollOrderDir)
    (category : List LocalLabelId) : Bool :=
  row.localLabelId = localLabelId ∧ row.unread = readFilter ∧
    row.orderDir = orderDir ∧ row.category = category

def findWithKey (rows : List EndCursor) (localLabelId : LocalLabelId)
    (readFilter : ReadFilter) (orderDir : ScrollOrderDir)
    (category : List LocalLabelId) : Option EndCursor :=
  rows.find? (fun row => row.hasKey localLabelId readFilter orderDir category)

def saveEndCursor (rows : List EndCursor) (row : EndCursor) :
    List EndCursor :=
  row :: rows.filter (fun other =>
    !other.hasKey row.localLabelId row.unread row.orderDir row.category)

structure CachedScrollData where
  pageSize : Nat
  last : ScrollCursor
  cursor : ScrollCursor
  deriving DecidableEq, Repr

namespace CachedScrollData

def new (labels : LabelTable) (rows : List EndCursor)
    (localLabelId : LocalLabelId) (readFilter : ReadFilter) (pageSize : Nat)
    (category : List LocalLabelId) : Option CachedScrollData :=
  let orderDir := ScrollOrderDir.forLocalLabel labels localLabelId
  let orderField := ScrollOrderField.forLocalLabel labels localLabelId
  (findWithKey rows localLabelId readFilter orderDir
    (canonicalCategory category)).map (fun row =>
    { pageSize := pageSize
      last := row.toCursor
      cursor := ⟨localLabelId, readFilter, orderDir, orderField, category⟩ })

def all (localLabelId : LocalLabelId) (readFilter : ReadFilter) (pageSize : Nat)
    (category : List LocalLabelId) (orderDir : ScrollOrderDir)
    (orderField : ScrollOrderField) : CachedScrollData where
  pageSize := pageSize
  last := ⟨localLabelId, readFilter, orderDir, orderField, category⟩
  cursor := ⟨localLabelId, readFilter, orderDir, orderField, category⟩

def loadEndCursor (d : CachedScrollData) (rows : List EndCursor) :
    Option EndCursor :=
  findWithKey rows d.last.localLabelId d.last.unread d.last.orderDir
    (canonicalCategory d.last.category)

/-- Whether a page was left, and whether it had items. -/
inductive Fetched where
  | nothing
  | noItems
  | items
  deriving DecidableEq, Repr

def fetchMore (d : CachedScrollData) : Fetched -> CachedScrollData
  | Fetched.nothing => d
  | Fetched.noItems => { d with cursor := d.last }
  | Fetched.items =>
      { d with
        cursor :=
          { d.cursor with
            orderDir := d.last.orderDir
            orderField := d.last.orderField
            category := d.last.category } }

end CachedScrollData

inductive MailScrollerState where
  | synced (d : CachedScrollData)
  | unsynced (d : CachedScrollData)
  deriving DecidableEq, Repr

namespace MailScrollerState

def scrollData : MailScrollerState -> CachedScrollData
  | synced d => d
  | unsynced d => d

def newUnsynced (localLabelId : LocalLabelId) (readFilter : ReadFilter)
    (pageSize : Nat) (category : List LocalLabelId)
    (orderDir : ScrollOrderDir) (orderField : ScrollOrderField) :
    MailScrollerState :=
  unsynced (CachedScrollData.all localLabelId readFilter pageSize category orderDir
    orderField)

def newSynced (labels : LabelTable) (rows : List EndCursor)
    (localLabelId : LocalLabelId) (readFilter : ReadFilter) (pageSize : Nat)
    (category : List LocalLabelId) : MailScrollerState :=
  match CachedScrollData.new labels rows localLabelId readFilter pageSize
      category with
  | some d => synced d
  | none =>
      newUnsynced localLabelId readFilter pageSize category
        (ScrollOrderDir.forLocalLabel labels localLabelId)
        (ScrollOrderField.forLocalLabel labels localLabelId)

def sync (labels : LabelTable) (rows : List EndCursor)
    (state : MailScrollerState) (localLabelId : LocalLabelId)
    (readFilter : ReadFilter) (pageSize : Nat) (category : List LocalLabelId)
    (hasNextPage : Bool) : MailScrollerState :=
  match state with
  | synced d =>
      if hasNextPage then
        synced d
      else
        match d.loadEndCursor rows with
        | some row => synced { d with last := row.toCursor }
        | none => unsynced d
  | unsynced d =>
      match newSynced labels rows localLabelId readFilter pageSize category with
      | synced d' => synced d'
      | unsynced _ => unsynced d

end MailScrollerState

/-!
# The source
-/

inductive PageKind where
  | first
  | next (anchor : String)
  | previous (anchor : String)
  deriving DecidableEq, Repr

structure PageRequest where
  kind : PageKind
  localLabelId : LocalLabelId
  remoteLabelIds : List LabelId
  category : List LocalLabelId
  unread : ReadFilter
  pageSize : Nat
  orderDir : ScrollOrderDir
  orderField : ScrollOrderField
  deriving DecidableEq, Repr

structure DataScrollerSource where
  localLabelId : LocalLabelId
  unread : ReadFilter
  pageSize : Nat
  categoryView : CategoryView
  orderDir : ScrollOrderDir
  orderField : ScrollOrderField
  state : MailScrollerState
  deriving DecidableEq, Repr

namespace DataScrollerSource

def new (localLabelId : LocalLabelId) (readFilter : ReadFilter) (pageSize : Nat)
    (orderDir : ScrollOrderDir) (orderField : ScrollOrderField) :
    DataScrollerSource where
  localLabelId := localLabelId
  unread := readFilter
  pageSize := pageSize
  categoryView := {}
  orderDir := orderDir
  orderField := orderField
  state := MailScrollerState.newUnsynced localLabelId readFilter pageSize []
    orderDir orderField

/-- A source as `MailScroller::messages` and `conversations` create it. -/
def forLabel (labels : LabelTable) (label : LocalLabelId) (pageSize : Nat) :
    DataScrollerSource :=
  new label ReadFilter.all pageSize
    (ScrollOrderDir.forLocalLabel labels label)
    (ScrollOrderField.forLocalLabel labels label)

def buildRemoteLabelIds (labels : LabelTable) (s : DataScrollerSource)
    (primary : LabelId) : List LabelId :=
  primary :: s.categoryView.filterIds.filterMap labels.localIdCounterpart

def pageRequest (s : DataScrollerSource) (kind : PageKind)
    (remoteLabelIds : List LabelId) : PageRequest where
  kind := kind
  localLabelId := s.localLabelId
  remoteLabelIds := remoteLabelIds
  category := s.categoryView.filterIds
  unread := s.unread
  pageSize := s.pageSize
  orderDir := s.orderDir
  orderField := s.orderField

def clearState (s : DataScrollerSource) : DataScrollerSource :=
  { s with
    state := MailScrollerState.newUnsynced s.localLabelId s.unread s.pageSize
      s.categoryView.filterIds s.orderDir s.orderField }

def syncScroller (labels : LabelTable) (rows : List EndCursor)
    (s : DataScrollerSource) (hasNextPage : Bool) : DataScrollerSource :=
  { s with
    state := s.state.sync labels rows s.localLabelId s.unread s.pageSize
      s.categoryView.filterIds hasNextPage }

end DataScrollerSource

/-!
# Calls and the tasks they spawn
-/

/-- What a call finds in the database and on the network besides the rows. -/
structure Answers where
  total : Nat := 0
  online : Bool := true
  syncHasNextPage : Bool := false
  hasNextPage : Bool := false
  ending : Option String := none
  beginning : Option String := none
  hasMore : Bool := false
  fetched : CachedScrollData.Fetched := CachedScrollData.Fetched.nothing
  deriving DecidableEq, Repr

/-- A spawned task ends: its position, and the last item of the page it stored. -/
structure Completion where
  index : Nat
  stored : Option String
  deriving DecidableEq, Repr

/--
A source with the scroll data table.  `issued` and `built` list the requests
and the states of the whole run, each state with the label selected then.
-/
structure Paging where
  source : DataScrollerSource
  rows : List EndCursor
  inFlight : List PageRequest
  issued : List PageRequest
  built : List (LocalLabelId × MailScrollerState)
  deriving DecidableEq, Repr

def PageRequest.endCursor (r : PageRequest) (itemId : String) : EndCursor where
  localLabelId := r.localLabelId
  unread := r.unread
  orderDir := r.orderDir
  orderField := r.orderField
  category := canonicalCategory r.category
  itemId := itemId

inductive Initialized where
  | failed
  | done
  | task
  deriving DecidableEq, Repr

namespace Paging

def withSource (w : Paging) (source : DataScrollerSource) : Paging :=
  { w with
    source := source
    built := w.built ++ [(source.localLabelId, source.state)] }

def request (w : Paging) (kind : PageKind) (remoteLabelIds : List LabelId) :
    Paging :=
  { w with
    inFlight := w.inFlight ++ [w.source.pageRequest kind remoteLabelIds]
    issued := w.issued ++ [w.source.pageRequest kind remoteLabelIds] }

/-- A previous page leaves the end cursor alone. -/
def complete (w : Paging) (c : Completion) : Paging :=
  match w.inFlight[c.index]? with
  | none => w
  | some r =>
      let w' := { w with inFlight := w.inFlight.eraseIdx c.index }
      match r.kind, c.stored with
      | PageKind.previous _, _ => w'
      | _, none => w'
      | _, some itemId =>
          { w' with rows := saveEndCursor w.rows (r.endCursor itemId) }

def settle (w : Paging) (completions : List Completion) : Paging :=
  completions.foldl complete w

def delete (w : Paging) (row : EndCursor) : Paging :=
  { w with rows := w.rows.filter (fun other => other ≠ row) }

def clearState (w : Paging) : Paging :=
  w.withSource w.source.clearState

def syncScroller (labels : LabelTable) (w : Paging) (hasNextPage : Bool) :
    Paging :=
  w.withSource (w.source.syncScroller labels w.rows hasNextPage)

/-- The branch of `initialize_impl` for a label paginated before. -/
def resume (w : Paging) (a : Answers) (remoteLabelIds : List LabelId)
    (ending beginning : String) : Paging :=
  let w := w.request (PageKind.previous beginning) remoteLabelIds
  if a.online ∧ ¬ a.hasNextPage ∧ w.source.pageSize < a.total then
    w.request (PageKind.next ending) remoteLabelIds
  else
    w

/-- The branch of `initialize_impl` for a label without an end cursor. -/
def firstPage (w : Paging) (a : Answers) (remoteLabelIds : List LabelId)
    (checkForTotal : Bool) : Paging × Initialized :=
  if checkForTotal ∧ a.total = 0 then
    (w, Initialized.done)
  else
    (w.request PageKind.first remoteLabelIds,
      if a.hasMore then Initialized.done else Initialized.task)

/-- `meanwhile` are the tasks that end between the two looks at the rows. -/
def initializeImpl (labels : LabelTable) (w : Paging) (a : Answers)
    (meanwhile : List Completion) (checkForTotal : Bool) :
    Paging × Initialized :=
  match labels.localIdCounterpart w.source.localLabelId with
  | none => (w, Initialized.failed)
  | some primary =>
      let remoteLabelIds := w.source.buildRemoteLabelIds labels primary
      let w := (w.syncScroller labels a.syncHasNextPage).settle meanwhile
      match w.source.state with
      | MailScrollerState.unsynced _ =>
          w.firstPage a remoteLabelIds checkForTotal
      | MailScrollerState.synced d =>
          match d.loadEndCursor w.rows with
          | none => (w, Initialized.failed)
          | some endCursor =>
              match a.ending, a.beginning with
              | some ending, some beginning =>
                  if ending = endCursor.itemId then
                    (w.resume a remoteLabelIds ending beginning,
                      Initialized.done)
                  else
                    ((w.delete endCursor).clearState).firstPage a
                      remoteLabelIds checkForTotal
              | _, _ =>
                  ((w.delete endCursor).clearState).firstPage a
                    remoteLabelIds checkForTotal

def initializeSource (labels : LabelTable) (w : Paging) (view : CategoryView)
    (a : Answers) (meanwhile : List Completion) : Paging :=
  let w := { w with source := { w.source with categoryView := view } }
  (initializeImpl labels w.clearState a meanwhile false).1

def changeState (labels : LabelTable) (w : Paging)
    (readFilter : Option ReadFilter) (label : Option LocalLabelId)
    (view : Option CategoryView) (a : Answers)
    (meanwhile : List Completion) : Paging :=
  let localLabelId := label.getD w.source.localLabelId
  let readFilter := readFilter.getD w.source.unread
  let view := view.getD w.source.categoryView
  let w := w.withSource
    { w.source with
      unread := readFilter
      localLabelId := localLabelId
      categoryView := view
      state := MailScrollerState.newSynced labels w.rows localLabelId
        readFilter w.source.pageSize view.filterIds }
  (initializeImpl labels w a meanwhile false).1

def clear (labels : LabelTable) (w : Paging) (a : Answers)
    (meanwhile : List Completion) : Paging :=
  match w.source.state with
  | MailScrollerState.unsynced _ =>
      (initializeImpl labels w.clearState a meanwhile false).1
  | MailScrollerState.synced d =>
      match d.loadEndCursor w.rows with
      | none => w
      | some cursor =>
          (initializeImpl labels (w.delete cursor).clearState a meanwhile
            false).1

/-- The second half of `sync_next`, once the state is as fresh as it gets. -/
def fetchNext (labels : LabelTable) (w : Paging) (a : Answers)
    (primary : LabelId) : Paging :=
  match w.source.state with
  | MailScrollerState.unsynced d =>
      w.withSource { w.source with
        state := MailScrollerState.unsynced (d.fetchMore a.fetched) }
  | MailScrollerState.synced d =>
      let d := d.fetchMore a.fetched
      let w := w.withSource { w.source with
        state := MailScrollerState.synced d }
      if ¬ a.hasNextPage ∨ (0 < a.total ∧ a.total < w.source.pageSize) then
        match d.loadEndCursor w.rows with
        | none => w
        | some cursor =>
            w.request (PageKind.next cursor.itemId)
              (w.source.buildRemoteLabelIds labels primary)
      else
        w

/--
An unsynced source is initialized first, and when that gives a task, the call
waits for it: `awaited` are the tasks that end in that time.  The answers `i`
are those of the initialization.
-/
def syncNext (labels : LabelTable) (w : Paging) (a i : Answers)
    (meanwhile awaited : List Completion) (hasNextPage : Bool) : Paging :=
  match labels.localIdCounterpart w.source.localLabelId with
  | none => w
  | some primary =>
      let w := w.syncScroller labels a.syncHasNextPage
      match w.source.state with
      | MailScrollerState.synced _ => fetchNext labels w a primary
      | MailScrollerState.unsynced _ =>
          if a.online then
            match initializeImpl labels w i meanwhile true with
            | (w, Initialized.failed) => w
            | (w, Initialized.done) => fetchNext labels w a primary
            | (w, Initialized.task) =>
                let w := (w.settle awaited).syncScroller labels hasNextPage
                fetchNext labels w a primary
          else
            fetchNext labels w a primary

def syncNew (labels : LabelTable) (w : Paging) (a : Answers) : Paging :=
  match labels.localIdCounterpart w.source.localLabelId with
  | none => w
  | some primary =>
      let remoteLabelIds := w.source.buildRemoteLabelIds labels primary
      let w := w.syncScroller labels a.syncHasNextPage
      match w.source.state, a.beginning with
      | MailScrollerState.synced _, some beginning =>
          w.request (PageKind.previous beginning) remoteLabelIds
      | _, _ => w.request PageKind.first remoteLabelIds

end Paging

end Scroller
end MailClient
