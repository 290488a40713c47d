import Mathlib.Data.List.DropRight
import Mathlib.Data.List.Nodup
import Mathlib.Logic.Function.Iterate
import MailClient.Messages.Ids

/-!
# Hybrid search

A search first lists the hits of the index on the device, then appends what the
server finds.  The rows of `mail_search_scroll_data` are shown by their display
order, and the next page is asked for from the message of the last row on.

A message is known by its local id.  A result of the server stands for the
message under which it is stored.
-/

namespace MailClient
namespace Scroller

/-!
# What is searched
-/

/--
The hits that were found on the device, in their order, and the results of the
server for the same keywords, the newest first.  `kept` are the messages that
`save_scroller_messages` does not skip, `deleted` those marked as deleted.
-/
structure HybridSearch where
  hits : List LocalMessageId
  server : List LocalMessageId
  pageSize : Nat
  remoteId : LocalMessageId -> Option MessageId
  time : LocalMessageId -> Nat
  kept : LocalMessageId -> Bool
  deleted : LocalMessageId -> Bool
  server_sorted : server.Pairwise (fun m m' => time m' ≤ time m)
  server_nodup : server.Nodup
  server_remoteId : forall m, m ∈ server -> (remoteId m).isSome
  remoteId_unique : forall m m', (remoteId m).isSome ->
    remoteId m = remoteId m' -> m = m'

/-!
# The rows
-/

structure SearchScrollData where
  localMessageId : LocalMessageId
  displayOrder : Nat
  deriving DecidableEq, Repr

/-- The table, its rows listed by their display order. -/
structure SearchTable where
  rows : List SearchScrollData
  ordered : rows.Pairwise (fun r r' => r.displayOrder < r'.displayOrder)
  ids_nodup : (rows.map SearchScrollData.localMessageId).Nodup

namespace SearchTable

def empty : SearchTable := ⟨[], List.Pairwise.nil, List.nodup_nil⟩

def ids (t : SearchTable) : List LocalMessageId :=
  t.rows.map SearchScrollData.localMessageId

def last (t : SearchTable) : Option SearchScrollData := t.rows.getLast?

def nextOrder (t : SearchTable) : Nat :=
  (t.last.map (fun r => r.displayOrder + 1)).getD 0

theorem lt_nextOrder {t : SearchTable} {r : SearchScrollData}
    (hr : r ∈ t.rows) : r.displayOrder < t.nextOrder := by
  rcases List.eq_nil_or_concat t.rows with hnil | ⟨before, r', heq⟩
  · rw [hnil] at hr
    cases hr
  · rw [List.concat_eq_append] at heq
    have hnext : t.nextOrder = r'.displayOrder + 1 := by
      simp [nextOrder, last, heq]
    have hordered := t.ordered
    rw [heq, List.pairwise_append] at hordered
    rw [heq] at hr
    rw [hnext]
    rcases List.mem_append.mp hr with hr | hr
    · exact Nat.lt_succ_of_lt
        (hordered.right.right r hr r' (List.mem_singleton.mpr rfl))
    · cases List.mem_singleton.mp hr
      exact Nat.lt_succ_self _

/-- Saves a row after all others; an older row of the message is replaced. -/
def push (t : SearchTable) (m : LocalMessageId) : SearchTable where
  rows := t.rows.filter (fun r => r.localMessageId ≠ m) ++ [⟨m, t.nextOrder⟩]
  ordered := by
    rw [List.pairwise_append]
    refine ⟨t.ordered.filter _, List.pairwise_singleton _ _, ?_⟩
    intro r hr r' hr'
    cases List.mem_singleton.mp hr'
    exact lt_nextOrder (List.mem_of_mem_filter hr)
  ids_nodup := by
    rw [List.map_append, List.nodup_append]
    refine ⟨t.ids_nodup.sublist (List.filter_sublist.map _),
      List.nodup_singleton m, ?_⟩
    rintro a ha b hb rfl
    rcases List.mem_map.mp ha with ⟨r, hr, rfl⟩
    simp at hb
    simp [hb] at hr

end SearchTable

namespace HybridSearch

variable (search : HybridSearch)

/-!
# Reading the rows
-/

/-- The query up to a display order, without messages marked as deleted. -/
def upTo (t : SearchTable) (order : Nat) : List LocalMessageId :=
  (t.rows.filter (fun r => r.displayOrder ≤ order ∧
    ¬ search.deleted r.localMessageId)).map SearchScrollData.localMessageId

def visibleElements (t : SearchTable) (cursor : SearchScrollData) :
    List LocalMessageId :=
  search.upTo t cursor.displayOrder

def visibleElementCount (t : SearchTable) (cursor : SearchScrollData) : Nat :=
  (search.visibleElements t cursor).length

/-- The items and the new cursor. -/
def fetchMore (t : SearchTable) (cursor : SearchScrollData) :
    List LocalMessageId × SearchScrollData :=
  match t.last with
  | none => ([], cursor)
  | some last =>
      if cursor.displayOrder < last.displayOrder then
        (((search.upTo t last.displayOrder).drop
          (cursor.displayOrder + 1)).take search.pageSize, last)
      else
        ([], cursor)

/-!
# Pages of the server
-/

/-- From a message on, which need not be a result itself. -/
def servedFrom (anchor : LocalMessageId) : List LocalMessageId :=
  if anchor ∈ search.server then
    search.server.dropWhile (fun m => m ≠ anchor)
  else
    search.server.dropWhile (fun m => search.time anchor < search.time m)

/-- The answer without the anchor, or without the element too many. -/
def trimPage (anchorId : MessageId) :
    List LocalMessageId -> List LocalMessageId
  | [] => []
  | m :: rest =>
      if search.remoteId m = some anchorId then
        rest
      else if search.pageSize < (m :: rest).length then
        (m :: rest).dropLast
      else
        m :: rest

def addMissing (t : SearchTable) (m : LocalMessageId) : SearchTable :=
  if m ∈ t.ids then t else t.push m

/-- Panics, and changes nothing, when every message of the page is skipped. -/
def saveMessages (t : SearchTable) (apiMessages : List LocalMessageId) :
    Option SearchTable :=
  let messages := apiMessages.filter search.kept
  if messages = [] then none else some (messages.foldl addMissing t)

end HybridSearch

/-!
# The source
-/

inductive HybridSourceState where
  | uninitialized
  | localOnly (last : Option SearchScrollData)
  | hybrid (last : Option SearchScrollData)
  | remoteOnly (last : Option SearchScrollData)
  deriving DecidableEq, Repr

inductive SearchTask where
  | firstPage (useDedupedCountForTotal : Bool)
  | nextPage
  deriving DecidableEq, Repr

/--
The source, the table and the task that is running.  `answer` is what the last
`sync_next` returned: the items, and whether there is a task.
-/
structure HybridSource where
  state : HybridSourceState
  firstSyncDone : Bool
  total : Nat
  table : SearchTable
  task : Option SearchTask
  answer : Option (List LocalMessageId × Bool)

namespace HybridSource

variable (search : HybridSearch)

def hasCursor (s : HybridSource) : Bool :=
  match s.state with
  | HybridSourceState.localOnly (some _) => true
  | HybridSourceState.hybrid (some _) => true
  | HybridSourceState.remoteOnly (some _) => true
  | _ => false

def resolveLast (s : HybridSource) : Option SearchScrollData :=
  match s.state with
  | HybridSourceState.uninitialized => none
  | HybridSourceState.localOnly _ => s.table.last
  | HybridSourceState.hybrid _ => s.table.last
  | HybridSourceState.remoteOnly last => last

def seenCount (s : HybridSource) : Nat :=
  if s.hasCursor then
    match s.resolveLast with
    | some last => search.visibleElementCount s.table last
    | none => 0
  else
    0

def hasMore (s : HybridSource) (cursor : SearchScrollData) : Bool :=
  s.table.last.any (fun last => cursor.displayOrder < last.displayOrder)

def allTotal (s : HybridSource) : Nat :=
  match s.resolveLast with
  | none => s.total
  | some last =>
      if s.hasMore last then
        max s.total
          (search.visibleElementCount s.table last + search.pageSize)
      else
        max s.total (search.visibleElementCount s.table last)

def initializeImpl (online : Bool) : HybridSource :=
  let table := search.hits.foldl SearchTable.push SearchTable.empty
  match table.last with
  | some last =>
      { state :=
          if online then HybridSourceState.hybrid (some last)
          else HybridSourceState.localOnly (some last)
        firstSyncDone := false
        total := search.visibleElementCount table last
        table := table
        task := if online then some (SearchTask.firstPage true) else none
        answer := none }
  | none =>
      { state := HybridSourceState.remoteOnly none
        firstSyncDone := false
        total := 0
        table := table
        task := some (SearchTask.firstPage false)
        answer := none }

def syncFirstPage (s : HybridSource) (useDedupedCountForTotal : Bool) :
    HybridSource :=
  let s := { s with
    total := if useDedupedCountForTotal then s.total else search.server.length }
  let response := search.server.take search.pageSize
  if response = [] then
    s
  else
    match search.saveMessages s.table response with
    | none => s
    | some table =>
        match useDedupedCountForTotal, table.last with
        | true, some last =>
            { s with
              table := table
              total := search.visibleElementCount table last }
        | _, _ => { s with table := table }

/-- Nothing is asked for if the last row has no remote id yet. -/
def syncNextPage (s : HybridSource) : HybridSource :=
  match s.table.last with
  | none => s
  | some last =>
      match search.remoteId last.localMessageId with
      | none => s
      | some anchorId =>
          let response := search.trimPage anchorId
            ((search.servedFrom last.localMessageId).take
              (search.pageSize + 1))
          if response = [] then
            s
          else
            match search.saveMessages s.table response with
            | none => s
            | some table => { s with table := table }

def finishTask (s : HybridSource) : HybridSource :=
  match s.task with
  | none => s
  | some (SearchTask.firstPage deduped) =>
      { s.syncFirstPage search deduped with task := none }
  | some SearchTask.nextPage => { s.syncNextPage search with task := none }

/-- The state with a cursor that is as new as its mode asks for. -/
def refreshLast (s : HybridSource) : HybridSourceState :=
  match s.state with
  | HybridSourceState.uninitialized =>
      HybridSourceState.remoteOnly s.table.last
  | HybridSourceState.localOnly _ => HybridSourceState.localOnly s.table.last
  | HybridSourceState.hybrid _ => HybridSourceState.hybrid s.table.last
  | HybridSourceState.remoteOnly none =>
      HybridSourceState.remoteOnly s.table.last
  | HybridSourceState.remoteOnly (some last) =>
      HybridSourceState.remoteOnly (some last)

/-- The items of a call, the cursor after it, and whether it was the first. -/
def items (s : HybridSource) :
    Option SearchScrollData ->
      List LocalMessageId × Option SearchScrollData × Bool
  | none => ([], none, s.firstSyncDone)
  | some cursor =>
      if s.firstSyncDone then
        let (items, cursor) := search.fetchMore s.table cursor
        (items, some cursor, true)
      else
        (search.visibleElements s.table cursor, some cursor, true)

def answered (s : HybridSource) (state : HybridSourceState)
    (firstSyncDone : Bool) (items : List LocalMessageId) (remote : Bool) :
    HybridSource :=
  { s with
    state := state
    firstSyncDone := firstSyncDone
    task :=
      if items ≠ [] ∧ remote then some SearchTask.nextPage else none
    answer := some (items, items ≠ [] ∧ remote) }

def syncNext (s : HybridSource) : HybridSource :=
  match s.refreshLast with
  | HybridSourceState.uninitialized =>
      s.answered HybridSourceState.uninitialized s.firstSyncDone [] false
  | HybridSourceState.localOnly last =>
      let (items, last, firstSyncDone) := s.items search last
      s.answered (HybridSourceState.localOnly last) firstSyncDone items false
  | HybridSourceState.hybrid last =>
      let (items, last, firstSyncDone) := s.items search last
      s.answered (HybridSourceState.hybrid last) firstSyncDone items true
  | HybridSourceState.remoteOnly last =>
      let (items, last, firstSyncDone) := s.items search last
      s.answered (HybridSourceState.remoteOnly last) firstSyncDone items true

def returnedNothing (s : HybridSource) : Bool :=
  s.answer = some ([], false)

/-- The client calls again, once the task has finished, unless it is done. -/
def round (s : HybridSource) : HybridSource :=
  if s.returnedNothing then s else (s.finishTask search).syncNext search

end HybridSource

namespace HybridSearch

/-- The source after a number of calls, online all the time. -/
def calls (search : HybridSearch) (n : Nat) : HybridSource :=
  (HybridSource.round search)^[n] (HybridSource.initializeImpl search true)

end HybridSearch

end Scroller
end MailClient
