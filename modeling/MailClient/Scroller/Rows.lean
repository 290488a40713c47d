import MailClient.Foundation.Keyset
import MailClient.Scroller.DataSource
import Mathlib.Data.Prod.Lex

/-!
# The rows of a label

The query of a cursor selects the rows of a label from the beginning up to the
cursor, in scroll order.  Messages and conversations are scrolled alike, each
with its own columns.
-/

namespace MailClient
namespace Scroller
namespace Rows

open Labels (LabelTable)

def i64Max : Nat := 2 ^ 63 - 1

/-!
# Cursors
-/

structure ScrollCursor extends Scroller.ScrollCursor where
  time : Nat
  snoozeTime : Nat
  displayOrder : Nat
  localId : Nat
  deriving DecidableEq, Repr

namespace ScrollCursor

def highest (localLabelId : LocalLabelId) (readFilter : ReadFilter)
    (orderDir : ScrollOrderDir) (orderField : ScrollOrderField) :
    ScrollCursor where
  localLabelId := localLabelId
  unread := readFilter
  orderDir := orderDir
  orderField := orderField
  category := []
  time := i64Max
  snoozeTime := i64Max
  displayOrder := i64Max
  localId := i64Max

def lowest (localLabelId : LocalLabelId) (readFilter : ReadFilter)
    (orderDir : ScrollOrderDir) (orderField : ScrollOrderField) :
    ScrollCursor where
  localLabelId := localLabelId
  unread := readFilter
  orderDir := orderDir
  orderField := orderField
  category := []
  time := 0
  snoozeTime := 0
  displayOrder := 0
  localId := 0

def beginning (localLabelId : LocalLabelId) (readFilter : ReadFilter)
    (orderDir : ScrollOrderDir) (orderField : ScrollOrderField) :
    ScrollCursor :=
  match orderDir with
  | ScrollOrderDir.desc => highest localLabelId readFilter orderDir orderField
  | ScrollOrderDir.asc => lowest localLabelId readFilter orderDir orderField

def ending (localLabelId : LocalLabelId) (readFilter : ReadFilter)
    (orderDir : ScrollOrderDir) (orderField : ScrollOrderField) :
    ScrollCursor :=
  match orderDir with
  | ScrollOrderDir.asc => highest localLabelId readFilter orderDir orderField
  | ScrollOrderDir.desc => lowest localLabelId readFilter orderDir orderField

def withCategory (c : ScrollCursor) (category : List LocalLabelId) :
    ScrollCursor :=
  { c with category := category }

theorem beginning_key (localLabelId : LocalLabelId) (readFilter : ReadFilter)
    (orderDir : ScrollOrderDir) (orderField : ScrollOrderField)
    (category : List LocalLabelId) :
    ((beginning localLabelId readFilter orderDir orderField).withCategory
      category).toScrollCursor =
        ⟨localLabelId, readFilter, orderDir, orderField, category⟩ := by
  cases orderDir with
  | asc => rfl
  | desc => rfl

end ScrollCursor

/-!
# The query
-/

/-- What a query looks at in a row that is joined with its label. -/
structure Columns where
  time : Nat
  snoozeTime : Nat
  displayOrder : Nat
  localId : Nat
  remoteId : Option String
  unread : Bool
  deriving DecidableEq, Repr

/-- `cursor_effective_time` of a cursor, `time_column` of a row. -/
def effectiveTime (orderField : ScrollOrderField) (time snoozeTime : Nat) :
    Nat :=
  match orderField with
  | ScrollOrderField.time => time
  | ScrollOrderField.snoozeTime => max snoozeTime time

/-- `cursor_constraint`. -/
def cursorConstraint (c : ScrollCursor) (r : Columns) : Bool :=
  let rowTime := effectiveTime c.orderField r.time r.snoozeTime
  let cursorTime := effectiveTime c.orderField c.time c.snoozeTime
  match c.orderDir with
  | ScrollOrderDir.desc =>
      rowTime > cursorTime ∨
        (rowTime = cursorTime ∧ r.displayOrder > c.displayOrder) ∨
        (rowTime = cursorTime ∧ r.displayOrder = c.displayOrder ∧
          r.localId ≥ c.localId)
  | ScrollOrderDir.asc =>
      rowTime < cursorTime ∨
        (rowTime = cursorTime ∧ r.displayOrder < c.displayOrder) ∨
        (rowTime = cursorTime ∧ r.displayOrder = c.displayOrder ∧
          r.localId ≤ c.localId)

/-- `ORDER BY` the effective time, the display order and the local id. -/
def orderBy (c : Scroller.ScrollCursor) (r r' : Columns) : Bool :=
  let rowTime := effectiveTime c.orderField r.time r.snoozeTime
  let rowTime' := effectiveTime c.orderField r'.time r'.snoozeTime
  match c.orderDir with
  | ScrollOrderDir.desc =>
      rowTime > rowTime' ∨
        (rowTime = rowTime' ∧ r.displayOrder > r'.displayOrder) ∨
        (rowTime = rowTime' ∧ r.displayOrder = r'.displayOrder ∧
          r.localId ≥ r'.localId)
  | ScrollOrderDir.asc =>
      rowTime < rowTime' ∨
        (rowTime = rowTime' ∧ r.displayOrder < r'.displayOrder) ∨
        (rowTime = rowTime' ∧ r.displayOrder = r'.displayOrder ∧
          r.localId ≤ r'.localId)

def matchesFilter (readFilter : ReadFilter) (r : Columns) : Bool :=
  match readFilter with
  | ReadFilter.all => true
  | ReadFilter.unread => r.unread
  | ReadFilter.read => !r.unread

/--
`ScrollData`: the joined columns of a model within a label, `none` if it is not
in the label or deleted, and what is read from the item it is shown as.
-/
structure ScrollData (model item : Type) where
  localId : model -> Nat
  columns : LocalLabelId -> model -> Option Columns
  hasLabel : model -> LocalLabelId -> Bool
  convert : LocalLabelId -> List model -> List item
  itemTime : item -> Nat
  itemSnoozeTime : item -> ScrollOrderField -> Nat
  itemDisplayOrder : item -> Nat
  itemLocalId : item -> Nat
  itemRemoteId : item -> Option String

section Query

variable {model item : Type} (D : ScrollData model item)

/-- The models of a table that are in a label, with their joined columns. -/
def joined (label : LocalLabelId) (rows : List model) :
    List (model × Columns) :=
  rows.filterMap (fun m => (D.columns label m).map (fun r => (m, r)))

def inCategory (category : List LocalLabelId) (m : model) : Bool :=
  category.isEmpty || category.any (D.hasLabel m)

/-- `LIMIT` and `OFFSET`. -/
def limited {row : Type} (limit offset : Option Nat) (rows : List row) :
    List row :=
  match limit with
  | none => rows.drop (offset.getD 0)
  | some n => (rows.drop (offset.getD 0)).take n

def query (c : ScrollCursor) (limit offset : Option Nat)
    (requireRemoteId : Bool) (rows : List model) : List (model × Columns) :=
  limited limit offset
    (((joined D c.localLabelId rows).filter (fun p =>
      cursorConstraint c p.2 && (!requireRemoteId || p.2.remoteId.isSome) &&
        matchesFilter c.unread p.2 && inCategory D c.category p.1)).insertionSort
      (fun p p' => orderBy c.toScrollCursor p.2 p'.2))

/-- A table of models and the labels that are being emptied. -/
structure Database where
  rows : List model
  busyLabels : List LocalLabelId
  localIds_nodup : (rows.map D.localId).Nodup
  localId_pos : forall m, m ∈ rows -> 0 < D.localId m
  small : forall m, m ∈ rows -> forall label r, D.columns label m = some r ->
    r.time < i64Max ∧ r.snoozeTime < i64Max ∧ r.displayOrder < i64Max

variable {D}

/-- `ScrollQuery::find`. -/
def find (db : Database D) (c : ScrollCursor) (limit offset : Option Nat)
    (requireRemoteId : Bool) : List item :=
  if c.localLabelId ∈ db.busyLabels then []
  else
    D.convert c.localLabelId
      ((query D c limit offset requireRemoteId db.rows).map Prod.fst)

/-- `ScrollQuery::count`, of a query without a limit. -/
def count (db : Database D) (c : ScrollCursor) (requireRemoteId : Bool) :
    Nat :=
  if c.localLabelId ∈ db.busyLabels then 0
  else (query D c none none requireRemoteId db.rows).length

def seenCount (db : Database D) (c : ScrollCursor) : Nat :=
  count db c false

def visibleElements (db : Database D) (c : ScrollCursor) : List item :=
  find db c none none false

end Query

/-!
# Messages and conversations
-/

structure Message where
  localId : Nat
  remoteId : Option String
  time : Nat
  snoozeTime : Nat
  displayOrder : Nat
  unread : Bool
  deleted : Bool
  labels : List LocalLabelId
  deriving DecidableEq, Repr

structure ConversationLabel where
  contextTime : Nat
  contextSnoozeTime : Nat
  contextNumUnread : Nat
  deleted : Bool
  deriving DecidableEq, Repr

/-- A conversation has at most one row for each label. -/
structure Conversation where
  localId : Nat
  remoteId : Option String
  displayOrder : Nat
  deleted : Bool
  label : LocalLabelId -> Option ConversationLabel

structure ContextualConversation where
  localId : Nat
  remoteId : Option String
  displayOrder : Nat
  time : Nat
  snoozeTime : Nat
  deriving DecidableEq, Repr

def ContextualConversation.new (conversation : Conversation)
    (localLabelId : LocalLabelId) : Option ContextualConversation :=
  (conversation.label localLabelId).map (fun label =>
    { localId := conversation.localId
      remoteId := conversation.remoteId
      displayOrder := conversation.displayOrder
      time := label.contextTime
      snoozeTime := label.contextSnoozeTime })

/-- `snooze_time` of an item, which shows no snooze time as zero. -/
def shownSnoozeTime (time snoozeTime : Nat) (orderField : ScrollOrderField) :
    Nat :=
  match orderField with
  | ScrollOrderField.time => time
  | ScrollOrderField.snoozeTime => if snoozeTime > 0 then snoozeTime else time

def messageScrollData : ScrollData Message Message where
  localId := Message.localId
  columns := fun label m =>
    if label ∈ m.labels ∧ m.deleted = false then
      some
        { time := m.time
          snoozeTime := m.snoozeTime
          displayOrder := m.displayOrder
          localId := m.localId
          remoteId := m.remoteId
          unread := m.unread }
    else
      none
  hasLabel := fun m label => label ∈ m.labels
  convert := fun _ items => items
  itemTime := Message.time
  itemSnoozeTime := fun m => shownSnoozeTime m.time m.snoozeTime
  itemDisplayOrder := Message.displayOrder
  itemLocalId := Message.localId
  itemRemoteId := Message.remoteId

def conversationScrollData : ScrollData Conversation ContextualConversation where
  localId := Conversation.localId
  columns := fun label c =>
    match c.label label with
    | none => none
    | some l =>
        if c.deleted = false ∧ l.deleted = false then
          some
            { time := l.contextTime
              snoozeTime := l.contextSnoozeTime
              displayOrder := c.displayOrder
              localId := c.localId
              remoteId := c.remoteId
              unread := l.contextNumUnread > 0 }
        else
          none
  hasLabel := fun c label => (c.label label).isSome
  convert := fun label items =>
    items.filterMap (fun c => ContextualConversation.new c label)
  itemTime := ContextualConversation.time
  itemSnoozeTime := fun c => shownSnoozeTime c.time c.snoozeTime
  itemDisplayOrder := ContextualConversation.displayOrder
  itemLocalId := ContextualConversation.localId
  itemRemoteId := ContextualConversation.remoteId

/-- An item stands in scroll order where its row does. -/
structure Shows {model item : Type} (D : ScrollData model item) (r : Columns)
    (i : item) : Prop where
  time : forall orderField, effectiveTime orderField (D.itemTime i)
    (D.itemSnoozeTime i orderField) = effectiveTime orderField r.time r.snoozeTime
  displayOrder : D.itemDisplayOrder i = r.displayOrder
  localId : D.itemLocalId i = r.localId
  remoteId : D.itemRemoteId i = r.remoteId

/-- Every joined row is shown, in the same order. -/
structure Lawful {model item : Type} (D : ScrollData model item) : Prop where
  localId : forall label m r, D.columns label m = some r ->
    r.localId = D.localId m
  convert : forall label (rows : List (model × Columns)),
    (forall p, p ∈ rows -> D.columns label p.1 = some p.2) ->
      List.Forall₂ (fun p i => Shows D p.2 i) rows
        (D.convert label (rows.map Prod.fst))
  convert_append : forall label (ms ms' : List model),
    D.convert label (ms ++ ms') = D.convert label ms ++ D.convert label ms'

theorem effectiveTime_shown (orderField : ScrollOrderField)
    (time snoozeTime : Nat) :
    effectiveTime orderField time (shownSnoozeTime time snoozeTime orderField) =
      effectiveTime orderField time snoozeTime := by
  cases orderField with
  | time => rfl
  | snoozeTime =>
      unfold effectiveTime shownSnoozeTime
      dsimp only
      split
      · rfl
      · omega

theorem messageScrollData_columns {label : LocalLabelId} {m : Message}
    {r : Columns} (h : messageScrollData.columns label m = some r) :
    Shows messageScrollData r m ∧ r.localId = m.localId := by
  unfold messageScrollData at h
  dsimp only at h
  split at h
  · cases h
    exact ⟨⟨fun field => effectiveTime_shown field m.time m.snoozeTime, rfl, rfl,
      rfl⟩, rfl⟩
  · cases h

theorem messageScrollData_lawful : Lawful messageScrollData where
  localId := fun _ _ _ h => (messageScrollData_columns h).right
  convert := by
    intro label rows h
    induction rows with
    | nil => exact List.Forall₂.nil
    | cons p rows ih =>
        exact List.Forall₂.cons
          (messageScrollData_columns (h p List.mem_cons_self)).left
          (ih (fun q hq => h q (List.mem_cons_of_mem p hq)))
  convert_append := fun _ _ _ => rfl

theorem conversationScrollData_columns {label : LocalLabelId}
    {c : Conversation} {r : Columns}
    (h : conversationScrollData.columns label c = some r) :
    exists i, ContextualConversation.new c label = some i ∧
      Shows conversationScrollData r i ∧ r.localId = c.localId := by
  unfold conversationScrollData at h
  dsimp only at h
  split at h
  · cases h
  · rename_i l hl
    split at h
    · cases h
      have hnew : ContextualConversation.new c label = some
          { localId := c.localId
            remoteId := c.remoteId
            displayOrder := c.displayOrder
            time := l.contextTime
            snoozeTime := l.contextSnoozeTime } := by
        unfold ContextualConversation.new
        rw [hl]
        rfl
      exact ⟨_, hnew,
        ⟨fun field => effectiveTime_shown field l.contextTime l.contextSnoozeTime,
          rfl, rfl, rfl⟩, rfl⟩
    · cases h

theorem conversationScrollData_lawful : Lawful conversationScrollData where
  localId := by
    intro label c r h
    rcases conversationScrollData_columns h with ⟨_, _, _, hid⟩
    exact hid
  convert := by
    intro label rows h
    induction rows with
    | nil => exact List.Forall₂.nil
    | cons p rows ih =>
        rcases conversationScrollData_columns (h p List.mem_cons_self) with
          ⟨i, hi, hshows, _⟩
        have hrest := ih (fun q hq => h q (List.mem_cons_of_mem p hq))
        have hcons : conversationScrollData.convert label
            ((p :: rows).map Prod.fst) =
            i :: conversationScrollData.convert label (rows.map Prod.fst) := by
          unfold conversationScrollData
          dsimp only
          rw [List.map_cons, List.filterMap_cons, hi]
        rw [hcons]
        exact List.Forall₂.cons hshows hrest
  convert_append := fun _ _ _ => List.filterMap_append

/-!
# Pages
-/

/-- A row of `mail_message_scroll_data` or `mail_conversation_scroll_data`. -/
structure ScrollRow extends EndCursor where
  time : Nat
  snoozeTime : Nat
  displayOrder : Nat
  deriving DecidableEq, Repr

/-- `From<MessageScrollData>`: the item at the boundary is included. -/
def ScrollRow.toCursor (data : ScrollRow) : ScrollCursor where
  toScrollCursor := data.toEndCursor.toCursor
  time := data.time
  snoozeTime := data.snoozeTime
  displayOrder := data.displayOrder
  localId := if data.orderDir = ScrollOrderDir.desc then 0 else i64Max

structure CachedScrollData where
  pageSize : Nat
  last : ScrollCursor
  cursor : ScrollCursor
  deriving DecidableEq, Repr

namespace CachedScrollData

def new (labels : LabelTable) (rows : List ScrollRow)
    (localLabelId : LocalLabelId) (readFilter : ReadFilter) (pageSize : Nat)
    (category : List LocalLabelId) : Option CachedScrollData :=
  let orderDir := ScrollOrderDir.forLocalLabel labels localLabelId
  let orderField := ScrollOrderField.forLocalLabel labels localLabelId
  (rows.find? (fun row => row.toEndCursor.hasKey localLabelId readFilter orderDir
    (canonicalCategory category))).map (fun row =>
      { pageSize := pageSize
        last := row.toCursor
        cursor := (ScrollCursor.beginning localLabelId readFilter orderDir
          orderField).withCategory category })

def all (localLabelId : LocalLabelId) (readFilter : ReadFilter) (pageSize : Nat)
    (category : List LocalLabelId) (orderDir : ScrollOrderDir)
    (orderField : ScrollOrderField) : CachedScrollData where
  pageSize := pageSize
  last := (ScrollCursor.ending localLabelId readFilter orderDir
    orderField).withCategory category
  cursor := (ScrollCursor.beginning localLabelId readFilter orderDir
    orderField).withCategory category

section Fetch

variable {model item : Type} {D : ScrollData model item}

def fetchMoreImpl (db : Database D) (d : CachedScrollData)
    (limit offset : Option Nat) : List item × CachedScrollData :=
  let items := find db d.last limit offset false
  let cursor := match items.getLast? with
    | some i =>
        { localLabelId := d.cursor.localLabelId
          unread := d.cursor.unread
          time := D.itemTime i
          snoozeTime := D.itemSnoozeTime i d.last.orderField
          displayOrder := D.itemDisplayOrder i
          localId := D.itemLocalId i
          orderDir := d.last.orderDir
          orderField := d.last.orderField
          category := d.last.category }
    | none => d.last
  (items, { d with cursor := cursor })

/-- `page_size as u64 * 2` wraps in a release build. -/
def fetchMore (db : Database D) (d : CachedScrollData) :
    List item × CachedScrollData :=
  let all := seenCount db d.last
  let cursorCount := seenCount db d.cursor
  if cursorCount < all then
    let remaining := all - cursorCount
    let doublePage := d.pageSize * 2 % 2 ^ 64
    let limit := if remaining < doublePage then remaining else d.pageSize
    fetchMoreImpl db d (some limit) (some cursorCount)
  else
    ([], d)

def whileFetchMore (db : Database D) (d : CachedScrollData) :
    Option (List item) × CachedScrollData :=
  let all := seenCount db d.last
  let cursorCount := seenCount db d.cursor
  if cursorCount < all then
    let fetched := fetchMoreImpl db d (some d.pageSize) (some cursorCount)
    if fetched.1.isEmpty then (none, fetched.2) else (some fetched.1, fetched.2)
  else
    (none, d)

def syncedCount (db : Database D) (d : CachedScrollData) : Nat :=
  seenCount db d.last

/-- `into_scroll_data`; the category is left to its default. -/
def intoScrollData (D : ScrollData model item) (localLabelId : LocalLabelId)
    (readFilter : ReadFilter) (i : item) (orderDir : ScrollOrderDir)
    (orderField : ScrollOrderField) : Option ScrollRow :=
  (D.itemRemoteId i).map (fun remoteId =>
    { localLabelId := localLabelId
      unread := readFilter
      orderDir := orderDir
      orderField := orderField
      category := []
      itemId := remoteId
      time := D.itemTime i
      snoozeTime := D.itemSnoozeTime i orderField
      displayOrder := D.itemDisplayOrder i })

def scrollDataBegin (db : Database D) (d : CachedScrollData) :
    Option ScrollRow :=
  match (find db d.last (some 1) none true).getLast? with
  | some first =>
      intoScrollData D d.cursor.localLabelId d.cursor.unread first
        d.cursor.orderDir d.cursor.orderField
  | none => none

def scrollDataEnd (db : Database D) (d : CachedScrollData) :
    Option ScrollRow :=
  let cursorCount := d.syncedCount db - 1
  match (find db d.last (some 1) (some cursorCount) true).getLast? with
  | some last =>
      intoScrollData D d.cursor.localLabelId d.cursor.unread last
        d.cursor.orderDir d.cursor.orderField
  | none => none

end Fetch

/-!
# Without positions

A source without positions follows the keys of these cursors.
-/

/-- The keys of both cursors. -/
def forget (d : CachedScrollData) : Scroller.CachedScrollData where
  pageSize := d.pageSize
  last := d.last.toScrollCursor
  cursor := d.cursor.toScrollCursor

end CachedScrollData

end Rows
end Scroller
end MailClient
