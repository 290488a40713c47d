import MailClient.Scroller.KeysetPaging

/-!
# The ends of the synced range

The last row that the server knows is looked for behind as many rows as there
are in the range, less one, but among those with a remote id.  It is found only
if every row of the range has one.
-/

namespace MailClient
namespace Scroller
namespace Rows

open Foundation
open Labels (LabelTable)

theorem initializeImpl_keeps {labels : LabelTable} {w : Scroller.Paging}
    {a : Answers} {meanwhile : List Completion} {endCursor : EndCursor}
    {d : Scroller.CachedScrollData} {beginning : String}
    (hlabel : (labels.localIdCounterpart w.source.localLabelId).isSome = true)
    (hstate : ((w.syncScroller labels a.syncHasNextPage).settle
      meanwhile).source.state = MailScrollerState.synced d)
    (hcursor : d.loadEndCursor ((w.syncScroller labels
      a.syncHasNextPage).settle meanwhile).rows = some endCursor)
    (hending : a.ending = some endCursor.itemId)
    (hbeginning : a.beginning = some beginning) (checkForTotal : Bool) :
    endCursor ∈ (w.initializeImpl labels a meanwhile checkForTotal).1.rows := by
  rcases Option.isSome_iff_exists.mp hlabel with ⟨primary, hprimary⟩
  have hmem := List.mem_of_find?_eq_some hcursor
  unfold Paging.initializeImpl
  rw [hprimary]
  dsimp only
  rw [hstate]
  dsimp only
  rw [hcursor]
  dsimp only
  rw [hending, hbeginning]
  dsimp only
  rw [if_pos rfl]
  unfold Paging.resume
  dsimp only
  split
  · exact hmem
  · exact hmem

section Range

variable {model item : Type} {D : ScrollData model item}

/-- The rows of the end cursor that the server knows, in order. -/
def synced (db : Database D) (d : CachedScrollData) : List (model × Columns) :=
  (resultSet db d.last).filter (fun p => p.2.remoteId.isSome)

variable (D) in
/-- The scroll data of a row. -/
def scrollDataOf (d : CachedScrollData) (p : model × Columns) :
    Option ScrollRow :=
  match (shown D d [p]).getLast? with
  | some i =>
      CachedScrollData.intoScrollData D d.cursor.localLabelId d.cursor.unread i
        d.cursor.orderDir d.cursor.orderField
  | none => none

/-- All rows of the range have a remote id, or none has. -/
def AllOrNone (db : Database D) (d : CachedScrollData) : Prop :=
  (forall p, p ∈ resultSet db d.last -> p.2.remoteId.isSome = true) ∨
    forall p, p ∈ resultSet db d.last -> p.2.remoteId = none

/-- `initialize_impl` looks at this scroll data, and knows the label. -/
structure Initializes (db : Database D) (d : CachedScrollData)
    (labels : LabelTable) (w : Scroller.Paging) (a : Answers)
    (meanwhile : List Completion) (endCursor : EndCursor) : Prop where
  label : (labels.localIdCounterpart w.source.localLabelId).isSome = true
  state : ((w.syncScroller labels a.syncHasNextPage).settle
    meanwhile).source.state = MailScrollerState.synced d.forget
  endCursor : d.forget.loadEndCursor
    ((w.syncScroller labels a.syncHasNextPage).settle meanwhile).rows =
      some endCursor
  ending : a.ending = (d.scrollDataEnd db).map (fun row => row.itemId)
  beginning : a.beginning = (d.scrollDataBegin db).map (fun row => row.itemId)

/--
The ends of the range are found whenever there are rows that the server knows,
and an end cursor is kept while its element is the last of them.
-/
structure RangeFound (db : Database D) (d : CachedScrollData) : Prop where
  last : forall p, (synced db d).getLast? = some p ->
    exists row, scrollDataOf D d p = some row ∧ d.scrollDataEnd db = some row
  first : forall p, (synced db d).head? = some p ->
    exists row, scrollDataOf D d p = some row ∧ d.scrollDataBegin db = some row
  kept : forall labels w a meanwhile checkForTotal endCursor,
    Initializes db d labels w a meanwhile endCursor ->
      (exists p, (synced db d).getLast? = some p ∧
        p.2.remoteId = some endCursor.itemId) ->
      endCursor ∈
        (w.initializeImpl labels a meanwhile checkForTotal).1.rows

variable (hlawful : Lawful D)

include hlawful

theorem query_remote (db : Database D) (c : ScrollCursor)
    (limit offset : Option Nat) :
    query D c limit offset true db.rows = limited limit offset
      ((query D c none none false db.rows).filter
        (fun p => p.2.remoteId.isSome)) := by
  have hnodup := standing_nodup hlawful db c.toScrollCursor c.localLabelId
  have hselect (rows : List (model × Columns)) :
      rows.filter (fun p =>
        cursorConstraint c p.2 && (!true || p.2.remoteId.isSome) &&
          matchesFilter c.unread p.2 && inCategory D c.category p.1) =
        (rows.filter (fun p =>
          cursorConstraint c p.2 && (!false || p.2.remoteId.isSome) &&
            matchesFilter c.unread p.2 && inCategory D c.category p.1)).filter
            (fun p => p.2.remoteId.isSome) := by
    rw [List.filter_filter]
    congr 1
    funext p
    cases p.2.remoteId.isSome with
    | false => simp
    | true => simp
  unfold query
  rw [insertionSort_orderBy, hselect, insertionSort_orderBy, insertionSort_filter]
  · rfl
  · exact hnodup.sublist (List.filter_sublist.map _)

theorem find_remote (db : Database D) (d : CachedScrollData)
    (limit offset : Option Nat) :
    find db d.last limit offset true =
      shown D d (limited limit offset (synced db d)) := by
  unfold find synced resultSet
  split
  · have hnil : limited limit offset
        (([] : List (model × Columns)).filter
          (fun p => p.2.remoteId.isSome)) = [] := by
      unfold limited
      cases limit with
      | none => exact List.drop_nil
      | some n =>
          show (([] : List (model × Columns)).drop _).take n = []
          rw [List.drop_nil, List.take_nil]
    rw [hnil]
    exact (shown_nil hlawful d).symm
  · rw [query_remote hlawful]
    rfl

theorem scrollDataOf_isSome {db : Database D} {d : CachedScrollData}
    {p : model × Columns} (hp : p ∈ synced db d) :
    exists row, scrollDataOf D d p = some row ∧
      p.2.remoteId = some row.itemId := by
  rcases List.mem_filter.mp hp with ⟨hmem, hremote⟩
  rcases Option.isSome_iff_exists.mp hremote with ⟨remoteId, hid⟩
  have hcolumns : D.columns d.last.localLabelId p.1 = some p.2 := by
    unfold resultSet at hmem
    split at hmem
    · cases hmem
    · rw [query_eq hlawful] at hmem
      have hscope := List.mem_of_mem_filter hmem
      unfold scope at hscope
      have hjoined := (List.mem_insertionSort _).mp hscope
      exact (mem_joined.mp (List.mem_of_mem_filter hjoined)).right
  have hshown : List.Forall₂ (fun p i => Shows D p.2 i) [p] (shown D d [p]) := by
    apply hlawful.convert d.last.localLabelId
    intro q hq
    cases List.mem_singleton.mp hq
    exact hcolumns
  unfold scrollDataOf
  generalize shown D d [p] = items at hshown
  rcases hshown with _ | ⟨hshows, hnil⟩
  cases hnil
  rename_i i
  have hrow : exists row, CachedScrollData.intoScrollData D
      d.cursor.localLabelId d.cursor.unread i d.cursor.orderDir
        d.cursor.orderField = some row ∧ row.itemId = remoteId := by
    unfold CachedScrollData.intoScrollData
    rw [hshows.remoteId, hid]
    exact ⟨_, rfl, rfl⟩
  rcases hrow with ⟨row, hrow, rfl⟩
  exact ⟨row, hrow, hid⟩

omit hlawful in
theorem syncedCount_eq (db : Database D) (d : CachedScrollData) :
    d.syncedCount db = (resultSet db d.last).length := by
  unfold CachedScrollData.syncedCount seenCount count resultSet
  split
  · rfl
  · rfl

theorem scrollDataOf_first (d : CachedScrollData)
    (rows : List (model × Columns)) :
    (match (shown D d (rows.take 1)).getLast? with
      | some i =>
          CachedScrollData.intoScrollData D d.cursor.localLabelId
            d.cursor.unread i d.cursor.orderDir d.cursor.orderField
      | none => none) = rows.head?.bind (scrollDataOf D d) := by
  cases rows with
  | nil =>
      rw [List.take_nil, shown_nil hlawful]
      rfl
  | cons p rows => rfl

theorem scrollDataBegin_eq (db : Database D) (d : CachedScrollData) :
    d.scrollDataBegin db = (synced db d).head?.bind (scrollDataOf D d) := by
  unfold CachedScrollData.scrollDataBegin
  rw [find_remote hlawful]
  exact scrollDataOf_first hlawful d (synced db d)

theorem scrollDataEnd_eq (db : Database D) (d : CachedScrollData) :
    d.scrollDataEnd db =
      ((synced db d).drop ((resultSet db d.last).length - 1)).head?.bind
        (scrollDataOf D d) := by
  unfold CachedScrollData.scrollDataEnd
  dsimp only
  rw [find_remote hlawful, syncedCount_eq]
  exact scrollDataOf_first hlawful d
    ((synced db d).drop ((resultSet db d.last).length - 1))

theorem rangeFound_iff (db : Database D) (d : CachedScrollData) :
    RangeFound db d ↔ AllOrNone db d := by
  constructor
  · intro hfound
    by_contra hmixed
    have hmixed' := not_or.mp hmixed
    have hsome : synced db d ≠ [] := by
      intro hnil
      apply hmixed'.right
      intro p hp
      have hnone := List.filter_eq_nil_iff.mp hnil p hp
      exact Option.not_isSome_iff_eq_none.mp hnone
    have hless : (synced db d).length < (resultSet db d.last).length := by
      apply lt_of_le_of_ne (List.length_filter_le _ _)
      intro hlength
      exact hmixed'.left (List.length_filter_eq_length_iff.mp hlength)
    have hlast := List.getLast?_eq_some_getLast hsome
    rcases hfound.last _ hlast with ⟨row, _, hend⟩
    rw [scrollDataEnd_eq hlawful, List.drop_eq_nil_of_le (by omega)] at hend
    cases hend
  · intro huniform
    have hend : d.scrollDataEnd db =
        (synced db d).getLast?.bind (scrollDataOf D d) := by
      rw [scrollDataEnd_eq hlawful, List.head?_drop]
      rcases huniform with hall | hnone
      · have hsame : synced db d = resultSet db d.last :=
          List.filter_eq_self.mpr hall
        rw [hsame, List.getLast?_eq_getElem?]
      · have hnil : synced db d = [] := by
          apply List.filter_eq_nil_iff.mpr
          intro p hp hsome
          rw [hnone p hp] at hsome
          cases hsome
        rw [hnil]
        rfl
    constructor
    · intro p hp
      rcases scrollDataOf_isSome hlawful (List.mem_of_getLast? hp) with
        ⟨row, hrow, _⟩
      refine ⟨row, hrow, ?_⟩
      rw [hend, hp]
      exact hrow
    · intro p hp
      rcases scrollDataOf_isSome hlawful (List.mem_of_head? hp) with
        ⟨row, hrow, _⟩
      refine ⟨row, hrow, ?_⟩
      rw [scrollDataBegin_eq hlawful, hp]
      exact hrow
    · intro labels w a meanwhile checkForTotal endCursor hinit helement
      rcases helement with ⟨p, hp, hid⟩
      rcases scrollDataOf_isSome hlawful (List.mem_of_getLast? hp) with
        ⟨row, hrow, hid'⟩
      have hending : a.ending = some endCursor.itemId := by
        rw [hinit.ending, hend, hp, Option.bind_some, hrow]
        exact hid'.symm.trans hid
      have hbeginning : exists beginning, a.beginning = some beginning := by
        rcases hcases : synced db d with _ | ⟨q, rows⟩
        · rw [hcases] at hp
          cases hp
        · have hq : q ∈ synced db d := by
            rw [hcases]
            exact List.mem_cons_self
          rcases scrollDataOf_isSome hlawful hq with ⟨first, hfirst, _⟩
          refine ⟨first.itemId, ?_⟩
          rw [hinit.beginning, scrollDataBegin_eq hlawful, hcases]
          show Option.map _ (scrollDataOf D d q) = _
          rw [hfirst]
          rfl
      rcases hbeginning with ⟨beginning, hbeginning⟩
      exact initializeImpl_keeps hinit.label hinit.state hinit.endCursor hending
        hbeginning checkForTotal

end Range

/-- Messages and conversations alike. -/
theorem synced_range_found_iff (d : CachedScrollData) :
    (forall db : Database messageScrollData,
      RangeFound db d ↔ AllOrNone db d) ∧
    forall db : Database conversationScrollData,
      RangeFound db d ↔ AllOrNone db d :=
  ⟨fun db => rangeFound_iff messageScrollData_lawful db d,
    fun db => rangeFound_iff conversationScrollData_lawful db d⟩

/-- A range that ends with the message `m`. -/
def upToMessage : CachedScrollData where
  pageSize := 2
  last :=
    ScrollRow.toCursor
      { localLabelId := 1
        unread := ReadFilter.all
        orderDir := ScrollOrderDir.desc
        orderField := ScrollOrderField.time
        category := []
        itemId := "m"
        time := 10
        snoozeTime := 10
        displayOrder := 5 }
  cursor :=
    ScrollCursor.beginning 1 ReadFilter.all ScrollOrderDir.desc
      ScrollOrderField.time

/-- A draft that the server does not know, and an older message. -/
def draftAndMessage : Database messageScrollData where
  rows :=
    [⟨2, none, 20, 0, 6, false, false, [1]⟩,
      ⟨1, some "m", 10, 0, 5, true, false, [1]⟩]
  busyLabels := []
  localIds_nodup := by decide
  localId_pos := by
    intro m hm
    rcases List.mem_cons.mp hm with rfl | hm
    · exact Nat.two_pos
    · cases List.mem_singleton.mp hm
      exact Nat.one_pos
  small := by
    intro m hm label r hr
    unfold messageScrollData at hr
    dsimp only at hr
    rcases List.mem_cons.mp hm with rfl | hm
    · split at hr
      · cases hr
        decide
      · cases hr
    · cases List.mem_singleton.mp hm
      split at hr
      · cases hr
        decide
      · cases hr

/-- The message is the last row that the server knows, and it is not found. -/
theorem draft_hides_end :
    ((synced draftAndMessage upToMessage).getLast?.bind
      (fun p => p.2.remoteId)) = some "m" ∧
      upToMessage.scrollDataEnd draftAndMessage = none ∧
      ¬ RangeFound draftAndMessage upToMessage := by
  have hend : upToMessage.scrollDataEnd draftAndMessage = none := by decide
  have hlast : (synced draftAndMessage upToMessage).getLast? = some
      (⟨1, some "m", 10, 0, 5, true, false, [1]⟩,
        ⟨10, 0, 5, 1, some "m", true⟩) := by decide
  refine ⟨by decide, hend, ?_⟩
  intro hfound
  rcases hfound.last _ hlast with ⟨row, _, hrow⟩
  rw [hend] at hrow
  cases hrow

end Rows
end Scroller
end MailClient
