import MailClient.Foundation.Loop
import MailClient.Scroller.Rows

/-!
# Offset paging is keyset paging

The rows that a page skips are counted with the query of the cursor and dropped
from the query of the end cursor.  In scroll order this gives the rows that come
after the cursor, whatever happened to the rows that were read before.
-/

namespace MailClient
namespace Scroller
namespace Rows

open Foundation
open Labels (LabelTable)

/-!
# Scroll order
-/

/-- Effective time, display order and local id, negated if they descend. -/
abbrev Position :=
  Lex (Int × Lex (Int × Int))

def position (dir : ScrollOrderDir) (time displayOrder localId : Nat) :
    Position :=
  match dir with
  | ScrollOrderDir.asc =>
      toLex ((time : Int), toLex ((displayOrder : Int), (localId : Int)))
  | ScrollOrderDir.desc =>
      toLex (-(time : Int), toLex (-(displayOrder : Int), -(localId : Int)))

/-- Where a row stands in the order of a cursor. -/
def Columns.position (c : Scroller.ScrollCursor) (r : Columns) : Position :=
  Rows.position c.orderDir (effectiveTime c.orderField r.time r.snoozeTime)
    r.displayOrder r.localId

/-- Where a cursor stands in the order of another one. -/
def ScrollCursor.position (c : Scroller.ScrollCursor) (c' : ScrollCursor) :
    Position :=
  Rows.position c.orderDir (effectiveTime c.orderField c'.time c'.snoozeTime)
    c'.displayOrder c'.localId

theorem position_le (dir : ScrollOrderDir) (time order localId : Nat)
    (time' order' localId' : Nat) :
    position dir time order localId ≤ position dir time' order' localId' ↔
      match dir with
      | ScrollOrderDir.desc =>
          time > time' ∨ (time = time' ∧ order > order') ∨
            (time = time' ∧ order = order' ∧ localId ≥ localId')
      | ScrollOrderDir.asc =>
          time < time' ∨ (time = time' ∧ order < order') ∨
            (time = time' ∧ order = order' ∧ localId ≤ localId') := by
  cases dir with
  | asc =>
      unfold position
      dsimp only
      rw [Prod.Lex.toLex_le_toLex, Prod.Lex.toLex_le_toLex]
      dsimp only
      omega
  | desc =>
      unfold position
      dsimp only
      rw [Prod.Lex.toLex_le_toLex, Prod.Lex.toLex_le_toLex]
      dsimp only
      omega

theorem cursorConstraint_iff (c : ScrollCursor) (r : Columns) :
    cursorConstraint c r = true ↔
      r.position c.toScrollCursor ≤
        ScrollCursor.position c.toScrollCursor c := by
  unfold Columns.position ScrollCursor.position cursorConstraint
  rw [position_le]
  dsimp only
  cases c.orderDir with
  | asc => exact decide_eq_true_iff
  | desc => exact decide_eq_true_iff

theorem orderBy_iff (c : Scroller.ScrollCursor) (r r' : Columns) :
    orderBy c r r' = true ↔ r.position c ≤ r'.position c := by
  unfold Columns.position orderBy
  rw [position_le]
  dsimp only
  cases c.orderDir with
  | asc => exact decide_eq_true_iff
  | desc => exact decide_eq_true_iff

/-!
# The rows of a query
-/

section Scope

variable {model item : Type} {D : ScrollData model item} (hlawful : Lawful D)

/-- Where a joined row stands. -/
def standing (c : Scroller.ScrollCursor) (p : model × Columns) : Position :=
  p.2.position c

variable (D) in
/-- The rows that the key of a cursor selects, wherever it stands. -/
def scope (c : Scroller.ScrollCursor) (rows : List model) :
    List (model × Columns) :=
  ((joined D c.localLabelId rows).filter (fun p =>
    matchesFilter c.unread p.2 && inCategory D c.category p.1)).insertionSort
      (fun p p' => standing c p ≤ standing c p')

theorem mem_joined {label : LocalLabelId} {rows : List model}
    {p : model × Columns} :
    p ∈ joined D label rows ↔ p.1 ∈ rows ∧ D.columns label p.1 = some p.2 := by
  unfold joined
  rw [List.mem_filterMap]
  constructor
  · intro h
    rcases h with ⟨m, hm, hp⟩
    rcases Option.map_eq_some_iff.mp hp with ⟨r, hr, rfl⟩
    exact ⟨hm, hr⟩
  · intro h
    refine ⟨p.1, h.left, ?_⟩
    rw [h.right]
    rfl

theorem insertionSort_orderBy (c : Scroller.ScrollCursor)
    (rows : List (model × Columns)) :
    rows.insertionSort (fun p p' => orderBy c p.2 p'.2 = true) =
      rows.insertionSort (fun p p' => standing c p ≤ standing c p') := by
  congr 1
  funext p p'
  exact propext (orderBy_iff c p.2 p'.2)

include hlawful

theorem standing_nodup (db : Database D) (c : Scroller.ScrollCursor)
    (label : LocalLabelId) :
    ((joined D label db.rows).map (standing c)).Nodup := by
  have hrows := List.pairwise_map.mp db.localIds_nodup
  apply List.pairwise_map.mpr
  unfold joined
  rw [List.pairwise_filterMap]
  refine hrows.imp ?_
  intro m m' hne p hp p' hp' heq
  rcases Option.map_eq_some_iff.mp hp with ⟨r, hr, rfl⟩
  rcases Option.map_eq_some_iff.mp hp' with ⟨r', hr', rfl⟩
  have hle := le_of_eq heq
  have hge := le_of_eq heq.symm
  unfold standing Columns.position at hle hge
  rw [position_le] at hle hge
  rw [<- hlawful.localId label m r hr, <- hlawful.localId label m' r' hr'] at hne
  cases hdir : c.orderDir with
  | asc =>
      rw [hdir] at hle hge
      dsimp only at hle hge
      omega
  | desc =>
      rw [hdir] at hle hge
      dsimp only at hle hge
      omega

theorem scope_ascending (db : Database D) (c : Scroller.ScrollCursor) :
    Ascending (standing c) (scope D c db.rows) := by
  apply ascending_insertionSort
  exact (standing_nodup hlawful db c c.localLabelId).sublist
    (List.filter_sublist.map _)

theorem query_eq (db : Database D) (c : ScrollCursor)
    (limit offset : Option Nat) :
    query D c limit offset false db.rows = limited limit offset
      ((scope D c.toScrollCursor db.rows).filter (fun p =>
        standing c.toScrollCursor p ≤
          ScrollCursor.position c.toScrollCursor c)) := by
  have hnodup := standing_nodup hlawful db c.toScrollCursor c.localLabelId
  have hselect (rows : List (model × Columns)) :
      rows.filter (fun p =>
        cursorConstraint c p.2 && (!false || p.2.remoteId.isSome) &&
          matchesFilter c.unread p.2 && inCategory D c.category p.1) =
        (rows.filter (fun p =>
          matchesFilter c.unread p.2 && inCategory D c.category p.1)).filter
            (fun p => standing c.toScrollCursor p ≤
              ScrollCursor.position c.toScrollCursor c) := by
    rw [List.filter_filter]
    congr 1
    funext p
    have hconstraint : cursorConstraint c p.2 =
        decide (standing c.toScrollCursor p ≤
          ScrollCursor.position c.toScrollCursor c) := by
      rw [Bool.eq_iff_iff, cursorConstraint_iff, decide_eq_true_iff]
      exact Iff.rfl
    rw [hconstraint, Bool.not_false, Bool.true_or, Bool.and_true,
      Bool.and_assoc]
  unfold query scope
  rw [insertionSort_orderBy, hselect, insertionSort_filter]
  exact hnodup.sublist (List.filter_sublist.map _)

theorem seenCount_eq (db : Database D) (c : ScrollCursor) :
    seenCount db c = if c.localLabelId ∈ db.busyLabels then 0 else
      (scope D c.toScrollCursor db.rows).countP (fun p =>
        standing c.toScrollCursor p ≤
          ScrollCursor.position c.toScrollCursor c) := by
  unfold seenCount count
  rw [query_eq hlawful]
  split
  · rfl
  · rw [List.countP_eq_length_filter]
    rfl

end Scope

/-!
# Cursors of one key
-/

/-- The sentinel before every row. -/
def AtBeginning (c : ScrollCursor) : Prop :=
  match c.orderDir with
  | ScrollOrderDir.desc =>
      c.time = i64Max ∧ c.snoozeTime = i64Max ∧ c.displayOrder = i64Max ∧
        c.localId = i64Max
  | ScrollOrderDir.asc =>
      c.time = 0 ∧ c.snoozeTime = 0 ∧ c.displayOrder = 0 ∧ c.localId = 0

/-- Two keys select the same rows, in the same direction. -/
structure SameKey (c c' : Scroller.ScrollCursor) : Prop where
  label : c.localLabelId = c'.localLabelId
  unread : c.unread = c'.unread
  orderDir : c.orderDir = c'.orderDir
  category : forall l, l ∈ c.category ↔ l ∈ c'.category

namespace CachedScrollData

/-- The key of the end cursor. -/
abbrev key (d : CachedScrollData) : Scroller.ScrollCursor :=
  d.last.toScrollCursor

/-- Where the cursor stands in the order of the end cursor. -/
def stands (d : CachedScrollData) : Position :=
  ScrollCursor.position d.key d.cursor

/-- Where the end cursor stands. -/
def ends (d : CachedScrollData) : Position :=
  ScrollCursor.position d.key d.last

/--
The cursor goes through the rows of the end cursor: it has the same key, and is
ordered by the same field once it has left the beginning.
-/
structure Follows (d : CachedScrollData) : Prop where
  key : SameKey d.cursor.toScrollCursor d.key
  field : d.cursor.orderField = d.last.orderField ∨ AtBeginning d.cursor

end CachedScrollData

section Keys

variable {model item : Type} {D : ScrollData model item}

theorem inCategory_congr {category category' : List LocalLabelId}
    (h : forall l, l ∈ category ↔ l ∈ category') (m : model) :
    inCategory D category m = inCategory D category' m := by
  have hempty : category.isEmpty = category'.isEmpty := by
    rw [Bool.eq_iff_iff, List.isEmpty_iff, List.isEmpty_iff,
      List.eq_nil_iff_forall_not_mem, List.eq_nil_iff_forall_not_mem]
    exact forall_congr' (fun l => not_congr (h l))
  have hany : category.any (D.hasLabel m) = category'.any (D.hasLabel m) := by
    rw [Bool.eq_iff_iff, List.any_eq_true, List.any_eq_true]
    exact exists_congr (fun l => and_congr_left (fun _ => h l))
  unfold inCategory
  rw [hempty, hany]

theorem standing_congr {c c' : Scroller.ScrollCursor}
    (hdir : c.orderDir = c'.orderDir) (hfield : c.orderField = c'.orderField) :
    (standing c : model × Columns -> Position) = standing c' := by
  funext p
  unfold standing Columns.position
  rw [hdir, hfield]

theorem scope_congr {c c' : Scroller.ScrollCursor} (h : SameKey c c')
    (hfield : c.orderField = c'.orderField) (rows : List model) :
    scope D c rows = scope D c' rows := by
  have hselect : (fun p : model × Columns =>
      matchesFilter c.unread p.2 && inCategory D c.category p.1) =
      fun p => matchesFilter c'.unread p.2 && inCategory D c'.category p.1 := by
    funext p
    rw [h.unread, inCategory_congr h.category]
  unfold scope
  rw [hselect, h.label]
  congr 1
  funext p p'
  rw [standing_congr h.orderDir hfield]

variable (hlawful : Lawful D)

include hlawful

theorem beginning_lt (db : Database D) {c : Scroller.ScrollCursor}
    {c' : ScrollCursor} (hdir : c'.orderDir = c.orderDir)
    (hbegin : AtBeginning c') {p : model × Columns}
    (hp : p ∈ scope D c db.rows) :
    ¬ standing c p ≤ ScrollCursor.position c c' := by
  have hjoined : p ∈ joined D c.localLabelId db.rows :=
    (List.mem_filter.mp ((List.mem_insertionSort _).mp hp)).left
  rcases mem_joined.mp hjoined with ⟨hmem, hcolumns⟩
  have hid := db.localId_pos p.1 hmem
  have hsmall := db.small p.1 hmem c.localLabelId p.2 hcolumns
  rw [<- hlawful.localId c.localLabelId p.1 p.2 hcolumns] at hid
  have hfield (time snooze : Nat) (bound : Nat) (h : time < bound)
      (h' : snooze < bound) : effectiveTime c.orderField time snooze < bound := by
    unfold effectiveTime
    cases c.orderField with
    | time => exact h
    | snoozeTime => exact max_lt h' h
  have hrow := hfield p.2.time p.2.snoozeTime i64Max hsmall.left
    hsmall.right.left
  unfold AtBeginning at hbegin
  unfold standing Columns.position ScrollCursor.position
  rw [position_le]
  rw [hdir] at hbegin
  have hsame (n : Nat) : effectiveTime c.orderField n n = n := by
    unfold effectiveTime
    cases c.orderField with
    | time => rfl
    | snoozeTime => exact max_self n
  cases hcase : c.orderDir with
  | asc =>
      rw [hcase] at hbegin
      dsimp only at hbegin ⊢
      rw [hbegin.left, hbegin.right.left, hsame]
      omega
  | desc =>
      rw [hcase] at hbegin
      dsimp only at hbegin ⊢
      rw [hbegin.left, hbegin.right.left, hsame]
      omega

theorem cursorCount_eq (db : Database D) {d : CachedScrollData}
    (h : d.Follows) :
    seenCount db d.cursor = if d.last.localLabelId ∈ db.busyLabels then 0 else
      (scope D d.key db.rows).countP (fun p => standing d.key p ≤ d.stands) := by
  rw [seenCount_eq hlawful, h.key.label]
  split
  · rfl
  · rcases h.field with hfield | hbegin
    · rw [scope_congr h.key hfield, standing_congr h.key.orderDir hfield]
      unfold CachedScrollData.stands ScrollCursor.position
      rw [h.key.orderDir, hfield]
    · have hnone (c : Scroller.ScrollCursor)
          (hdir : d.cursor.orderDir = c.orderDir) :
          (scope D c db.rows).countP (fun p => standing c p ≤
            ScrollCursor.position c d.cursor) = 0 := by
        apply List.countP_eq_zero.mpr
        intro p hp hle
        exact beginning_lt hlawful db hdir hbegin hp (of_decide_eq_true hle)
      rw [hnone _ rfl]
      exact (hnone d.key h.key.orderDir).symm

end Keys

/-!
# Pages
-/

inductive Call where
  | fetchMore
  | whileFetchMore
  deriving DecidableEq, Repr

section Pages

variable {model item : Type} {D : ScrollData model item}

/-- The items that a call returns, and the scroll data after it. -/
def Call.run (db : Database D) (d : CachedScrollData) :
    Call -> List item × CachedScrollData
  | fetchMore => d.fetchMore db
  | whileFetchMore =>
      ((d.whileFetchMore db).1.getD [], (d.whileFetchMore db).2)

/-- The rows up to a cursor, in order. -/
def resultSet (db : Database D) (c : ScrollCursor) : List (model × Columns) :=
  if c.localLabelId ∈ db.busyLabels then []
  else query D c none none false db.rows

/-- The rows of the end cursor that come strictly after the cursor, in order. -/
def rest (db : Database D) (d : CachedScrollData) : List (model × Columns) :=
  (resultSet db d.last).filter (fun p => d.stands < standing d.key p)

/-- The limit of a page: the last page of `fetch_more` may be two pages long. -/
def Call.limit (db : Database D) (d : CachedScrollData) : Call -> Nat
  | fetchMore =>
      if (rest db d).length < d.pageSize * 2 % 2 ^ 64 then (rest db d).length
      else d.pageSize
  | whileFetchMore => d.pageSize

/-- The rows that a call reads. -/
def Call.page (db : Database D) (d : CachedScrollData) (call : Call) :
    List (model × Columns) :=
  (rest db d).take (call.limit db d)

variable (D) in
/-- The items that rows are shown as. -/
def shown (d : CachedScrollData) (rows : List (model × Columns)) : List item :=
  D.convert d.last.localLabelId (rows.map Prod.fst)

/-- A cursor that follows the end cursor and is not past it. -/
structure Trails (d : CachedScrollData) : Prop where
  follows : d.Follows
  notPast : d.stands ≤ d.ends

variable (D) in
/-- A call has read these rows: it shows them, and its cursor is at the last. -/
structure Reads (d : CachedScrollData) (rows : List (model × Columns))
    (result : List item × CachedScrollData) : Prop where
  items : result.1 = shown D d rows
  last : result.2.last = d.last
  pageSize : result.2.pageSize = d.pageSize
  stands : result.2.stands = advance (standing d.key) d.ends rows
  follows : result.2.Follows

variable (hlawful : Lawful D)

include hlawful

theorem resultSet_ascending (db : Database D) (d : CachedScrollData) :
    Ascending (standing d.key) (resultSet db d.last) := by
  unfold resultSet
  split
  · exact List.Pairwise.nil
  · rw [query_eq hlawful]
    exact (scope_ascending hlawful db d.key).filter _

theorem rest_eq (db : Database D) (d : CachedScrollData) :
    rest db d = if d.last.localLabelId ∈ db.busyLabels then [] else
      remaining (standing d.key) d.ends d.stands (scope D d.key db.rows) := by
  unfold rest resultSet
  split
  · rfl
  · rw [query_eq hlawful]
    show (List.filter _ (List.filter _ _)) = _
    rw [List.filter_filter]
    unfold remaining
    congr 1
    funext p
    exact (Bool.decide_and _ _).symm

variable {d : CachedScrollData} {db : Database D}

theorem mem_rest_columns {p : model × Columns} (hp : p ∈ rest db d) :
    D.columns d.last.localLabelId p.1 = some p.2 := by
  rw [rest_eq hlawful] at hp
  split at hp
  · cases hp
  · unfold remaining scope at hp
    have hscope := (List.mem_insertionSort _).mp (List.mem_filter.mp hp).left
    exact (mem_joined.mp (List.mem_filter.mp hscope).left).right

theorem shown_nil (d : CachedScrollData) : shown D d [] = [] :=
  List.forall₂_nil_left_iff.mp
    (hlawful.convert d.last.localLabelId [] (fun _ hp => nomatch hp))

theorem rest_counts (db : Database D) (h : Trails d) :
    seenCount db d.last - seenCount db d.cursor = (rest db d).length ∧
      forall n, find db d.last (some n) (some (seenCount db d.cursor)) false =
        shown D d ((rest db d).take n) := by
  rw [cursorCount_eq hlawful db h.follows, seenCount_eq hlawful,
    rest_eq hlawful]
  by_cases hbusy : d.last.localLabelId ∈ db.busyLabels
  · unfold find
    rw [if_pos hbusy, if_pos hbusy, if_pos hbusy]
    refine ⟨rfl, fun n => ?_⟩
    rw [if_pos hbusy, List.take_nil]
    exact (shown_nil hlawful d).symm
  · have hascending := scope_ascending hlawful db d.key
    have hdrop := drop_upTo hascending h.notPast
    unfold find
    rw [if_neg hbusy, if_neg hbusy, if_neg hbusy]
    constructor
    · rw [<- hdrop, List.length_drop, List.countP_eq_length_filter]
      rfl
    · intro n
      rw [if_neg hbusy, query_eq hlawful, <- hdrop]
      rfl

theorem fetchMoreImpl_reads (db : Database D) (h : Trails d) (n : Nat) :
    Reads D d ((rest db d).take n)
      (d.fetchMoreImpl db (some n) (some (seenCount db d.cursor))) := by
  have hitems := (rest_counts hlawful db h).right n
  have hshown : List.Forall₂ (fun p i => Shows D p.2 i) ((rest db d).take n)
      (shown D d ((rest db d).take n)) :=
    hlawful.convert d.last.localLabelId _
      (fun p hp => mem_rest_columns hlawful (List.mem_of_mem_take hp))
  unfold CachedScrollData.fetchMoreImpl
  dsimp only
  rw [hitems]
  suffices hcursor : _ ∧ _ from ⟨rfl, rfl, rfl, hcursor.left, hcursor.right⟩
  unfold advance
  generalize (rest db d).take n = page at hshown ⊢
  generalize shown D d page = items at hshown ⊢
  rcases List.eq_nil_or_concat page with rfl | ⟨before, p, rfl⟩
  · cases hshown
    exact ⟨rfl, ⟨rfl, rfl, rfl, fun _ => Iff.rfl⟩, Or.inl rfl⟩
  · have hreverse := List.forall₂_reverse_iff.mpr hshown
    rw [List.concat_eq_append, List.reverse_append] at hreverse
    rcases List.eq_nil_or_concat items with rfl | ⟨shownBefore, i, rfl⟩
    · cases hreverse
    · rw [List.concat_eq_append, List.reverse_append] at hreverse
      rcases List.forall₂_cons.mp hreverse with ⟨hshows, _⟩
      rw [List.concat_eq_append, List.concat_eq_append, List.getLast?_concat,
        List.getLast?_concat]
      refine ⟨?_, ⟨h.follows.key.label, h.follows.key.unread, rfl,
        fun _ => Iff.rfl⟩, Or.inl rfl⟩
      show Rows.position d.last.orderDir
        (effectiveTime d.last.orderField (D.itemTime i)
          (D.itemSnoozeTime i d.last.orderField))
        (D.itemDisplayOrder i) (D.itemLocalId i) = _
      rw [hshows.displayOrder, hshows.localId, hshows.time]
      rfl

theorem call_reads (h : Trails d) (call : Call) (hrest : rest db d ≠ []) :
    Reads D d (call.page db d) (call.run db d) := by
  have hcounts := (rest_counts hlawful db h).left
  have hpos : 0 < (rest db d).length := List.length_pos_of_ne_nil hrest
  have hlt : seenCount db d.cursor < seenCount db d.last := by omega
  cases call with
  | fetchMore =>
      have hreads := fetchMoreImpl_reads hlawful db h
        (Call.fetchMore.limit db d)
      have hrun : Call.fetchMore.run db d =
          d.fetchMoreImpl db (some (Call.fetchMore.limit db d))
            (some (seenCount db d.cursor)) := by
        unfold Call.run CachedScrollData.fetchMore Call.limit
        dsimp only
        rw [if_pos hlt, hcounts]
      rw [hrun]
      exact hreads
  | whileFetchMore =>
      have hreads := fetchMoreImpl_reads hlawful db h d.pageSize
      have hrun : Call.whileFetchMore.run db d =
          d.fetchMoreImpl db (some d.pageSize)
            (some (seenCount db d.cursor)) := by
        unfold Call.run CachedScrollData.whileFetchMore
        dsimp only
        rw [if_pos hlt]
        split
        · rename_i hempty
          rw [List.isEmpty_iff] at hempty
          exact Prod.ext hempty.symm rfl
        · rfl
      rw [hrun]
      exact hreads

theorem call_rests (h : Trails d) (call : Call) (hrest : rest db d = []) :
    call.run db d = ([], d) := by
  have hcounts := (rest_counts hlawful db h).left
  rw [hrest, List.length_nil] at hcounts
  have hle : ¬ seenCount db d.cursor < seenCount db d.last := by omega
  cases call with
  | fetchMore =>
      unfold Call.run CachedScrollData.fetchMore
      dsimp only
      rw [if_neg hle]
  | whileFetchMore =>
      unfold Call.run CachedScrollData.whileFetchMore
      dsimp only
      rw [if_neg hle]
      rfl

theorem call_trails (h : Trails d) (call : Call) :
    Trails (call.run db d).2 ∧ (call.run db d).2.last = d.last ∧
      (call.run db d).2.pageSize = d.pageSize := by
  by_cases hrest : rest db d = []
  · rw [call_rests hlawful h call hrest]
    exact ⟨h, rfl, rfl⟩
  · have hreads := call_reads hlawful h call hrest
    refine ⟨⟨hreads.follows, ?_⟩, hreads.last, hreads.pageSize⟩
    rw [hreads.stands]
    unfold CachedScrollData.ends CachedScrollData.key
    rw [hreads.last]
    rw [rest_eq hlawful] at hrest
    split at hrest
    · exact absurd rfl hrest
    · rename_i hbusy
      unfold Call.page
      rw [rest_eq hlawful, if_neg hbusy]
      exact advance_le

omit hlawful in
theorem limit_pos (hpos : 0 < d.pageSize) (call : Call) (hrest : rest db d ≠ []) :
    0 < call.limit db d := by
  cases call with
  | fetchMore =>
      show 0 < if _ then _ else _
      split
      · exact List.length_pos_of_ne_nil hrest
      · exact hpos
  | whileFetchMore => exact hpos

omit hlawful in
theorem page_ne_nil (hpos : 0 < d.pageSize) (call : Call)
    (hrest : rest db d ≠ []) :
    call.page db d ≠ [] := by
  have hlength := List.length_pos_of_ne_nil hrest
  have hlimit := limit_pos hpos call hrest
  apply List.ne_nil_of_length_pos
  unfold Call.page
  rw [List.length_take]
  omega

theorem rest_call (db : Database D) (h : Trails d) (hpos : 0 < d.pageSize)
    (call : Call) :
    (call.run db d).1 ++ shown D d (rest db (call.run db d).2) =
        shown D d (rest db d) ∧
      (rest db d ≠ [] ->
        (rest db (call.run db d).2).length < (rest db d).length) := by
  by_cases hrest : rest db d = []
  · rw [call_rests hlawful h call hrest, List.nil_append]
    exact ⟨rfl, fun hne => absurd hrest hne⟩
  · have hreads := call_reads hlawful h call hrest
    have hlength : 0 < (rest db d).length := List.length_pos_of_ne_nil hrest
    have hpage := page_ne_nil hpos call hrest
    have hlimit := limit_pos hpos call hrest
    have hafter : rest db (call.run db d).2 =
        (rest db d).drop (call.limit db d) := by
      have hends : (call.run db d).2.ends = d.ends := by
        unfold CachedScrollData.ends CachedScrollData.key
        rw [hreads.last]
      have hrows := rest_eq hlawful db d
      have hnext := rest_eq hlawful db (call.run db d).2
      unfold CachedScrollData.key at hnext
      rw [hreads.stands, hends, hreads.last] at hnext
      split at hrows
      · exact absurd hrows hrest
      · rename_i hbusy
        rw [if_neg hbusy] at hnext
        unfold Call.page at hnext hpage
        rw [hrows] at hnext hpage ⊢
        rw [hnext]
        exact remaining_advance (scope_ascending hlawful db d.key) hpage
    rw [hafter, hreads.items]
    constructor
    · unfold shown Call.page
      rw [<- hlawful.convert_append, <- List.map_append,
        List.take_append_drop]
    · intro _
      rw [List.length_drop]
      omega

end Pages

/-!
# Runs
-/

/--
Scroll data at the beginning of a label: of everything that is stored, or up to
a stored row, whose numbers fit the columns of the database.
-/
inductive Started : CachedScrollData -> Prop where
  | all (label : LocalLabelId) (readFilter : ReadFilter) (pageSize : Nat)
      (category : List LocalLabelId) (orderDir : ScrollOrderDir)
      (orderField : ScrollOrderField) :
      Started (CachedScrollData.all label readFilter pageSize category orderDir
        orderField)
  | stored {labels : LabelTable} {rows : List ScrollRow} {label : LocalLabelId}
      {readFilter : ReadFilter} {pageSize : Nat} {category : List LocalLabelId}
      {d : CachedScrollData}
      (hsmall : forall row, row ∈ rows -> row.time ≤ i64Max ∧
        row.snoozeTime ≤ i64Max ∧ row.displayOrder ≤ i64Max)
      (hnew : CachedScrollData.new labels rows label readFilter pageSize
        category = some d) : Started d

theorem beginning_le {c : Scroller.ScrollCursor} {b e : ScrollCursor}
    (hdir : b.orderDir = c.orderDir) (hbegin : AtBeginning b)
    (htime : e.time ≤ i64Max) (hsnooze : e.snoozeTime ≤ i64Max)
    (horder : e.displayOrder ≤ i64Max) (hid : e.localId ≤ i64Max) :
    ScrollCursor.position c b ≤ ScrollCursor.position c e := by
  have hsame (n : Nat) : effectiveTime c.orderField n n = n := by
    unfold effectiveTime
    cases c.orderField with
    | time => rfl
    | snoozeTime => exact max_self n
  have hlast : effectiveTime c.orderField e.time e.snoozeTime ≤ i64Max := by
    unfold effectiveTime
    cases c.orderField with
    | time => exact htime
    | snoozeTime => exact max_le hsnooze htime
  unfold AtBeginning at hbegin
  rw [hdir] at hbegin
  unfold ScrollCursor.position
  rw [position_le]
  cases hcase : c.orderDir with
  | asc =>
      rw [hcase] at hbegin
      dsimp only at hbegin ⊢
      rw [hbegin.left, hbegin.right.left, hbegin.right.right.left,
        hbegin.right.right.right, hsame]
      omega
  | desc =>
      rw [hcase] at hbegin
      dsimp only at hbegin ⊢
      rw [hbegin.left, hbegin.right.left, hbegin.right.right.left,
        hbegin.right.right.right, hsame]
      omega

theorem beginning_atBeginning (label : LocalLabelId) (readFilter : ReadFilter)
    (orderDir : ScrollOrderDir) (orderField : ScrollOrderField)
    (category : List LocalLabelId) :
    AtBeginning ((ScrollCursor.beginning label readFilter orderDir
      orderField).withCategory category) := by
  cases orderDir with
  | asc => exact ⟨rfl, rfl, rfl, rfl⟩
  | desc => exact ⟨rfl, rfl, rfl, rfl⟩

theorem mem_canonicalCategory (category : List LocalLabelId)
    (l : LocalLabelId) : l ∈ canonicalCategory category ↔ l ∈ category :=
  List.mem_insertionSort _

variable {d : CachedScrollData}

theorem Started.trails (h : Started d) : Trails d := by
  cases h with
  | all label readFilter pageSize category orderDir orderField =>
      have hbegin := beginning_atBeginning label readFilter orderDir orderField
        category
      cases orderDir with
      | asc =>
          refine ⟨⟨⟨rfl, rfl, rfl, fun _ => Iff.rfl⟩, Or.inl rfl⟩, ?_⟩
          exact beginning_le rfl hbegin le_rfl le_rfl le_rfl le_rfl
      | desc =>
          refine ⟨⟨⟨rfl, rfl, rfl, fun _ => Iff.rfl⟩, Or.inl rfl⟩, ?_⟩
          exact beginning_le rfl hbegin (Nat.zero_le _) (Nat.zero_le _)
            (Nat.zero_le _) (Nat.zero_le _)
  | @stored labels rows label readFilter pageSize category d hsmall hnew =>
      rcases Option.map_eq_some_iff.mp hnew with ⟨row, hfind, rfl⟩
      have hkey : row.toEndCursor.hasKey label readFilter
          (ScrollOrderDir.forLocalLabel labels label)
          (canonicalCategory category) = true := by
        simpa using List.find?_some hfind
      have hrow := hsmall row (List.mem_of_find?_eq_some hfind)
      generalize ScrollOrderDir.forLocalLabel labels label = orderDir at hkey
      generalize ScrollOrderField.forLocalLabel labels label = orderField
      have hbegin := beginning_atBeginning label readFilter orderDir orderField
        category
      have hcursor := ScrollCursor.beginning_key label readFilter orderDir
        orderField category
      unfold EndCursor.hasKey at hkey
      rw [decide_eq_true_iff] at hkey
      rcases hkey with ⟨hlabel, hread, hdir, hcategory⟩
      constructor
      · refine ⟨⟨?_, ?_, ?_, ?_⟩, Or.inr hbegin⟩
        · exact (congrArg _ hcursor).trans hlabel.symm
        · exact (congrArg _ hcursor).trans hread.symm
        · exact (congrArg _ hcursor).trans hdir.symm
        · intro l
          show l ∈ ((ScrollCursor.beginning label readFilter orderDir
            orderField).withCategory category).toScrollCursor.category ↔
              l ∈ row.category
          rw [hcursor, hcategory, mem_canonicalCategory]
      · refine beginning_le ?_ hbegin hrow.left hrow.right.left
          hrow.right.right ?_
        · exact (congrArg _ hcursor).trans hdir.symm
        · show (if row.orderDir = ScrollOrderDir.desc then 0 else i64Max) ≤ i64Max
          split
          · exact Nat.zero_le _
          · exact le_rfl

theorem Started.atBeginning (h : Started d) :
    AtBeginning d.cursor := by
  cases h with
  | all label readFilter pageSize category orderDir orderField =>
      exact beginning_atBeginning label readFilter orderDir orderField category
  | stored _ hnew =>
      rcases Option.map_eq_some_iff.mp hnew with ⟨row, _, rfl⟩
      exact beginning_atBeginning _ _ _ _ _

section Runs

variable {model item : Type} {D : ScrollData model item}

/-- Calls on the same scroll data, each with what the database holds then. -/
def runs (d : CachedScrollData) (steps : List (Database D × Call)) :
    CachedScrollData :=
  steps.foldl (fun d step => (step.2.run step.1 d).2) d

/-- The pages of calls on one database. -/
def pages (db : Database D) : CachedScrollData -> List Call -> List (List item)
  | _, [] => []
  | d, call :: calls =>
      (call.run db d).1 :: pages db (call.run db d).2 calls

/-- `while let Some(page) = scroller.while_fetch_more(tether)`. -/
def drainPass (db : Database D) (s : CachedScrollData × List (List item)) :
    Flow (CachedScrollData × List (List item)) (List (List item)) :=
  match s.1.whileFetchMore db with
  | (some page, d) => Flow.again (d, s.2 ++ [page])
  | (none, _) => Flow.done s.2

def drain (db : Database D) :
    Nat -> CachedScrollData × List (List item) -> Option (List (List item)) :=
  loop (fun _ s => some (drainPass db s))

variable (D) in
/--
Offset paging of a table is keyset paging.  A call reads the first rows after
the cursor and leaves the cursor at the last of them, and it leaves the cursor
where it is if there are none.  On one database the pages make up all rows of
the end cursor, and the loop ends.
-/
structure KeysetPaged (d : CachedScrollData) : Prop where
  reads : forall (steps : List (Database D × Call)) (db : Database D)
    (call : Call), rest db (runs d steps) ≠ [] ->
      Reads D (runs d steps) (call.page db (runs d steps))
        (call.run db (runs d steps))
  rests : forall (steps : List (Database D × Call)) (db : Database D)
    (call : Call), rest db (runs d steps) = [] ->
      call.run db (runs d steps) = ([], runs d steps)
  ordered : forall db : Database D,
    Ascending (standing d.key) (resultSet db d.last)
  pages : 0 < d.pageSize -> forall (db : Database D) (calls : List Call),
    (pages db d calls).flatten ++
        shown D d (rest db (runs d (calls.map (fun call => (db, call))))) =
      visibleElements db d.last
  ends : 0 < d.pageSize -> forall db : Database D,
    exists ps, Returns (drain db) (d, []) ps ∧
      ps.flatten = visibleElements db d.last

variable (hlawful : Lawful D)

include hlawful

theorem runs_trails (h : Trails d) (steps : List (Database D × Call)) :
    Trails (runs d steps) ∧ (runs d steps).last = d.last ∧
      (runs d steps).pageSize = d.pageSize := by
  induction steps generalizing d with
  | nil => exact ⟨h, rfl, rfl⟩
  | cons step steps ih =>
      rcases call_trails hlawful h step.2 with
        ⟨htrails, hlast, hsize⟩
      rcases ih htrails with ⟨htrails', hlast', hsize'⟩
      exact ⟨htrails', hlast'.trans hlast, hsize'.trans hsize⟩

theorem pages_rest (h : Trails d) (hpos : 0 < d.pageSize) (db : Database D)
    (calls : List Call) :
    (pages db d calls).flatten ++
        shown D d (rest db (runs d (calls.map (fun call => (db, call))))) =
      shown D d (rest db d) := by
  induction calls generalizing d with
  | nil => rfl
  | cons call calls ih =>
      rcases call_trails hlawful h call with ⟨htrails, hlast, hsize⟩
      have hrest := ih htrails (by rw [hsize]; exact hpos)
      have hcall := (rest_call hlawful db h hpos call).left
      have hshown (rows : List (model × Columns)) :
          shown D (call.run db d).2 rows = shown D d rows := by
        unfold shown
        rw [hlast]
      rw [hshown, hshown] at hrest
      rw [<- hcall, <- hrest, <- List.append_assoc]
      rfl

theorem rest_started (h : Started d) (db : Database D) :
    shown D d (rest db d) = visibleElements db d.last := by
  have hdir := h.trails.follows.key.orderDir
  have hall : rest db d = resultSet db d.last := by
    apply List.filter_eq_self.mpr
    intro p hp
    have hscope : p ∈ scope D d.key db.rows := by
      unfold resultSet at hp
      split at hp
      · cases hp
      · rw [query_eq hlawful] at hp
        exact List.mem_of_mem_filter hp
    have hlt := not_le.mp (beginning_lt hlawful db hdir h.atBeginning hscope)
    exact decide_eq_true hlt
  rw [hall]
  unfold resultSet visibleElements find
  split
  · exact shown_nil hlawful d
  · rfl

theorem shown_eq_nil {db : Database D} {rows : List (model × Columns)}
    (hrows : forall p, p ∈ rows -> p ∈ rest db d) (h : shown D d rows = []) :
    rows = [] := by
  have hshown := hlawful.convert d.last.localLabelId rows
    (fun p hp => mem_rest_columns hlawful (hrows p hp))
  have hlength := hshown.length_eq
  unfold shown at h
  rw [h] at hlength
  exact List.eq_nil_of_length_eq_zero hlength

omit hlawful in
theorem whileFetchMore_ne_nil {db : Database D} {d' : CachedScrollData}
    {page : List item} (h : d.whileFetchMore db = (some page, d')) :
    page ≠ [] := by
  intro hempty
  unfold CachedScrollData.whileFetchMore at h
  dsimp only at h
  split at h
  · split at h
    · cases h
    · rename_i hitems
      cases h
      exact hitems (by rw [hempty]; rfl)
  · cases h

theorem drain_ends (h : Trails d) (hpos : 0 < d.pageSize) (db : Database D)
    (before : List (List item)) :
    exists ps, Returns (drain db) (d, before) (before ++ ps) ∧
      ps.flatten = shown D d (rest db d) := by
  induction hn : (rest db d).length using Nat.strong_induction_on
    generalizing d before with
  | _ n ih =>
      rcases rest_call hlawful db h hpos Call.whileFetchMore with
        ⟨hrows, hless⟩
      rcases call_trails hlawful h Call.whileFetchMore with
        ⟨htrails, hlast, hsize⟩
      have hbody : Grows (fun _ s => some (drainPass db s)) :=
        grows_const (drainPass db)
      rcases hfetched : d.whileFetchMore db with ⟨fetched, d'⟩
      have hrun : Call.whileFetchMore.run db d = (fetched.getD [], d') := by
        unfold Call.run
        rw [hfetched]
      rw [hrun] at hrows hless htrails hlast hsize
      cases fetched with
      | none =>
          have hnone : rest db d = [] := by
            by_contra hne
            have hitems := (call_reads hlawful h Call.whileFetchMore hne).items
            rw [hrun] at hitems
            have hpage : Call.whileFetchMore.page db d = [] :=
              shown_eq_nil hlawful (fun p hp => List.mem_of_mem_take hp)
                hitems.symm
            exact page_ne_nil hpos Call.whileFetchMore hne hpage
          refine ⟨[], ?_, ?_⟩
          · rw [List.append_nil]
            refine Returns.done ⟨0, ?_⟩
            show some (drainPass db (d, before)) = _
            unfold drainPass
            rw [hfetched]
          · rw [hnone, shown_nil hlawful]
            rfl
      | some page =>
          have hne : rest db d ≠ [] := by
            intro hnone
            have hrests := call_rests hlawful h Call.whileFetchMore hnone
            have hsome := whileFetchMore_ne_nil hfetched
            rw [hrun] at hrests
            exact hsome (congrArg Prod.fst hrests)
          rcases ih _ (hn ▸ hless hne) htrails (by rw [hsize]; exact hpos)
            (before ++ [page]) rfl with ⟨ps, hreturns, hflatten⟩
          refine ⟨page :: ps, ?_, ?_⟩
          · rw [List.append_assoc] at hreturns
            refine Returns.again hbody ⟨0, ?_⟩ hreturns
            show some (drainPass db (d, before)) = _
            unfold drainPass
            rw [hfetched]
          · rw [List.flatten_cons, hflatten, <- hrows]
            unfold shown
            rw [hlast]
            rfl

theorem keysetPaged_of_lawful (h : Started d) :
    KeysetPaged D d where
  reads := by
    intro steps db call hrest
    exact call_reads hlawful (runs_trails hlawful h.trails steps).left call hrest
  rests := by
    intro steps db call hrest
    exact call_rests hlawful (runs_trails hlawful h.trails steps).left call hrest
  ordered := fun db => resultSet_ascending hlawful db d
  pages := by
    intro hpos db calls
    rw [pages_rest hlawful h.trails hpos, rest_started hlawful h]
  ends := by
    intro hpos db
    rcases drain_ends hlawful h.trails hpos db [] with ⟨ps, hreturns, hflatten⟩
    exact ⟨ps, hreturns, hflatten.trans (rest_started hlawful h db)⟩

end Runs

/-- Messages and conversations are paged alike. -/
theorem offset_paging_is_keyset_paging {d : CachedScrollData}
    (h : Started d) :
    KeysetPaged messageScrollData d ∧ KeysetPaged conversationScrollData d :=
  ⟨keysetPaged_of_lawful messageScrollData_lawful h,
    keysetPaged_of_lawful conversationScrollData_lawful h⟩

/-- An inbox with pages of two messages, from new to old. -/
def inbox : CachedScrollData :=
  CachedScrollData.all 1 ReadFilter.all 2 [] ScrollOrderDir.desc
    ScrollOrderField.time

theorem inbox_keysetPaged :
    KeysetPaged messageScrollData inbox ∧
      KeysetPaged conversationScrollData inbox :=
  offset_paging_is_keyset_paging
    (Started.all 1 ReadFilter.all 2 [] ScrollOrderDir.desc
      ScrollOrderField.time)

def oneMessage : Database messageScrollData where
  rows := [⟨1, some "m", 10, 0, 5, true, false, [1]⟩]
  busyLabels := []
  localIds_nodup := List.nodup_singleton _
  localId_pos := by
    intro m hm
    cases List.mem_singleton.mp hm
    exact Nat.one_pos
  small := by
    intro m hm label r hr
    cases List.mem_singleton.mp hm
    unfold messageScrollData at hr
    dsimp only at hr
    split at hr
    · cases hr
      decide
    · cases hr

/-- Pages of no messages. -/
def emptyPages : CachedScrollData :=
  CachedScrollData.all 1 ReadFilter.all 0 [] ScrollOrderDir.desc
    ScrollOrderField.time

/--
After the only message has been read, the cursor stays at it.  The loop over
empty pages ends before it has read anything.
-/
theorem cursor_stays :
    (Started inbox ∧
      rest oneMessage (runs inbox [(oneMessage, Call.fetchMore)]) = [] ∧
      (Call.fetchMore.run oneMessage
        (runs inbox [(oneMessage, Call.fetchMore)])).2.cursor ≠ inbox.last) ∧
      Started emptyPages ∧
      drain oneMessage 1 (emptyPages, []) = some [] ∧
      visibleElements oneMessage emptyPages.last ≠ [] :=
  ⟨⟨Started.all 1 ReadFilter.all 2 [] ScrollOrderDir.desc
      ScrollOrderField.time, by decide, by decide⟩,
    Started.all 1 ReadFilter.all 0 [] ScrollOrderDir.desc
      ScrollOrderField.time, by decide, by decide⟩

end Rows
end Scroller
end MailClient
