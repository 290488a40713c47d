import Mathlib.Logic.Function.Basic
import MailClient.Foundation.Transition
import MailClient.Messages.Ids

/-!
# The attachment cache

The content of an attachment is a file in the cache directory with a row in the
table `attachment_cache`.  A call looks the attachment up, downloads it if it is
not there, and stores it unless another call has done so meanwhile.  The cleanup
reads the rows, moves the files of some of them away and then deletes these
rows by the ids of the attachments.

Write transactions exclude each other, but files can be moved at any time.
-/

namespace MailClient
namespace AttachmentCache

open Foundation
open Foundation.TransitionSystem (ReachableWhen Reachable)

/-- A file `{CACHE_PATH}/attachments/{id}/{name}`. -/
structure CachePath where
  id : LocalAttachmentId
  name : String
  deriving DecidableEq, Repr

/-- What the calls read of `AttachmentCacheMetadata`. -/
structure CacheRow where
  path : CachePath
  size : Nat
  deriving DecidableEq, Repr

inductive CallKind where
  | contentPath
  | contentData
  deriving DecidableEq, Repr

structure Call where
  kind : CallKind
  id : LocalAttachmentId
  filename : String
  deriving DecidableEq, Repr

def sanitizeFilename (filename : String) : String :=
  filename.map (fun c => if c = '/' then '_' else c)

/-- `attachment_cache_file_path`. -/
def Call.path (call : Call) : CachePath :=
  ⟨call.id, sanitizeFilename call.filename⟩

/-- A call before its second transaction. -/
inductive CallPhase where
  /-- The row has been found, and its file is looked for once more. -/
  | found (path : CachePath)
  | downloading
  | downloaded (size : Nat)
  deriving DecidableEq, Repr

inductive StorePhase where
  | storing
  | written
  /-- The directory or the file could not be written. -/
  | failed
  deriving DecidableEq, Repr

/-- A second transaction that has not found the attachment in the cache. -/
structure StoreTx where
  call : Call
  size : Nat
  phase : StorePhase
  deriving DecidableEq, Repr

inductive CleanupPhase where
  | idle
  | chosen (rows : List (LocalAttachmentId × CacheRow))
  | moved (ids : List LocalAttachmentId)
  deriving DecidableEq, Repr

def CleanupPhase.movedIds : CleanupPhase -> List LocalAttachmentId
  | moved ids => ids
  | _ => []

/-- The rows are those that are committed. -/
structure Cache where
  files : CachePath -> Option Nat
  rows : LocalAttachmentId -> Option CacheRow
  calls : Nat -> Option (Call × CallPhase)
  storeTx : Option StoreTx
  cleanup : CleanupPhase

inductive CacheEvent where
  /-- The first transaction of a call. -/
  | start (n : Nat) (call : Call)
  | tryExists (n : Nat)
  /-- `fetch_data`, with the size of the data unless it fails. -/
  | fetchData (n : Nat) (data : Option Nat)
  /-- The second transaction looks the attachment up again. -/
  | recheck (n : Nat)
  | write (succeeds : Bool)
  /-- The attribute is set and the row inserted, and the transaction ends. -/
  | finish (inserted committed : Bool)
  | chooseRows (chosen : List (LocalAttachmentId × CacheRow))
  /-- `delete_files_safe`, which goes on when a file cannot be moved. -/
  | moveFiles (failed : List CachePath)
  | deleteRows (committed : Bool)
  deriving DecidableEq, Repr

namespace Cache

/-!
# The steps
-/

def setCall (s : Cache) (n : Nat) (call : Option (Call × CallPhase)) : Cache :=
  { s with calls := Function.update s.calls n call }

/-- The row of an attachment if its file is there. -/
def lookup (s : Cache) (id : LocalAttachmentId) : Option CacheRow :=
  (s.rows id).filter (fun row => (s.files row.path).isSome)

/-- A row without its file is deleted. -/
def start (s : Cache) (n : Nat) (call : Call) : Cache :=
  match s.lookup call.id with
  | some row => s.setCall n (some (call, CallPhase.found row.path))
  | none =>
      { s.setCall n (some (call, CallPhase.downloading)) with
        rows := Function.update s.rows call.id none }

def recheck (s : Cache) (n : Nat) (call : Call) (size : Nat) : Cache :=
  match s.lookup call.id with
  | some _ => s.setCall n none
  | none =>
      { s.setCall n none with
        storeTx := some ⟨call, size, StorePhase.storing⟩ }

/-- `safe_write` puts the file in its place by a rename, taken as one step. -/
def write (s : Cache) (tx : StoreTx) (succeeds : Bool) : Cache :=
  if succeeds then
    { s with
      files := Function.update s.files tx.call.path (some tx.size)
      storeTx := some { tx with phase := StorePhase.written } }
  else
    { s with storeTx := some { tx with phase := StorePhase.failed } }

/-- `content_path` gives up on an error; `content_data` commits all the same. -/
def finish (s : Cache) (tx : StoreTx) (inserted committed : Bool) : Cache :=
  let row := if inserted then some ⟨tx.call.path, tx.size⟩ else none
  if (inserted || tx.call.kind = CallKind.contentData) && committed then
    { s with rows := Function.update s.rows tx.call.id row, storeTx := none }
  else
    { s with storeTx := none }

def moveFiles (s : Cache) (chosen : List (LocalAttachmentId × CacheRow))
    (failed : List CachePath) : Cache :=
  { s with
    files := fun p =>
      if p ∈ chosen.map (fun c => c.2.path) ∧ p ∉ failed then none
      else s.files p
    cleanup := CleanupPhase.moved (chosen.map Prod.fst) }

def deleteRows (s : Cache) (ids : List LocalAttachmentId) (committed : Bool) :
    Cache :=
  { s with
    rows := fun id => if committed ∧ id ∈ ids then none else s.rows id
    cleanup := CleanupPhase.idle }

def next (s : Cache) : CacheEvent -> Option Cache
  | CacheEvent.start n call =>
      if s.storeTx = none ∧ s.calls n = none then some (s.start n call) else none
  | CacheEvent.tryExists n =>
      match s.calls n with
      | some (call, CallPhase.found path) =>
          if (s.files path).isSome then some (s.setCall n none)
          else some (s.setCall n (some (call, CallPhase.downloading)))
      | _ => none
  | CacheEvent.fetchData n data =>
      match s.calls n with
      | some (call, CallPhase.downloading) =>
          some (s.setCall n (data.map (fun size => (call, CallPhase.downloaded size))))
      | _ => none
  | CacheEvent.recheck n =>
      match s.storeTx, s.calls n with
      | none, some (call, CallPhase.downloaded size) => some (s.recheck n call size)
      | _, _ => none
  | CacheEvent.write succeeds =>
      match s.storeTx with
      | some tx =>
          if tx.phase = StorePhase.storing then some (s.write tx succeeds) else none
      | none => none
  | CacheEvent.finish inserted committed =>
      match s.storeTx with
      | some tx =>
          if tx.phase = StorePhase.written ∨
              (tx.phase = StorePhase.failed ∧ inserted = false) then
            some (s.finish tx inserted committed)
          else none
      | none => none
  | CacheEvent.chooseRows chosen =>
      if s.cleanup = CleanupPhase.idle ∧
          (forall c, c ∈ chosen -> s.rows c.1 = some c.2) then
        some { s with cleanup := CleanupPhase.chosen chosen }
      else none
  | CacheEvent.moveFiles failed =>
      match s.cleanup with
      | CleanupPhase.chosen chosen => some (s.moveFiles chosen failed)
      | _ => none
  | CacheEvent.deleteRows committed =>
      match s.storeTx, s.cleanup with
      | none, CleanupPhase.moved ids => some (s.deleteRows ids committed)
      | _, _ => none

/-- No operation is in progress. -/
def Idle (s : Cache) : Prop :=
  (forall n, s.calls n = none) ∧ s.storeTx = none ∧ s.cleanup = CleanupPhase.idle

/-- Every file has a row with its path and size. -/
def Accounted (s : Cache) : Prop :=
  forall p size, s.files p = some size -> exists id, s.rows id = some ⟨p, size⟩

def system : TransitionSystem Cache CacheEvent where
  init s := s.Idle ∧ s.Accounted
  step s e s' := s.next e = some s'

/--
A store whose file is there ends with its row, and the cleanup finds no file of
a row that it deletes.
-/
def Harmless (s : Cache) : CacheEvent -> Prop
  | CacheEvent.finish inserted committed =>
      forall tx, tx ∈ s.storeTx -> tx.phase = StorePhase.written ->
        (s.files tx.call.path).isSome ->
        inserted = true ∧ committed = true
  | CacheEvent.deleteRows committed =>
      committed = true ->
        forall id, id ∈ s.cleanup.movedIds -> s.lookup id = none
  | _ => True

instance (s : Cache) (e : CacheEvent) : Decidable (s.Harmless e) :=
  match e with
  | CacheEvent.finish inserted committed =>
      inferInstanceAs (Decidable (forall tx, tx ∈ s.storeTx ->
        tx.phase = StorePhase.written -> (s.files tx.call.path).isSome ->
        inserted = true ∧ committed = true))
  | CacheEvent.deleteRows committed =>
      inferInstanceAs (Decidable (committed = true ->
        forall id, id ∈ s.cleanup.movedIds -> s.lookup id = none))
  | CacheEvent.start _ _ => isTrue trivial
  | CacheEvent.tryExists _ => isTrue trivial
  | CacheEvent.fetchData _ _ => isTrue trivial
  | CacheEvent.recheck _ => isTrue trivial
  | CacheEvent.write _ => isTrue trivial
  | CacheEvent.chooseRows _ => isTrue trivial
  | CacheEvent.moveFiles _ => isTrue trivial

/-!
# Files and rows
-/

/-- The transaction has written the file, which can be moved away since. -/
def WrittenBy (tx : StoreTx) (p : CachePath) (size : Nat) : Prop :=
  tx.phase = StorePhase.written ∧ p = tx.call.path ∧ size = tx.size

/-- Every file has a row, or a transaction that is about to insert it. -/
structure Tracked (s : Cache) : Prop where
  file : forall p size, s.files p = some size ->
    (exists id, s.rows id = some ⟨p, size⟩) ∨
      exists tx, s.storeTx = some tx ∧ WrittenBy tx p size
  /-- The row that the transaction replaces has lost its file. -/
  replaced : forall tx, s.storeTx = some tx ->
    forall row, s.rows tx.call.id = some row ->
      forall size, s.files row.path = some size ->
        WrittenBy tx row.path size

theorem lookup_eq_none {s : Cache} {id : LocalAttachmentId}
    (h : s.lookup id = none) {row : CacheRow} (hrow : s.rows id = some row) :
    s.files row.path = none := by
  unfold lookup at h
  rw [hrow, Option.filter_some] at h
  split at h
  · cases h
  · rename_i hfile
    simpa using hfile

theorem Tracked.of_accounted {s : Cache} (h : s.Accounted)
    (htx : s.storeTx = none) : Tracked s := by
  have hnone : forall tx, s.storeTx ≠ some tx := by
    intro tx h'
    rw [htx] at h'
    cases h'
  exact ⟨fun p size hfile => Or.inl (h p size hfile),
    fun tx h' => absurd h' (hnone tx)⟩

theorem Tracked.deleteRow {s : Cache} (h : Tracked s) (htx : s.storeTx = none)
    {rows : LocalAttachmentId -> Option CacheRow}
    (hrows : forall id row, s.rows id = some row -> rows id = some row ∨
      s.files row.path = none) : Accounted { s with rows := rows } := by
  intro p size hfile
  rcases h.file p size hfile with ⟨id, hrow⟩ | ⟨tx, htx', _⟩
  · rcases hrows id _ hrow with hkept | hmissing
    · exact ⟨id, hkept⟩
    · rw [hmissing] at hfile
      cases hfile
  · rw [htx] at htx'
    cases htx'

theorem Tracked.start {s : Cache} (h : Tracked s) (htx : s.storeTx = none)
    (n : Nat) (call : Call) : Tracked (s.start n call) := by
  unfold Cache.start
  split
  · exact ⟨h.file, h.replaced⟩
  · rename_i hlookup
    apply Tracked.of_accounted
    · apply h.deleteRow htx
      intro id row hrow
      by_cases hid : id = call.id
      · rw [hid] at hrow
        exact Or.inr (lookup_eq_none hlookup hrow)
      · rw [Function.update_of_ne hid]
        exact Or.inl hrow
    · exact htx

theorem Tracked.recheck {s : Cache} (h : Tracked s) (htx : s.storeTx = none)
    (n : Nat) (call : Call) (size : Nat) :
    Tracked (s.recheck n call size) := by
  unfold Cache.recheck
  split
  · exact ⟨h.file, h.replaced⟩
  · rename_i hlookup
    refine ⟨?_, ?_⟩
    · intro p size' hfile
      rcases h.file p size' hfile with hrow | ⟨tx, htx', _⟩
      · exact Or.inl hrow
      · rw [htx] at htx'
        cases htx'
    · intro tx htx' row hrow size' hfile
      cases htx'
      have hmissing := lookup_eq_none hlookup hrow
      change s.files row.path = some size' at hfile
      rw [hmissing] at hfile
      cases hfile

theorem Tracked.write {s : Cache} (h : Tracked s) {tx : StoreTx}
    (htx : s.storeTx = some tx) (hphase : tx.phase = StorePhase.storing)
    (succeeds : Bool) : Tracked (s.write tx succeeds) := by
  have hnot : forall p size, ¬ WrittenBy tx p size := by
    intro p size hwritten
    have hphase' := hwritten.left
    rw [hphase] at hphase'
    cases hphase'
  have hrows : forall p size, s.files p = some size ->
      exists id, s.rows id = some ⟨p, size⟩ := by
    intro p size hfile
    rcases h.file p size hfile with hrow | ⟨tx', htx', hwritten⟩
    · exact hrow
    · rw [htx] at htx'
      cases htx'
      exact absurd hwritten (hnot p size)
  have hfiles : forall p size,
      Function.update s.files tx.call.path (some tx.size) p = some size ->
      (p = tx.call.path ∧ size = tx.size) ∨ s.files p = some size := by
    intro p size hfile
    by_cases hp : p = tx.call.path
    · rw [hp, Function.update_self] at hfile
      exact Or.inl ⟨hp, (Option.some.inj hfile).symm⟩
    · rw [Function.update_of_ne hp] at hfile
      exact Or.inr hfile
  unfold Cache.write
  split
  · refine ⟨?_, ?_⟩
    · intro p size hfile
      rcases hfiles p size hfile with hown | hold
      · exact Or.inr ⟨_, rfl, rfl, hown⟩
      · exact Or.inl (hrows p size hold)
    · intro tx' htx' row hrow size hfile
      cases htx'
      rcases hfiles row.path size hfile with hown | hold
      · exact ⟨rfl, hown⟩
      · exact absurd (h.replaced tx htx row hrow size hold) (hnot _ _)
  · refine ⟨fun p size hfile => Or.inl (hrows p size hfile), ?_⟩
    intro tx' htx' row hrow size hfile
    cases htx'
    exact absurd (h.replaced tx htx row hrow size hfile) (hnot _ _)

theorem Tracked.finish {s : Cache} (h : Tracked s) {tx : StoreTx}
    (htx : s.storeTx = some tx) {inserted committed : Bool}
    (hharmless : s.Harmless (CacheEvent.finish inserted committed)) :
    Tracked (s.finish tx inserted committed) := by
  -- The transaction accounts for a file only if it inserts the row.
  have hother : forall p size, s.files p = some size ->
      (exists id, s.rows id = some ⟨p, size⟩ ∧ id ≠ tx.call.id) ∨
        (inserted = true ∧ committed = true ∧ p = tx.call.path ∧ size = tx.size) := by
    intro p size hfile
    have hwritten : WrittenBy tx p size -> inserted = true ∧ committed = true ∧
        p = tx.call.path ∧ size = tx.size := by
      intro hwritten
      have hends := hharmless tx htx hwritten.left (by
        rw [<- hwritten.right.left, hfile]
        rfl)
      exact ⟨hends.left, hends.right, hwritten.right⟩
    rcases h.file p size hfile with ⟨id, hrow⟩ | ⟨tx', htx', hby⟩
    · by_cases hid : id = tx.call.id
      · rw [hid] at hrow
        exact Or.inr (hwritten (h.replaced tx htx _ hrow size hfile))
      · exact Or.inl ⟨id, hrow, hid⟩
    · rw [htx] at htx'
      cases htx'
      exact Or.inr (hwritten hby)
  unfold Cache.finish
  dsimp only
  split
  · apply Tracked.of_accounted
    · intro p size hfile
      rcases hother p size hfile with ⟨id, hrow, hid⟩ | ⟨hinserted, _, hp, hsize⟩
      · exact ⟨id, (Function.update_of_ne hid _ s.rows).trans hrow⟩
      · refine ⟨tx.call.id, (Function.update_self _ _ s.rows).trans ?_⟩
        rw [hinserted, hp, hsize]
        rfl
    · rfl
  · rename_i hends
    apply Tracked.of_accounted
    · intro p size hfile
      rcases hother p size hfile with ⟨id, hrow, _⟩ | ⟨hinserted, hcommitted, _⟩
      · exact ⟨id, hrow⟩
      · rw [hinserted, hcommitted] at hends
        exact absurd rfl hends
    · rfl

theorem Tracked.moveFiles {s : Cache} (h : Tracked s)
    (chosen : List (LocalAttachmentId × CacheRow)) (failed : List CachePath) :
    Tracked (s.moveFiles chosen failed) := by
  have hkept : forall p size, (s.moveFiles chosen failed).files p = some size ->
      s.files p = some size := by
    intro p size hfile
    unfold Cache.moveFiles at hfile
    dsimp only at hfile
    split at hfile
    · cases hfile
    · exact hfile
  exact ⟨fun p size hfile => h.file p size (hkept p size hfile),
    fun tx htx row hrow size hfile =>
      h.replaced tx htx row hrow size (hkept _ size hfile)⟩

theorem Tracked.deleteRows {s : Cache} (h : Tracked s) (htx : s.storeTx = none)
    {ids : List LocalAttachmentId} (hmoved : s.cleanup = CleanupPhase.moved ids)
    {committed : Bool} (hharmless : s.Harmless (CacheEvent.deleteRows committed)) :
    Tracked (s.deleteRows ids committed) := by
  apply Tracked.of_accounted
  · apply h.deleteRow htx
    intro id row hrow
    unfold Cache.deleteRows
    dsimp only
    split
    · rename_i hdeleted
      have hid : id ∈ s.cleanup.movedIds := by
        rw [hmoved]
        exact hdeleted.right
      exact Or.inr (lookup_eq_none (hharmless hdeleted.left id hid) hrow)
    · exact Or.inl hrow
  · exact htx

theorem Tracked.next {s s' : Cache} {e : CacheEvent} (h : Tracked s)
    (hharmless : s.Harmless e) (hnext : s.next e = some s') : Tracked s' := by
  cases e with
  | start n call =>
      unfold Cache.next at hnext
      dsimp only at hnext
      split at hnext
      · rename_i hfree
        cases hnext
        exact h.start hfree.left n call
      · cases hnext
  | tryExists n =>
      unfold Cache.next at hnext
      dsimp only at hnext
      split at hnext
      · split at hnext
        · cases hnext
          exact ⟨h.file, h.replaced⟩
        · cases hnext
          exact ⟨h.file, h.replaced⟩
      · cases hnext
  | fetchData n data =>
      unfold Cache.next at hnext
      dsimp only at hnext
      split at hnext
      · cases hnext
        exact ⟨h.file, h.replaced⟩
      · cases hnext
  | recheck n =>
      unfold Cache.next at hnext
      dsimp only at hnext
      split at hnext
      · rename_i call size htx _
        cases hnext
        exact h.recheck htx n call size
      · cases hnext
  | write succeeds =>
      unfold Cache.next at hnext
      dsimp only at hnext
      split at hnext
      · rename_i tx htx
        split at hnext
        · rename_i hphase
          cases hnext
          exact h.write htx hphase succeeds
        · cases hnext
      · cases hnext
  | finish inserted committed =>
      unfold Cache.next at hnext
      dsimp only at hnext
      split at hnext
      · rename_i tx htx
        split at hnext
        · cases hnext
          exact h.finish htx hharmless
        · cases hnext
      · cases hnext
  | chooseRows chosen =>
      unfold Cache.next at hnext
      dsimp only at hnext
      split at hnext
      · cases hnext
        exact ⟨h.file, h.replaced⟩
      · cases hnext
  | moveFiles failed =>
      unfold Cache.next at hnext
      dsimp only at hnext
      split at hnext
      · rename_i chosen _
        cases hnext
        exact h.moveFiles chosen failed
      · cases hnext
  | deleteRows committed =>
      unfold Cache.next at hnext
      dsimp only at hnext
      split at hnext
      · rename_i ids htx hmoved
        cases hnext
        exact h.deleteRows htx hmoved hharmless
      · cases hnext

theorem tracked_of_reachable {s : Cache} (h : ReachableWhen system Harmless s) :
    Tracked s := by
  apply TransitionSystem.invariant_when Tracked _ _ h
  · intro s hinit
    exact Tracked.of_accounted hinit.right hinit.left.right.left
  · intro s e s' _ htracked hharmless hstep
    exact htracked.next hharmless hstep

/-- Runs of harmless steps leave no file without its row. -/
theorem files_accounted {s : Cache} (h : ReachableWhen system Harmless s)
    (hidle : s.Idle) : s.Accounted := by
  intro p size hfile
  rcases (tracked_of_reachable h).file p size hfile with hrow | ⟨tx, htx, _⟩
  · exact hrow
  · rw [hidle.right.left] at htx
    cases htx

/-!
# Runs
-/

def report : Call where
  kind := CallKind.contentPath
  id := 1
  filename := "report.pdf"

/-- One attachment of five bytes is cached. -/
def cached : Cache where
  files := Function.update (fun _ => none) report.path (some 5)
  rows := Function.update (fun _ => none) report.id (some ⟨report.path, 5⟩)
  calls := fun _ => none
  storeTx := none
  cleanup := CleanupPhase.idle

theorem cached_init : system.init cached := by
  refine ⟨⟨fun _ => rfl, rfl, rfl⟩, ?_⟩
  intro p size hfile
  change Function.update (fun _ => none) report.path (some 5) p = some size at hfile
  by_cases hp : p = report.path
  · rw [hp, Function.update_self] at hfile
    rw [hp, <- Option.some.inj hfile]
    exact ⟨report.id, rfl⟩
  · rw [Function.update_of_ne hp] at hfile
    cases hfile

def empty : Cache where
  files := fun _ => none
  rows := fun _ => none
  calls := fun _ => none
  storeTx := none
  cleanup := CleanupPhase.idle

theorem empty_init : system.init empty :=
  ⟨⟨fun _ => rfl, rfl, rfl⟩, fun _ _ hfile => (nomatch hfile)⟩

def photo : Call where
  kind := CallKind.contentData
  id := 2
  filename := "photo.png"

/-- The attachment is cleaned up and then stored again. -/
theorem stored_after_cleanup :
    exists s, ReachableWhen system Harmless s ∧ s.files report.path = some 7 ∧
      s.Accounted := by
  have hrun : exists s, [CacheEvent.chooseRows [(report.id, ⟨report.path, 5⟩)],
      CacheEvent.moveFiles [], CacheEvent.deleteRows true,
      CacheEvent.start 0 report, CacheEvent.fetchData 0 (some 7),
      CacheEvent.recheck 0, CacheEvent.write true,
      CacheEvent.finish true true].foldlM
        (fun s e => if s.Harmless e then s.next e else none) cached = some s ∧
      s.files report.path = some 7 ∧ s.Idle := by
    simp [next, cached, Cache.moveFiles, Cache.start, lookup, setCall,
      Cache.recheck, Cache.write, Cache.finish, Cache.deleteRows, Idle, Harmless,
      CleanupPhase.movedIds]
  rcases hrun with ⟨s, hfold, hfile, hidle⟩
  have hreach : ReachableWhen system Harmless s :=
    ReachableWhen.replay (fun _ _ _ h => h) (ReachableWhen.start cached_init) hfold
  exact ⟨s, hreach, hfile, files_accounted hreach hidle⟩

/--
A call stores the attachment after the cleanup has moved the old file and before
it deletes the row; and a call whose row cannot be inserted goes on without it.
-/
theorem stored_file_orphaned :
    (exists s, Reachable system s ∧ s.Idle ∧ s.files report.path = some 5 ∧
      ¬ s.Accounted) ∧
    exists s, Reachable system s ∧ s.Idle ∧ s.files photo.path = some 3 ∧
      ¬ s.Accounted := by
  have hreach : forall {events : List CacheEvent} {s s' : Cache},
      system.init s -> events.foldlM next s = some s' -> Reachable system s' :=
    fun hinit h => Reachable.replay (fun _ _ _ h => h) (ReachableWhen.start hinit) h
  refine ⟨?_, ?_⟩
  · have hrun : exists s, [CacheEvent.chooseRows [(report.id, ⟨report.path, 5⟩)],
        CacheEvent.moveFiles [], CacheEvent.start 0 report,
        CacheEvent.fetchData 0 (some 5), CacheEvent.recheck 0,
        CacheEvent.write true, CacheEvent.finish true true,
        CacheEvent.deleteRows true].foldlM next cached = some s ∧ s.Idle ∧
        s.files report.path = some 5 ∧
        forall id, s.rows id ≠ some ⟨report.path, 5⟩ := by
      simp [next, cached, Cache.moveFiles, Cache.start, lookup, setCall,
        Cache.recheck, Cache.write, Cache.finish, Cache.deleteRows, Idle,
        Option.filter_some, Function.update_apply]
    rcases hrun with ⟨s, hfold, hidle, hfile, hrows⟩
    refine ⟨s, hreach cached_init hfold, hidle, hfile, fun haccounted => ?_⟩
    rcases haccounted _ _ hfile with ⟨id, hrow⟩
    exact hrows id hrow
  · have hrun : exists s, [CacheEvent.start 0 photo,
        CacheEvent.fetchData 0 (some 3), CacheEvent.recheck 0,
        CacheEvent.write true, CacheEvent.finish false true].foldlM next empty =
          some s ∧ s.Idle ∧ s.files photo.path = some 3 ∧
        forall id, s.rows id ≠ some ⟨photo.path, 3⟩ := by
      have hkind : photo.kind = CallKind.contentData := rfl
      simp [next, empty, Cache.start, lookup, setCall, Cache.recheck,
        Cache.write, Cache.finish, Idle, hkind]
    rcases hrun with ⟨s, hfold, hidle, hfile, hrows⟩
    refine ⟨s, hreach empty_init hfold, hidle, hfile, fun haccounted => ?_⟩
    rcases haccounted _ _ hfile with ⟨id, hrow⟩
    exact hrows id hrow

end Cache

end AttachmentCache
end MailClient
