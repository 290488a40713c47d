import Mathlib.Data.List.Basic
import MailClient.Foundation.Transition

/-!
# Rollback requests

A failed or reverted action leaves a rollback request: the entity has to be
fetched from the server again.  The requests are rows of a table keyed by the
remote id and the kind.  A run of the synchronisation reads the rows of one
kind, fetches them in batches, and then stores each batch and deletes its rows
in one transaction.

Other actions fail while such a run is waiting for the server, so a request can
be saved at any point of it.
-/

namespace MailClient
namespace Actions

open Foundation

inductive RollbackItemType where
  | label
  | message
  | conversation
  deriving DecidableEq, Repr

structure RollbackItem where
  remoteId : String
  itemType : RollbackItemType
  deriving DecidableEq, Repr

namespace RollbackItem

/-!
# The table
-/

/-- An item that is already there is not written again. -/
def save (rows : List RollbackItem) (item : RollbackItem) :
    List RollbackItem :=
  if item ∈ rows then rows else rows ++ [item]

def saveMany (rows : List RollbackItem) (ids : List String)
    (itemType : RollbackItemType) : List RollbackItem :=
  ids.foldl (fun rows id => save rows ⟨id, itemType⟩) rows

def findRemoteIdsByKind (rows : List RollbackItem)
    (kind : RollbackItemType) : List String :=
  (rows.filter (fun item => item.itemType = kind)).map remoteId

def deleteByRidAndKind (rows : List RollbackItem) (remoteId : String)
    (kind : RollbackItemType) : List RollbackItem :=
  rows.filter (fun item => item ≠ ⟨remoteId, kind⟩)

def deleteMany (rows : List RollbackItem) (ids : List String)
    (kind : RollbackItemType) : List RollbackItem :=
  ids.foldl (fun rows id => deleteByRidAndKind rows id kind) rows

variable {item : RollbackItem}

theorem mem_save {rows : List RollbackItem} {other : RollbackItem} :
    other ∈ save rows item ↔ other ∈ rows ∨ other = item := by
  unfold save
  split
  · rename_i hmem
    constructor
    · exact Or.inl
    · rintro (hother | rfl)
      · exact hother
      · exact hmem
  · simp

theorem mem_saveMany {ids : List String} {kind : RollbackItemType}
    {rows : List RollbackItem} :
    item ∈ saveMany rows ids kind ↔
      item ∈ rows ∨ (item.remoteId ∈ ids ∧ item.itemType = kind) := by
  unfold saveMany
  induction ids generalizing rows with
  | nil => simp
  | cons id rest ih =>
      have hitem : item = ⟨id, kind⟩ ↔
          item.remoteId = id ∧ item.itemType = kind := by
        cases item
        simp
      rw [List.foldl_cons, ih, mem_save, hitem, List.mem_cons]
      tauto

theorem mem_deleteMany {ids : List String} {kind : RollbackItemType}
    {rows : List RollbackItem} :
    item ∈ deleteMany rows ids kind ↔
      item ∈ rows ∧ ¬ (item.remoteId ∈ ids ∧ item.itemType = kind) := by
  unfold deleteMany
  induction ids generalizing rows with
  | nil => simp
  | cons id rest ih =>
      have hitem : item = ⟨id, kind⟩ ↔
          item.remoteId = id ∧ item.itemType = kind := by
        cases item
        simp
      rw [List.foldl_cons, ih, deleteByRidAndKind, List.mem_filter,
        List.mem_cons, decide_eq_true_eq, Ne, hitem]
      tauto

end RollbackItem

/-!
# Batches
-/

/-- `slice::chunks`, at most `fuel` of them. -/
def chunks {α : Type} (size : Nat) : Nat -> List α -> List (List α)
  | 0, _ => []
  | fuel + 1, xs =>
      if xs.isEmpty then [] else xs.take size :: chunks size fuel (xs.drop size)

theorem exists_mem_chunks {α : Type} {size fuel : Nat} {xs : List α} {x : α}
    (hsize : 0 < size) (hfuel : xs.length ≤ fuel) (hx : x ∈ xs) :
    exists chunk, chunk ∈ chunks size fuel xs ∧ x ∈ chunk := by
  induction fuel generalizing xs with
  | zero =>
      rw [List.length_eq_zero_iff.mp (Nat.le_zero.mp hfuel)] at hx
      cases hx
  | succ fuel ih =>
      have hne : xs ≠ [] := List.ne_nil_of_mem hx
      simp only [chunks, List.isEmpty_iff, hne, if_false]
      rw [<- List.take_append_drop size xs, List.mem_append] at hx
      rcases hx with hx | hx
      · exact ⟨_, List.mem_cons_self, hx⟩
      · have hlength : (xs.drop size).length ≤ fuel := by
          rw [List.length_drop]
          omega
        rcases ih hlength hx with ⟨chunk, hchunk, hmem⟩
        exact ⟨chunk, List.mem_cons_of_mem _ hchunk, hmem⟩

/-- A request to the server and the time of the state that it answered with. -/
structure Request where
  ids : List String
  fetchedAt : Option Nat
  deriving DecidableEq, Repr

/-- Conversations are fetched one by one, messages and labels together. -/
def fetchItems (kind : RollbackItemType) (ids : List String) : List Request :=
  match kind with
  | RollbackItemType.conversation => ids.map (fun id => ⟨[id], none⟩)
  | _ => [⟨ids, none⟩]

/-- A chunk of the items with the requests that fetch it. -/
structure Batch where
  requests : List Request
  deriving DecidableEq, Repr

def Batch.new (kind : RollbackItemType) (ids : List String) : Batch where
  requests := fetchItems kind ids

def Batch.ids (b : Batch) : List String :=
  b.requests.flatMap Request.ids

theorem Batch.new_ids (kind : RollbackItemType) (ids : List String) :
    (Batch.new kind ids).ids = ids := by
  cases kind <;> simp [Batch.ids, Batch.new, fetchItems, List.flatMap_map]

def Batch.fetched (b : Batch) : Bool :=
  b.requests.all (fun r => r.fetchedAt.isSome)

/-- A run of `sync_items_impl` with the batches it has not committed yet. -/
structure SyncRun where
  kind : RollbackItemType
  batches : List Batch
  deriving DecidableEq, Repr

/-- There is no run over chunks of size zero, on which `chunks` panics. -/
def SyncRun.start (rows : List RollbackItem) (kind : RollbackItemType)
    (batch : Option Nat) : Option SyncRun :=
  let items := RollbackItem.findRemoteIdsByKind rows kind
  let size := batch.getD (items.length + 1)
  if size = 0 then none
  else some ⟨kind, (chunks size items.length items).map (Batch.new kind)⟩

/-- The run will still ask the server for the item. -/
def SyncRun.WillFetch (run : SyncRun) (id : String) : Prop :=
  exists b, b ∈ run.batches ∧ exists r, r ∈ b.requests ∧
    id ∈ r.ids ∧ r.fetchedAt = none

variable {item : RollbackItem} {kind : RollbackItemType}

theorem fetchItems_fetchedAt {ids : List String} {r : Request}
    (hr : r ∈ fetchItems kind ids) : r.fetchedAt = none := by
  unfold fetchItems at hr
  split at hr
  · rcases List.mem_map.mp hr with ⟨id, _, rfl⟩
    rfl
  · rw [List.mem_singleton.mp hr]

theorem willFetch_start {rows : List RollbackItem} {batch : Option Nat}
    {run : SyncRun} (hitem : item ∈ rows)
    (hstart : SyncRun.start rows item.itemType batch = some run) :
    run.WillFetch item.remoteId := by
  unfold SyncRun.start at hstart
  dsimp only at hstart
  split at hstart
  · cases hstart
  · rename_i hsize
    cases hstart
    have hmem : item.remoteId ∈
        RollbackItem.findRemoteIdsByKind rows item.itemType := by
      unfold RollbackItem.findRemoteIdsByKind
      exact List.mem_map.mpr ⟨item, List.mem_filter.mpr ⟨hitem, by simp⟩, rfl⟩
    rcases exists_mem_chunks (Nat.pos_of_ne_zero hsize) (Nat.le_refl _) hmem
      with ⟨chunk, hchunk, hin⟩
    have hids : item.remoteId ∈ (Batch.new item.itemType chunk).ids := by
      rw [Batch.new_ids]
      exact hin
    rcases List.mem_flatMap.mp hids with ⟨r, hr, hid⟩
    exact ⟨_, List.mem_map_of_mem hchunk, r, hr, hid, fetchItems_fetchedAt hr⟩

/-!
# Interleavings

`saved` and `stored` record history: when a request was saved, and from which
time the server state is that a committed transaction has stored.
-/

structure RollbackState where
  rows : List RollbackItem
  runs : List SyncRun
  clock : Nat
  saved : List (RollbackItem × Nat)
  stored : List (RollbackItem × Nat)
  deriving DecidableEq, Repr

inductive RollbackEvent where
  /-- The transaction of a failed or reverted action. -/
  | saveMany (ids : List String) (kind : RollbackItemType)
  | startSync (kind : RollbackItemType) (batch : Option Nat)
  /-- The server reads the state that it answers a request with. -/
  | fetch (run batch request : Nat)
  | commit (run batch : Nat)
  /-- The run is over, or a fetch or a transaction of it has failed. -/
  | stop (run : Nat)
  deriving DecidableEq, Repr

namespace RollbackState

def empty : RollbackState where
  rows := []
  runs := []
  clock := 0
  saved := []
  stored := []

/-- The items of a batch with the times of the states they were fetched from. -/
def storedBy (kind : RollbackItemType) (b : Batch) :
    List (RollbackItem × Nat) :=
  b.requests.flatMap (fun r =>
    match r.fetchedAt with
    | none => []
    | some time => r.ids.map (fun id => (⟨id, kind⟩, time)))

def next (s : RollbackState) : RollbackEvent -> Option RollbackState
  | RollbackEvent.saveMany ids kind =>
      some { s with
        rows := RollbackItem.saveMany s.rows ids kind
        saved := s.saved ++ ids.map (fun id => (⟨id, kind⟩, s.clock))
        clock := s.clock + 1 }
  | RollbackEvent.startSync kind batch => do
      let run <- SyncRun.start s.rows kind batch
      some { s with runs := s.runs ++ [run] }
  | RollbackEvent.fetch i j k => do
      let run <- s.runs[i]?
      let b <- run.batches[j]?
      let r <- b.requests[k]?
      if r.fetchedAt.isNone then
        let b' : Batch := ⟨b.requests.set k ⟨r.ids, some s.clock⟩⟩
        some { s with
          runs := s.runs.set i { run with batches := run.batches.set j b' }
          clock := s.clock + 1 }
      else
        none
  | RollbackEvent.commit i j => do
      let run <- s.runs[i]?
      let b <- run.batches[j]?
      if b.fetched then
        some { s with
          rows := RollbackItem.deleteMany s.rows b.ids run.kind
          runs := s.runs.set i { run with batches := run.batches.eraseIdx j }
          stored := s.stored ++ storedBy run.kind b }
      else
        none
  | RollbackEvent.stop i =>
      some { s with runs := s.runs.eraseIdx i }

end RollbackState

def rollbackSystem : TransitionSystem RollbackState RollbackEvent where
  init := fun s => s = RollbackState.empty
  step := fun s e s' => s.next e = some s'

namespace RollbackState

def HasRequest (s : RollbackState) (kind : RollbackItemType) (r : Request) :
    Prop :=
  exists run, run ∈ s.runs ∧ run.kind = kind ∧
    exists b, b ∈ run.batches ∧ r ∈ b.requests

/-- A run has fetched the item and not yet committed it. -/
def InFlight (s : RollbackState) (item : RollbackItem) : Prop :=
  exists r time, s.HasRequest item.itemType r ∧ item.remoteId ∈ r.ids ∧
    r.fetchedAt = some time

/-- No item is saved while it is in flight. -/
def SavedOutsideFlight (s : RollbackState) : RollbackEvent -> Prop
  | RollbackEvent.saveMany ids kind =>
      forall id, id ∈ ids -> ¬ s.InFlight ⟨id, kind⟩
  | _ => True

/-- The item is recorded, so the next run of its kind fetches it. -/
def Recorded (s : RollbackState) (item : RollbackItem) : Prop :=
  item ∈ s.rows ∧
    forall batch run, SyncRun.start s.rows item.itemType batch = some run ->
      run.WillFetch item.remoteId

/--
A transaction of a run leaves every item recorded that was saved after the
state was fetched which the transaction stores.
-/
def CommitsKeepLater (s : RollbackState) : Prop :=
  forall i j s', s.next (RollbackEvent.commit i j) = some s' ->
    forall run b, s.runs[i]? = some run -> run.batches[j]? = some b ->
      forall item fetchedAt savedAt,
        (item, fetchedAt) ∈ storedBy run.kind b ->
        (item, savedAt) ∈ s.saved -> fetchedAt ≤ savedAt -> s'.Recorded item

/-- Every request is still recorded or was followed by a fetch and its commit. -/
def NoneLost (s : RollbackState) : Prop :=
  forall item savedAt, (item, savedAt) ∈ s.saved ->
    s.Recorded item ∨
      exists fetchedAt, (item, fetchedAt) ∈ s.stored ∧ savedAt < fetchedAt

theorem recorded_of_mem {s : RollbackState} (h : item ∈ s.rows) :
    s.Recorded item :=
  ⟨h, fun _ _ hstart => willFetch_start h hstart⟩

theorem mem_storedBy {b : Batch} {time : Nat} :
    (item, time) ∈ storedBy kind b ↔
      item.itemType = kind ∧ exists r, r ∈ b.requests ∧
        item.remoteId ∈ r.ids ∧ r.fetchedAt = some time := by
  unfold storedBy
  rw [List.mem_flatMap]
  constructor
  · rintro ⟨r, hr, hmem⟩
    cases htime : r.fetchedAt with
    | none =>
        rw [htime] at hmem
        cases hmem
    | some fetchedAt =>
        rw [htime] at hmem
        rcases List.mem_map.mp hmem with ⟨id, hid, heq⟩
        cases heq
        exact ⟨rfl, r, hr, hid, htime⟩
  · rintro ⟨rfl, r, hr, hid, htime⟩
    refine ⟨r, hr, ?_⟩
    rw [htime]
    exact List.mem_map.mpr ⟨item.remoteId, hid, rfl⟩

theorem exists_storedBy (kind : RollbackItemType) {b : Batch} {id : String}
    (hfetched : b.fetched = true) (hid : id ∈ b.ids) :
    exists time, ((⟨id, kind⟩ : RollbackItem), time) ∈ storedBy kind b := by
  rcases List.mem_flatMap.mp hid with ⟨r, hr, hin⟩
  have hsome := List.all_eq_true.mp hfetched r hr
  rcases Option.isSome_iff_exists.mp hsome with ⟨time, htime⟩
  exact ⟨time, mem_storedBy.mpr ⟨rfl, r, hr, hin, htime⟩⟩

/-!
# Steps
-/

variable {s s' : RollbackState}

theorem startSync_cases {batch : Option Nat}
    (h : s.next (RollbackEvent.startSync kind batch) = some s') :
    exists run, SyncRun.start s.rows kind batch = some run ∧
      s' = { s with runs := s.runs ++ [run] } := by
  simp only [next, bind, Option.bind_eq_some_iff, Option.some.injEq] at h
  rcases h with ⟨run, hstart, rfl⟩
  exact ⟨run, hstart, rfl⟩

theorem fetch_cases {i j k : Nat}
    (h : s.next (RollbackEvent.fetch i j k) = some s') :
    exists run b r, s.runs[i]? = some run ∧ run.batches[j]? = some b ∧
      b.requests[k]? = some r ∧
      s' = { s with
        runs := s.runs.set i
          { run with
            batches := run.batches.set j
              ⟨b.requests.set k ⟨r.ids, some s.clock⟩⟩ }
        clock := s.clock + 1 } := by
  simp only [next, bind, Option.bind_eq_some_iff] at h
  rcases h with ⟨run, hrun, b, hb, r, hr, h⟩
  split at h
  · cases h
    exact ⟨run, b, r, hrun, hb, hr, rfl⟩
  · cases h

theorem commit_cases {i j : Nat}
    (h : s.next (RollbackEvent.commit i j) = some s') :
    exists run b, s.runs[i]? = some run ∧ run.batches[j]? = some b ∧
      b.fetched = true ∧
      s' = { s with
        rows := RollbackItem.deleteMany s.rows b.ids run.kind
        runs := s.runs.set i { run with batches := run.batches.eraseIdx j }
        stored := s.stored ++ storedBy run.kind b } := by
  simp only [next, bind, Option.bind_eq_some_iff] at h
  rcases h with ⟨run, hrun, b, hb, h⟩
  split at h
  · rename_i hfetched
    cases h
    exact ⟨run, b, hrun, hb, hfetched, rfl⟩
  · cases h

variable {e : RollbackEvent}

theorem hasRequest_of_next (h : s.next e = some s') {r : Request}
    (hr : s'.HasRequest kind r) :
    s.HasRequest kind r ∨ r.fetchedAt = none ∨ r.fetchedAt = some s.clock := by
  cases e with
  | saveMany ids itemType =>
      cases h
      exact Or.inl hr
  | startSync itemType batch =>
      rcases startSync_cases h with ⟨run, hstart, rfl⟩
      rcases hr with ⟨run', hrun', hkind, b, hb, hr⟩
      rcases List.mem_append.mp hrun' with hrun' | hrun'
      · exact Or.inl ⟨run', hrun', hkind, b, hb, hr⟩
      · rw [List.mem_singleton.mp hrun'] at hb
        unfold SyncRun.start at hstart
        dsimp only at hstart
        split at hstart
        · cases hstart
        · cases hstart
          rcases List.mem_map.mp hb with ⟨chunk, _, rfl⟩
          exact Or.inr (Or.inl (fetchItems_fetchedAt hr))
  | fetch i j k =>
      rcases fetch_cases h with ⟨run, b, r₀, hrun, hb, _, rfl⟩
      have hrunMem := List.mem_of_getElem? hrun
      have hbMem := List.mem_of_getElem? hb
      rcases hr with ⟨run', hrun', hkind, b', hb', hr⟩
      rcases List.mem_or_eq_of_mem_set hrun' with hrun' | rfl
      · exact Or.inl ⟨run', hrun', hkind, b', hb', hr⟩
      · rcases List.mem_or_eq_of_mem_set hb' with hb' | rfl
        · exact Or.inl ⟨run, hrunMem, hkind, b', hb', hr⟩
        · rcases List.mem_or_eq_of_mem_set hr with hr | rfl
          · exact Or.inl ⟨run, hrunMem, hkind, b, hbMem, hr⟩
          · exact Or.inr (Or.inr rfl)
  | commit i j =>
      rcases commit_cases h with ⟨run, b, hrun, _, _, rfl⟩
      have hrunMem := List.mem_of_getElem? hrun
      rcases hr with ⟨run', hrun', hkind, b', hb', hr⟩
      rcases List.mem_or_eq_of_mem_set hrun' with hrun' | rfl
      · exact Or.inl ⟨run', hrun', hkind, b', hb', hr⟩
      · exact Or.inl ⟨run, hrunMem, hkind, b', List.mem_of_mem_eraseIdx hb', hr⟩
  | stop i =>
      cases h
      rcases hr with ⟨run', hrun', hkind, b', hb', hr⟩
      exact Or.inl ⟨run', List.mem_of_mem_eraseIdx hrun', hkind, b', hb', hr⟩

theorem saved_of_next (h : s.next e = some s') {savedAt : Nat}
    (hsaved : (item, savedAt) ∈ s'.saved) :
    (item, savedAt) ∈ s.saved ∨
      exists ids kind, e = RollbackEvent.saveMany ids kind ∧
        item.remoteId ∈ ids ∧ item.itemType = kind ∧ savedAt = s.clock := by
  cases e with
  | saveMany ids kind =>
      cases h
      rcases List.mem_append.mp hsaved with hsaved | hsaved
      · exact Or.inl hsaved
      · rcases List.mem_map.mp hsaved with ⟨id, hid, heq⟩
        cases heq
        exact Or.inr ⟨ids, kind, rfl, hid, rfl, rfl⟩
  | startSync kind batch =>
      rcases startSync_cases h with ⟨run, _, rfl⟩
      exact Or.inl hsaved
  | fetch i j k =>
      rcases fetch_cases h with ⟨run, b, r, _, _, _, rfl⟩
      exact Or.inl hsaved
  | commit i j =>
      rcases commit_cases h with ⟨run, b, _, _, _, rfl⟩
      exact Or.inl hsaved
  | stop i =>
      cases h
      exact Or.inl hsaved

theorem clock_le_of_next (h : s.next e = some s') :
    s.clock ≤ s'.clock := by
  cases e with
  | saveMany ids kind =>
      cases h
      exact Nat.le_succ _
  | startSync kind batch =>
      rcases startSync_cases h with ⟨run, _, rfl⟩
      exact Nat.le_refl _
  | fetch i j k =>
      rcases fetch_cases h with ⟨run, b, r, _, _, _, rfl⟩
      exact Nat.le_succ _
  | commit i j =>
      rcases commit_cases h with ⟨run, b, _, _, _, rfl⟩
      exact Nat.le_refl _
  | stop i =>
      cases h
      exact Nat.le_refl _

/-!
# Runs
-/

/-- What holds as long as no item is saved while it is in flight. -/
structure Orderly (s : RollbackState) : Prop where
  saved_lt : forall item savedAt, (item, savedAt) ∈ s.saved ->
    savedAt < s.clock
  saved_before_fetch : forall item savedAt r fetchedAt,
    (item, savedAt) ∈ s.saved -> s.HasRequest item.itemType r ->
    item.remoteId ∈ r.ids -> r.fetchedAt = some fetchedAt ->
    savedAt < fetchedAt
  kept : forall item savedAt, (item, savedAt) ∈ s.saved ->
    item ∈ s.rows ∨
      exists fetchedAt, (item, fetchedAt) ∈ s.stored ∧ savedAt < fetchedAt

theorem Orderly.empty : Orderly empty where
  saved_lt := fun _ _ h => nomatch h
  saved_before_fetch := fun _ _ _ _ h => nomatch h
  kept := fun _ _ h => nomatch h

theorem Orderly.saved_lt_next (hs : s.Orderly) (h : s.next e = some s')
    {savedAt : Nat} (hsaved : (item, savedAt) ∈ s'.saved) :
    savedAt < s'.clock := by
  rcases saved_of_next h hsaved with hold | ⟨ids, kind, rfl, _, _, rfl⟩
  · exact Nat.lt_of_lt_of_le (hs.saved_lt item savedAt hold)
      (clock_le_of_next h)
  · cases h
    exact Nat.lt_succ_self _

theorem Orderly.saved_before_fetch_next (hs : s.Orderly)
    (hallowed : s.SavedOutsideFlight e) (h : s.next e = some s')
    {savedAt fetchedAt : Nat} {r : Request}
    (hsaved : (item, savedAt) ∈ s'.saved) (hr : s'.HasRequest item.itemType r)
    (hid : item.remoteId ∈ r.ids) (htime : r.fetchedAt = some fetchedAt) :
    savedAt < fetchedAt := by
  rcases saved_of_next h hsaved with hold | ⟨ids, kind, rfl, hin, rfl, rfl⟩
  · rcases hasRequest_of_next h hr with hrOld | hnone | hnow
    · exact hs.saved_before_fetch item savedAt r fetchedAt hold hrOld hid htime
    · rw [htime] at hnone
      cases hnone
    · rw [htime] at hnow
      cases hnow
      exact hs.saved_lt item savedAt hold
  · -- The item is saved now, so no request that was answered may contain it.
    cases h
    exact absurd ⟨r, fetchedAt, hr, hid, htime⟩ (hallowed item.remoteId hin)

theorem Orderly.kept_next (hs : s.Orderly) (h : s.next e = some s')
    {savedAt : Nat} (hsaved : (item, savedAt) ∈ s'.saved) :
    item ∈ s'.rows ∨
      exists fetchedAt, (item, fetchedAt) ∈ s'.stored ∧
        savedAt < fetchedAt := by
  cases e with
  | saveMany ids kind =>
      rcases saved_of_next h hsaved with hold | ⟨ids', kind', heq, hin, hkind, _⟩
      · cases h
        refine (hs.kept item savedAt hold).imp_left (fun hrow => ?_)
        exact RollbackItem.mem_saveMany.mpr (Or.inl hrow)
      · cases h
        cases heq
        exact Or.inl (RollbackItem.mem_saveMany.mpr (Or.inr ⟨hin, hkind⟩))
  | startSync kind batch =>
      rcases startSync_cases h with ⟨run, _, rfl⟩
      exact hs.kept item savedAt hsaved
  | fetch i j k =>
      rcases fetch_cases h with ⟨run, b, r, _, _, _, rfl⟩
      exact hs.kept item savedAt hsaved
  | commit i j =>
      rcases commit_cases h with ⟨run, b, hrun, hb, hfetched, rfl⟩
      by_cases hbatch : item.remoteId ∈ b.ids ∧ item.itemType = run.kind
      · rcases hbatch with ⟨hid, hkind⟩
        rcases exists_storedBy item.itemType hfetched hid with
          ⟨fetchedAt, hstored⟩
        rcases mem_storedBy.mp hstored with ⟨_, r, hr, hin, htime⟩
        have hrequest : s.HasRequest item.itemType r :=
          ⟨run, List.mem_of_getElem? hrun, hkind.symm, b,
            List.mem_of_getElem? hb, hr⟩
        refine Or.inr ⟨fetchedAt, ?_, hs.saved_before_fetch item savedAt r
          fetchedAt hsaved hrequest hin htime⟩
        exact List.mem_append_right _
          (mem_storedBy.mpr ⟨hkind, r, hr, hin, htime⟩)
      · rcases hs.kept item savedAt hsaved with hrow | ⟨fetchedAt, hstored, hlt⟩
        · exact Or.inl (RollbackItem.mem_deleteMany.mpr ⟨hrow, hbatch⟩)
        · exact Or.inr ⟨fetchedAt, List.mem_append_left _ hstored, hlt⟩
  | stop i =>
      cases h
      exact hs.kept item savedAt hsaved

theorem Orderly.next (hs : s.Orderly) (hallowed : s.SavedOutsideFlight e)
    (h : s.next e = some s') :
    s'.Orderly where
  saved_lt := fun _ _ hsaved => hs.saved_lt_next h hsaved
  saved_before_fetch := fun _ _ _ _ hsaved hr hid htime =>
    hs.saved_before_fetch_next hallowed h hsaved hr hid htime
  kept := fun _ _ hsaved => hs.kept_next h hsaved

theorem Orderly.commitsKeepLater (hs : s.Orderly) : s.CommitsKeepLater := by
  intro i j s' _ run b hrun hb item fetchedAt savedAt hstored hsaved hle
  rcases mem_storedBy.mp hstored with ⟨hkind, r, hr, hid, htime⟩
  have hrequest : s.HasRequest item.itemType r :=
    ⟨run, List.mem_of_getElem? hrun, hkind.symm, b, List.mem_of_getElem? hb, hr⟩
  have hlt := hs.saved_before_fetch item savedAt r fetchedAt hsaved hrequest
    hid htime
  omega

theorem Orderly.noneLost (hs : s.Orderly) : s.NoneLost := by
  intro item savedAt hsaved
  exact (hs.kept item savedAt hsaved).imp_left recorded_of_mem

/--
In every run in which no item is saved while it is in flight, transactions
keep the requests that were saved after their fetch, and no request is lost.
-/
theorem rollback_requests_not_lost
    (hreach : rollbackSystem.ReachableWhen SavedOutsideFlight s) :
    s.CommitsKeepLater ∧ s.NoneLost := by
  have hs : s.Orderly := TransitionSystem.invariant_when Orderly
    (fun s hinit => by rw [hinit]; exact Orderly.empty)
    (fun s e s' _ hinv hallowed hstep => hinv.next hallowed hstep) hreach
  exact ⟨hs.commitsKeepLater, hs.noneLost⟩

/-- A message is rolled back, fetched and stored. -/
def oneMessageSynced : RollbackState where
  rows := []
  runs := [⟨RollbackItemType.message, []⟩]
  clock := 2
  saved := [(⟨"m", RollbackItemType.message⟩, 0)]
  stored := [(⟨"m", RollbackItemType.message⟩, 1)]

theorem oneMessageSynced_not_lost : oneMessageSynced.NoneLost := by
  have h₁ : rollbackSystem.ReachableWhen SavedOutsideFlight _ :=
    TransitionSystem.ReachableWhen.next
      (TransitionSystem.ReachableWhen.start rfl)
      (l := RollbackEvent.saveMany ["m"] RollbackItemType.message)
      (by rintro id _ ⟨r, time, ⟨run, hrun, _⟩, _⟩; cases hrun) rfl
  have h₂ := TransitionSystem.ReachableWhen.next h₁
    (l := RollbackEvent.startSync RollbackItemType.message (some 3))
    True.intro rfl
  have h₃ := TransitionSystem.ReachableWhen.next h₂
    (l := RollbackEvent.fetch 0 0 0) True.intro rfl
  have h₄ := TransitionSystem.ReachableWhen.next h₃
    (l := RollbackEvent.commit 0 0) True.intro
    (show _ = some oneMessageSynced by decide)
  exact (rollback_requests_not_lost h₄).right

/-- The message is saved again after the server has read its state. -/
def savedInFlight : List RollbackEvent :=
  [RollbackEvent.saveMany ["m"] RollbackItemType.message,
    RollbackEvent.startSync RollbackItemType.message none,
    RollbackEvent.fetch 0 0 0,
    RollbackEvent.saveMany ["m"] RollbackItemType.message,
    RollbackEvent.commit 0 0]

def afterSavedInFlight : RollbackState where
  rows := []
  runs := [⟨RollbackItemType.message, []⟩]
  clock := 3
  saved := [(⟨"m", RollbackItemType.message⟩, 0),
    (⟨"m", RollbackItemType.message⟩, 2)]
  stored := [(⟨"m", RollbackItemType.message⟩, 1)]

theorem savedInFlight_lost :
    exists s, rollbackSystem.Reachable s ∧
      (⟨"m", RollbackItemType.message⟩, 2) ∈ s.saved ∧ s.rows = [] ∧
      ¬ s.NoneLost := by
  exists afterSavedInFlight
  refine ⟨?_, by decide, rfl, ?_⟩
  · have hreplay : savedInFlight.foldlM next empty =
        some afterSavedInFlight := by
      decide
    have hstart : rollbackSystem.Reachable empty :=
      TransitionSystem.ReachableWhen.start rfl
    exact hstart.replay (fun _ _ _ hstep => hstep) hreplay
  · intro hnone
    rcases hnone ⟨"m", RollbackItemType.message⟩ 2 (by decide) with
      ⟨hrow, _⟩ | ⟨fetchedAt, hstored, hlt⟩
    · cases hrow
    · simp [afterSavedInFlight] at hstored
      omega

end RollbackState

end Actions
end MailClient
