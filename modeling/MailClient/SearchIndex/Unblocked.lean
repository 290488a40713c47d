import Mathlib.Algebra.Ring.Nat
import MailClient.SearchIndex.Retries

/-!
# Messages that block the queue

An intent whose message cannot be prepared is not marked as failed: it ends the
run before any message of the batch is indexed, and is fetched again by the next
one.  Where there is no such intent the queue is worked off.
-/

namespace MailClient
namespace SearchIndex

open Foundation
open Foundation.TransitionSystem (Runs RunsIn)

/--
The messages whose preparation fails, and those that have no remote id yet; all
else succeeds.
-/
structure Outcomes (services : Services)
    (bad waiting : LocalMessageId -> Prop) : Prop where
  fails : forall hashes messages, messages ≠ [] ->
    ((exists e, services.prepareAll hashes messages = Except.error e) ↔
      exists m, m ∈ messages ∧ bad m)
  defers : forall hashes messages results, messages ≠ [] ->
    services.prepareAll hashes messages = Except.ok results ->
    List.Forall₂ (fun m result => isDeferred result = true ↔ waiting m)
      messages results
  engine : forall calls call, services.engine calls call = Except.ok ()

/-- An intent that no run can execute. -/
structure Blocks (bad waiting : LocalMessageId -> Prop)
    (intent : SearchIndexIntent) : Prop where
  index : intent.operation = SearchOperation.index
  retried : intent.retryCount < maxRetryCount
  message : bad intent.messageId ∨ waiting intent.messageId

theorem Services.checkContent_ne_defer (services : Services)
    {stored : Option String} {remoteId : MessageId} {document : Document} :
    services.checkContent stored remoteId document ≠
      PrepareIndexResult.defer := by
  unfold Services.checkContent
  dsimp only
  split
  · exact PrepareIndexResult.noConfusion
  · exact PrepareIndexResult.noConfusion

namespace WorkerState

variable {services : Services} {bad waiting : LocalMessageId -> Prop}
  {s : WorkerState} {batch : List SearchIndexIntent} {now : Int}

/-!
# What a run is to do
-/

/-- What the preparation gives for the intents of a batch. -/
def prepared (services : Services) (batch : List SearchIndexIntent)
    (s : WorkerState) : List (SearchIndexIntent × PrepareIndexResult) :=
  match services.prepareAll s.contentHashes
      ((pending SearchOperation.index batch).map
        SearchIndexIntent.messageId) with
  | Except.error _ => []
  | Except.ok results => (pending SearchOperation.index batch).zip results

/-- What an intent asks for is done by some calls, or there is nothing to do. -/
def Executed (services : Services) (batch : List SearchIndexIntent)
    (s : WorkerState) (calls : List EngineCall) (intent : SearchIndexIntent) :
    Prop :=
  match intent.operation with
  | SearchOperation.index => exists result,
      (intent, result) ∈ s.prepared services batch ∧
        (isSkipped result = true ∨ exists remoteId document hash documents,
          result = PrepareIndexResult.ready remoteId document hash ∧
            (remoteId, document) ∈ documents ∧
            EngineCall.indexMessageBodiesBatch documents ∈ calls)
  | SearchOperation.remove =>
      services.provider.getRemoteId intent.messageId = Except.ok none ∨
        exists remoteId,
          services.provider.getRemoteId intent.messageId =
            Except.ok (some remoteId) ∧
          EngineCall.removeMessage remoteId ∈ calls

/-- What becomes of an intent that was fetched. -/
inductive Handled (services : Services) (batch : List SearchIndexIntent)
    (s s' : WorkerState) (intent : SearchIndexIntent) : Prop where
  | givenUp (hretries : maxRetryCount <= intent.retryCount)
      (hgone : intent.key ∉ s'.intents.keys) :
      Handled services batch s s' intent
  | executed (hretries : intent.retryCount < maxRetryCount)
      (hgone : intent.key ∉ s'.intents.keys) (calls : List EngineCall)
      (hcalls : s'.calls = s.calls ++ calls)
      (hexecuted : Executed services batch s calls intent) :
      Handled services batch s s' intent
  | failed (hretries : intent.retryCount < maxRetryCount)
      (hfails : exists e, services.provider.getRemoteId intent.messageId =
        Except.error e)
      (hmarked : intent.markFailed ∈ s'.intents.rows) :
      Handled services batch s s' intent

structure Advances (services : Services) (bad : LocalMessageId -> Prop)
    (now : Int) (batch : List SearchIndexIntent) (s : WorkerState) : Prop where
  handled : forall intent, intent ∈ batch -> Handled services batch s
    (s.processBatch services now batch).1 intent
  kept : forall intent, intent ∈ s.intents.rows -> intent ∉ batch ->
    intent ∈ (s.processBatch services now batch).1.intents.rows
  errors : forall e,
    (s.processBatch services now batch).2 = Except.error e ->
    exists intent, intent ∈ batch ∧ bad intent.messageId ∧
      intent.markFailed ∈ (s.processBatch services now batch).1.intents.rows

/-- The queue is empty after some runs, and every run makes progress. -/
structure Unblocked (services : Services) (bad : LocalMessageId -> Prop)
    (s : WorkerState) : Prop where
  settles : exists n, forall s', RunsIn (worker services) n s s' ->
    s'.intents.rows = []
  advances : forall s', Runs (worker services) s s' ->
    forall now batch, s'.PendingBatch batch ->
      Advances services bad now batch s'

/-!
# Intents of a batch
-/

theorem PendingBatch.mem_keys (hbatch : s.PendingBatch batch)
    {p : SearchIndexIntent -> Bool} {intent : SearchIndexIntent}
    (hintent : intent ∈ s.intents.rows) :
    intent.key ∈ (batch.filter p).map SearchIndexIntent.key ↔
      intent ∈ batch ∧ p intent = true := by
  constructor
  · intro h
    rcases List.mem_map.mp h with ⟨fetched, hfetched, hkey⟩
    rcases List.mem_filter.mp hfetched with ⟨hmem, hp⟩
    have heq := Table.eq_of_key (hbatch.pending fetched hmem) hintent hkey
    rw [<- heq]
    exact ⟨hmem, hp⟩
  · intro h
    exact List.mem_map_of_mem (List.mem_filter.mpr h)

theorem PendingBatch.nodup_keys (hbatch : s.PendingBatch batch)
    (p : SearchIndexIntent -> Bool) :
    ((batch.filter p).map SearchIndexIntent.key).Nodup := by
  refine (hbatch.nodup.filter p).map_on ?_
  intro a ha b hb hkey
  exact Table.eq_of_key (hbatch.pending a (List.mem_of_mem_filter ha))
    (hbatch.pending b (List.mem_of_mem_filter hb)) hkey

theorem mem_pending {operation : SearchOperation} {intent : SearchIndexIntent} :
    intent ∈ pending operation batch ↔ intent ∈ batch ∧
      intent.retryCount < maxRetryCount ∧ intent.operation = operation := by
  unfold pending deadLetter
  simp [List.mem_filter]

theorem exists_pendingBatch (s : WorkerState) :
    exists batch, s.PendingBatch batch := by
  let le : SearchIndexIntent -> SearchIndexIntent -> Bool :=
    fun a b => decide (a.createdAt <= b.createdAt)
  let sorted := s.intents.rows.mergeSort le
  let n := batchSize s.intents.rows.length
  have hnodup : s.intents.rows.Nodup := s.intents.unique.of_map _
  have hperm : sorted.Perm s.intents.rows := List.mergeSort_perm _ _
  have hsorted : sorted.Pairwise (fun a b => le a b = true) :=
    List.pairwise_mergeSort
      (fun a b c hab hbc => by
        simp only [le, decide_eq_true_eq] at hab hbc ⊢
        exact hab.trans hbc)
      (fun a b => by
        simp only [le, Bool.or_eq_true, decide_eq_true_eq]
        exact le_total _ _) _
  have hsplit : (sorted.take n ++ sorted.drop n).Pairwise
      (fun a b => le a b = true) := by
    rw [List.take_append_drop]
    exact hsorted
  have happend := List.pairwise_append.mp hsplit
  refine ⟨sorted.take n, ?_⟩
  constructor
  · exact (hperm.nodup_iff.mpr hnodup).sublist (List.take_sublist _ _)
  · intro intent hintent
    exact hperm.mem_iff.mp (List.mem_of_mem_take hintent)
  · exact happend.left.imp (fun h => of_decide_eq_true h)
  · intro intent hintent hout fetched hfetched
    have hmem : intent ∈ sorted.take n ++ sorted.drop n := by
      rw [List.take_append_drop]
      exact hperm.mem_iff.mpr hintent
    rcases List.mem_append.mp hmem with htake | hdrop
    · exact absurd htake hout
    · exact of_decide_eq_true (happend.right.right fetched hfetched intent hdrop)
  · rw [List.length_take, hperm.length_eq]

/-!
# Removing messages
-/

/-- What is left of an intent to remove a message. -/
def removal (services : Services) (intent : SearchIndexIntent) :
    Option SearchIndexIntent :=
  match services.provider.getRemoteId intent.messageId with
  | Except.error _ => some intent.markFailed
  | Except.ok _ => none

theorem key_removal {intent intent' : SearchIndexIntent}
    (h : removal services intent = some intent') :
    intent'.key = intent.key := by
  unfold removal at h
  split at h
  · cases h
    rfl
  · cases h

theorem call_eq (houtcomes : Outcomes services bad waiting) (c : EngineCall) :
    s.call services c = Except.ok { s with calls := s.calls ++ [c] } := by
  unfold call
  rw [houtcomes.engine]

theorem rows_processSingleIntent (houtcomes : Outcomes services bad waiting)
    (intent : SearchIndexIntent) :
    (s.processSingleIntent services intent).intents.rows =
      s.intents.rows.filterMap (fun row =>
        if row.key = intent.key then removal services row else some row) := by
  have hdelete : forall t : IntentTable,
      (forall row, row ∈ t.rows -> row.key = intent.key ->
        removal services row = none) ->
      (t.deleteAll [intent.key]).rows = t.rows.filterMap (fun row =>
        if row.key = intent.key then removal services row else some row) := by
    intro t hnone
    rw [Table.rows_deleteAll, <- List.filterMap_eq_filter]
    refine List.filterMap_congr ?_
    intro row hrow
    by_cases hkey : row.key = intent.key
    · simp [hkey, hnone row hrow hkey, Option.guard]
    · simp [hkey, Option.guard]
  unfold processSingleIntent removeMessage
  cases hremote : services.provider.getRemoteId intent.messageId with
  | error e =>
      change (s.intents.modifyAll [intent.key] SearchIndexIntent.markFailed
        SearchIndexIntent.key_markFailed).rows = _
      rw [Table.rows_modifyAll (List.nodup_singleton _),
        <- List.filterMap_eq_map]
      refine List.filterMap_congr ?_
      intro row _
      by_cases hkey : row.key = intent.key
      · have hmessage : row.messageId = intent.messageId :=
          congrArg Prod.fst hkey
        simp [hkey, removal, hmessage, hremote]
      · simp [hkey]
  | ok remoteId =>
      have hnone : forall row : SearchIndexIntent, row.key = intent.key ->
          removal services row = none := by
        intro row hkey
        have hmessage : row.messageId = intent.messageId :=
          congrArg Prod.fst hkey
        unfold removal
        rw [hmessage, hremote]
      cases remoteId with
      | none => exact hdelete _ (fun row _ => hnone row)
      | some r =>
          dsimp only
          rw [call_eq houtcomes]
          exact hdelete _ (fun row _ => hnone row)

variable {intents : List SearchIndexIntent}
  {entries : List (SearchIndexIntent × PrepareIndexResult)}

theorem rows_removals (houtcomes : Outcomes services bad waiting)
    (hnodup : (intents.map SearchIndexIntent.key).Nodup) :
    (intents.foldl (processSingleIntent services) s).intents.rows =
      s.intents.rows.filterMap (fun row =>
        if row.key ∈ intents.map SearchIndexIntent.key then
          removal services row
        else
          some row) := by
  induction intents generalizing s with
  | nil => simp
  | cons intent rest ih =>
      rw [List.map_cons] at hnodup
      have hrest := List.nodup_cons.mp hnodup
      rw [List.foldl_cons, ih hrest.right, rows_processSingleIntent houtcomes,
        List.filterMap_filterMap]
      refine List.filterMap_congr ?_
      intro row _
      by_cases hkey : row.key = intent.key
      · rw [if_pos hkey, List.map_cons,
          if_pos (hkey ▸ List.mem_cons_self)]
        cases hremoval : removal services row with
        | none => rfl
        | some row' =>
            have hout : row'.key ∉ rest.map SearchIndexIntent.key := by
              rw [key_removal hremoval, hkey]
              exact hrest.left
            exact if_neg hout
      · rw [if_neg hkey]
        simp [hkey]

theorem calls_processSingleIntent (houtcomes : Outcomes services bad waiting)
    (intent : SearchIndexIntent) :
    exists calls,
      (s.processSingleIntent services intent).calls = s.calls ++ calls ∧
        forall remoteId,
          services.provider.getRemoteId intent.messageId =
            Except.ok (some remoteId) ->
          EngineCall.removeMessage remoteId ∈ calls := by
  unfold processSingleIntent removeMessage
  cases hremote : services.provider.getRemoteId intent.messageId with
  | error e => exact ⟨[], (List.append_nil _).symm, fun _ h => by cases h⟩
  | ok remoteId =>
      cases remoteId with
      | none => exact ⟨[], (List.append_nil _).symm, fun _ h => by cases h⟩
      | some r =>
          dsimp only
          rw [call_eq houtcomes]
          refine ⟨[EngineCall.removeMessage r], rfl, ?_⟩
          intro r' h
          cases h
          exact List.mem_cons_self

theorem calls_removals (houtcomes : Outcomes services bad waiting)
    (intents : List SearchIndexIntent) :
    exists calls,
      (intents.foldl (processSingleIntent services) s).calls =
          s.calls ++ calls ∧
        forall intent, intent ∈ intents -> forall remoteId,
          services.provider.getRemoteId intent.messageId =
            Except.ok (some remoteId) ->
          EngineCall.removeMessage remoteId ∈ calls := by
  induction intents generalizing s with
  | nil =>
      exact ⟨[], (List.append_nil _).symm, fun _ h => absurd h List.not_mem_nil⟩
  | cons first rest ih =>
      rcases calls_processSingleIntent (s := s) houtcomes first with
        ⟨calls, hcalls, hfirst⟩
      rcases ih (s := s.processSingleIntent services first) with
        ⟨more, hmore, hrest⟩
      refine ⟨calls ++ more, ?_, ?_⟩
      · rw [List.foldl_cons, hmore, hcalls, List.append_assoc]
      · intro intent hintent remoteId hremote
        rcases List.mem_cons.mp hintent with heq | hmem
        · exact List.mem_append_left _ (hfirst remoteId (heq ▸ hremote))
        · exact List.mem_append_right _ (hrest intent hmem remoteId hremote)

/-!
# Indexing messages
-/

def keysWith (p : PrepareIndexResult -> Bool)
    (entries : List (SearchIndexIntent × PrepareIndexResult)) : List Intent :=
  (entries.filter (fun entry => p entry.2)).map (fun entry => entry.1.key)

theorem mem_keysWith {p : PrepareIndexResult -> Bool} {k : Intent} :
    k ∈ keysWith p entries ↔
      exists intent result, (intent, result) ∈ entries ∧ p result = true ∧
        intent.key = k := by
  unfold keysWith
  constructor
  · intro h
    rcases List.mem_map.mp h with ⟨entry, hentry, hkey⟩
    rcases List.mem_filter.mp hentry with ⟨hmem, hp⟩
    exact ⟨entry.1, entry.2, hmem, hp, hkey⟩
  · intro h
    rcases h with ⟨intent, result, hmem, hp, hkey⟩
    exact List.mem_map.mpr
      ⟨(intent, result), List.mem_filter.mpr ⟨hmem, hp⟩, hkey⟩

def isReady (result : PrepareIndexResult) : Bool :=
  !isSkipped result && !isDeferred result

theorem keys_ready
    (entries : List (SearchIndexIntent × PrepareIndexResult)) :
    (entries.filterMap readyIntent).map (fun entry => entry.intent.key) =
      keysWith isReady entries := by
  unfold keysWith
  induction entries with
  | nil => rfl
  | cons entry rest ih =>
      rcases entry with ⟨intent, result⟩
      cases result with
      | ready remoteId document hash =>
          exact congrArg (fun keys => intent.key :: keys) ih
      | defer => exact ih
      | skip => exact ih
      | skipDuplicate => exact ih

theorem intents_indexPrepared (houtcomes : Outcomes services bad waiting)
    (entries : List (SearchIndexIntent × PrepareIndexResult)) :
    (s.indexPrepared services now entries).intents =
      (((s.delete (keysWith isSkipped entries)).defer now
        (keysWith isDeferred entries)).delete
          (keysWith isReady entries)).intents := by
  unfold indexPrepared
  dsimp only
  rw [keys_ready]
  split
  · rename_i hready
    have hkeys : keysWith isReady entries = [] := by
      rw [<- keys_ready, hready, List.map_nil]
    rw [hkeys]
    rfl
  · rw [call_eq houtcomes]
    rfl

theorem calls_indexPrepared (houtcomes : Outcomes services bad waiting)
    (entries : List (SearchIndexIntent × PrepareIndexResult)) :
    exists calls,
      (s.indexPrepared services now entries).calls = s.calls ++ calls ∧
        forall intent remoteId document hash,
          (intent, PrepareIndexResult.ready remoteId document hash) ∈ entries ->
          exists documents, (remoteId, document) ∈ documents ∧
            EngineCall.indexMessageBodiesBatch documents ∈ calls := by
  have hmem : forall intent remoteId document hash,
      (intent, PrepareIndexResult.ready remoteId document hash) ∈ entries ->
      (⟨intent, remoteId, document, hash⟩ : ReadyIntent) ∈
        entries.filterMap readyIntent :=
    fun intent remoteId document hash h =>
      List.mem_filterMap.mpr ⟨_, h, rfl⟩
  unfold indexPrepared
  dsimp only
  split
  · rename_i hready
    refine ⟨[], (List.append_nil _).symm, ?_⟩
    intro intent remoteId document hash h
    have hnone := hmem intent remoteId document hash h
    rw [hready] at hnone
    exact absurd hnone List.not_mem_nil
  · rw [call_eq houtcomes]
    refine ⟨[_], rfl, ?_⟩
    intro intent remoteId document hash h
    have hdocument := List.mem_map_of_mem
      (f := fun entry : ReadyIntent => (entry.remoteId, entry.document))
      (hmem intent remoteId document hash h)
    exact ⟨_, hdocument, List.mem_cons_self⟩

/-!
# The preparation of a batch
-/

/-- The entries of a preparation that succeeded. -/
structure Prepared (waiting : LocalMessageId -> Prop)
    (intents : List SearchIndexIntent)
    (entries : List (SearchIndexIntent × PrepareIndexResult)) : Prop where
  intents : entries.map Prod.fst = intents
  waiting : forall intent result, (intent, result) ∈ entries ->
    (isDeferred result = true ↔ waiting intent.messageId)

theorem Prepared.result (h : Prepared waiting intents entries)
    {intent : SearchIndexIntent} (hintent : intent ∈ intents) :
    exists result, (intent, result) ∈ entries := by
  rw [<- h.intents] at hintent
  rcases List.mem_map.mp hintent with ⟨entry, hentry, heq⟩
  exact ⟨entry.2, heq ▸ hentry⟩

theorem Prepared.intent (h : Prepared waiting intents entries)
    {intent : SearchIndexIntent} {result : PrepareIndexResult}
    (hentry : (intent, result) ∈ entries) :
    intent ∈ intents := by
  rw [<- h.intents]
  exact List.mem_map_of_mem (f := Prod.fst) hentry

theorem processIndexBatch_cases (houtcomes : Outcomes services bad waiting)
    (hne : intents ≠ []) :
    ((exists intent, intent ∈ intents ∧ bad intent.messageId) ∧
        exists e, services.prepareAll s.contentHashes
            (intents.map SearchIndexIntent.messageId) = Except.error e) ∨
      ((forall intent, intent ∈ intents -> ¬ bad intent.messageId) ∧
        exists results,
          services.prepareAll s.contentHashes
              (intents.map SearchIndexIntent.messageId) = Except.ok results ∧
            Prepared waiting intents (intents.zip results)) := by
  have hmessages : intents.map SearchIndexIntent.messageId ≠ [] :=
    fun h => hne (List.map_eq_nil_iff.mp h)
  have hfails := houtcomes.fails s.contentHashes _ hmessages
  cases hprepared : services.prepareAll s.contentHashes
      (intents.map SearchIndexIntent.messageId) with
  | error e =>
      rcases hfails.mp ⟨e, hprepared⟩ with ⟨m, hm, hbad⟩
      rcases List.mem_map.mp hm with ⟨intent, hintent, heq⟩
      exact Or.inl ⟨⟨intent, hintent, heq ▸ hbad⟩, e, rfl⟩
  | ok results =>
      refine Or.inr ⟨?_, results, rfl, ?_⟩
      · intro intent hintent hbad
        rcases hfails.mpr ⟨_, List.mem_map_of_mem hintent, hbad⟩ with ⟨e, he⟩
        rw [hprepared] at he
        cases he
      · have hall := List.forall₂_map_left_iff.mp
          (houtcomes.defers _ _ _ hmessages hprepared)
        have hzip := List.forall₂_iff_zip.mp hall
        constructor
        · exact List.map_fst_zip (Nat.le_of_eq hzip.left)
        · intro intent result hentry
          exact hzip.right hentry

/-!
# Runs that nothing blocks
-/

theorem rows_indexPrepared (houtcomes : Outcomes services bad waiting)
    (hentries : Prepared waiting intents entries)
    (hfree : forall intent, intent ∈ intents -> ¬ waiting intent.messageId) :
    (s.indexPrepared services now entries).intents.rows =
      s.intents.rows.filter (fun row =>
        row.key ∉ intents.map SearchIndexIntent.key) := by
  have hdeferred : keysWith isDeferred entries = [] := by
    refine List.eq_nil_iff_forall_not_mem.mpr ?_
    intro k hk
    rcases mem_keysWith.mp hk with ⟨intent, result, hmem, hdefer, _⟩
    exact hfree intent (hentries.intent hmem)
      ((hentries.waiting intent result hmem).mp hdefer)
  have hkeys : forall k, k ∈ intents.map SearchIndexIntent.key ↔
      k ∈ keysWith isSkipped entries ∨ k ∈ keysWith isReady entries := by
    intro k
    rw [mem_keysWith, mem_keysWith]
    constructor
    · intro h
      rcases List.mem_map.mp h with ⟨intent, hintent, hkey⟩
      rcases hentries.result hintent with ⟨result, hmem⟩
      have hdefer : isDeferred result = false :=
        Bool.eq_false_iff.mpr (fun h => hfree intent hintent
          ((hentries.waiting intent result hmem).mp h))
      cases hskip : isSkipped result with
      | true => exact Or.inl ⟨intent, result, hmem, hskip, hkey⟩
      | false =>
          refine Or.inr ⟨intent, result, hmem, ?_, hkey⟩
          unfold isReady
          rw [hskip, hdefer]
          rfl
    · intro h
      rcases h with ⟨intent, result, hmem, _, hkey⟩ |
        ⟨intent, result, hmem, _, hkey⟩
      · exact hkey ▸ List.mem_map_of_mem (hentries.intent hmem)
      · exact hkey ▸ List.mem_map_of_mem (hentries.intent hmem)
  rw [intents_indexPrepared houtcomes, hdeferred]
  change (((s.intents.deleteAll _)).deleteAll _).rows = _
  rw [Table.rows_deleteAll, Table.rows_deleteAll, List.filter_filter]
  refine List.filter_congr ?_
  intro row _
  rw [<- Bool.decide_and]
  refine decide_eq_decide.mpr ?_
  rw [hkeys, not_or, and_comm]

theorem indexed_spec (houtcomes : Outcomes services bad waiting)
    (hfree : forall intent, intent ∈ pending SearchOperation.index batch ->
      ¬ bad intent.messageId ∧ ¬ waiting intent.messageId) :
    exists s',
      (if pending SearchOperation.index batch = [] then Except.ok s
        else s.processIndexBatch services now
          (pending SearchOperation.index batch)) = Except.ok s' ∧
      s'.intents.rows = s.intents.rows.filter (fun row => row.key ∉
        (pending SearchOperation.index batch).map SearchIndexIntent.key) ∧
      exists calls, s'.calls = s.calls ++ calls ∧
        forall intent, intent ∈ pending SearchOperation.index batch ->
          Executed services batch s calls intent := by
  by_cases hnil : pending SearchOperation.index batch = []
  · refine ⟨s, if_pos hnil, ?_, [], (List.append_nil _).symm, ?_⟩
    · rw [hnil]
      simp
    · intro intent hintent
      rw [hnil] at hintent
      exact absurd hintent List.not_mem_nil
  · rw [if_neg hnil]
    rcases processIndexBatch_cases (s := s) houtcomes hnil with
      ⟨⟨intent, hintent, hbad⟩, _⟩ | ⟨_, results, hresults, hentries⟩
    · exact absurd hbad (hfree intent hintent).left
    · unfold processIndexBatch
      rw [hresults]
      rcases calls_indexPrepared (s := s) houtcomes
        ((pending SearchOperation.index batch).zip results) with
        ⟨calls, hcalls, hready⟩
      refine ⟨_, rfl, ?_, calls, hcalls, ?_⟩
      · exact rows_indexPrepared houtcomes hentries
          (fun intent hintent => (hfree intent hintent).right)
      · intro intent hintent
        rcases hentries.result hintent with ⟨result, hmem⟩
        unfold Executed prepared
        rw [(mem_pending.mp hintent).right.right, hresults]
        refine ⟨result, hmem, ?_⟩
        cases result with
        | ready remoteId document hash =>
            rcases hready _ _ _ _ hmem with ⟨documents, hdocument, hcall⟩
            exact Or.inr
              ⟨remoteId, document, hash, documents, rfl, hdocument, hcall⟩
        | defer =>
            exact absurd ((hentries.waiting _ _ hmem).mp rfl)
              (hfree intent hintent).right
        | skip => exact Or.inl rfl
        | skipDuplicate => exact Or.inl rfl

/-- What is left of an intent after a run. -/
def leftOf (services : Services) (batch : List SearchIndexIntent)
    (intent : SearchIndexIntent) : Option SearchIndexIntent :=
  if intent ∈ batch then
    if deadLetter intent then none
    else
      match intent.operation with
      | SearchOperation.index => none
      | SearchOperation.remove => removal services intent
  else
    some intent

theorem key_leftOf {intent intent' : SearchIndexIntent}
    (h : leftOf services batch intent = some intent') :
    intent'.key = intent.key := by
  unfold leftOf at h
  split at h
  · split at h
    · cases h
    · split at h
      · cases h
      · exact key_removal h
  · cases h
    rfl

/-- A run in which the fetched messages can be prepared. -/
structure Worked (services : Services) (now : Int)
    (batch : List SearchIndexIntent) (s : WorkerState) : Prop where
  result : exists processed,
    (s.processBatch services now batch).2 = Except.ok processed
  rows : (s.processBatch services now batch).1.intents.rows =
    s.intents.rows.filterMap (leftOf services batch)
  calls : exists calls,
    (s.processBatch services now batch).1.calls = s.calls ++ calls ∧
      forall intent, intent ∈ batch -> intent.retryCount < maxRetryCount ->
        (forall e, intent.operation = SearchOperation.remove ->
          services.provider.getRemoteId intent.messageId ≠ Except.error e) ->
        Executed services batch s calls intent

theorem worked (houtcomes : Outcomes services bad waiting)
    (hbatch : s.PendingBatch batch)
    (hfree : forall intent, intent ∈ pending SearchOperation.index batch ->
      ¬ bad intent.messageId ∧ ¬ waiting intent.messageId) :
    Worked services now batch s := by
  by_cases hnil : batch = []
  · have hrun : s.processBatch services now batch = (s, Except.ok false) := by
      unfold processBatch
      exact if_pos hnil
    constructor
    · exact ⟨false, by rw [hrun]⟩
    · have hleft : leftOf services batch = some := by
        funext row
        unfold leftOf
        rw [hnil]
        exact if_neg List.not_mem_nil
      rw [hrun, hleft, List.filterMap_some]
    · refine ⟨[], by rw [hrun, List.append_nil], ?_⟩
      intro intent hintent
      rw [hnil] at hintent
      exact absurd hintent List.not_mem_nil
  · let s₁ := s.delete ((batch.filter deadLetter).map SearchIndexIntent.key)
    rcases indexed_spec (s := s₁) houtcomes hfree with
      ⟨s₂, hindexed, hrows, calls, hcalls, hexecuted⟩
    rcases calls_removals (s := s₂) houtcomes
      (pending SearchOperation.remove batch) with ⟨more, hmore, hremoved⟩
    have hrun : s.processBatch services now batch =
        ((pending SearchOperation.remove batch).foldl
          (processSingleIntent services) s₂, Except.ok true) := by
      unfold processBatch
      rw [if_neg hnil]
      dsimp only
      rw [hindexed]
    constructor
    · exact ⟨true, by rw [hrun]⟩
    · have hnodup : ((pending SearchOperation.remove batch).map
          SearchIndexIntent.key).Nodup := hbatch.nodup_keys _
      rw [hrun, rows_removals houtcomes hnodup, hrows]
      change ((s.intents.deleteAll _).rows.filter _).filterMap _ = _
      rw [Table.rows_deleteAll, List.filter_filter, List.filterMap_filter]
      refine List.filterMap_congr ?_
      intro row hrow
      have hdead := hbatch.mem_keys (p := deadLetter) hrow
      have hindex := hbatch.mem_keys (p := fun intent =>
        !deadLetter intent && intent.operation = SearchOperation.index) hrow
      have hremove := hbatch.mem_keys (p := fun intent =>
        !deadLetter intent && intent.operation = SearchOperation.remove) hrow
      unfold pending leftOf
      simp only [hdead, hindex, hremove]
      by_cases hmem : row ∈ batch
      · cases hdeadRow : deadLetter row with
        | true => simp [hmem]
        | false =>
            cases hoperation : row.operation with
            | index => simp [hmem]
            | remove => simp [hmem]
      · simp [hmem]
    · refine ⟨calls ++ more, ?_, ?_⟩
      · rw [hrun, hmore, hcalls, List.append_assoc]
        rfl
      · intro intent hintent hretries hremote
        cases hoperation : intent.operation with
        | index =>
            have h := hexecuted intent
              (mem_pending.mpr ⟨hintent, hretries, hoperation⟩)
            unfold Executed at h ⊢
            rw [hoperation] at h ⊢
            rcases h with ⟨result, hmem, hskipped | hready⟩
            · exact ⟨result, hmem, Or.inl hskipped⟩
            · rcases hready with
                ⟨remoteId, document, hash, documents, heq, hdocument, hcall⟩
              exact ⟨result, hmem, Or.inr ⟨remoteId, document, hash, documents,
                heq, hdocument, List.mem_append_left _ hcall⟩⟩
        | remove =>
            unfold Executed
            rw [hoperation]
            cases hid : services.provider.getRemoteId intent.messageId with
            | error e => exact absurd hid (hremote e hoperation)
            | ok remoteId =>
                cases remoteId with
                | none => exact Or.inl rfl
                | some r =>
                    refine Or.inr ⟨r, rfl, List.mem_append_right _ ?_⟩
                    exact hremoved intent
                      (mem_pending.mpr ⟨hintent, hretries, hoperation⟩) r hid

/-!
# The queue without intents that block
-/

def Free (bad waiting : LocalMessageId -> Prop) (s : WorkerState) : Prop :=
  forall intent, intent ∈ s.intents.rows -> ¬ Blocks bad waiting intent

theorem Free.pending (hfree : Free bad waiting s)
    (hbatch : s.PendingBatch batch) :
    forall intent, intent ∈ pending SearchOperation.index batch ->
      ¬ bad intent.messageId ∧ ¬ waiting intent.messageId := by
  intro intent hintent
  rcases mem_pending.mp hintent with ⟨hmem, hretries, hindex⟩
  have hfree' := hfree intent (hbatch.pending intent hmem)
  exact ⟨fun h => hfree' ⟨hindex, hretries, Or.inl h⟩,
    fun h => hfree' ⟨hindex, hretries, Or.inr h⟩⟩

/-- The attempts that are left, with the run that discards the intent. -/
def attempts (intent : SearchIndexIntent) : Nat :=
  maxRetryCount - intent.retryCount + 1

def totalAttempts (s : WorkerState) : Nat :=
  (s.intents.rows.map attempts).sum

theorem attempts_leftOf {intent intent' : SearchIndexIntent}
    (h : leftOf services batch intent = some intent') :
    (intent ∈ batch -> attempts intent' + 1 <= attempts intent) ∧
      attempts intent' <= attempts intent := by
  unfold leftOf at h
  split at h
  · split at h
    · cases h
    · rename_i hdead
      have hretries : intent.retryCount < maxRetryCount := by
        unfold deadLetter at hdead
        simpa using hdead
      split at h
      · cases h
      · unfold removal at h
        split at h
        · cases h
          unfold attempts
          change (_ -> maxRetryCount - (intent.retryCount + 1) + 1 + 1 <= _) ∧
            maxRetryCount - (intent.retryCount + 1) + 1 <= _
          omega
        · cases h
  · rename_i hout
    cases h
    exact ⟨fun hmem => absurd hmem hout, Nat.le_refl _⟩

theorem attempts_filterMap (rows : List SearchIndexIntent) :
    ((rows.filterMap (leftOf services batch)).map attempts).sum +
        (rows.filter (fun row => row ∈ batch)).length <=
      (rows.map attempts).sum := by
  induction rows with
  | nil => exact Nat.le_refl _
  | cons row rest ih =>
      rw [List.map_cons, List.sum_cons]
      cases hleft : leftOf services batch row with
      | none =>
          rw [List.filterMap_cons_none hleft]
          have hone : 1 <= attempts row := Nat.le_add_left _ _
          by_cases hmem : row ∈ batch
          · rw [List.filter_cons_of_pos (by simpa using hmem),
              List.length_cons]
            omega
          · rw [List.filter_cons_of_neg (by simpa using hmem)]
            omega
      | some row' =>
          rw [List.filterMap_cons_some hleft, List.map_cons, List.sum_cons]
          have hattempts := attempts_leftOf hleft
          by_cases hmem : row ∈ batch
          · rw [List.filter_cons_of_pos (by simpa using hmem),
              List.length_cons]
            have hless := hattempts.left hmem
            omega
          · rw [List.filter_cons_of_neg (by simpa using hmem)]
            have hle := hattempts.right
            omega

theorem PendingBatch.exists_mem (hbatch : s.PendingBatch batch)
    (hrows : s.intents.rows ≠ []) :
    exists intent, intent ∈ batch ∧ intent ∈ s.intents.rows := by
  have hlength := hbatch.length
  have hpos : 0 < s.intents.rows.length := List.length_pos_iff.mpr hrows
  have hsize : 0 < batchSize s.intents.rows.length := by
    unfold batchSize SearchState.maxBatchSize minBatchSize
    split
    · omega
    · split
      · omega
      · omega
  have hne : batch ≠ [] := by
    intro hnil
    rw [hnil, List.length_nil] at hlength
    omega
  rcases List.exists_mem_of_ne_nil _ hne with ⟨intent, hintent⟩
  exact ⟨intent, hintent, hbatch.pending intent hintent⟩

theorem free_step (houtcomes : Outcomes services bad waiting)
    (hfree : Free bad waiting s) {label : Int × List SearchIndexIntent}
    {s' : WorkerState} (hstep : (worker services).step s label s') :
    Free bad waiting s' ∧ s'.totalAttempts <= s.totalAttempts - 1 := by
  rcases hstep with ⟨hbatch, heq⟩
  have hworked : Worked services label.1 label.2 s :=
    worked houtcomes hbatch (hfree.pending hbatch)
  have hrows : s'.intents.rows =
      s.intents.rows.filterMap (leftOf services label.2) := by
    rw [heq]
    exact hworked.rows
  constructor
  · intro intent hintent hblocks
    rw [hrows] at hintent
    rcases List.mem_filterMap.mp hintent with ⟨before, hbefore, hleft⟩
    have hkey := key_leftOf hleft
    have hretries := (attempts_leftOf hleft).right
    refine hfree before hbefore ⟨?_, ?_, ?_⟩
    · exact (congrArg Prod.snd hkey).symm.trans hblocks.index
    · have hlt := hblocks.retried
      unfold attempts at hretries
      omega
    · have hmessage : intent.messageId = before.messageId :=
        congrArg Prod.fst hkey
      rw [<- hmessage]
      exact hblocks.message
  · unfold totalAttempts
    rw [hrows]
    have hsum := @attempts_filterMap services label.2 s.intents.rows
    by_cases hnil : s.intents.rows = []
    · rw [hnil]
      exact Nat.zero_le _
    · rcases hbatch.exists_mem hnil with ⟨intent, hmem, hrow⟩
      have hpos : 0 < (s.intents.rows.filter
          (fun row => row ∈ label.2)).length :=
        List.length_pos_of_mem (List.mem_filter.mpr ⟨hrow, by simpa using hmem⟩)
      omega

theorem advances_of_free (houtcomes : Outcomes services bad waiting)
    (hfree : Free bad waiting s) (hbatch : s.PendingBatch batch) :
    Advances services bad now batch s := by
  have hworked : Worked services now batch s :=
    worked houtcomes hbatch (hfree.pending hbatch)
  have hgone : forall intent, intent ∈ s.intents.rows ->
      leftOf services batch intent = none ->
      intent.key ∉ (s.processBatch services now batch).1.intents.keys := by
    intro intent hintent hleft
    have hout := Table.key_not_mem_filterMap (fun _ _ h => key_leftOf h)
      hintent hleft
    unfold Table.keys Table.filterMap at hout
    unfold Table.keys
    rw [hworked.rows]
    exact hout
  constructor
  · intro intent hintent
    have hrow := hbatch.pending intent hintent
    by_cases hretries : maxRetryCount <= intent.retryCount
    · refine Handled.givenUp hretries (hgone intent hrow ?_)
      unfold leftOf deadLetter
      rw [if_pos hintent, if_pos (decide_eq_true hretries)]
    · have hlt := Nat.lt_of_not_le hretries
      have hleft : leftOf services batch intent =
          match intent.operation with
          | SearchOperation.index => none
          | SearchOperation.remove => removal services intent := by
        unfold leftOf deadLetter
        rw [if_pos hintent, if_neg (by simpa using hretries)]
      by_cases hfails : intent.operation = SearchOperation.remove ∧
          exists e, services.provider.getRemoteId intent.messageId =
            Except.error e
      · rcases hfails with ⟨hoperation, e, he⟩
        refine Handled.failed hlt ⟨e, he⟩ ?_
        rw [hworked.rows]
        refine List.mem_filterMap.mpr ⟨intent, hrow, ?_⟩
        rw [hleft, hoperation]
        unfold removal
        rw [he]
      · rcases hworked.calls with ⟨calls, hcalls, hexecuted⟩
        refine Handled.executed hlt (hgone intent hrow ?_) calls hcalls
          (hexecuted intent hintent hlt ?_)
        · rw [hleft]
          cases hoperation : intent.operation with
          | index => rfl
          | remove =>
              unfold removal
              cases hremote :
                  services.provider.getRemoteId intent.messageId with
              | error e => exact absurd ⟨hoperation, e, hremote⟩ hfails
              | ok remoteId => rfl
        · intro e hoperation he
          exact hfails ⟨hoperation, e, he⟩
  · intro intent hintent hout
    rw [hworked.rows]
    exact List.mem_filterMap.mpr ⟨intent, hintent, if_neg hout⟩
  · intro e he
    rcases hworked.result with ⟨processed, hok⟩
    rw [hok] at he
    cases he

/-!
# Intents that block
-/

/-- A row with another time stands where the intent stood. -/
def Stays (intent : SearchIndexIntent) (s : WorkerState) : Prop :=
  exists time, intent.deferTo time ∈ s.intents.rows

theorem stays_delete {intent : SearchIndexIntent} {ks : List Intent}
    (hstays : Stays intent s) (hout : intent.key ∉ ks) :
    Stays intent (s.delete ks) := by
  rcases hstays with ⟨time, hrow⟩
  exact ⟨time, Table.mem_deleteAll.mpr ⟨hrow, hout⟩⟩

theorem stays_processSingleIntent {intent removed : SearchIndexIntent}
    (houtcomes : Outcomes services bad waiting) (hstays : Stays intent s)
    (hout : intent.key ≠ removed.key) :
    Stays intent (s.processSingleIntent services removed) := by
  rcases hstays with ⟨time, hrow⟩
  refine ⟨time, ?_⟩
  rw [rows_processSingleIntent houtcomes]
  exact List.mem_filterMap.mpr ⟨_, hrow, if_neg hout⟩

theorem stays_removals {intent : SearchIndexIntent}
    (houtcomes : Outcomes services bad waiting) (hstays : Stays intent s)
    (hout : forall removed, removed ∈ intents -> intent.key ≠ removed.key) :
    Stays intent (intents.foldl (processSingleIntent services) s) := by
  induction intents generalizing s with
  | nil => exact hstays
  | cons first rest ih =>
      refine ih ?_ (fun removed h => hout removed (List.mem_cons_of_mem _ h))
      exact stays_processSingleIntent houtcomes hstays
        (hout first List.mem_cons_self)

theorem stays_indexPrepared {intent : SearchIndexIntent}
    (houtcomes : Outcomes services bad waiting) (hstays : Stays intent s)
    (hout : forall fetched result, (fetched, result) ∈ entries ->
      fetched.key = intent.key -> isDeferred result = true) :
    Stays intent (s.indexPrepared services now entries) := by
  have hkeys : forall p, (forall result, isDeferred result = true ->
      p result = false) -> intent.key ∉ keysWith p entries := by
    intro p hp hmem
    rcases mem_keysWith.mp hmem with ⟨fetched, result, hentry, htrue, hkey⟩
    rw [hp result (hout fetched result hentry hkey)] at htrue
    cases htrue
  have hskipped := hkeys isSkipped (by
    intro result h
    cases result with
    | defer => rfl
    | ready _ _ _ => cases h
    | skip => cases h
    | skipDuplicate => cases h)
  have hready := hkeys isReady (by
    intro result h
    unfold isReady
    rw [h, Bool.not_true, Bool.and_false])
  have hkept : Stays intent (((s.delete (keysWith isSkipped entries)).defer now
      (keysWith isDeferred entries)).delete (keysWith isReady entries)) := by
    refine stays_delete ?_ hready
    rcases stays_delete hstays hskipped with ⟨time, hrow⟩
    have hdeferred : exists row, row ∈ ((s.delete
        (keysWith isSkipped entries)).defer now
          (keysWith isDeferred entries)).intents.rows ∧
        exists time, row = intent.deferTo time :=
      Table.exists_modifyAll (fun row h => by
        rcases h with ⟨time, hrow⟩
        exact ⟨now + deferDelaySeconds, hrow ▸ rfl⟩)
      ⟨_, hrow, time, rfl⟩
    rcases hdeferred with ⟨row, hmem, time', heq⟩
    exact ⟨time', heq ▸ hmem⟩
  unfold Stays
  rw [intents_indexPrepared houtcomes]
  exact hkept

theorem stays_step {intent : SearchIndexIntent}
    (houtcomes : Outcomes services bad waiting)
    (hblocks : Blocks bad waiting intent) (hstays : Stays intent s)
    (hbatch : s.PendingBatch batch) :
    Stays intent (s.processBatch services now batch).1 := by
  rcases hstays with ⟨time, hrow⟩
  have hdead : intent.key ∉
      (batch.filter deadLetter).map SearchIndexIntent.key := by
    intro hmem
    have hretries := ((hbatch.mem_keys hrow).mp hmem).right
    unfold deadLetter at hretries
    exact Nat.not_le_of_lt hblocks.retried (of_decide_eq_true hretries)
  have hstays := stays_delete ⟨time, hrow⟩ hdead
  have hremovals : forall t : WorkerState, Stays intent t ->
      Stays intent ((pending SearchOperation.remove batch).foldl
        (processSingleIntent services) t) := by
    intro t ht
    refine stays_removals houtcomes ht ?_
    intro removed hremoved hkey
    have hoperation : intent.operation = removed.operation :=
      congrArg Prod.snd hkey
    rw [hblocks.index, (mem_pending.mp hremoved).right.right] at hoperation
    cases hoperation
  unfold processBatch
  split
  · exact ⟨time, hrow⟩
  · dsimp only
    by_cases hnil : pending SearchOperation.index batch = []
    · rw [if_pos hnil]
      exact hremovals _ hstays
    · rw [if_neg hnil]
      unfold processIndexBatch
      rcases processIndexBatch_cases (s := s.delete _) houtcomes hnil with
        ⟨_, e, herror⟩ | ⟨hgood, results, hresults, hentries⟩
      · rw [herror]
        exact hstays
      · rw [hresults]
        refine hremovals _ (stays_indexPrepared houtcomes hstays ?_)
        intro fetched result hentry hkey
        have hfetched := hentries.intent hentry
        have hmessage : fetched.messageId = intent.messageId :=
          congrArg Prod.fst hkey
        refine (hentries.waiting fetched result hentry).mpr ?_
        rw [hmessage]
        exact hblocks.message.resolve_left (hmessage ▸ hgood fetched hfetched)

/-!
# When the queue is worked off
-/

theorem not_settles {intent : SearchIndexIntent}
    (houtcomes : Outcomes services bad waiting)
    (hintent : intent ∈ s.intents.rows) (hblocks : Blocks bad waiting intent)
    (n : Nat) : ¬ forall s', RunsIn (worker services) n s s' ->
      s'.intents.rows = [] := by
  intro hsettles
  have hstays : Stays intent s := ⟨intent.createdAt, hintent⟩
  rcases TransitionSystem.exists_runsIn (T := worker services) (fun t ht => by
      rcases exists_pendingBatch t with ⟨batch, hbatch⟩
      exact ⟨(0, batch), _, ⟨hbatch, rfl⟩,
        stays_step houtcomes hblocks ht hbatch⟩) hstays n with
    ⟨t, hruns, time, hrow⟩
  rw [hsettles t hruns] at hrow
  exact List.not_mem_nil hrow

theorem settles_of_free (houtcomes : Outcomes services bad waiting)
    (hfree : Free bad waiting s) {s' : WorkerState}
    (hruns : RunsIn (worker services) s.totalAttempts s s') :
    s'.intents.rows = [] := by
  have hmeasure := (hruns.measure_le
    (fun _ _ _ hinv hstep => free_step houtcomes hinv hstep) hfree).right
  rw [Nat.sub_self, Nat.le_zero_eq] at hmeasure
  cases hrows : s'.intents.rows with
  | nil => rfl
  | cons intent rest =>
      unfold totalAttempts attempts at hmeasure
      rw [hrows, List.map_cons, List.sum_cons] at hmeasure
      omega

theorem free_runs (houtcomes : Outcomes services bad waiting)
    (hfree : Free bad waiting s) {s' : WorkerState}
    (hruns : Runs (worker services) s s') : Free bad waiting s' := by
  refine TransitionSystem.runs_rel
    (fun s t => Free bad waiting s -> Free bad waiting t)
    (fun _ h => h) ?_ hruns hfree
  intro s t l u hrel hstep hfree
  exact (free_step houtcomes (hrel hfree) hstep).left

/--
Whatever messages cannot be prepared, the queue is worked off if and only if
there is no intent to index one of them that is still to be tried.
-/
theorem unblocked_iff (houtcomes : Outcomes services bad waiting) :
    Unblocked services bad s ↔
      forall intent, intent ∈ s.intents.rows ->
        ¬ Blocks bad waiting intent := by
  constructor
  · intro h intent hintent hblocks
    rcases h.settles with ⟨n, hsettles⟩
    exact not_settles houtcomes hintent hblocks n hsettles
  · intro hfree
    constructor
    · exact ⟨s.totalAttempts,
        fun s' hruns => settles_of_free houtcomes hfree hruns⟩
    · intro s' hruns now batch hbatch
      exact advances_of_free houtcomes (free_runs houtcomes hfree hruns) hbatch

/-!
# A provider that prepares one message after another
-/

theorem prepareMessageForIndexing_congr (hashes hashes' : ContentHashes)
    (m : LocalMessageId) {result : Except String PrepareIndexResult}
    (hresult : result = Except.ok PrepareIndexResult.defer ∨
      exists e, result = Except.error e)
    (h : services.prepareMessageForIndexing hashes m = result) :
    services.prepareMessageForIndexing hashes' m = result := by
  unfold Services.prepareMessageForIndexing at h ⊢
  cases hdraft : services.provider.hasLocalDraftMetadata m with
  | error e =>
      rw [hdraft] at h
      exact h
  | ok draft =>
  cases draft with
  | true =>
      rw [hdraft] at h
      exact h
  | false =>
  cases hremote : services.provider.getRemoteId m with
  | error e =>
      rw [hdraft, hremote] at h
      exact h
  | ok remoteId =>
  cases remoteId with
  | none =>
      rw [hdraft, hremote] at h
      exact h
  | some r =>
  cases hbody : services.provider.getBody m with
  | error e =>
      rw [hdraft, hremote, hbody] at h
      exact h
  | ok body =>
  cases body with
  | none =>
      rw [hdraft, hremote, hbody] at h
      exact h
  | some content =>
  cases hmetadata : services.provider.getMetadata m with
  | error e =>
      rw [hdraft, hremote, hbody, hmetadata] at h
      exact h
  | ok metadata =>
  cases metadata with
  | none =>
      rw [hdraft, hremote, hbody, hmetadata] at h
      exact h
  | some metadata =>
      rw [hdraft, hremote, hbody, hmetadata] at h
      have hcontent : forall stored remoteId document,
          Except.ok (services.checkContent stored remoteId document) ≠
            result := by
        intro stored remoteId document hok
        rcases hresult with hresult | ⟨e, hresult⟩
        · rw [hresult] at hok
          exact services.checkContent_ne_defer (Except.ok.inj hok)
        · rw [hresult] at hok
          cases hok
      exact absurd h (hcontent _ _ _)

def noHashes : ContentHashes :=
  fun _ => none

theorem outcomes_of_individual
    (hbatch : forall hashes messages,
      services.provider.batchPrepareMessages hashes messages = Except.ok none)
    (hengine : forall calls call,
      services.engine calls call = Except.ok ()) :
    Outcomes services
      (fun m => exists e,
        services.prepareMessageForIndexing noHashes m = Except.error e)
      (fun m => services.prepareMessageForIndexing noHashes m =
        Except.ok PrepareIndexResult.defer) := by
  have hall : forall hashes messages, services.prepareAll hashes messages =
      messages.mapM (services.prepareMessageForIndexing hashes) := by
    intro hashes messages
    unfold Services.prepareAll
    rw [hbatch]
  constructor
  · intro hashes messages _
    rw [hall]
    constructor
    · intro h
      rcases h with ⟨e, he⟩
      rcases mapM_eq_error he with ⟨m, hm, hfails⟩
      exact ⟨m, hm, e, prepareMessageForIndexing_congr hashes noHashes m
        (Or.inr ⟨e, rfl⟩) hfails⟩
    · intro h
      rcases h with ⟨m, hm, e, hfails⟩
      cases hresult :
          messages.mapM (services.prepareMessageForIndexing hashes) with
      | error e' => exact ⟨e', rfl⟩
      | ok results =>
          rcases ok_of_mapM_eq_ok hresult hm with ⟨result, hok⟩
          rw [prepareMessageForIndexing_congr noHashes hashes m
            (Or.inr ⟨e, rfl⟩) hfails] at hok
          cases hok
  · intro hashes messages results _ h
    rw [hall] at h
    refine List.Forall₂.imp ?_ (mapM_eq_ok h)
    intro m result hresult
    constructor
    · intro hdefer
      cases result with
      | defer =>
          exact prepareMessageForIndexing_congr hashes noHashes m
            (Or.inl rfl) hresult
      | ready _ _ _ => cases hdefer
      | skip => cases hdefer
      | skipDuplicate => cases hdefer
    · intro hwaiting
      have hdefer := prepareMessageForIndexing_congr noHashes hashes m
        (Or.inl rfl) hwaiting
      rw [hresult] at hdefer
      cases hdefer
      rfl
  · exact hengine

/-- The metadata of message 2 cannot be read. -/
def unreadable : Services where
  provider :=
    { getBody := fun _ => Except.ok (some ("Hello", false))
      getRemoteId := fun m => Except.ok (some (toString m))
      hasLocalDraftMetadata := fun _ => Except.ok false
      getMetadata := fun m =>
        if m = 2 then Except.error "invalid JSON"
        else Except.ok (some ⟨"Lunch", "ann@pm.me", "bob@pm.me", "", ""⟩) }
  tools :=
    { processedBody := fun _ => none
      htmlToTextFast := fun html => html
      sha256 := fun text =>
        if text = "HelloLunch\x00ann@pm.me\x00bob@pm.me\x00\x00" then
          "2eb8deac5410aab0258ae818729e1cc93000ddea49ec8298ad4f6e01e5b398c3"
        else "" }
  engine := fun _ _ => Except.ok ()

/-- Intents to index two messages, and to remove a third one. -/
def queued (retryCount : Nat) : WorkerState where
  intents :=
    { rows := [⟨1, SearchOperation.index, 0, 100⟩,
        ⟨2, SearchOperation.index, retryCount, 100⟩,
        ⟨3, SearchOperation.remove, 0, 101⟩]
      unique := by
        simp [SearchIndexIntent.key] }
  contentHashes := noHashes
  calls := []

theorem outcomes_unreadable : Outcomes unreadable (fun m => m = 2)
    (fun _ => False) := by
  have hindividual := @outcomes_of_individual unreadable (fun _ _ => rfl)
    (fun _ _ => rfl)
  have hprepare : forall m,
      unreadable.prepareMessageForIndexing noHashes m =
        if m = 2 then Except.error "invalid JSON"
        else Except.ok (PrepareIndexResult.ready (toString m)
          ⟨"Hello", ⟨"Lunch", "ann@pm.me", "bob@pm.me", "", ""⟩⟩
          (unreadable.tools.computeContentHash
            ⟨"Hello", ⟨"Lunch", "ann@pm.me", "bob@pm.me", "", ""⟩⟩)) := by
    intro m
    by_cases hm : m = 2
    · rw [hm]
      rfl
    · unfold Services.prepareMessageForIndexing unreadable
      simp [hm, noHashes, Services.checkContent]
      rfl
  have hbad : (fun m => exists e,
      unreadable.prepareMessageForIndexing noHashes m = Except.error e) =
        fun m => m = 2 := by
    funext m
    rw [hprepare]
    by_cases hm : m = 2
    · simp [hm]
    · simp [hm]
  have hwaiting : (fun m =>
      unreadable.prepareMessageForIndexing noHashes m =
        Except.ok PrepareIndexResult.defer) = fun _ => False := by
    funext m
    rw [hprepare]
    by_cases hm : m = 2
    · simp [hm]
    · simp [hm]
  rw [hbad, hwaiting] at hindividual
  exact hindividual

/-- The failures of the bad message are used up. -/
theorem queued_unblocked :
    Unblocked unreadable (fun m => m = 2) (queued maxRetryCount) := by
  refine (unblocked_iff outcomes_unreadable).mpr ?_
  intro intent hintent hblocks
  have hbad := hblocks.message.resolve_right not_false
  have hretries := hblocks.retried
  unfold queued at hintent
  simp only [List.mem_cons, List.not_mem_nil, or_false] at hintent
  rcases hintent with heq | heq | heq
  · rw [heq] at hbad
    cases hbad
  · rw [heq] at hretries
    exact Nat.lt_irrefl _ hretries
  · rw [heq] at hbad
    cases hbad

/-- The bad message keeps the other intents in the queue forever. -/
theorem queue_blocked : ¬ forall services bad s,
    Outcomes services bad (fun _ => False) -> Unblocked services bad s := by
  intro h
  rcases (h unreadable (fun m => m = 2) (queued 0)
    outcomes_unreadable).settles with ⟨n, hsettles⟩
  have hintent : (⟨2, SearchOperation.index, 0, 100⟩ : SearchIndexIntent) ∈
      (queued 0).intents.rows := List.mem_cons_of_mem _ List.mem_cons_self
  exact not_settles outcomes_unreadable hintent
    ⟨rfl, by decide, Or.inl rfl⟩ n hsettles

end WorkerState

end SearchIndex
end MailClient
