import MailClient.Foundation.Table
import MailClient.Foundation.Utf8
import MailClient.SearchIndex.Worker

/-!
# Runs of the search index worker

What one run of `process_batch` does to the table `search_index_intents` when
the calls that it makes can fail.  The tables themselves can be written.

An intent whose call fails is tried again until it has failed `maxRetryCount`
times; but an error in the preparation of a message ends the run.
-/

namespace MailClient
namespace SearchIndex

open Foundation

structure SearchIndexIntent where
  messageId : LocalMessageId
  operation : SearchOperation
  retryCount : Nat
  createdAt : Int
  deriving DecidableEq, Repr

namespace SearchIndexIntent

def key (intent : SearchIndexIntent) : Intent :=
  (intent.messageId, intent.operation)

def markFailed (intent : SearchIndexIntent) : SearchIndexIntent :=
  { intent with retryCount := intent.retryCount + 1 }

def deferTo (timestamp : Int) (intent : SearchIndexIntent) :
    SearchIndexIntent :=
  { intent with createdAt := timestamp }

theorem key_markFailed (intent : SearchIndexIntent) :
    intent.markFailed.key = intent.key :=
  rfl

theorem key_deferTo (timestamp : Int) (intent : SearchIndexIntent) :
    (intent.deferTo timestamp).key = intent.key :=
  rfl

end SearchIndexIntent

abbrev IntentTable := Table SearchIndexIntent SearchIndexIntent.key

/-!
# What the worker calls
-/

/-- Subject, sender and recipients as they are stored. -/
structure RawMetadataStrings where
  subject : String
  senderJson : String
  toListJson : Option String
  ccListJson : Option String
  bccListJson : Option String
  deriving DecidableEq, Repr

structure BatchPreparedMessage where
  remoteId : Option MessageId
  bodyRaw : Option (List UInt8)
  bodyMimeType : Option Int
  metadataRaw : Option RawMetadataStrings
  hasLocalDraft : Bool
  storedContentHash : Option String
  deriving DecidableEq, Repr

abbrev ContentHashes := LocalMessageId -> Option String

structure MessageDataProvider where
  getBody : LocalMessageId -> Except String (Option (String × Bool))
  getRemoteId : LocalMessageId -> Except String (Option MessageId)
  hasLocalDraftMetadata : LocalMessageId -> Except String Bool
  getMetadata : LocalMessageId -> Except String (Option MessageMetadata)
  /-- The stored hashes are among what is read. -/
  batchPrepareMessages : ContentHashes -> List LocalMessageId ->
    Except String (Option (List BatchPreparedMessage)) :=
      fun _ _ => Except.ok none
  parseMetadataRaw : RawMetadataStrings ->
    Except String (Option MessageMetadata) := fun _ => Except.ok none

/-- A call that changes the index. -/
inductive EngineCall where
  | indexMessageBodiesBatch (documents : List (MessageId × Document))
  | removeMessage (remoteId : MessageId)
  deriving DecidableEq, Repr

structure Services where
  provider : MessageDataProvider
  tools : ContentTools
  /-- Whether a call succeeds after the calls that have been made. -/
  engine : List EngineCall -> EngineCall -> Except String Unit

structure WorkerState where
  intents : IntentTable
  contentHashes : ContentHashes
  /-- The calls that succeeded. -/
  calls : List EngineCall

/-!
# Preparing messages
-/

inductive PrepareIndexResult where
  | ready (remoteId : MessageId) (document : Document) (contentHash : String)
  | defer
  | skip
  | skipDuplicate
  deriving DecidableEq, Repr

namespace Services

variable (services : Services)

def mimeTypeHtml : Int := 1

/-- The duplicate check, with the hash that is stored for the message. -/
def checkContent (stored : Option String) (remoteId : MessageId)
    (document : Document) : PrepareIndexResult :=
  let contentHash := services.tools.computeContentHash document
  if stored = some contentHash then PrepareIndexResult.skipDuplicate
  else PrepareIndexResult.ready remoteId document contentHash

def prepareMessageForIndexing (hashes : ContentHashes) (m : LocalMessageId) :
    Except String PrepareIndexResult := do
  match <- services.provider.hasLocalDraftMetadata m with
  | true => pure PrepareIndexResult.skip
  | false =>
  match <- services.provider.getRemoteId m with
  | none => pure PrepareIndexResult.defer
  | some remoteId =>
  match <- services.provider.getBody m with
  | none => pure PrepareIndexResult.skip
  | some (body, isHtml) =>
  match <- services.provider.getMetadata m with
  | none => pure PrepareIndexResult.skip
  | some metadata =>
      let bodyToIndex :=
        if isHtml then services.tools.htmlToTextFast body else body
      pure (services.checkContent (hashes m) remoteId ⟨bodyToIndex, metadata⟩)

def processBatchPreparedMessage (prepared : BatchPreparedMessage) :
    Except String PrepareIndexResult :=
  if prepared.hasLocalDraft then
    Except.ok PrepareIndexResult.skip
  else
  match prepared.remoteId with
  | none => Except.ok PrepareIndexResult.defer
  | some remoteId =>
  match prepared.bodyRaw with
  | none => Except.ok PrepareIndexResult.skip
  | some bytes =>
  let body := String.ofList (fromUtf8Lossy bytes)
  let bodyToIndex :=
    if prepared.bodyMimeType = some mimeTypeHtml then
      services.tools.htmlToTextFast body
    else
      body
  match prepared.metadataRaw with
  | none => Except.ok PrepareIndexResult.skip
  | some raw =>
  match services.provider.parseMetadataRaw raw with
  | Except.error e => Except.error e
  | Except.ok none => Except.ok PrepareIndexResult.skip
  | Except.ok (some metadata) =>
      Except.ok (services.checkContent prepared.storedContentHash remoteId
        ⟨bodyToIndex, metadata⟩)

/-- The results for a list of messages, in their order. -/
def prepareAll (hashes : ContentHashes) (messages : List LocalMessageId) :
    Except String (List PrepareIndexResult) :=
  match services.provider.batchPrepareMessages hashes messages with
  | Except.error e => Except.error e
  | Except.ok none =>
      messages.mapM (services.prepareMessageForIndexing hashes)
  | Except.ok (some results) =>
      if results ≠ [] ∧ results.length = messages.length then
        results.mapM services.processBatchPreparedMessage
      else
        messages.mapM (services.prepareMessageForIndexing hashes)

end Services

/-!
# One run
-/

def maxRetryCount : Nat := 3

def deferDelaySeconds : Int := 60

def minBatchSize : Nat := 100

/-- An entry of `messages_to_index`. -/
structure ReadyIntent where
  intent : SearchIndexIntent
  remoteId : MessageId
  document : Document
  contentHash : String
  deriving DecidableEq, Repr

def readyIntent : SearchIndexIntent × PrepareIndexResult -> Option ReadyIntent
  | (intent, PrepareIndexResult.ready remoteId document contentHash) =>
      some ⟨intent, remoteId, document, contentHash⟩
  | _ => none

def isDeferred : PrepareIndexResult -> Bool
  | PrepareIndexResult.defer => true
  | _ => false

def isSkipped : PrepareIndexResult -> Bool
  | PrepareIndexResult.skip => true
  | PrepareIndexResult.skipDuplicate => true
  | _ => false

namespace WorkerState

variable (services : Services)

/-- Calls the engine. -/
def call (s : WorkerState) (c : EngineCall) : Except String WorkerState :=
  match services.engine s.calls c with
  | Except.error e => Except.error e
  | Except.ok () => Except.ok { s with calls := s.calls ++ [c] }

def markFailed (keys : List Intent) (s : WorkerState) : WorkerState :=
  { s with
    intents := s.intents.modifyAll keys SearchIndexIntent.markFailed
      SearchIndexIntent.key_markFailed }

def defer (now : Int) (keys : List Intent) (s : WorkerState) : WorkerState :=
  { s with
    intents := s.intents.modifyAll keys
      (SearchIndexIntent.deferTo (now + deferDelaySeconds))
      (SearchIndexIntent.key_deferTo _) }

def delete (keys : List Intent) (s : WorkerState) : WorkerState :=
  { s with intents := s.intents.deleteAll keys }

/-- What `process_index_batch` does with messages that could be prepared. -/
def indexPrepared (now : Int)
    (prepared : List (SearchIndexIntent × PrepareIndexResult))
    (s : WorkerState) : WorkerState :=
  let keys := fun p : PrepareIndexResult -> Bool =>
    (prepared.filter (fun entry => p entry.2)).map (fun entry => entry.1.key)
  let s := (s.delete (keys isSkipped)).defer now (keys isDeferred)
  let ready := prepared.filterMap readyIntent
  if ready = [] then
    s
  else
    let readyKeys := ready.map (fun entry => entry.intent.key)
    match s.call services (EngineCall.indexMessageBodiesBatch
        (ready.map (fun entry => (entry.remoteId, entry.document)))) with
    | Except.error _ => s.markFailed readyKeys
    | Except.ok s =>
        { s.delete readyKeys with
          contentHashes := writeAll
            (fun entry : ReadyIntent => entry.intent.messageId)
            (fun entry => some entry.contentHash) s.contentHashes ready }

def processIndexBatch (now : Int) (intents : List SearchIndexIntent)
    (s : WorkerState) : Except String WorkerState :=
  match services.prepareAll s.contentHashes
      (intents.map SearchIndexIntent.messageId) with
  | Except.error e => Except.error e
  | Except.ok results =>
      Except.ok (s.indexPrepared services now (intents.zip results))

def removeMessage (m : LocalMessageId) (s : WorkerState) :
    Except String WorkerState :=
  match services.provider.getRemoteId m with
  | Except.error e => Except.error e
  | Except.ok none => Except.ok s
  | Except.ok (some remoteId) =>
      match s.call services (EngineCall.removeMessage remoteId) with
      | Except.error e => Except.error e
      | Except.ok s => Except.ok
          { s with contentHashes := Function.update s.contentHashes m none }

/-- Only intents to remove a message are processed one by one. -/
def processSingleIntent (s : WorkerState) (intent : SearchIndexIntent) :
    WorkerState :=
  match s.removeMessage services intent.messageId with
  | Except.error _ => s.markFailed [intent.key]
  | Except.ok s => s.delete [intent.key]

def deadLetter (intent : SearchIndexIntent) : Bool :=
  maxRetryCount <= intent.retryCount

def pending (operation : SearchOperation) (intents : List SearchIndexIntent) :
    List SearchIndexIntent :=
  intents.filter (fun intent =>
    !deadLetter intent && intent.operation = operation)

/-- `process_batch` after the intents have been fetched. -/
def processBatch (now : Int) (intents : List SearchIndexIntent)
    (s : WorkerState) : WorkerState × Except String Bool :=
  if intents = [] then
    (s, Except.ok false)
  else
    let s := s.delete
      ((intents.filter deadLetter).map SearchIndexIntent.key)
    let indexed :=
      if pending SearchOperation.index intents = [] then
        Except.ok s
      else
        s.processIndexBatch services now (pending SearchOperation.index intents)
    match indexed with
    | Except.error e => (s, Except.error e)
    | Except.ok s =>
        ((pending SearchOperation.remove intents).foldl
          (processSingleIntent services) s, Except.ok true)

/-!
# Runs
-/

def batchSize (pendingCount : Nat) : Nat :=
  if SearchState.maxBatchSize <= pendingCount then SearchState.maxBatchSize
  else if minBatchSize <= pendingCount then pendingCount
  else minBatchSize

/--
`get_pending_batch`.  Intents of the same second may come in any order.
-/
structure PendingBatch (s : WorkerState) (batch : List SearchIndexIntent) :
    Prop where
  nodup : batch.Nodup
  pending : forall intent, intent ∈ batch -> intent ∈ s.intents.rows
  sorted : batch.Pairwise (fun a b => a.createdAt <= b.createdAt)
  oldest : forall intent, intent ∈ s.intents.rows -> intent ∉ batch ->
    forall fetched, fetched ∈ batch -> fetched.createdAt <= intent.createdAt
  length : batch.length =
    min (batchSize s.intents.rows.length) s.intents.rows.length

/-- Runs of the worker while no intents are queued. -/
def worker : TransitionSystem WorkerState (Int × List SearchIndexIntent) where
  init := fun _ => True
  step := fun s label s' => s.PendingBatch label.2 ∧
    s' = (s.processBatch services label.1 label.2).1

end WorkerState

end SearchIndex
end MailClient
