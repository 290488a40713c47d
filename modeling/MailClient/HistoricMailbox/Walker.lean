import Mathlib.Algebra.Ring.Nat
import Mathlib.Data.List.Basic

/-!
# The historic mailbox walker

The walker reads the metadata of All Mail from new to old, batch by batch, and
gives each batch to an observer.  A request names the last message that was
read; the answer starts with this message if it is still there.
-/

namespace MailClient
namespace HistoricMailbox

variable {id : Type}

structure MessageMetadata (id : Type) where
  time : Nat
  messageId : id
  deriving DecidableEq, Repr

structure HistoricFetchContinuation (id : Type) where
  anchorTime : Nat
  anchorMessageId : id
  deriving DecidableEq, Repr

/-- The options that are not the same in every request. -/
structure GetMessagesOptions (id : Type) where
  pageSize : Nat
  anchor : Option Nat
  anchorId : Option id
  deriving DecidableEq, Repr

structure GetMessagesResponse (id : Type) where
  messages : List (MessageMetadata id)
  total : Nat
  deriving DecidableEq, Repr

structure HistoricMailboxBatch (id : Type) where
  messages : List (MessageMetadata id)
  mailboxMessagesTotal : Option Nat
  isLastBatch : Bool
  deriving DecidableEq, Repr

/-!
# Errors and outcomes
-/

structure ApiServiceError where
  isNetworkFailure : Bool
  text : String
  deriving DecidableEq, Repr

inductive ObserverErrorCode where
  | retryableNetwork
  | fatalApi
  | checkpointStorage
  | indexingStateStorage
  | indexPrepare
  | pagePersist
  | metadataPrepare
  | invalidContinuation
  | internal
  deriving DecidableEq, Repr

inductive ObserverError where
  | retryableApi (error : ApiServiceError)
  | fatalApi (error : ApiServiceError)
  | fatal (code : ObserverErrorCode)
  | cancelled
  deriving DecidableEq, Repr

inductive IncompleteReason where
  | skippedBodiesAtTail
  deriving DecidableEq, Repr

inductive HistoricBatchOutcome where
  | continue
  | stopCompleted
  | stopIncomplete (reason : IncompleteReason)
  deriving DecidableEq, Repr

inductive WalkerError where
  | api (error : ApiServiceError)
  | invalidContinuation
  | observerFatal (error : ObserverError)
  deriving DecidableEq, Repr

inductive WalkOutcome where
  | completed
  | cancelled
  | incomplete (reason : IncompleteReason)
  | fatal (error : WalkerError)
  deriving DecidableEq, Repr

/-!
# Fetching a batch
-/

/-- The variables of `fetch_metadata_batch`. -/
structure FetchState (id : Type) where
  totalPages : Nat
  lastMessageId : Option id
  lastMessageTime : Option Nat
  totalFetched : Nat
  mailboxMessagesTotal : Option Nat
  accumulated : List (MessageMetadata id)
  deriving DecidableEq, Repr

namespace FetchState

def start (from? : Option (HistoricFetchContinuation id)) : FetchState id where
  totalPages := if from?.isSome then 1 else 0
  lastMessageId := from?.map HistoricFetchContinuation.anchorMessageId
  lastMessageTime := from?.map HistoricFetchContinuation.anchorTime
  totalFetched := 0
  mailboxMessagesTotal := none
  accumulated := []

/-- The next request, if there is one to be made. -/
def request (batchSize : Nat) (f : FetchState id) :
    Except WalkerError (Option (GetMessagesOptions id)) :=
  if batchSize <= f.totalFetched then
    Except.ok none
  else if f.totalPages = 0 then
    Except.ok (some { pageSize := batchSize, anchor := none, anchorId := none })
  else
    match f.lastMessageTime, f.lastMessageId with
    | some anchorTime, some anchorId =>
        Except.ok (some
          { pageSize := batchSize + 1
            anchor := some anchorTime
            anchorId := some anchorId })
    | _, _ => Except.error WalkerError.invalidContinuation

section Receive

variable [DecidableEq id]

/-- The message that was read before is left out, or one too many. -/
def dropAnchor (batchSize : Nat) (lastId : id) :
    List (MessageMetadata id) -> List (MessageMetadata id)
  | [] => []
  | m :: rest =>
      if m.messageId = lastId then rest
      else if batchSize < (m :: rest).length then (m :: rest).dropLast
      else m :: rest

def trim (batchSize : Nat) (f : FetchState id)
    (messages : List (MessageMetadata id)) : List (MessageMetadata id) :=
  match f.lastMessageId with
  | some lastId =>
      if 0 < f.totalPages then dropAnchor batchSize lastId messages
      else messages
  | none => messages

/-- The rest of the loop body, and whether the loop goes on. -/
def receive (batchSize : Nat) (f : FetchState id)
    (response : GetMessagesResponse id) : FetchState id × Bool :=
  let f :=
    { f with
      mailboxMessagesTotal :=
        if f.mailboxMessagesTotal.isNone && 0 < response.total then
          some response.total
        else
          f.mailboxMessagesTotal }
  let messages := (trim batchSize f response.messages).take
    (batchSize - f.totalFetched)
  match messages.getLast? with
  | none => (f, false)
  | some anchor =>
      ({ f with
          totalPages := f.totalPages + 1
          lastMessageId := some anchor.messageId
          lastMessageTime := some anchor.time
          totalFetched := f.totalFetched + messages.length
          accumulated := f.accumulated ++ messages },
        batchSize <= messages.length)

end Receive

end FetchState

/-!
# The walk
-/

structure WalkerConfig where
  batchSize : Nat
  maxRetryAttempts : Nat
  deriving DecidableEq, Repr

inductive Reply (id : Type) where
  | cancelled
  | error (e : ApiServiceError)
  | response (r : GetMessagesResponse id)
  deriving DecidableEq, Repr

/-- What the walker meets with on a walk. -/
structure Environment (id : Type) where
  /-- The answer to the requests, which are numbered. -/
  getMessages : Nat -> GetMessagesOptions id -> Reply id
  /-- The answer of the observer to the batches, which are numbered. -/
  onBatch : Nat -> HistoricMailboxBatch id ->
    Except ObserverError HistoricBatchOutcome
  /-- Whether the token is cancelled when a round of a loop starts. -/
  cancelled : Nat -> Bool

/--
A batch with the anchor it was fetched from, the requests up to it and the
answer of the observer.
-/
structure Delivery (id : Type) where
  anchor : Option (HistoricFetchContinuation id)
  requests : Nat
  batch : HistoricMailboxBatch id
  answer : Except ObserverError HistoricBatchOutcome

structure WalkState (id : Type) where
  currentAnchor : Option (HistoricFetchContinuation id)
  retryAttempts : Nat
  fetch : FetchState id
  rounds : Nat
  requests : Nat
  deliveries : List (Delivery id)

inductive Step (id : Type) where
  | next (s : WalkState id)
  | stop (s : WalkState id) (outcome : WalkOutcome)

namespace WalkState

def start (from? : Option (HistoricFetchContinuation id)) : WalkState id where
  currentAnchor := from?
  retryAttempts := 0
  fetch := FetchState.start from?
  rounds := 0
  requests := 0
  deliveries := []

/-- The next batch is fetched from an anchor. -/
def restart (anchor : Option (HistoricFetchContinuation id))
    (s : WalkState id) : WalkState id :=
  { s with
    currentAnchor := anchor
    fetch := FetchState.start anchor }

/-- The continuation after a batch. -/
def nextAnchor (messages : List (MessageMetadata id)) :
    Option (HistoricFetchContinuation id) :=
  messages.getLast?.map (fun m =>
    { anchorTime := m.time
      anchorMessageId := m.messageId })

def batch (config : WalkerConfig) (s : WalkState id) :
    HistoricMailboxBatch id where
  messages := s.fetch.accumulated
  mailboxMessagesTotal := s.fetch.mailboxMessagesTotal
  isLastBatch := s.fetch.accumulated.length < config.batchSize

/-- The batch, and what the observer answers to it. -/
def delivery (config : WalkerConfig) (env : Environment id)
    (s : WalkState id) : Delivery id where
  anchor := s.currentAnchor
  requests := s.requests
  batch := s.batch config
  answer := env.onBatch s.deliveries.length (s.batch config)

/-- The batch that has been fetched is given to the observer. -/
def deliver (config : WalkerConfig) (env : Environment id)
    (s : WalkState id) : Step id :=
  if s.fetch.accumulated = [] then
    Step.stop s WalkOutcome.completed
  else
    let delivery := s.delivery config env
    let s := { s with deliveries := s.deliveries ++ [delivery] }
    match delivery.answer with
    | Except.ok HistoricBatchOutcome.continue =>
        let s := { s with retryAttempts := 0 }
        if delivery.batch.isLastBatch then Step.stop s WalkOutcome.completed
        else Step.next (s.restart (nextAnchor delivery.batch.messages))
    | Except.ok HistoricBatchOutcome.stopCompleted =>
        Step.stop s WalkOutcome.completed
    | Except.ok (HistoricBatchOutcome.stopIncomplete reason) =>
        Step.stop s (WalkOutcome.incomplete reason)
    | Except.error ObserverError.cancelled =>
        Step.stop s WalkOutcome.cancelled
    | Except.error (ObserverError.retryableApi _) =>
        Step.next (s.restart s.currentAnchor)
    | Except.error e =>
        let s :=
          { s with retryAttempts := min (s.retryAttempts + 1) (2 ^ 32 - 1) }
        if config.maxRetryAttempts < s.retryAttempts then
          Step.stop s (WalkOutcome.fatal (WalkerError.observerFatal e))
        else
          Step.next (s.restart s.currentAnchor)

variable [DecidableEq id]

/--
One round of the loop in `fetch_metadata_batch`, and what follows when it is
left.  A fetch that could not reach the network is started again.
-/
def step (config : WalkerConfig) (env : Environment id) (s : WalkState id) :
    Step id :=
  if env.cancelled s.rounds then
    Step.stop s WalkOutcome.cancelled
  else
    let s := { s with rounds := s.rounds + 1 }
    match s.fetch.request config.batchSize with
    | Except.error e => Step.stop s (WalkOutcome.fatal e)
    | Except.ok none => s.deliver config env
    | Except.ok (some options) =>
        let reply := env.getMessages s.requests options
        let s := { s with requests := s.requests + 1 }
        match reply with
        | Reply.cancelled => Step.stop s WalkOutcome.cancelled
        | Reply.error e =>
            if e.isNetworkFailure then
              Step.next (s.restart s.currentAnchor)
            else
              Step.stop s (WalkOutcome.fatal (WalkerError.api e))
        | Reply.response response =>
            let received := s.fetch.receive config.batchSize response
            let s := { s with fetch := received.1 }
            if received.2 then Step.next s else s.deliver config env

/-- `HistoricMailboxWalker::run`, for a number of rounds. -/
def run (config : WalkerConfig) (env : Environment id) :
    Nat -> WalkState id -> WalkState id × Option WalkOutcome
  | 0, s => (s, none)
  | n + 1, s =>
      match s.step config env with
      | Step.stop s outcome => (s, some outcome)
      | Step.next s => run config env n s

end WalkState

end HistoricMailbox
end MailClient
