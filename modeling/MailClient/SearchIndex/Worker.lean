import Mathlib.Data.Finset.Insert
import Mathlib.Data.Finset.Erase
import MailClient.Foundation.Transition
import MailClient.Foundation.Writes
import MailClient.Messages.SyncDecision

/-!
# The search index worker

Transactions that change the body of a message queue an intent in the table
`search_index_intents`, which has one row for a message and an operation.  The
worker fetches some of them, prepares the messages to index, gives these to the
engine at once, and then runs the removals one after another.

Each of its reads and writes is a step of its own, and the transactions of the
rest of the client come between.  Calls do not fail here, so an intent is never
retried.
-/

namespace MailClient
namespace SearchIndex

open Foundation
open Drafts (DraftMetadata)
open Messages (MessageFlags MessageSyncDecision Action syncDecision deletesBody)

/-!
# Messages and their bodies
-/

inductive RawMessageBodyType where
  | plain
  | mime
  deriving DecidableEq, Repr

/-- What is read of a row of `raw_message_body`. -/
structure RawMessageBody where
  body : List UInt8
  decryptionError : Option String
  rawType : RawMessageBodyType
  deriving DecidableEq, Repr

def RawMessageBody.shouldIndex (body : RawMessageBody) : Bool :=
  body.decryptionError.isNone && !body.body.isEmpty

structure MessageMetadata where
  subject : String
  sender : String
  toList : String
  ccList : String
  bccList : String
  deriving DecidableEq, Repr

/-- A row of `messages` with the local draft that belongs to it. -/
structure MessageRow where
  remoteId : Option MessageId
  draft : Option DraftMetadata
  metadata : MessageMetadata
  deriving DecidableEq, Repr

/-- What the engine keeps under a document id. -/
structure Document where
  body : String
  metadata : MessageMetadata
  deriving DecidableEq, Repr

/-- The parts of the preparation that work on the content alone. -/
structure ContentTools where
  /-- The text of a decrypted body and whether it is HTML. -/
  processedBody : RawMessageBody -> Option (String × Bool)
  htmlToTextFast : String -> String
  sha256 : String -> String

/-- No separator stands between the body and the subject. -/
def ContentTools.computeContentHash (tools : ContentTools) (document : Document) :
    String :=
  let metadata := document.metadata
  tools.sha256 (document.body ++ metadata.subject ++ "\x00" ++ metadata.sender ++
    "\x00" ++ metadata.toList ++ "\x00" ++ metadata.ccList ++ "\x00" ++
    metadata.bccList)

/-- `get_body` and the conversion of its result. -/
def ContentTools.bodyToIndex (tools : ContentTools) (body : RawMessageBody) :
    Option String :=
  if body.decryptionError.isSome then
    none
  else
    (tools.processedBody body).map fun (text, isHtml) =>
      if isHtml then tools.htmlToTextFast text else text

/-!
# The state of the worker
-/

inductive SearchOperation where
  | index
  | remove
  deriving DecidableEq, Repr

abbrev Intent := LocalMessageId × SearchOperation

/-- An entry of `messages_to_index`. -/
structure Ready where
  message : LocalMessageId
  remoteId : MessageId
  document : Document
  deriving DecidableEq, Repr

/-- An intent that is not executed, with the text if it was a duplicate. -/
structure Skipped where
  message : LocalMessageId
  text : Option String
  deriving DecidableEq, Repr

/-- How far `prepare_message_for_indexing` has come. -/
inductive Preparation where
  | begin
  | synced (remoteId : MessageId)
  | read (remoteId : MessageId) (text : String)
  deriving DecidableEq, Repr

inductive Phase where
  | idle
  | preparing (todo : List LocalMessageId) (progress : Preparation)
      (skipped : List Skipped) (ready : List Ready)
      (removals : List LocalMessageId)
  | deleting (skipped : List Skipped) (ready : List Ready)
      (removals : List LocalMessageId)
  | indexing (ready : List Ready) (removals : List LocalMessageId)
  | saving (ready : List Ready) (removals : List LocalMessageId)
  | removing (removals : List LocalMessageId)
  | removingDocument (m : LocalMessageId) (remoteId : MessageId)
      (removals : List LocalMessageId)
  | deletingHash (m : LocalMessageId) (removals : List LocalMessageId)
  | deletingIntent (m : LocalMessageId) (removals : List LocalMessageId)
  deriving DecidableEq, Repr

structure SearchState where
  messages : LocalMessageId -> Option MessageRow
  bodies : LocalMessageId -> Option RawMessageBody
  intents : Finset Intent
  contentHashes : LocalMessageId -> Option String
  index : MessageId -> Option Document
  phase : Phase

namespace SearchState

def remoteId (s : SearchState) (m : LocalMessageId) : Option MessageId :=
  (s.messages m).bind MessageRow.remoteId

/-- The document that the index has for a message. -/
def document (s : SearchState) (m : LocalMessageId) : Option Document :=
  (s.remoteId m).bind s.index

/-- `SearchIndexIntent::create_or_ignore`. -/
def queue (s : SearchState) (m : LocalMessageId) (operation : SearchOperation) :
    SearchState :=
  { s with intents := insert (m, operation) s.intents }

/-!
# The transactions of the client
-/

/-- `RawMessageBody::store`. -/
def storeBody (s : SearchState) (m : LocalMessageId) (body : RawMessageBody) :
    SearchState :=
  let stored := { s with bodies := Function.update s.bodies m (some body) }
  if body.shouldIndex then stored.queue m SearchOperation.index else stored

/-- `RawMessageBody::delete`. -/
def deleteBody (s : SearchState) (m : LocalMessageId) : SearchState :=
  { s with bodies := Function.update s.bodies m none }.queue m
    SearchOperation.remove

/-- `Message::handle_event` for a message that has a row. -/
def updateMessage (s : SearchState) (m : LocalMessageId) (row : MessageRow)
    (action : Action) (flags : MessageFlags) (metadata : MessageMetadata) :
    SearchState :=
  match syncDecision row.draft flags with
  | MessageSyncDecision.skip => s
  | MessageSyncDecision.apply =>
      let s := if deletesBody row.draft (some action) then s.deleteBody m else s
      { s with
        messages := Function.update s.messages m
          (some { row with metadata := metadata }) }.queue m SearchOperation.index

/-- `Message::handle_event` with `Action::Delete`; the body goes with the row. -/
def deleteMessage (s : SearchState) (m : LocalMessageId) : SearchState :=
  { s.queue m SearchOperation.remove with
    messages := Function.update s.messages m none
    bodies := Function.update s.bodies m none }

/-!
# The steps of the worker
-/

def maxBatchSize : Nat := 1000

/--
`get_pending_batch`.  The intents come by the second they were created or
deferred to, so that the order within a batch is not determined.
-/
def PendingBatch (s : SearchState) (batch : List Intent) : Prop :=
  batch ≠ [] ∧ batch.Nodup ∧
    (forall intent, intent ∈ batch -> intent ∈ s.intents) ∧
    batch.length ≤ maxBatchSize

instance (s : SearchState) (batch : List Intent) :
    Decidable (s.PendingBatch batch) :=
  inferInstanceAs (Decidable (_ ∧ _ ∧ _ ∧ _))

def ofOperation (operation : SearchOperation) (batch : List Intent) :
    List LocalMessageId :=
  (batch.filter (fun intent => intent.2 = operation)).map Prod.fst

def startBatch (s : SearchState) (batch : List Intent) : SearchState :=
  { s with
    phase := Phase.preparing (ofOperation SearchOperation.index batch)
      Preparation.begin [] [] (ofOperation SearchOperation.remove batch) }

/-- The next read of `prepare_message_for_indexing` for the message `m`. -/
def prepare (tools : ContentTools) (s : SearchState) (m : LocalMessageId)
    (rest : List LocalMessageId) (skipped : List Skipped) (ready : List Ready)
    (removals : List LocalMessageId) : Preparation -> Phase
  | Preparation.begin =>
      if ((s.messages m).bind MessageRow.draft).isSome then
        Phase.preparing rest Preparation.begin (skipped ++ [⟨m, none⟩]) ready removals
      else
        match s.remoteId m with
        -- The intent is deferred, so that it stays in the table.
        | none => Phase.preparing rest Preparation.begin skipped ready removals
        | some remoteId =>
            Phase.preparing (m :: rest) (Preparation.synced remoteId) skipped ready
              removals
  | Preparation.synced remoteId =>
      match (s.bodies m).bind tools.bodyToIndex with
      | none =>
          Phase.preparing rest Preparation.begin (skipped ++ [⟨m, none⟩]) ready
            removals
      | some text =>
          Phase.preparing (m :: rest) (Preparation.read remoteId text) skipped ready
            removals
  | Preparation.read remoteId text =>
      match s.messages m with
      | none =>
          Phase.preparing rest Preparation.begin (skipped ++ [⟨m, none⟩]) ready
            removals
      | some row =>
          let document : Document := ⟨text, row.metadata⟩
          if s.contentHashes m = some (tools.computeContentHash document) then
            Phase.preparing rest Preparation.begin (skipped ++ [⟨m, some text⟩]) ready
              removals
          else
            Phase.preparing rest Preparation.begin skipped
              (ready ++ [⟨m, remoteId, document⟩]) removals

/-- `index_message_bodies_batch`. -/
def insertDocuments (index : MessageId -> Option Document) (ready : List Ready) :
    MessageId -> Option Document :=
  writeAll Ready.remoteId (fun entry => some entry.document) index ready

def saveContentHashes (tools : ContentTools)
    (hashes : LocalMessageId -> Option String) (ready : List Ready) :
    LocalMessageId -> Option String :=
  writeAll Ready.message
    (fun entry => some (tools.computeContentHash entry.document)) hashes ready

/-- The transactions that delete the intents to index some messages. -/
def deleteIntents (intents : Finset Intent) (messages : List LocalMessageId) :
    Finset Intent :=
  messages.foldl (fun intents m => intents.erase (m, SearchOperation.index)) intents

/-- The next step of the worker, whose phase is given. -/
def work (tools : ContentTools) (s : SearchState) : Phase -> Option SearchState
  | Phase.idle => none
  | Phase.preparing [] _ skipped ready removals =>
      some { s with phase := Phase.deleting skipped ready removals }
  | Phase.preparing (m :: rest) progress skipped ready removals =>
      some { s with
        phase := s.prepare tools m rest skipped ready removals progress }
  | Phase.deleting skipped ready removals =>
      some { s with
        intents := deleteIntents s.intents (skipped.map Skipped.message)
        phase := Phase.indexing ready removals }
  | Phase.indexing ready removals =>
      some { s with
        index := insertDocuments s.index ready
        phase := Phase.saving ready removals }
  | Phase.saving ready removals =>
      some { s with
        contentHashes := saveContentHashes tools s.contentHashes ready
        intents := deleteIntents s.intents (ready.map Ready.message)
        phase := Phase.removing removals }
  | Phase.removing [] => some { s with phase := Phase.idle }
  | Phase.removing (m :: rest) =>
      match s.remoteId m with
      | none => some { s with phase := Phase.deletingIntent m rest }
      | some remoteId =>
          some { s with phase := Phase.removingDocument m remoteId rest }
  | Phase.removingDocument m remoteId rest =>
      some { s with
        index := Function.update s.index remoteId none
        phase := Phase.deletingHash m rest }
  | Phase.deletingHash m rest =>
      some { s with
        contentHashes := Function.update s.contentHashes m none
        phase := Phase.deletingIntent m rest }
  | Phase.deletingIntent m rest =>
      some { s with
        intents := s.intents.erase (m, SearchOperation.remove)
        phase := Phase.removing rest }

/-!
# Runs
-/

inductive SearchEvent where
  | store (m : LocalMessageId) (body : RawMessageBody)
  | deleteBody (m : LocalMessageId)
  | update (m : LocalMessageId) (action : Action) (flags : MessageFlags)
      (metadata : MessageMetadata)
  | deleteMessage (m : LocalMessageId)
  | fetch (batch : List Intent)
  | work
  deriving DecidableEq, Repr

/-- A body can only be stored for a message that has a row. -/
def next (tools : ContentTools) (s : SearchState) :
    SearchEvent -> Option SearchState
  | SearchEvent.store m body =>
      if (s.messages m).isSome then some (s.storeBody m body) else none
  | SearchEvent.deleteBody m => some (s.deleteBody m)
  | SearchEvent.update m action flags metadata =>
      match s.messages m with
      | none => none
      | some row =>
          if row.remoteId.isSome then
            some (s.updateMessage m row action flags metadata)
          else
            none
  | SearchEvent.deleteMessage m =>
      if (s.remoteId m).isSome then some (s.deleteMessage m) else none
  | SearchEvent.fetch batch =>
      if s.phase = Phase.idle ∧ s.PendingBatch batch then
        some (s.startBatch batch)
      else
        none
  | SearchEvent.work => s.work tools s.phase

/-- The column `remote_id` is unique. -/
def UniqueRemoteIds (s : SearchState) : Prop :=
  forall m m' r, s.remoteId m = some r -> s.remoteId m' = some r -> m = m'

/-- Nothing is stored or indexed yet. -/
def Initial (s : SearchState) : Prop :=
  s.UniqueRemoteIds ∧ (forall m, s.bodies m = none) ∧ s.intents = ∅ ∧
    (forall m, s.contentHashes m = none) ∧ (forall r, s.index r = none) ∧
    s.phase = Phase.idle

def system (tools : ContentTools) : TransitionSystem SearchState SearchEvent where
  init := Initial
  step := fun s e s' => s.next tools e = some s'

/-!
# Convergence
-/

/-- A message that belongs in the index, with its body. -/
structure Searchable (s : SearchState) (m : LocalMessageId) (r : MessageId)
    (body : RawMessageBody) : Prop where
  row : exists row, s.messages m = some row ∧ row.remoteId = some r ∧
    row.draft = none
  stored : s.bodies m = some body
  decrypted : body.decryptionError = none
  nonempty : body.body ≠ []

def Converged (tools : ContentTools) (s : SearchState) : Prop :=
  forall r,
    (forall document, s.index r = some document ->
      exists m body, s.Searchable m r body ∧
        tools.bodyToIndex body = some document.body) ∧
    (forall m body, s.Searchable m r body -> (s.index r).isSome)

end SearchState

end SearchIndex
end MailClient
