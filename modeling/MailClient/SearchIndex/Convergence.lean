import Mathlib.Data.List.Nodup
import MailClient.SearchIndex.Worker

/-!
# Convergence of the search index

An intent says that something is to be done for a message, but neither when it
was queued nor for which body.  A body that is stored while the worker is busy
with the message is therefore lost with the intent, a removal that was queued
before an indexing runs after it, and a removal needs the row of the message to
find the document.

The index follows the stored bodies in every run in which this does not happen.
-/

namespace MailClient
namespace SearchIndex

open Foundation
open Messages (MessageFlags Action syncDecision deletesBody)
open Foundation.TransitionSystem (ReachableWhen Reachable)

def Phase.ready : Phase -> List Ready
  | preparing _ _ _ ready _ => ready
  | deleting _ ready _ => ready
  | indexing ready _ => ready
  | saving ready _ => ready
  | _ => []

/-- The messages whose bodies the worker has read and not yet indexed. -/
def Phase.held : Phase -> List LocalMessageId
  | preparing (m :: _) (Preparation.read _ _) _ ready _ =>
      m :: ready.map Ready.message
  | phase => phase.ready.map Ready.message

theorem Phase.ready_subset_held (phase : Phase) :
    forall m, m ∈ phase.ready.map Ready.message -> m ∈ phase.held := by
  intro m hm
  unfold Phase.held
  split
  · exact List.mem_cons_of_mem _ hm
  · exact hm

namespace SearchState

variable {tools : ContentTools}

/-- The text under which a message belongs in the index. -/
def indexable (tools : ContentTools) (s : SearchState) (m : LocalMessageId) :
    Option String :=
  match s.messages m, s.bodies m with
  | some row, some body =>
      if row.remoteId.isSome && row.draft.isNone && body.shouldIndex then
        tools.bodyToIndex body
      else
        none
  | _, _ => none

theorem shouldIndex_iff (body : RawMessageBody) :
    body.shouldIndex = true ↔ body.decryptionError = none ∧ body.body ≠ [] := by
  unfold RawMessageBody.shouldIndex
  rw [Bool.and_eq_true, Option.isNone_iff_eq_none, Bool.not_eq_true',
    List.isEmpty_eq_false_iff]

variable {s s' : SearchState} {m : LocalMessageId} {r : MessageId}
  {ready : List Ready} {removals : List LocalMessageId}

theorem indexable_eq_some {text : String} :
    s.indexable tools m = some text ↔
      exists r body, s.Searchable m r body ∧ tools.bodyToIndex body = some text := by
  constructor
  · intro h
    unfold indexable at h
    split at h
    · rename_i row body hrow hbody
      split at h
      · rename_i hguard
        simp only [Bool.and_eq_true, Option.isNone_iff_eq_none] at hguard
        rcases Option.isSome_iff_exists.mp hguard.left.left with ⟨r, hr⟩
        have hshould := (shouldIndex_iff body).mp hguard.right
        exact ⟨r, body, ⟨⟨row, hrow, hr, hguard.left.right⟩, hbody, hshould.left,
          hshould.right⟩, h⟩
      · cases h
    · cases h
  · intro h
    rcases h with ⟨r, body, hsearchable, htext⟩
    rcases hsearchable.row with ⟨row, hrow, hr, hdraft⟩
    have hbody := hsearchable.stored
    have hshould := (shouldIndex_iff body).mpr
      ⟨hsearchable.decrypted, hsearchable.nonempty⟩
    simp only [indexable, hrow, hbody, hr, hdraft, hshould, htext,
      Option.isSome_some, Option.isNone_none, Bool.and_self, if_true]

theorem remoteId_of_indexable {text : String}
    (h : s.indexable tools m = some text) : (s.remoteId m).isSome := by
  rcases indexable_eq_some.mp h with ⟨r, body, hsearchable, _⟩
  rcases hsearchable.row with ⟨row, hrow, hr, _⟩
  unfold remoteId
  rw [hrow]
  exact Option.isSome_iff_exists.mpr ⟨r, hr⟩

theorem indexable_congr (hmessages : s'.messages m = s.messages m)
    (hbodies : s'.bodies m = s.bodies m) :
    s'.indexable tools m = s.indexable tools m := by
  unfold indexable
  rw [hmessages, hbodies]

theorem indexable_of_not_shouldIndex
    (h : forall body, s.bodies m = some body -> body.shouldIndex = false) :
    s.indexable tools m = none := by
  cases htext : s.indexable tools m with
  | none => rfl
  | some text =>
      rcases indexable_eq_some.mp htext with ⟨r, body, hsearchable, _⟩
      have hshould := (shouldIndex_iff body).mpr
        ⟨hsearchable.decrypted, hsearchable.nonempty⟩
      rw [h body hsearchable.stored] at hshould
      cases hshould

/-!
# What goes wrong

The condition is on the state before a step.  A body has to have a text; one
that is not indexed must not replace one that is; a message is deleted before
it is indexed; an empty body is not read; two bodies of a message have different
hashes; the body is the one that was read when the intent to index it is deleted;
and a message that is removed from the index is either not to be found or still
to be indexed.
-/

def HarmlessWork (tools : ContentTools) (s : SearchState) : Phase -> Prop
  | Phase.preparing (m :: _) (Preparation.synced _) _ _ _ =>
      forall body, body ∈ s.bodies m -> body.decryptionError = none ->
        body.body = [] -> (m, SearchOperation.remove) ∈ s.intents
  | Phase.preparing (m :: _) (Preparation.read _ text) _ _ _ =>
      forall row, row ∈ s.messages m -> forall document, document ∈ s.document m ->
        tools.computeContentHash document =
          tools.computeContentHash ⟨text, row.metadata⟩ ->
        document.body = text
  | Phase.deleting skipped _ _ =>
      forall entry, entry ∈ skipped -> s.indexable tools entry.message = none ∨
        s.indexable tools entry.message = entry.text
  | Phase.saving ready _ =>
      forall entry, entry ∈ ready -> s.indexable tools entry.message = none ∨
        s.indexable tools entry.message = some entry.document.body
  | Phase.removingDocument m _ _ =>
      s.indexable tools m = none ∨ (m, SearchOperation.index) ∈ s.intents
  | _ => True

def Harmless (tools : ContentTools) (s : SearchState) : SearchEvent -> Prop
  | SearchEvent.store m body =>
      (body.shouldIndex = true -> (tools.bodyToIndex body).isSome) ∧
      (body.shouldIndex = false -> s.indexable tools m = none ∨
        (m, SearchOperation.remove) ∈ s.intents ∨
        (s.document m = none ∧ m ∉ s.phase.held))
  | SearchEvent.deleteMessage m =>
      s.document m = none ∧ m ∉ s.phase.ready.map Ready.message
  | SearchEvent.work => s.HarmlessWork tools s.phase
  | _ => True

instance (s : SearchState) : (phase : Phase) ->
    Decidable (s.HarmlessWork tools phase)
  | Phase.preparing (_ :: _) (Preparation.synced _) _ _ _ =>
      inferInstanceAs (Decidable (forall body, body ∈ _ -> _ -> _ -> _))
  | Phase.preparing (_ :: _) (Preparation.read _ _) _ _ _ =>
      inferInstanceAs
        (Decidable (forall row, row ∈ _ -> forall document, document ∈ _ -> _ -> _))
  | Phase.deleting _ _ _ => inferInstanceAs (Decidable (forall entry, entry ∈ _ -> _ ∨ _))
  | Phase.saving _ _ => inferInstanceAs (Decidable (forall entry, entry ∈ _ -> _ ∨ _))
  | Phase.removingDocument _ _ _ => inferInstanceAs (Decidable (_ ∨ _))
  | Phase.preparing [] _ _ _ _
  | Phase.preparing (_ :: _) Preparation.begin _ _ _ | Phase.idle
  | Phase.indexing _ _ | Phase.removing _ | Phase.deletingHash _ _
  | Phase.deletingIntent _ _ => inferInstanceAs (Decidable True)

instance (s : SearchState) : (e : SearchEvent) -> Decidable (s.Harmless tools e)
  | SearchEvent.store _ _ => inferInstanceAs (Decidable (_ ∧ _))
  | SearchEvent.deleteMessage _ => inferInstanceAs (Decidable (_ ∧ _))
  | SearchEvent.work => inferInstanceAs (Decidable (s.HarmlessWork tools s.phase))
  | SearchEvent.deleteBody _ | SearchEvent.update _ _ _ _ | SearchEvent.fetch _ =>
      inferInstanceAs (Decidable True)

/-!
# The invariant
-/

/-- The documents that the hashes have not caught up with. -/
def unsaved : Phase -> List LocalMessageId
  | Phase.saving ready _ => ready.map Ready.message
  | Phase.deletingHash m _ => [m]
  | _ => []

/-- The remote id that was read is the one of the message while it exists. -/
def Synced (s : SearchState) (m : LocalMessageId) (r : MessageId) : Prop :=
  forall row, s.messages m = some row -> row.remoteId = some r ∧ row.draft = none

/-- A removal follows when the body is no longer there. -/
def RemovalPending (tools : ContentTools) (s : SearchState) (m : LocalMessageId) :
    Prop :=
  s.indexable tools m = none -> (m, SearchOperation.remove) ∈ s.intents

def Progressed (tools : ContentTools) (s : SearchState) (m : LocalMessageId) :
    Preparation -> Prop
  | Preparation.begin => True
  | Preparation.synced r => s.Synced m r
  | Preparation.read r _ =>
      s.Synced m r ∧ ((s.messages m).isSome -> s.RemovalPending tools m)

/-- The intents to index of a batch whose documents are not yet in the index. -/
structure Batch (tools : ContentTools) (s : SearchState)
    (todo : List LocalMessageId) (skipped : List Skipped) (ready : List Ready) :
    Prop where
  nodup : (todo ++ (skipped.map Skipped.message ++ ready.map Ready.message)).Nodup
  todo_pending : forall m, m ∈ todo -> (m, SearchOperation.index) ∈ s.intents
  duplicate : forall entry, entry ∈ skipped ->
    forall text, entry.text = some text -> (s.remoteId entry.message).isSome ->
      exists document, s.document entry.message = some document ∧
        document.body = text
  row : forall entry, entry ∈ ready ->
    s.remoteId entry.message = some entry.remoteId
  ready_pending : forall entry, entry ∈ ready ->
    (entry.message, SearchOperation.index) ∈ s.intents
  removal : forall entry, entry ∈ ready -> s.RemovalPending tools entry.message

def Working (tools : ContentTools) (s : SearchState) : Phase -> Prop
  | Phase.idle => True
  | Phase.preparing todo progress skipped ready _ =>
      Batch tools s todo skipped ready ∧
        forall m, m ∈ todo.head? -> s.Progressed tools m progress
  | Phase.deleting skipped ready _ => Batch tools s [] skipped ready
  | Phase.indexing ready _ => Batch tools s [] [] ready
  | Phase.saving ready _ =>
      Batch tools s [] [] ready ∧
        forall entry, entry ∈ ready -> s.index entry.remoteId = some entry.document
  | Phase.removing _ => True
  | Phase.removingDocument m r _ =>
      (forall r', s.remoteId m = some r' -> r' = r) ∧
        forall m', s.remoteId m' = some r -> m' = m
  | Phase.deletingHash m _ => s.document m = none
  | Phase.deletingIntent m _ => s.document m = none

structure Tracked (tools : ContentTools) (s : SearchState) : Prop where
  unique : s.UniqueRemoteIds
  readable : forall m body, s.bodies m = some body -> body.shouldIndex = true ->
    (tools.bodyToIndex body).isSome
  owned : forall r document, s.index r = some document ->
    exists m, s.remoteId m = some r
  indexed : forall m text, s.indexable tools m = some text ->
    (m, SearchOperation.index) ∈ s.intents ∨
      exists document, s.document m = some document ∧ document.body = text
  removed : forall m, s.indexable tools m = none ->
    s.document m = none ∨ (m, SearchOperation.remove) ∈ s.intents
  hashed : forall m hash, s.contentHashes m = some hash -> (s.remoteId m).isSome ->
    m ∈ unsaved s.phase ∨ exists document, s.document m = some document ∧
      tools.computeContentHash document = hash
  working : s.Working tools s.phase

/-!
# Transactions of the client

A transaction changes neither the index nor the hashes.  When it changes under
which text a message belongs in the index, it queues an intent.
-/

structure Transaction (tools : ContentTools) (s s' : SearchState) : Prop where
  index : s'.index = s.index
  contentHashes : s'.contentHashes = s.contentHashes
  phase : s'.phase = s.phase
  intents : s.intents ⊆ s'.intents
  readable : forall m body, s'.bodies m = some body -> body.shouldIndex = true ->
    s.bodies m = some body ∨ (tools.bodyToIndex body).isSome
  row : forall m row', s'.messages m = some row' ->
    exists row, s.messages m = some row ∧ row'.remoteId = row.remoteId ∧
      row'.draft = row.draft
  kept : forall m, (s.messages m).isSome -> (s'.messages m).isSome ∨
    (s.document m = none ∧ m ∉ s.phase.ready.map Ready.message)
  indexable : forall m, s'.indexable tools m = s.indexable tools m ∨
    ((s'.indexable tools m).isSome ∧ (m, SearchOperation.index) ∈ s'.intents) ∨
    (s'.indexable tools m = none ∧ ((m, SearchOperation.remove) ∈ s'.intents ∨
      (s.document m = none ∧ m ∉ s.phase.held)))

namespace Transaction

variable {s s' : SearchState}

variable {r : MessageId}

theorem remoteId (h : Transaction tools s s') (hremote : s'.remoteId m = some r) :
    s.remoteId m = some r := by
  rcases Option.bind_eq_some_iff.mp hremote with ⟨row', hrow', hr⟩
  rcases h.row m row' hrow' with ⟨row, hrow, hsame, _⟩
  exact Option.bind_eq_some_iff.mpr ⟨row, hrow, hsame ▸ hr⟩

theorem remoteId_kept (h : Transaction tools s s')
    (hremote : s.remoteId m = some r) :
    s'.remoteId m = some r ∨
      (s.document m = none ∧ m ∉ s.phase.ready.map Ready.message) := by
  rcases Option.bind_eq_some_iff.mp hremote with ⟨row, hrow, hr⟩
  rcases h.kept m (by rw [hrow]; rfl) with hkept | hunindexed
  · rcases Option.isSome_iff_exists.mp hkept with ⟨row', hrow'⟩
    rcases h.row m row' hrow' with ⟨row'', hrow'', hsame, _⟩
    rw [hrow] at hrow''
    cases hrow''
    exact Or.inl (Option.bind_eq_some_iff.mpr ⟨row', hrow', hsame.trans hr⟩)
  · exact Or.inr hunindexed

theorem document_of_isSome (h : Transaction tools s s')
    (hremote : (s'.remoteId m).isSome) : s'.document m = s.document m := by
  rcases Option.isSome_iff_exists.mp hremote with ⟨r, hr⟩
  unfold SearchState.document
  rw [hr, h.remoteId hr, h.index]

theorem document_eq_none (h : Transaction tools s s')
    (hnone : s.document m = none) : s'.document m = none := by
  cases hremote : s'.remoteId m with
  | none =>
      unfold SearchState.document
      rw [hremote]
      rfl
  | some r => rw [h.document_of_isSome (by rw [hremote]; rfl), hnone]

theorem synced (h : Transaction tools s s') (hsynced : s.Synced m r) :
    s'.Synced m r := by
  intro row' hrow'
  rcases h.row m row' hrow' with ⟨row, hrow, hremote, hdraft⟩
  have hold := hsynced row hrow
  exact ⟨hremote.trans hold.left, hdraft.trans hold.right⟩

theorem removalPending (h : Transaction tools s s') (hheld : m ∈ s.phase.held)
    (hremoval : s.RemovalPending tools m) :
    s'.RemovalPending tools m := by
  intro hnone
  rcases h.indexable m with hsame | ⟨hsome, _⟩ | ⟨_, hpending | ⟨_, hnot⟩⟩
  · exact h.intents (hremoval (hsame.symm.trans hnone))
  · rw [hnone] at hsome
    cases hsome
  · exact hpending
  · exact absurd hheld hnot

theorem batch (h : Transaction tools s s') {todo : List LocalMessageId}
    {skipped : List Skipped} {ready : List Ready} (hready : s.phase.ready = ready)
    (hbatch : Batch tools s todo skipped ready) :
    Batch tools s' todo skipped ready := by
  have hmem : forall entry, entry ∈ ready ->
      entry.message ∈ s.phase.ready.map Ready.message := by
    intro entry hentry
    rw [hready]
    exact List.mem_map_of_mem hentry
  refine ⟨hbatch.nodup, ?_, ?_, ?_, ?_, ?_⟩
  · exact fun m hm => h.intents (hbatch.todo_pending m hm)
  · intro entry hentry text htext hremote
    have hremote' : (s.remoteId entry.message).isSome := by
      rcases Option.isSome_iff_exists.mp hremote with ⟨r, hr⟩
      rw [h.remoteId hr]
      rfl
    rw [h.document_of_isSome hremote]
    exact hbatch.duplicate entry hentry text htext hremote'
  · intro entry hentry
    rcases h.remoteId_kept (hbatch.row entry hentry) with hkept | ⟨_, hnot⟩
    · exact hkept
    · exact absurd (hmem entry hentry) hnot
  · exact fun entry hentry => h.intents (hbatch.ready_pending entry hentry)
  · intro entry hentry
    exact h.removalPending (s.phase.ready_subset_held _ (hmem entry hentry))
      (hbatch.removal entry hentry)

theorem working (h : Transaction tools s s')
    (hworking : s.Working tools s.phase) : s'.Working tools s.phase := by
  have hunindexed : forall m, s.document m = none -> s'.document m = none :=
    fun m hnone => h.document_eq_none hnone
  cases hphase : s.phase with
  | idle => trivial
  | preparing todo progress skipped ready removals =>
      rw [hphase] at hworking
      refine ⟨h.batch (by rw [hphase]; rfl) hworking.left, ?_⟩
      intro m hm
      have hprogress := hworking.right m hm
      cases progress with
      | begin => trivial
      | synced r => exact h.synced hprogress
      | read r text =>
          refine ⟨h.synced hprogress.left, fun hsome => ?_⟩
          have hsome' : (s.messages m).isSome := by
            rcases Option.isSome_iff_exists.mp hsome with ⟨row', hrow'⟩
            rcases h.row m row' hrow' with ⟨row, hrow, _⟩
            rw [hrow]
            rfl
          apply h.removalPending _ (hprogress.right hsome')
          rw [hphase]
          cases todo with
          | nil => cases hm
          | cons first rest =>
              cases hm
              exact List.mem_cons_self
  | deleting skipped ready removals =>
      rw [hphase] at hworking
      exact h.batch (by rw [hphase]; rfl) hworking
  | indexing ready removals =>
      rw [hphase] at hworking
      exact h.batch (by rw [hphase]; rfl) hworking
  | saving ready removals =>
      rw [hphase] at hworking
      refine ⟨h.batch (by rw [hphase]; rfl) hworking.left, ?_⟩
      rw [h.index]
      exact hworking.right
  | removing removals => trivial
  | removingDocument m r removals =>
      rw [hphase] at hworking
      exact ⟨fun r' hr' => hworking.left r' (h.remoteId hr'),
        fun m' hm' => hworking.right m' (h.remoteId hm')⟩
  | deletingHash m removals =>
      rw [hphase] at hworking
      exact hunindexed m hworking
  | deletingIntent m removals =>
      rw [hphase] at hworking
      exact hunindexed m hworking

end Transaction

theorem Tracked.transaction (h : Tracked tools s) (ht : Transaction tools s s') :
    Tracked tools s' := by
  refine ⟨?_, ?_, ?_, ?_, ?_, ?_, ?_⟩
  · exact fun m m' r hm hm' => h.unique m m' r (ht.remoteId hm) (ht.remoteId hm')
  · intro m body hbody hshould
    rcases ht.readable m body hbody hshould with hold | hreadable
    · exact h.readable m body hold hshould
    · exact hreadable
  · intro r document hdocument
    rw [ht.index] at hdocument
    rcases h.owned r document hdocument with ⟨m, hm⟩
    rcases ht.remoteId_kept hm with hkept | ⟨hnone, _⟩
    · exact ⟨m, hkept⟩
    · unfold SearchState.document at hnone
      rw [hm] at hnone
      exact absurd (hdocument.symm.trans hnone) (by simp)
  · intro m text htext
    rcases ht.indexable m with hsame | ⟨_, hpending⟩ | ⟨hnone, _⟩
    · have hremote : (s'.remoteId m).isSome :=
        remoteId_of_indexable htext
      rcases h.indexed m text (hsame.symm.trans htext) with hpending | hdocument
      · exact Or.inl (ht.intents hpending)
      · rw [ht.document_of_isSome hremote]
        exact Or.inr hdocument
    · exact Or.inl hpending
    · rw [htext] at hnone
      cases hnone
  · intro m hnone
    rcases ht.indexable m with hsame | ⟨hsome, _⟩ | ⟨_, hpending | ⟨hunindexed, _⟩⟩
    · rcases h.removed m (hsame.symm.trans hnone) with hunindexed | hpending
      · exact Or.inl (ht.document_eq_none hunindexed)
      · exact Or.inr (ht.intents hpending)
    · rw [hnone] at hsome
      cases hsome
    · exact Or.inr hpending
    · exact Or.inl (ht.document_eq_none hunindexed)
  · intro m hash hhash hremote
    rw [ht.contentHashes] at hhash
    rw [ht.phase, ht.document_of_isSome hremote]
    rcases Option.isSome_iff_exists.mp hremote with ⟨r, hr⟩
    exact h.hashed m hash hhash (by rw [ht.remoteId hr]; rfl)
  · rw [ht.phase]
    exact ht.working h.working

theorem Transaction.of_message (m : LocalMessageId)
    (hindex : s'.index = s.index) (hhashes : s'.contentHashes = s.contentHashes)
    (hphase : s'.phase = s.phase) (hintents : s.intents ⊆ s'.intents)
    (hother : forall m', m' ≠ m ->
      s'.messages m' = s.messages m' ∧ s'.bodies m' = s.bodies m')
    (hreadable : forall body, s'.bodies m = some body -> body.shouldIndex = true ->
      s.bodies m = some body ∨ (tools.bodyToIndex body).isSome)
    (hrow : forall row', s'.messages m = some row' ->
      exists row, s.messages m = some row ∧ row'.remoteId = row.remoteId ∧
        row'.draft = row.draft)
    (hkept : (s.messages m).isSome -> (s'.messages m).isSome ∨
      (s.document m = none ∧ m ∉ s.phase.ready.map Ready.message))
    (hindexable : s'.indexable tools m = s.indexable tools m ∨
      ((s'.indexable tools m).isSome ∧ (m, SearchOperation.index) ∈ s'.intents) ∨
      (s'.indexable tools m = none ∧ ((m, SearchOperation.remove) ∈ s'.intents ∨
        (s.document m = none ∧ m ∉ s.phase.held)))) :
    Transaction tools s s' := by
  refine ⟨hindex, hhashes, hphase, hintents, ?_, ?_, ?_, ?_⟩
  · intro m' body hbody hshould
    by_cases hm : m' = m
    · rw [hm] at hbody ⊢
      exact hreadable body hbody hshould
    · exact Or.inl ((hother m' hm).right ▸ hbody)
  · intro m' row' hrow'
    by_cases hm : m' = m
    · rw [hm] at hrow' ⊢
      exact hrow row' hrow'
    · exact ⟨row', (hother m' hm).left ▸ hrow', rfl, rfl⟩
  · intro m' hsome
    by_cases hm : m' = m
    · rw [hm] at hsome ⊢
      exact hkept hsome
    · exact Or.inl ((hother m' hm).left ▸ hsome)
  · intro m'
    by_cases hm : m' = m
    · rw [hm]
      exact hindexable
    · exact Or.inl (indexable_congr (hother m' hm).left (hother m' hm).right)

/-- Under which text a message belongs in the index is decided by its body. -/
theorem indexable_of_readable (s : SearchState) {body : RawMessageBody}
    (hbody : s'.bodies m = some body) (hmessages : s'.messages m = s.messages m)
    (hshould : body.shouldIndex = true)
    (hreadable : (tools.bodyToIndex body).isSome) :
    s'.indexable tools m = s.indexable tools m ∨ (s'.indexable tools m).isSome := by
  cases hold : s.indexable tools m with
  | none =>
      cases hnew : s'.indexable tools m with
      | none => exact Or.inl rfl
      | some text => exact Or.inr rfl
  | some text =>
      right
      rcases indexable_eq_some.mp hold with ⟨r, _, hsearchable, _⟩
      rcases hsearchable.row with ⟨row, hrow, hr⟩
      rcases Option.isSome_iff_exists.mp hreadable with ⟨text', htext'⟩
      have hparts := (shouldIndex_iff body).mp hshould
      have hnew : s'.indexable tools m = some text' :=
        indexable_eq_some.mpr ⟨r, body, ⟨⟨row, hmessages.trans hrow, hr⟩, hbody,
          hparts.left, hparts.right⟩, htext'⟩
      rw [hnew]
      rfl

theorem storeBody_transaction {body : RawMessageBody}
    (hharmless : s.Harmless tools (SearchEvent.store m body)) :
    Transaction tools s (s.storeBody m body) := by
  have hbodies : forall m', m' ≠ m ->
      s.messages m' = s.messages m' ∧
        Function.update s.bodies m (some body) m' = s.bodies m' :=
    fun m' hm => ⟨rfl, Function.update_of_ne hm _ _⟩
  have hreadable : forall b, Function.update s.bodies m (some body) m = some b ->
      b.shouldIndex = true ->
        s.bodies m = some b ∨ (tools.bodyToIndex b).isSome := by
    intro b hb hshould
    rw [Function.update_self] at hb
    cases hb
    exact Or.inr (hharmless.left hshould)
  unfold storeBody
  dsimp only
  split
  · rename_i hshould
    refine Transaction.of_message m rfl rfl rfl (Finset.subset_insert _ _) hbodies
      hreadable (fun row' hrow' => ⟨row', hrow', rfl, rfl⟩) Or.inl ?_
    have hstored : (queue { s with bodies := Function.update s.bodies m (some body) }
        m SearchOperation.index).bodies m = some body := Function.update_self _ _ _
    rcases indexable_of_readable s hstored rfl hshould
      (hharmless.left hshould) with hsame | hsome
    · exact Or.inl hsame
    · exact Or.inr (Or.inl ⟨hsome, Finset.mem_insert_self _ _⟩)
  · rename_i hshould
    refine Transaction.of_message m rfl rfl rfl (Finset.Subset.refl _) hbodies
      hreadable (fun row' hrow' => ⟨row', hrow', rfl, rfl⟩) Or.inl ?_
    have hnone : indexable tools
        { s with bodies := Function.update s.bodies m (some body) } m = none := by
      apply indexable_of_not_shouldIndex
      intro b hb
      dsimp only at hb
      rw [Function.update_self] at hb
      cases hb
      exact Bool.eq_false_iff.mpr hshould
    rcases hharmless.right (Bool.eq_false_iff.mpr hshould) with
      hold | hpending | hunindexed
    · exact Or.inl (hnone.trans hold.symm)
    · exact Or.inr (Or.inr ⟨hnone, Or.inl hpending⟩)
    · exact Or.inr (Or.inr ⟨hnone, Or.inr hunindexed⟩)

theorem deleteBody_transaction (s : SearchState) (m : LocalMessageId) :
    Transaction tools s (s.deleteBody m) := by
  have hgone : (s.deleteBody m).bodies m = none := Function.update_self _ _ _
  refine Transaction.of_message m rfl rfl rfl (Finset.subset_insert _ _)
    ?_ ?_ ?_ ?_ ?_
  · exact fun m' hm => ⟨rfl, Function.update_of_ne hm _ _⟩
  · intro b hb
    rw [hgone] at hb
    cases hb
  · exact fun row' hrow' => ⟨row', hrow', rfl, rfl⟩
  · exact Or.inl
  · right
    right
    refine ⟨indexable_of_not_shouldIndex ?_, Or.inl (Finset.mem_insert_self _ _)⟩
    intro b hb
    rw [hgone] at hb
    cases hb

theorem deleteMessage_transaction
    (hharmless : s.Harmless tools (SearchEvent.deleteMessage m)) :
    Transaction tools s (s.deleteMessage m) := by
  have hgone : (s.deleteMessage m).bodies m = none := Function.update_self _ _ _
  refine Transaction.of_message m rfl rfl rfl (Finset.subset_insert _ _)
    ?_ ?_ ?_ ?_ ?_
  · exact fun m' hm => ⟨Function.update_of_ne hm _ _, Function.update_of_ne hm _ _⟩
  · intro b hb
    rw [hgone] at hb
    cases hb
  · intro row' hrow'
    have hnone : (s.deleteMessage m).messages m = none := Function.update_self _ _ _
    rw [hnone] at hrow'
    cases hrow'
  · exact fun _ => Or.inr hharmless
  · right
    right
    refine ⟨indexable_of_not_shouldIndex ?_, Or.inl (Finset.mem_insert_self _ _)⟩
    intro b hb
    rw [hgone] at hb
    cases hb

/-- The metadata of a message are saved and an intent to index it is queued. -/
theorem saveMetadata_transaction {row : MessageRow}
    (hrow : s.messages m = some row) (metadata : MessageMetadata) :
    Transaction tools s ({ s with
      messages := Function.update s.messages m
        (some { row with metadata := metadata }) }.queue m
          SearchOperation.index) := by
  have hnew : Function.update s.messages m (some { row with metadata := metadata }) m =
      some { row with metadata := metadata } := Function.update_self _ _ _
  refine Transaction.of_message m rfl rfl rfl (Finset.subset_insert _ _)
    ?_ ?_ ?_ ?_ ?_
  · exact fun m' hm => ⟨Function.update_of_ne hm _ _, rfl⟩
  · exact fun body hbody _ => Or.inl hbody
  · intro row' hrow'
    change Function.update s.messages m _ m = some row' at hrow'
    rw [hnew] at hrow'
    cases hrow'
    exact ⟨row, hrow, rfl, rfl⟩
  · intro _
    left
    change (Function.update s.messages m _ m).isSome
    rw [hnew]
    rfl
  · left
    unfold indexable queue
    dsimp only
    rw [hnew, hrow]
    cases s.bodies m <;> rfl

theorem Tracked.updateMessage (h : Tracked tools s) {row : MessageRow}
    (hrow : s.messages m = some row) (action : Action) (flags : MessageFlags)
    (metadata : MessageMetadata) :
    Tracked tools (s.updateMessage m row action flags metadata) := by
  unfold SearchState.updateMessage
  cases syncDecision row.draft flags with
  | skip => exact h
  | apply =>
      cases deletesBody row.draft (some action) with
      | false => exact h.transaction (saveMetadata_transaction hrow metadata)
      | true =>
          have hdeleted := h.transaction (deleteBody_transaction s m)
          have hrow' : (s.deleteBody m).messages m = some row := hrow
          exact hdeleted.transaction (saveMetadata_transaction hrow' metadata)

/-!
# The preparation

While messages are prepared, and between two removals, only the phase changes.
-/

theorem Batch.changePhase {todo : List LocalMessageId} {skipped : List Skipped}
    (h : Batch tools s todo skipped ready) (phase : Phase) :
    Batch tools { s with phase := phase } todo skipped ready :=
  ⟨h.nodup, h.todo_pending, h.duplicate, h.row, h.ready_pending, h.removal⟩

theorem Working.changePhase {phase : Phase} (h : s.Working tools phase) :
    Working tools { s with phase := phase } phase := by
  cases phase with
  | preparing todo progress skipped ready removals =>
      refine ⟨h.left.changePhase _, fun m hm => ?_⟩
      cases progress <;> exact h.right m hm
  | deleting skipped ready removals => exact Batch.changePhase h _
  | indexing ready removals => exact Batch.changePhase h _
  | saving ready removals => exact ⟨h.left.changePhase _, h.right⟩
  | _ => exact h

theorem Tracked.hashed_of_saved (h : Tracked tools s)
    (hsaved : unsaved s.phase = []) {hash : String}
    (hhash : s.contentHashes m = some hash) (hremote : (s.remoteId m).isSome) :
    exists document, s.document m = some document ∧
      tools.computeContentHash document = hash := by
  rcases h.hashed m hash hhash hremote with hunsaved | hdocument
  · rw [hsaved] at hunsaved
    cases hunsaved
  · exact hdocument

theorem Tracked.changePhase (h : Tracked tools s)
    (hsaved : unsaved s.phase = []) {phase : Phase}
    (hworking : s.Working tools phase) :
    Tracked tools { s with phase := phase } := by
  refine ⟨h.unique, h.readable, h.owned, h.indexed, h.removed, ?_, ?_⟩
  · exact fun m hash hhash hremote => Or.inr (h.hashed_of_saved hsaved hhash hremote)
  · exact Working.changePhase hworking

theorem mem_ofOperation {operation : SearchOperation} {batch : List Intent}
    (hm : m ∈ ofOperation operation batch) :
    (m, operation) ∈ batch := by
  rcases List.mem_map.mp hm with ⟨intent, hintent, hfst⟩
  rcases List.mem_filter.mp hintent with ⟨hmem, hsnd⟩
  have hpair : intent = (m, operation) := Prod.ext hfst (of_decide_eq_true hsnd)
  exact hpair ▸ hmem

theorem ofOperation_nodup {operation : SearchOperation} {batch : List Intent}
    (hnodup : batch.Nodup) : (ofOperation operation batch).Nodup := by
  apply List.Nodup.map_on
  · intro x hx y hy hxy
    have hx' := of_decide_eq_true (List.mem_filter.mp hx).right
    have hy' := of_decide_eq_true (List.mem_filter.mp hy).right
    exact Prod.ext hxy (hx'.trans hy'.symm)
  · exact hnodup.filter _

theorem Tracked.startBatch (h : Tracked tools s) {batch : List Intent}
    (hidle : s.phase = Phase.idle) (hpending : s.PendingBatch batch) :
    Tracked tools (s.startBatch batch) := by
  apply h.changePhase
  · rw [hidle]
    rfl
  · refine ⟨⟨?_, ?_, ?_, ?_, ?_, ?_⟩, fun _ _ => trivial⟩
    · rw [List.map_nil, List.map_nil, List.append_nil, List.append_nil]
      exact ofOperation_nodup hpending.right.left
    · exact fun m hm => hpending.right.right.left _ (mem_ofOperation hm)
    · exact fun entry hentry => (nomatch hentry)
    · exact fun entry hentry => (nomatch hentry)
    · exact fun entry hentry => (nomatch hentry)
    · exact fun entry hentry => (nomatch hentry)

namespace Batch

variable {s : SearchState} {m : LocalMessageId} {rest : List LocalMessageId}
  {skipped : List Skipped} {ready : List Ready}

theorem defer (h : Batch tools s (m :: rest) skipped ready) :
    Batch tools s rest skipped ready :=
  ⟨(List.nodup_cons.mp h.nodup).right,
    fun m' hm' => h.todo_pending m' (List.mem_cons_of_mem m hm'),
    h.duplicate, h.row, h.ready_pending, h.removal⟩

theorem skip (h : Batch tools s (m :: rest) skipped ready) {text : Option String}
    (hduplicate : forall t, text = some t -> (s.remoteId m).isSome ->
      exists document, s.document m = some document ∧ document.body = t) :
    Batch tools s rest (skipped ++ [⟨m, text⟩]) ready := by
  refine ⟨?_, h.defer.todo_pending, ?_, h.row, h.ready_pending, h.removal⟩
  · rw [List.map_append, List.append_assoc, <- List.append_assoc rest]
    apply (List.perm_middle.nodup_iff).mpr
    rw [List.append_assoc]
    exact h.nodup
  · intro entry hentry t htext hremote
    rcases List.mem_append.mp hentry with hold | hnew
    · exact h.duplicate entry hold t htext hremote
    · cases List.mem_singleton.mp hnew
      exact hduplicate t htext hremote

theorem getReady (h : Batch tools s (m :: rest) skipped ready) {r : MessageId}
    {document : Document} (hremote : s.remoteId m = some r)
    (hremoval : s.RemovalPending tools m) :
    Batch tools s rest skipped (ready ++ [⟨m, r, document⟩]) := by
  have hsplit : forall entry, entry ∈ ready ++ [⟨m, r, document⟩] ->
      entry ∈ ready ∨ entry = ⟨m, r, document⟩ := by
    intro entry hentry
    rcases List.mem_append.mp hentry with hold | hnew
    · exact Or.inl hold
    · exact Or.inr (List.mem_singleton.mp hnew)
  refine ⟨?_, h.defer.todo_pending, h.duplicate, ?_, ?_, ?_⟩
  · rw [List.map_append, <- List.append_assoc, <- List.append_assoc]
    apply (List.perm_middle.nodup_iff).mpr
    rw [List.map_nil, List.append_nil, List.append_assoc]
    exact h.nodup
  · intro entry hentry
    rcases hsplit entry hentry with hold | hnew
    · exact h.row entry hold
    · rw [hnew]
      exact hremote
  · intro entry hentry
    rcases hsplit entry hentry with hold | hnew
    · exact h.ready_pending entry hold
    · rw [hnew]
      exact h.todo_pending m List.mem_cons_self
  · intro entry hentry
    rcases hsplit entry hentry with hold | hnew
    · exact h.removal entry hold
    · rw [hnew]
      exact hremoval

end Batch

theorem decrypted_of_bodyToIndex {body : RawMessageBody} {text : String}
    (h : tools.bodyToIndex body = some text) : body.decryptionError = none := by
  unfold ContentTools.bodyToIndex at h
  split at h
  · cases h
  · rename_i hdecrypted
    exact Option.not_isSome_iff_eq_none.mp hdecrypted

theorem Tracked.prepare (h : Tracked tools s) {rest : List LocalMessageId}
    {progress : Preparation} {skipped : List Skipped}
    (hphase : s.phase = Phase.preparing (m :: rest) progress skipped ready removals)
    (hharmless : s.HarmlessWork tools s.phase) :
    s.Working tools (s.prepare tools m rest skipped ready removals progress) := by
  have hworking := h.working
  rw [hphase] at hworking hharmless
  have hbatch := hworking.left
  have hprogress := hworking.right m rfl
  have hskip : Batch tools s rest (skipped ++ [⟨m, none⟩]) ready :=
    hbatch.skip (fun t ht => (nomatch ht))
  cases progress with
  | begin =>
      unfold SearchState.prepare
      dsimp only
      split
      · exact ⟨hskip, fun _ _ => trivial⟩
      · rename_i hdraft
        split
        · exact ⟨hbatch.defer, fun _ _ => trivial⟩
        · rename_i r hremote
          refine ⟨hbatch, ?_⟩
          intro m' hm'
          cases hm'
          intro row hrow
          unfold SearchState.remoteId at hremote
          rw [hrow] at hremote hdraft
          exact ⟨hremote, Option.not_isSome_iff_eq_none.mp hdraft⟩
  | synced r =>
      unfold SearchState.prepare
      dsimp only
      split
      · exact ⟨hskip, fun _ _ => trivial⟩
      · rename_i text htext
        refine ⟨hbatch, ?_⟩
        intro m' hm'
        cases hm'
        refine ⟨hprogress, ?_⟩
        intro hsome hnone
        rcases Option.isSome_iff_exists.mp hsome with ⟨row, hrow⟩
        rcases Option.bind_eq_some_iff.mp htext with ⟨body, hbody, htext'⟩
        have hdecrypted := decrypted_of_bodyToIndex htext'
        by_cases hempty : body.body = []
        · exact hharmless body hbody hdecrypted hempty
        · have hindexable : s.indexable tools m = some text :=
            indexable_eq_some.mpr ⟨r, body, ⟨⟨row, hrow, hprogress row hrow⟩, hbody,
              hdecrypted, hempty⟩, htext'⟩
          rw [hnone] at hindexable
          cases hindexable
  | read r text =>
      unfold SearchState.prepare
      dsimp only
      split
      · exact ⟨hskip, fun _ _ => trivial⟩
      · rename_i row hrow
        have hremote : s.remoteId m = some r := by
          unfold SearchState.remoteId
          rw [hrow]
          exact (hprogress.left row hrow).left
        have hsome : (s.messages m).isSome := by
          rw [hrow]
          rfl
        split
        · rename_i hhash
          refine ⟨hbatch.skip ?_, fun _ _ => trivial⟩
          intro t ht hsynced
          cases ht
          have hsaved : unsaved s.phase = [] := by
            rw [hphase]
            rfl
          rcases h.hashed_of_saved hsaved hhash hsynced with
            ⟨document, hdocument, hsame⟩
          exact ⟨document, hdocument, hharmless row hrow document hdocument hsame⟩
        · exact ⟨hbatch.getReady hremote (hprogress.right hsome), fun _ _ => trivial⟩

/-!
# Indexing
-/

theorem mem_deleteIntents {intents : Finset Intent} {messages : List LocalMessageId}
    {intent : Intent} : intent ∈ deleteIntents intents messages ↔
      intent ∈ intents ∧ forall m, m ∈ messages -> intent ≠ (m, SearchOperation.index) := by
  induction messages generalizing intents with
  | nil => exact ⟨fun h => ⟨h, fun m hm => (nomatch hm)⟩, And.left⟩
  | cons first rest ih =>
      unfold deleteIntents
      rw [List.foldl_cons]
      change intent ∈ deleteIntents _ rest ↔ _
      rw [ih, Finset.mem_erase, List.forall_mem_cons]
      tauto

theorem remove_mem_deleteIntents {intents : Finset Intent}
    {messages : List LocalMessageId} (h : (m, SearchOperation.remove) ∈ intents) :
    (m, SearchOperation.remove) ∈ deleteIntents intents messages :=
  mem_deleteIntents.mpr ⟨h, fun _ _ heq => (nomatch congrArg Prod.snd heq)⟩

theorem index_mem_deleteIntents {intents : Finset Intent}
    {messages : List LocalMessageId} (h : (m, SearchOperation.index) ∈ intents)
    (hm : m ∉ messages) :
    (m, SearchOperation.index) ∈ deleteIntents intents messages := by
  refine mem_deleteIntents.mpr ⟨h, fun m' hm' heq => hm ?_⟩
  cases heq
  exact hm'

theorem Tracked.deleteSkipped (h : Tracked tools s) {skipped : List Skipped}
    (hphase : s.phase = Phase.deleting skipped ready removals)
    (hharmless : s.HarmlessWork tools s.phase) :
    Tracked tools { s with
      intents := deleteIntents s.intents (skipped.map Skipped.message)
      phase := Phase.indexing ready removals } := by
  have hsaved : unsaved s.phase = [] := by
    rw [hphase]
    rfl
  have hbatch := h.working
  rw [hphase] at hbatch hharmless
  refine ⟨h.unique, h.readable, h.owned, ?_, ?_, ?_, ?_⟩
  · intro m text htext
    rcases h.indexed m text htext with hpending | hdocument
    · by_cases hm : m ∈ skipped.map Skipped.message
      · right
        rcases List.mem_map.mp hm with ⟨entry, hentry, hmessage⟩
        have hremote := remoteId_of_indexable htext
        change s.indexable tools m = some text at htext
        rw [<- hmessage] at htext hremote ⊢
        rcases hharmless entry hentry with hnone | hsame
        · rw [htext] at hnone
          cases hnone
        · exact hbatch.duplicate entry hentry text (hsame.symm.trans htext) hremote
      · exact Or.inl (index_mem_deleteIntents hpending hm)
    · exact Or.inr hdocument
  · intro m hnone
    exact (h.removed m hnone).imp id remove_mem_deleteIntents
  · exact fun m hash hhash hremote => Or.inr (h.hashed_of_saved hsaved hhash hremote)
  · have hall : (skipped.map Skipped.message ++ ready.map Ready.message).Nodup :=
      hbatch.nodup
    have hnodup := List.nodup_append.mp hall
    refine ⟨hnodup.right.left, fun m hm => (nomatch hm),
      fun entry hentry => (nomatch hentry), hbatch.row, ?_, ?_⟩
    · intro entry hentry
      apply index_mem_deleteIntents (hbatch.ready_pending entry hentry)
      intro hskipped
      exact hnodup.right.right _ hskipped _ (List.mem_map_of_mem hentry) rfl
    · intro entry hentry hnone
      exact remove_mem_deleteIntents (hbatch.removal entry hentry hnone)

section ReadyBatch

variable {s : SearchState} {ready : List Ready}

theorem Batch.eq_of_message (h : Batch tools s [] [] ready) {entry entry' : Ready}
    (hentry : entry ∈ ready) (hentry' : entry' ∈ ready)
    (hmessage : entry'.message = entry.message) : entry' = entry :=
  List.inj_on_of_nodup_map h.nodup hentry' hentry hmessage

theorem Tracked.insertDocuments_of_mem (h : Tracked tools s)
    (hbatch : Batch tools s [] [] ready) {entry : Ready} (hentry : entry ∈ ready) :
    insertDocuments s.index ready entry.remoteId = some entry.document := by
  apply writeAll_of_mem hentry
  intro entry' hentry' hremote
  apply hbatch.eq_of_message hentry hentry'
  exact h.unique _ _ entry'.remoteId (hbatch.row entry' hentry')
    (hremote ▸ hbatch.row entry hentry)

/-- The message of a document that is not in the batch keeps its document. -/
theorem Tracked.insertDocuments_of_not_mem (h : Tracked tools s)
    (hbatch : Batch tools s [] [] ready) (hm : m ∉ ready.map Ready.message) :
    (s.remoteId m).bind (insertDocuments s.index ready) = s.document m := by
  unfold SearchState.document
  cases hremote : s.remoteId m with
  | none => rfl
  | some r =>
      apply writeAll_of_not_mem
      intro entry hentry hsame
      apply hm
      have hrow := hbatch.row entry hentry
      rw [hsame] at hrow
      rw [h.unique m entry.message r hremote hrow]
      exact List.mem_map_of_mem hentry

theorem Tracked.document_inserted (h : Tracked tools s)
    (hbatch : Batch tools s [] [] ready) (m : LocalMessageId) :
    m ∈ ready.map Ready.message ∨
      (s.remoteId m).bind (insertDocuments s.index ready) = s.document m := by
  by_cases hm : m ∈ ready.map Ready.message
  · exact Or.inl hm
  · exact Or.inr (h.insertDocuments_of_not_mem hbatch hm)

end ReadyBatch

theorem Tracked.insertDocuments (h : Tracked tools s)
    (hphase : s.phase = Phase.indexing ready removals) :
    Tracked tools { s with
      index := insertDocuments s.index ready
      phase := Phase.saving ready removals } := by
  have hsaved : unsaved s.phase = [] := by
    rw [hphase]
    rfl
  have hbatch : Batch tools s [] [] ready := by
    have hworking := h.working
    rw [hphase] at hworking
    exact hworking
  refine ⟨h.unique, h.readable, ?_, ?_, ?_, ?_, ?_⟩
  · intro r document hdocument
    by_cases hr : exists entry, entry ∈ ready ∧ entry.remoteId = r
    · rcases hr with ⟨entry, hentry, hremote⟩
      exact ⟨entry.message, hremote ▸ hbatch.row entry hentry⟩
    · have hold : SearchState.insertDocuments s.index ready r = s.index r :=
        writeAll_of_not_mem (fun entry hentry hsame => hr ⟨entry, hentry, hsame⟩) _
      exact h.owned r document (hold.symm.trans hdocument)
  · intro m text htext
    rcases h.indexed m text htext with hpending | ⟨document, hold, hbody⟩
    · exact Or.inl hpending
    · rcases h.document_inserted hbatch m with hm | hsame
      · rcases List.mem_map.mp hm with ⟨entry, hentry, hmessage⟩
        exact Or.inl (hmessage ▸ hbatch.ready_pending entry hentry)
      · exact Or.inr ⟨document, hsame.trans hold, hbody⟩
  · intro m hnone
    rcases h.document_inserted hbatch m with hm | hsame
    · rcases List.mem_map.mp hm with ⟨entry, hentry, hmessage⟩
      rw [<- hmessage] at hnone ⊢
      exact Or.inr (hbatch.removal entry hentry hnone)
    · exact (h.removed m hnone).imp hsame.trans id
  · intro m hash hhash hremote
    rcases h.document_inserted hbatch m with hm | hsame
    · exact Or.inl hm
    · rcases h.hashed_of_saved hsaved hhash hremote with ⟨document, hold, heq⟩
      exact Or.inr ⟨document, hsame.trans hold, heq⟩
  · refine ⟨⟨hbatch.nodup, hbatch.todo_pending, fun entry hentry => (nomatch hentry),
      hbatch.row, hbatch.ready_pending, hbatch.removal⟩, ?_⟩
    exact fun entry hentry => h.insertDocuments_of_mem hbatch hentry

theorem Tracked.saveHashes (h : Tracked tools s)
    (hphase : s.phase = Phase.saving ready removals)
    (hharmless : s.HarmlessWork tools s.phase) :
    Tracked tools { s with
      contentHashes := saveContentHashes tools s.contentHashes ready
      intents := deleteIntents s.intents (ready.map Ready.message)
      phase := Phase.removing removals } := by
  have hworking := h.working
  rw [hphase] at hworking hharmless
  have hbatch := hworking.left
  have hdocument : forall entry, entry ∈ ready ->
      s.document entry.message = some entry.document := by
    intro entry hentry
    unfold SearchState.document
    rw [hbatch.row entry hentry]
    exact hworking.right entry hentry
  refine ⟨h.unique, h.readable, h.owned, ?_, ?_, ?_, trivial⟩
  · intro m text htext
    rcases h.indexed m text htext with hpending | hold
    · by_cases hm : m ∈ ready.map Ready.message
      · right
        rcases List.mem_map.mp hm with ⟨entry, hentry, hmessage⟩
        change s.indexable tools m = some text at htext
        rw [<- hmessage] at htext ⊢
        refine ⟨entry.document, hdocument entry hentry, ?_⟩
        rcases hharmless entry hentry with hnone | hsame
        · rw [htext] at hnone
          cases hnone
        · exact Option.some.inj (hsame.symm.trans htext)
      · exact Or.inl (index_mem_deleteIntents hpending hm)
    · exact Or.inr hold
  · intro m hnone
    exact (h.removed m hnone).imp id remove_mem_deleteIntents
  · intro m hash hhash hremote
    right
    by_cases hm : m ∈ ready.map Ready.message
    · rcases List.mem_map.mp hm with ⟨entry, hentry, hmessage⟩
      rw [<- hmessage] at hhash ⊢
      have hsaved : saveContentHashes tools s.contentHashes ready entry.message =
          some (tools.computeContentHash entry.document) :=
        writeAll_of_mem hentry
          (fun entry' hentry' => hbatch.eq_of_message hentry hentry') _
      exact ⟨entry.document, hdocument entry hentry,
        Option.some.inj (hsaved.symm.trans hhash)⟩
    · have hsame : saveContentHashes tools s.contentHashes ready m =
          s.contentHashes m := by
        apply writeAll_of_not_mem
        intro entry hentry heq
        exact hm (heq ▸ List.mem_map_of_mem hentry)
      rcases h.hashed m hash (hsame.symm.trans hhash) hremote with hunsaved | hold
      · rw [hphase] at hunsaved
        exact absurd hunsaved hm
      · exact hold

/-!
# Removals
-/

theorem Tracked.removeDocument (h : Tracked tools s)
    (hphase : s.phase = Phase.removingDocument m r removals)
    (hharmless : s.HarmlessWork tools s.phase) :
    Tracked tools { s with
      index := Function.update s.index r none
      phase := Phase.deletingHash m removals } := by
  have hsaved : unsaved s.phase = [] := by
    rw [hphase]
    rfl
  have hworking := h.working
  rw [hphase] at hworking hharmless
  have hgone : (s.remoteId m).bind (Function.update s.index r none) = none := by
    cases hremote : s.remoteId m with
    | none => rfl
    | some r' =>
        rw [hworking.left r' hremote]
        exact Function.update_self _ _ _
  have hother : forall m', m' ≠ m ->
      (s.remoteId m').bind (Function.update s.index r none) = s.document m' := by
    intro m' hm'
    unfold SearchState.document
    cases hremote : s.remoteId m' with
    | none => rfl
    | some r' =>
        apply Function.update_of_ne
        intro heq
        exact hm' (hworking.right m' (heq ▸ hremote))
  refine ⟨h.unique, h.readable, ?_, ?_, ?_, ?_, hgone⟩
  · intro r' document hdocument
    dsimp only at hdocument
    by_cases hr : r' = r
    · rw [hr, Function.update_self] at hdocument
      cases hdocument
    · rw [Function.update_of_ne hr] at hdocument
      exact h.owned r' document hdocument
  · intro m' text htext
    by_cases hm : m' = m
    · rw [hm] at htext ⊢
      rcases hharmless with hnone | hpending
      · exact absurd (hnone.symm.trans htext) (fun heq => (nomatch heq))
      · exact Or.inl hpending
    · rcases h.indexed m' text htext with hpending | ⟨document, hold, hbody⟩
      · exact Or.inl hpending
      · exact Or.inr ⟨document, (hother m' hm).trans hold, hbody⟩
  · intro m' hnone
    by_cases hm : m' = m
    · exact Or.inl (hm ▸ hgone)
    · exact (h.removed m' hnone).imp (hother m' hm).trans id
  · intro m' hash hhash hremote
    by_cases hm : m' = m
    · exact Or.inl (List.mem_singleton.mpr hm)
    · rcases h.hashed_of_saved hsaved hhash hremote with ⟨document, hold, heq⟩
      exact Or.inr ⟨document, (hother m' hm).trans hold, heq⟩

theorem Tracked.deleteContentHash (h : Tracked tools s)
    (hphase : s.phase = Phase.deletingHash m removals) :
    Tracked tools { s with
      contentHashes := Function.update s.contentHashes m none
      phase := Phase.deletingIntent m removals } := by
  have hunindexed := h.working
  rw [hphase] at hunindexed
  refine ⟨h.unique, h.readable, h.owned, h.indexed, h.removed, ?_, hunindexed⟩
  intro m' hash hhash hremote
  dsimp only at hhash
  by_cases hm : m' = m
  · rw [hm, Function.update_self] at hhash
    cases hhash
  · rw [Function.update_of_ne hm] at hhash
    rcases h.hashed m' hash hhash hremote with hunsaved | hdocument
    · rw [hphase] at hunsaved
      exact absurd (List.mem_singleton.mp hunsaved) hm
    · exact Or.inr hdocument

theorem Tracked.deleteRemoval (h : Tracked tools s)
    (hphase : s.phase = Phase.deletingIntent m removals) :
    Tracked tools { s with
      intents := s.intents.erase (m, SearchOperation.remove)
      phase := Phase.removing removals } := by
  have hsaved : unsaved s.phase = [] := by
    rw [hphase]
    rfl
  have hunindexed := h.working
  rw [hphase] at hunindexed
  refine ⟨h.unique, h.readable, h.owned, ?_, ?_, ?_, trivial⟩
  · intro m' text htext
    rcases h.indexed m' text htext with hpending | hdocument
    · left
      exact Finset.mem_erase.mpr
        ⟨fun heq => (nomatch congrArg Prod.snd heq), hpending⟩
    · exact Or.inr hdocument
  · intro m' hnone
    by_cases hm : m' = m
    · rw [hm]
      exact Or.inl hunindexed
    · refine (h.removed m' hnone).imp id (fun hpending => ?_)
      exact Finset.mem_erase.mpr ⟨fun heq => hm (congrArg Prod.fst heq), hpending⟩
  · exact fun m' hash hhash hremote => Or.inr (h.hashed_of_saved hsaved hhash hremote)

/-!
# Every step
-/

theorem Tracked.startRemoval (h : Tracked tools s) {rest : List LocalMessageId}
    (hphase : s.phase = Phase.removing (m :: rest))
    (hwork : s.work tools (Phase.removing (m :: rest)) = some s') :
    Tracked tools s' := by
  have hsaved : unsaved s.phase = [] := by
    rw [hphase]
    rfl
  unfold SearchState.work at hwork
  dsimp only at hwork
  split at hwork
  · rename_i hremote
    cases hwork
    apply h.changePhase hsaved
    change s.document m = none
    unfold SearchState.document
    rw [hremote]
    rfl
  · rename_i r hremote
    cases hwork
    apply h.changePhase hsaved
    refine ⟨?_, fun m' hm' => h.unique m' m r hm' hremote⟩
    intro r' hr'
    exact Option.some.inj (hr'.symm.trans hremote)

theorem Tracked.work (h : Tracked tools s)
    (hharmless : s.HarmlessWork tools s.phase)
    (hwork : s.work tools s.phase = some s') : Tracked tools s' := by
  cases hphase : s.phase with
  | idle =>
      rw [hphase] at hwork
      cases hwork
  | preparing todo progress skipped ready removals =>
      rw [hphase] at hwork
      have hsaved : unsaved s.phase = [] := by
        rw [hphase]
        rfl
      cases todo with
      | nil =>
          cases hwork
          have hworking := h.working
          rw [hphase] at hworking
          exact h.changePhase hsaved hworking.left
      | cons m rest =>
          cases hwork
          exact h.changePhase hsaved (h.prepare hphase hharmless)
  | deleting skipped ready removals =>
      rw [hphase] at hwork
      cases hwork
      exact h.deleteSkipped hphase hharmless
  | indexing ready removals =>
      rw [hphase] at hwork
      cases hwork
      exact h.insertDocuments hphase
  | saving ready removals =>
      rw [hphase] at hwork
      cases hwork
      exact h.saveHashes hphase hharmless
  | removing removals =>
      rw [hphase] at hwork
      cases removals with
      | nil =>
          cases hwork
          refine h.changePhase ?_ trivial
          rw [hphase]
          rfl
      | cons m rest => exact h.startRemoval hphase hwork
  | removingDocument m r removals =>
      rw [hphase] at hwork
      cases hwork
      exact h.removeDocument hphase hharmless
  | deletingHash m removals =>
      rw [hphase] at hwork
      cases hwork
      exact h.deleteContentHash hphase
  | deletingIntent m removals =>
      rw [hphase] at hwork
      cases hwork
      exact h.deleteRemoval hphase

/-- What each event of a run does. -/
inductive Happens (tools : ContentTools) (s : SearchState) :
    SearchEvent -> SearchState -> Prop where
  | stored {m : LocalMessageId} {body : RawMessageBody} :
      Happens tools s (SearchEvent.store m body) (s.storeBody m body)
  | bodyDeleted {m : LocalMessageId} :
      Happens tools s (SearchEvent.deleteBody m) (s.deleteBody m)
  | updated {m : LocalMessageId} {row : MessageRow} {action : Action}
      {flags : MessageFlags} {metadata : MessageMetadata} :
      s.messages m = some row ->
      Happens tools s (SearchEvent.update m action flags metadata)
        (s.updateMessage m row action flags metadata)
  | messageDeleted {m : LocalMessageId} :
      Happens tools s (SearchEvent.deleteMessage m) (s.deleteMessage m)
  | fetched {batch : List Intent} :
      s.phase = Phase.idle -> s.PendingBatch batch ->
      Happens tools s (SearchEvent.fetch batch) (s.startBatch batch)
  | worked {s' : SearchState} :
      s.work tools s.phase = some s' -> Happens tools s SearchEvent.work s'

theorem happens_of_next {e : SearchEvent} (hnext : s.next tools e = some s') :
    Happens tools s e s' := by
  cases e with
  | store m body =>
      unfold SearchState.next at hnext
      dsimp only at hnext
      split at hnext
      · cases hnext
        exact Happens.stored
      · cases hnext
  | deleteBody m =>
      cases hnext
      exact Happens.bodyDeleted
  | update m action flags metadata =>
      unfold SearchState.next at hnext
      dsimp only at hnext
      split at hnext
      · cases hnext
      · rename_i row hrow
        split at hnext
        · cases hnext
          exact Happens.updated hrow
        · cases hnext
  | deleteMessage m =>
      unfold SearchState.next at hnext
      dsimp only at hnext
      split at hnext
      · cases hnext
        exact Happens.messageDeleted
      · cases hnext
  | fetch batch =>
      unfold SearchState.next at hnext
      dsimp only at hnext
      split at hnext
      · rename_i hguard
        cases hnext
        exact Happens.fetched hguard.left hguard.right
      · cases hnext
  | work => exact Happens.worked hnext

theorem Tracked.next {e : SearchEvent} (h : Tracked tools s)
    (hharmless : s.Harmless tools e) (hnext : s.next tools e = some s') :
    Tracked tools s' := by
  cases happens_of_next hnext with
  | stored => exact h.transaction (storeBody_transaction hharmless)
  | bodyDeleted => exact h.transaction (deleteBody_transaction s _)
  | updated hrow => exact h.updateMessage hrow _ _ _
  | messageDeleted => exact h.transaction (deleteMessage_transaction hharmless)
  | fetched hidle hpending => exact h.startBatch hidle hpending
  | worked hwork => exact h.work hharmless hwork

theorem tracked_initial (h : s.Initial) : Tracked tools s := by
  rcases h with ⟨hunique, hbodies, _, hhashes, hindex, hphase⟩
  have hdocument : forall m, s.document m = none := by
    intro m
    unfold document
    cases s.remoteId m with
    | none => rfl
    | some r => exact hindex r
  refine ⟨hunique, ?_, ?_, ?_, fun m _ => Or.inl (hdocument m), ?_, ?_⟩
  · intro m body hbody
    rw [hbodies m] at hbody
    cases hbody
  · intro r document hsome
    rw [hindex r] at hsome
    cases hsome
  · intro m text htext
    rcases indexable_eq_some.mp htext with ⟨r, body, hsearchable, _⟩
    have hstored := hsearchable.stored
    rw [hbodies m] at hstored
    cases hstored
  · intro m hash hhash
    rw [hhashes m] at hhash
    cases hhash
  · rw [hphase]
    trivial

theorem reachable_tracked (h : ReachableWhen (system tools) (Harmless tools) s) :
    Tracked tools s :=
  TransitionSystem.invariant_when (Tracked tools) (fun _ => tracked_initial)
    (fun _ _ _ _ htracked hharmless hnext => htracked.next hharmless hnext) h

/--
In every run whose steps are harmless, the index has the documents of the stored
bodies whenever no intent is pending, also while the worker ends a batch.
-/
theorem index_converges {tools : ContentTools} {s : SearchState}
    (hreach : ReachableWhen (system tools) (Harmless tools) s)
    (hdone : s.intents = ∅) : s.Converged tools := by
  have h := reachable_tracked hreach
  have hnone : forall intent, intent ∉ s.intents := by
    intro intent
    rw [hdone]
    exact Finset.notMem_empty intent
  intro r
  refine ⟨?_, ?_⟩
  · intro document hdocument
    rcases h.owned r document hdocument with ⟨m, hm⟩
    have hown : s.document m = some document := by
      unfold SearchState.document
      rw [hm]
      exact hdocument
    cases htext : s.indexable tools m with
    | none =>
        rcases h.removed m htext with hgone | hpending
        · rw [hown] at hgone
          cases hgone
        · exact absurd hpending (hnone _)
    | some text =>
        rcases indexable_eq_some.mp htext with ⟨r', body, hsearchable, hbody⟩
        have hr : r' = r := by
          rcases hsearchable.row with ⟨row, hrow, hremote, _⟩
          unfold remoteId at hm
          rw [hrow] at hm
          exact Option.some.inj (hremote.symm.trans hm)
        rcases h.indexed m text htext with hpending | ⟨document', hown', hsame⟩
        · exact absurd hpending (hnone _)
        · rw [hown] at hown'
          cases hown'
          exact ⟨m, body, hr ▸ hsearchable, hsame ▸ hbody⟩
  · intro m body hsearchable
    have hshould := (shouldIndex_iff body).mpr
      ⟨hsearchable.decrypted, hsearchable.nonempty⟩
    rcases Option.isSome_iff_exists.mp
      (h.readable m body hsearchable.stored hshould) with ⟨text, htext⟩
    rcases h.indexed m text
      (indexable_eq_some.mpr ⟨r, body, hsearchable, htext⟩) with hpending | hown
    · exact absurd hpending (hnone _)
    · rcases hown with ⟨document, hown, _⟩
      rcases hsearchable.row with ⟨row, hrow, hremote, _⟩
      unfold SearchState.document remoteId at hown
      rw [hrow] at hown
      change row.remoteId.bind s.index = some document at hown
      rw [hremote] at hown
      exact Option.isSome_iff_exists.mpr ⟨document, hown⟩

/-!
# Runs

No step of the model creates a message.  The runs below are about one message
with two bodies.
-/

theorem messages_work {phase : Phase} (h : s.work tools phase = some s') :
    s'.messages = s.messages := by
  cases phase with
  | idle => cases h
  | preparing todo progress skipped ready removals =>
      cases todo <;> cases h <;> rfl
  | removing removals =>
      cases removals with
      | nil =>
          cases h
          rfl
      | cons m rest =>
          unfold SearchState.work at h
          dsimp only at h
          split at h <;> cases h <;> rfl
  | _ =>
      cases h
      rfl

theorem messages_storeBody (s : SearchState) (m : LocalMessageId)
    (body : RawMessageBody) : (s.storeBody m body).messages = s.messages := by
  unfold storeBody
  dsimp only
  split <;> rfl

theorem remoteId_updateMessage {m' : LocalMessageId} {row : MessageRow}
    (hrow : s.messages m = some row) (action : Action) (flags : MessageFlags)
    (metadata : MessageMetadata) :
    (s.updateMessage m row action flags metadata).remoteId m' = s.remoteId m' := by
  have hsaved : (Function.update s.messages m
      (some { row with metadata := metadata }) m').bind MessageRow.remoteId =
        s.remoteId m' := by
    by_cases hm : m' = m
    · unfold remoteId
      rw [hm, Function.update_self, hrow]
      rfl
    · rw [Function.update_of_ne hm]
      rfl
  unfold updateMessage
  cases syncDecision row.draft flags with
  | skip => rfl
  | apply => cases deletesBody row.draft (some action) <;> exact hsaved

theorem remoteId_deleteMessage {m' : LocalMessageId}
    (h : (s.deleteMessage m).remoteId m' = some r) :
    s.remoteId m' = some r := by
  by_cases hm : m' = m
  · unfold deleteMessage remoteId at h
    dsimp only at h
    rw [hm, Function.update_self] at h
    cases h
  · unfold deleteMessage remoteId at h
    dsimp only at h
    rw [Function.update_of_ne hm] at h
    exact h

theorem remoteId_next {e : SearchEvent} (hnext : s.next tools e = some s')
    (hr : s'.remoteId m = some r) : s.remoteId m = some r := by
  cases happens_of_next hnext with
  | stored =>
      unfold remoteId at hr
      rw [messages_storeBody] at hr
      exact hr
  | bodyDeleted => exact hr
  | updated hrow =>
      rw [remoteId_updateMessage hrow] at hr
      exact hr
  | messageDeleted => exact remoteId_deleteMessage hr
  | fetched _ _ => exact hr
  | worked hwork =>
      unfold remoteId at hr
      rw [messages_work hwork] at hr
      exact hr

theorem remoteId_foldlM {events : List SearchEvent}
    (hrun : events.foldlM (next tools) s = some s')
    (hr : s'.remoteId m = some r) : s.remoteId m = some r := by
  induction events generalizing s with
  | nil =>
      cases hrun
      exact hr
  | cons e rest ih =>
      rcases Option.bind_eq_some_iff.mp hrun with ⟨t, hnext, hrest⟩
      exact remoteId_next hnext (ih hrest)

def subject : MessageMetadata := ⟨"subject", "a@pm.me", "b@pm.me", "", ""⟩

def hi : RawMessageBody := ⟨[104, 105], none, RawMessageBodyType.plain⟩

def ho : RawMessageBody := ⟨[104, 111], none, RawMessageBodyType.plain⟩

def plainText : ContentTools where
  processedBody := fun body =>
    if body = hi then some ("hi", false)
    else if body = ho then some ("ho", false)
    else none
  htmlToTextFast := id
  sha256 := fun text =>
    if text = "hisubject\x00a@pm.me\x00b@pm.me\x00\x00" then
      "81ed1ddcb2ad7b4b8247995f8b3a9f8ab5e26e8aee8120770e1b59ee62ad664e"
    else if text = "hosubject\x00a@pm.me\x00b@pm.me\x00\x00" then
      "7a4bb5aaa777831510ea78f18d58d817594a473a26cb7650a0694d5e293ad376"
    else ""

def oneMessage : SearchState where
  messages := Function.update (fun _ => none) 1 (some ⟨some "m", none, subject⟩)
  bodies := fun _ => none
  intents := ∅
  contentHashes := fun _ => none
  index := fun _ => none
  phase := Phase.idle

theorem eq_one_of_remoteId (h : oneMessage.remoteId m = some r) : m = 1 := by
  by_cases hm : m = 1
  · exact hm
  · unfold remoteId oneMessage at h
    dsimp only at h
    rw [Function.update_of_ne hm] at h
    cases h

theorem oneMessage_initial : oneMessage.Initial :=
  ⟨fun _ _ _ hm hm' => (eq_one_of_remoteId hm).trans (eq_one_of_remoteId hm').symm,
    fun _ => rfl, rfl, fun _ => rfl, fun _ => rfl, rfl⟩

def storeAndIndex : List SearchEvent :=
  [SearchEvent.store 1 hi, SearchEvent.fetch [(1, SearchOperation.index)]] ++
    List.replicate 8 SearchEvent.work

def updateEvent : SearchEvent :=
  SearchEvent.update 1 Action.update 0 subject

def fetchBoth : SearchEvent :=
  SearchEvent.fetch [(1, SearchOperation.index), (1, SearchOperation.remove)]

/-- The body is indexed, removed by an update and stored and indexed again. -/
theorem updated_body_found :
    exists s, ReachableWhen (system plainText) (Harmless plainText) s ∧
      s.intents = ∅ ∧ s.index "m" = some ⟨"ho", subject⟩ ∧ s.Converged plainText := by
  have hrun : exists s, s ∈ List.foldlM (fun s e =>
      if s.Harmless plainText e then s.next plainText e else none) oneMessage
        (storeAndIndex ++ [updateEvent, fetchBoth] ++
          List.replicate 11 SearchEvent.work ++
          [SearchEvent.store 1 ho, SearchEvent.fetch [(1, SearchOperation.index)]] ++
          List.replicate 8 SearchEvent.work) ∧
      s.intents = ∅ ∧ s.index "m" = some ⟨"ho", subject⟩ := by
    decide +kernel
  rcases hrun with ⟨s, hfold, hdone, hindex⟩
  have hreach : ReachableWhen (system plainText) (Harmless plainText) s :=
    ReachableWhen.replay (fun _ _ _ h => h)
      (ReachableWhen.start oneMessage_initial) hfold
  exact ⟨s, hreach, hdone, hindex, index_converges hreach hdone⟩

/-- The worker is idle, nothing is pending and the index is wrong. -/
def Diverged (s : SearchState) : Prop :=
  Reachable (system plainText) s ∧ s.phase = Phase.idle ∧ s.intents = ∅ ∧
    ¬ s.Converged plainText

/--
A message that is updated and whose body is stored at once is indexed and then
removed; a body that is stored while the worker indexes the message is not
indexed; and the document of a message that is deleted stays.
-/
theorem index_diverges :
    (exists s : SearchState, s.Diverged ∧ s.Searchable 1 "m" hi ∧ s.index "m" = none) ∧
    (exists s : SearchState, s.Diverged ∧ s.Searchable 1 "m" ho ∧
      s.index "m" = some ⟨"hi", subject⟩) ∧
    exists s : SearchState, s.Diverged ∧ s.messages 1 = none ∧
      s.index "m" = some ⟨"hi", subject⟩ := by
  have hreach : forall {events : List SearchEvent} {s : SearchState},
      events.foldlM (next plainText) oneMessage = some s ->
        Reachable (system plainText) s :=
    fun h => Reachable.replay (fun _ _ _ h => h)
      (ReachableWhen.start oneMessage_initial) h
  have honly : forall {events : List SearchEvent} {s : SearchState}
      {m : LocalMessageId} {body : RawMessageBody},
      events.foldlM (next plainText) oneMessage = some s ->
        s.Searchable m "m" body -> m = 1 := by
    intro events s m body hfold hsearchable
    rcases hsearchable.row with ⟨row, hrow, hremote, _⟩
    apply eq_one_of_remoteId (r := "m")
    apply remoteId_foldlM hfold
    unfold remoteId
    rw [hrow]
    exact hremote
  refine ⟨?_, ?_, ?_⟩
  · have hrun : exists s, s ∈ List.foldlM (next plainText) oneMessage
        ([updateEvent, SearchEvent.store 1 hi, fetchBoth] ++
          List.replicate 12 SearchEvent.work) ∧
        s.phase = Phase.idle ∧ s.intents = ∅ ∧ s.index "m" = none ∧
        s.messages 1 = some ⟨some "m", none, subject⟩ ∧ s.bodies 1 = some hi := by
      decide +kernel
    rcases hrun with ⟨s, hfold, hidle, hdone, hindex, hrow, hbody⟩
    have hsearchable : s.Searchable 1 "m" hi :=
      ⟨⟨_, hrow, rfl, rfl⟩, hbody, rfl, fun h => (nomatch h)⟩
    refine ⟨s, ⟨hreach hfold, hidle, hdone, fun hconverged => ?_⟩, hsearchable, hindex⟩
    have hsome := (hconverged "m").right 1 hi hsearchable
    rw [hindex] at hsome
    cases hsome
  · have hrun : exists s, s ∈ List.foldlM (next plainText) oneMessage
        ([SearchEvent.store 1 hi, SearchEvent.fetch [(1, SearchOperation.index)]] ++
          List.replicate 3 SearchEvent.work ++ [SearchEvent.store 1 ho] ++
          List.replicate 5 SearchEvent.work) ∧
        s.phase = Phase.idle ∧ s.intents = ∅ ∧
        s.index "m" = some ⟨"hi", subject⟩ ∧
        s.messages 1 = some ⟨some "m", none, subject⟩ ∧ s.bodies 1 = some ho := by
      decide +kernel
    rcases hrun with ⟨s, hfold, hidle, hdone, hindex, hrow, hbody⟩
    have hsearchable : s.Searchable 1 "m" ho :=
      ⟨⟨_, hrow, rfl, rfl⟩, hbody, rfl, fun h => (nomatch h)⟩
    refine ⟨s, ⟨hreach hfold, hidle, hdone, fun hconverged => ?_⟩, hsearchable, hindex⟩
    rcases (hconverged "m").left _ hindex with ⟨m, body, hother, htext⟩
    have hstored := hother.stored
    rw [honly hfold hother, hbody] at hstored
    cases hstored
    exact absurd htext (by decide)
  · have hrun : exists s, s ∈ List.foldlM (next plainText) oneMessage
        (storeAndIndex ++ [SearchEvent.deleteMessage 1,
          SearchEvent.fetch [(1, SearchOperation.remove)]] ++
          List.replicate 7 SearchEvent.work) ∧
        s.phase = Phase.idle ∧ s.intents = ∅ ∧
        s.index "m" = some ⟨"hi", subject⟩ ∧ s.messages 1 = none := by
      decide +kernel
    rcases hrun with ⟨s, hfold, hidle, hdone, hindex, hrow⟩
    refine ⟨s, ⟨hreach hfold, hidle, hdone, fun hconverged => ?_⟩, hrow, hindex⟩
    rcases (hconverged "m").left _ hindex with ⟨m, body, hother, _⟩
    rcases hother.row with ⟨row, hrow', _⟩
    rw [honly hfold hother, hrow] at hrow'
    cases hrow'

end SearchState

end SearchIndex
end MailClient
