import Mathlib.Data.Finset.SDiff
import Mathlib.Logic.Function.Basic
import MailClient.Foundation.ChangeLog
import MailClient.Foundation.Transition
import MailClient.Messages.SyncDecision

/-!
# Pages and events

Messages come to the client in pages, of the backward sync and of the scroller,
and with the events.  A page shows the server as it was when it was fetched and
is stored later in one transaction.  Meanwhile events of the same messages may be
handled, and nothing in a page says how old it is.

The scroller leaves out messages that are marked as deleted.  Apart from that, a
message of a page replaces the one that is stored, which can be newer.

The actions of the user are not part of the runs.
-/

namespace MailClient
namespace BackwardSync

open Foundation
open Drafts (DraftMetadata)
open Messages (MessageFlags MessageSyncDecision)
open Foundation.TransitionSystem (ReachableWhen Reachable)

/-!
# Messages
-/

/-- The fields that are not here are copied like the subject. -/
structure ApiMessageMetadata where
  subject : String
  unread : Bool
  flags : MessageFlags
  labelIds : List LabelId
  deriving DecidableEq, Repr

/-- A row of `messages` with its rows of `message_labels`. -/
structure Message where
  subject : String
  unread : Bool
  flags : MessageFlags
  labelIds : List LabelId
  deriving DecidableEq, Repr

def Message.fromApiMetadata (value : ApiMessageMetadata) : Message where
  subject := value.subject
  unread := value.unread
  flags := value.flags
  labelIds := value.labelIds

def Message.pruneUnresolvedLabels (message : Message) (unresolved : List LabelId) :
    Message :=
  { message with labelIds := message.labelIds.filter (fun l => l ∉ unresolved) }

abbrev ServerChange := TableChange MessageId ApiMessageMetadata

inductive PageSource where
  | backwardSync
  | scroller
  deriving DecidableEq, Repr

/-- A page that has been fetched after the first `time` changes of the server. -/
structure HistoryPage where
  source : PageSource
  time : Nat
  messages : List (MessageId × ApiMessageMetadata)
  deriving DecidableEq, Repr

/-- The events of the first `delivered` changes have been handled. -/
structure History where
  log : List ServerChange
  delivered : Nat
  messages : MessageId -> Option Message
  deletedItems : Finset MessageId
  drafts : MessageId -> Option DraftMetadata
  pages : List HistoryPage

namespace History

/-!
# Writers
-/

/-- The decision on a message; raw bodies are not kept here. -/
def syncDecision (s : History) (id : MessageId) (metadata : ApiMessageMetadata) :
    MessageSyncDecision :=
  Messages.syncDecision (s.drafts id) metadata.flags

/--
`Message::save`.  A label that has no row cannot be attached; the scroller and
the events take these labels out before.
-/
def save (s : History) (unresolved : List LabelId) (id : MessageId)
    (metadata : ApiMessageMetadata) : History :=
  { s with
    messages := Function.update s.messages id
      (some ((Message.fromApiMetadata metadata).pruneUnresolvedLabels unresolved)) }

/-- What becomes of a message of a page. -/
def pageDecision (s : History) (source : PageSource) (id : MessageId)
    (metadata : ApiMessageMetadata) : MessageSyncDecision :=
  match source with
  | PageSource.backwardSync => s.syncDecision id metadata
  | PageSource.scroller =>
      if id ∈ s.deletedItems then MessageSyncDecision.skip
      else s.syncDecision id metadata

def storeMessage (source : PageSource) (unresolved : List LabelId) (s : History)
    (x : MessageId × ApiMessageMetadata) : History :=
  match s.pageDecision source x.1 x.2 with
  | MessageSyncDecision.apply => s.save unresolved x.1 x.2
  | MessageSyncDecision.skip => s

/-- The transaction of `sync_next`, or `save_scroller_messages`. -/
def storeMessages (s : History) (page : HistoryPage) (unresolved : List LabelId) :
    History :=
  page.messages.foldl (storeMessage page.source unresolved) s

/--
`Message::handle_event`.  The metadata are missing if the message was deleted
before they were fetched.
-/
def handleEvent (s : History) (change : ServerChange)
    (metadata : Option ApiMessageMetadata) (unresolved : List LabelId) : History :=
  match change.value with
  | none =>
      { s with
        messages := Function.update s.messages change.key none
        deletedItems := insert change.key s.deletedItems }
  | some _ =>
      match metadata with
      | none => s
      | some metadata =>
          match s.syncDecision change.key metadata with
          | MessageSyncDecision.apply => s.save unresolved change.key metadata
          | MessageSyncDecision.skip => s

/-- `DeletedItem::verify_and_cleanup`. -/
def verifyAndCleanup (s : History) (expired : Finset MessageId) : History :=
  { s with
    deletedItems := s.deletedItems \ expired
    messages := fun id =>
      if id ∈ s.deletedItems \ expired then none else s.messages id }

/-!
# Runs
-/

inductive HistoryEvent where
  | change (c : ServerChange)
  | fetchPage (source : PageSource) (ids : List MessageId)
  | storePage (i : Nat) (unresolved : List LabelId)
  /-- The next event, whose metadata were fetched after `time` changes. -/
  | deliver (time : Nat) (unresolved : List LabelId)
  | verifyAndCleanup (expired : Finset MessageId)
  | saveDraft (id : MessageId) (draft : DraftMetadata)
  | deleteDraft (id : MessageId)
  deriving DecidableEq

/-- The messages among `ids` that the server has. -/
def fetchPage (s : History) (source : PageSource) (ids : List MessageId) :
    HistoryPage where
  source := source
  time := s.log.length
  messages := ids.filterMap (fun id => (latestValue s.log id).map (fun v => (id, v)))

def next (s : History) : HistoryEvent -> Option History
  | HistoryEvent.change c => some { s with log := s.log ++ [c] }
  | HistoryEvent.fetchPage source ids =>
      some { s with pages := s.pages ++ [s.fetchPage source ids] }
  | HistoryEvent.storePage i unresolved =>
      match s.pages[i]? with
      | none => none
      | some page =>
          some { s.storeMessages page unresolved with pages := s.pages.eraseIdx i }
  | HistoryEvent.deliver time unresolved =>
      match s.log[s.delivered]? with
      | none => none
      | some change =>
          if s.delivered < time ∧ time <= s.log.length then
            some { s.handleEvent change (latestValue (s.log.take time) change.key)
                unresolved with
              delivered := s.delivered + 1 }
          else
            none
  | HistoryEvent.verifyAndCleanup expired => some (s.verifyAndCleanup expired)
  | HistoryEvent.saveDraft id draft =>
      some { s with drafts := Function.update s.drafts id (some draft) }
  | HistoryEvent.deleteDraft id =>
      some { s with drafts := Function.update s.drafts id none }

/-- The client starts with no messages and with the events from now on. -/
def Initial (s : History) : Prop :=
  s.delivered = s.log.length ∧ (forall id, s.messages id = none) ∧
    s.deletedItems = ∅ ∧ (forall id, s.drafts id = none) ∧ s.pages = []

def system : TransitionSystem History HistoryEvent where
  init := Initial
  step := fun s e s' => s.next e = some s'

/-- All pages are stored, all events are handled and no draft is open. -/
def Settled (s : History) : Prop :=
  s.pages = [] ∧ s.delivered = s.log.length ∧ forall id, s.drafts id = none

/-- Every stored message is the one that the server has. -/
def UpToDate (s : History) : Prop :=
  forall id message, s.messages id = some message ->
    (latestValue s.log id).map Message.fromApiMetadata = some message

/-!
# What goes wrong

A message of a page is overtaken if one of its events was handled after the page
was fetched.  This is repaired only by a further event.
-/

/-- An event of the message is still to be handled. -/
def Awaited (s : History) (id : MessageId) : Prop :=
  id ∈ (s.log.drop s.delivered).map TableChange.key

def Overtaken (s : History) (page : HistoryPage) (id : MessageId) : Prop :=
  id ∈ ((s.log.drop page.time).take (s.delivered - page.time)).map TableChange.key

def Resolved (metadata : ApiMessageMetadata) (unresolved : List LabelId) : Prop :=
  forall l, l ∈ metadata.labelIds -> l ∉ unresolved

def HarmlessStore (s : History) (page : HistoryPage) (unresolved : List LabelId) :
    Prop :=
  forall x, x ∈ page.messages ->
    s.pageDecision page.source x.1 x.2 = MessageSyncDecision.skip ∨
      s.Awaited x.1 ∨ (¬ s.Overtaken page x.1 ∧ Resolved x.2 unresolved)

/-- An event that is skipped has to be about a message that is not stored. -/
def HarmlessEvent (s : History) (change : ServerChange)
    (metadata : ApiMessageMetadata) (unresolved : List LabelId) : Prop :=
  change.key ∈ (s.log.drop (s.delivered + 1)).map TableChange.key ∨
    (s.syncDecision change.key metadata = MessageSyncDecision.apply ∧
      Resolved metadata unresolved) ∨
    (s.syncDecision change.key metadata = MessageSyncDecision.skip ∧
      s.messages change.key = none)

def Harmless (s : History) : HistoryEvent -> Prop
  | HistoryEvent.storePage i unresolved =>
      forall page, page ∈ s.pages[i]? -> s.HarmlessStore page unresolved
  | HistoryEvent.deliver time unresolved =>
      forall change, change ∈ s.log[s.delivered]? -> change.value.isSome ->
        forall metadata, metadata ∈ latestValue (s.log.take time) change.key ->
          s.HarmlessEvent change metadata unresolved
  | _ => True

instance (metadata : ApiMessageMetadata) (unresolved : List LabelId) :
    Decidable (Resolved metadata unresolved) :=
  inferInstanceAs (Decidable (forall l, l ∈ _ -> _))

instance (s : History) (id : MessageId) : Decidable (s.Awaited id) :=
  inferInstanceAs (Decidable (id ∈ _))

instance (s : History) (page : HistoryPage) (id : MessageId) :
    Decidable (s.Overtaken page id) :=
  inferInstanceAs (Decidable (id ∈ _))

instance (s : History) (page : HistoryPage) (unresolved : List LabelId) :
    Decidable (s.HarmlessStore page unresolved) :=
  inferInstanceAs (Decidable (forall x, x ∈ _ -> _))

instance (s : History) (change : ServerChange) (metadata : ApiMessageMetadata)
    (unresolved : List LabelId) :
    Decidable (s.HarmlessEvent change metadata unresolved) :=
  inferInstanceAs (Decidable (_ ∨ _ ∨ _))

instance (s : History) : (e : HistoryEvent) -> Decidable (s.Harmless e)
  | HistoryEvent.storePage _ _ =>
      inferInstanceAs (Decidable (forall page, page ∈ _ -> _))
  | HistoryEvent.deliver _ _ =>
      inferInstanceAs (Decidable (forall change, change ∈ _ -> _ ->
        forall metadata, metadata ∈ _ -> _))
  | HistoryEvent.change _ | HistoryEvent.fetchPage _ _
  | HistoryEvent.verifyAndCleanup _ | HistoryEvent.saveDraft _ _
  | HistoryEvent.deleteDraft _ => inferInstanceAs (Decidable True)

/-!
# The invariant
-/

structure Tracked (s : History) : Prop where
  delivered_le : s.delivered <= s.log.length
  current : forall id message, s.messages id = some message ->
    s.Awaited id ∨ (latestValue s.log id).map Message.fromApiMetadata = some message
  time_le : forall page, page ∈ s.pages -> page.time <= s.log.length
  shown : forall page, page ∈ s.pages -> forall x, x ∈ page.messages ->
    latestValue (s.log.take page.time) x.1 = some x.2

variable {s : History} {unresolved : List LabelId}

theorem tracked_initial (h : s.Initial) : Tracked s := by
  rcases h with ⟨hdelivered, hmessages, _, _, hpages⟩
  refine ⟨hdelivered.le, ?_, ?_, ?_⟩
  · intro id message hmessage
    rw [hmessages id] at hmessage
    cases hmessage
  · intro page hpage
    rw [hpages] at hpage
    cases hpage
  · intro page hpage
    rw [hpages] at hpage
    cases hpage

theorem pruneUnresolvedLabels_of_resolved {metadata : ApiMessageMetadata}
    (h : Resolved metadata unresolved) :
    (Message.fromApiMetadata metadata).pruneUnresolvedLabels unresolved =
      Message.fromApiMetadata metadata := by
  have hlabels : metadata.labelIds.filter (fun l => l ∉ unresolved) =
      metadata.labelIds :=
    List.filter_eq_self.mpr (fun l hl => decide_eq_true (h l hl))
  unfold Message.pruneUnresolvedLabels Message.fromApiMetadata
  dsimp only
  rw [hlabels]

theorem Tracked.save (h : Tracked s) {id : MessageId}
    {metadata : ApiMessageMetadata} (hsaved : s.Awaited id ∨
      (latestValue s.log id = some metadata ∧ Resolved metadata unresolved)) :
    Tracked (s.save unresolved id metadata) := by
  refine ⟨h.delivered_le, ?_, h.time_le, h.shown⟩
  intro id' message hmessage
  unfold History.save at hmessage
  dsimp only at hmessage
  by_cases hid : id' = id
  · rw [hid, Function.update_self] at hmessage
    rw [hid]
    rcases hsaved with hawaited | ⟨hlatest, hresolved⟩
    · exact Or.inl hawaited
    · right
      rw [pruneUnresolvedLabels_of_resolved hresolved] at hmessage
      change (latestValue s.log id).map Message.fromApiMetadata = some message
      rw [hlatest]
      exact hmessage
  · rw [Function.update_of_ne hid] at hmessage
    exact h.current id' message hmessage

/-!
# Pages
-/

theorem Tracked.change (h : Tracked s) (c : ServerChange) :
    Tracked { s with log := s.log ++ [c] } := by
  refine ⟨?_, ?_, ?_, ?_⟩
  · exact h.delivered_le.trans (by simp)
  · intro id message hmessage
    have hdrop : (s.log ++ [c]).drop s.delivered = s.log.drop s.delivered ++ [c] :=
      List.drop_append_of_le_length h.delivered_le
    unfold Awaited
    dsimp only
    rw [hdrop, List.map_append, List.mem_append]
    by_cases hid : id ∈ [c].map TableChange.key
    · exact Or.inl (Or.inr hid)
    · rw [latestValue_append_of_not_mem s.log hid]
      exact (h.current id message hmessage).imp Or.inl (fun hsame => hsame)
  · exact fun page hpage => (h.time_le page hpage).trans (by simp)
  · intro page hpage x hx
    dsimp only
    rw [List.take_append_of_le_length (h.time_le page hpage)]
    exact h.shown page hpage x hx

theorem Tracked.fetchPage (h : Tracked s) (source : PageSource)
    (ids : List MessageId) :
    Tracked { s with pages := s.pages ++ [s.fetchPage source ids] } := by
  refine ⟨h.delivered_le, h.current, ?_, ?_⟩
  · intro page hpage
    rcases List.mem_append.mp hpage with hold | hnew
    · exact h.time_le page hold
    · rw [List.mem_singleton.mp hnew]
      exact Nat.le_refl _
  · intro page hpage x hx
    rcases List.mem_append.mp hpage with hold | hnew
    · exact h.shown page hold x hx
    · rw [List.mem_singleton.mp hnew] at hx ⊢
      rcases List.mem_filterMap.mp hx with ⟨id, _, hid⟩
      rcases Option.map_eq_some_iff.mp hid with ⟨v, hv, hpair⟩
      rw [<- hpair]
      change latestValue (s.log.take s.log.length) id = some v
      rw [List.take_length]
      exact hv

theorem storeMessage_frame (source : PageSource) (unresolved : List LabelId)
    (s : History) (x : MessageId × ApiMessageMetadata) :
    exists messages, storeMessage source unresolved s x =
      { s with messages := messages } := by
  unfold storeMessage
  cases s.pageDecision source x.1 x.2 with
  | apply => exact ⟨_, rfl⟩
  | skip => exact ⟨s.messages, rfl⟩

theorem storeMessages_pages (s : History) (page : HistoryPage)
    (unresolved : List LabelId) : (s.storeMessages page unresolved).pages = s.pages := by
  unfold storeMessages
  generalize page.messages = entries
  induction entries generalizing s with
  | nil => rfl
  | cons first rest ih =>
      rcases storeMessage_frame page.source unresolved s first with ⟨messages, hs⟩
      rw [List.foldl_cons, ih, hs]

theorem Tracked.storeMessage (h : Tracked s) {page : HistoryPage}
    {x : MessageId × ApiMessageMetadata}
    (hshown : latestValue (s.log.take page.time) x.1 = some x.2)
    (hharmless : s.pageDecision page.source x.1 x.2 = MessageSyncDecision.skip ∨
      s.Awaited x.1 ∨ (¬ s.Overtaken page x.1 ∧ Resolved x.2 unresolved)) :
    Tracked (storeMessage page.source unresolved s x) := by
  unfold History.storeMessage
  cases hdecision : s.pageDecision page.source x.1 x.2 with
  | skip => exact h
  | apply =>
      apply h.save
      rcases hharmless with hskip | hawaited | ⟨hovertaken, hresolved⟩
      · rw [hdecision] at hskip
        cases hskip
      · exact Or.inl hawaited
      · by_cases hawaited : s.Awaited x.1
        · exact Or.inl hawaited
        · right
          refine ⟨?_, hresolved⟩
          rw [<- hshown]
          symm
          apply latestValue_take_of_not_mem
          intro hmem
          rcases mem_drop_cases hmem with hbefore | hafter
          · exact hovertaken hbefore
          · exact hawaited hafter

theorem Tracked.storeMessages (h : Tracked s) {page : HistoryPage}
    (hpage : page ∈ s.pages) (hharmless : s.HarmlessStore page unresolved) :
    Tracked (s.storeMessages page unresolved) := by
  have hshown := h.shown page hpage
  unfold History.storeMessages
  unfold HarmlessStore at hharmless
  generalize page.messages = entries at hshown hharmless
  induction entries generalizing s with
  | nil => exact h
  | cons first rest ih =>
      rw [List.foldl_cons]
      have hfirst := h.storeMessage (hshown first List.mem_cons_self)
        (hharmless first List.mem_cons_self)
      rcases storeMessage_frame page.source unresolved s first with ⟨messages, hs⟩
      rw [hs] at hfirst ⊢
      exact ih hfirst hpage
        (fun x hx => hshown x (List.mem_cons_of_mem first hx))
        (fun x hx => hharmless x (List.mem_cons_of_mem first hx))

theorem Tracked.dropPage (h : Tracked s) {pages : List HistoryPage}
    (hsub : forall page, page ∈ pages -> page ∈ s.pages) :
    Tracked { s with pages := pages } :=
  ⟨h.delivered_le, h.current, fun page hpage => h.time_le page (hsub page hpage),
    fun page hpage => h.shown page (hsub page hpage)⟩

/-!
# Events
-/

section Delivery

variable {s : History} {change : ServerChange}

theorem Awaited.after_delivery {id : MessageId} (h : s.Awaited id)
    (hchange : s.log[s.delivered]? = some change) :
    id = change.key ∨ id ∈ (s.log.drop (s.delivered + 1)).map TableChange.key := by
  rcases List.getElem?_eq_some_iff.mp hchange with ⟨hlt, hget⟩
  unfold Awaited at h
  rw [List.drop_eq_getElem_cons hlt, hget, List.map_cons, List.mem_cons] at h
  exact h

theorem latestValue_of_last (hchange : s.log[s.delivered]? = some change)
    (hlast : change.key ∉ (s.log.drop (s.delivered + 1)).map TableChange.key) :
    latestValue s.log change.key = change.value := by
  rcases List.getElem?_eq_some_iff.mp hchange with ⟨hlt, hget⟩
  rw [<- latestValue_take_of_not_mem hlast, List.take_succ_eq_append_getElem hlt, hget]
  exact latestValue_concat _ change

theorem latestValue_fetched {time : Nat} (htime : s.delivered < time)
    (hlast : change.key ∉ (s.log.drop (s.delivered + 1)).map TableChange.key) :
    latestValue (s.log.take time) change.key = latestValue s.log change.key :=
  latestValue_take_of_not_mem (fun hmem => hlast (mem_drop_of_le htime hmem))

theorem handleEvent_current (hchange : s.log[s.delivered]? = some change)
    {time : Nat} (htime : s.delivered < time)
    (hharmless : change.value.isSome ->
      forall metadata, metadata ∈ latestValue (s.log.take time) change.key ->
        s.HarmlessEvent change metadata unresolved)
    (hlast : change.key ∉ (s.log.drop (s.delivered + 1)).map TableChange.key)
    {message : Message}
    (hmessage : (s.handleEvent change (latestValue (s.log.take time) change.key)
      unresolved).messages change.key = some message) :
    (latestValue s.log change.key).map Message.fromApiMetadata = some message := by
  have hlatest := latestValue_of_last hchange hlast
  have hfetched := latestValue_fetched htime hlast
  unfold handleEvent at hmessage
  cases hvalue : change.value with
  | none =>
      rw [hvalue] at hmessage
      dsimp only at hmessage
      rw [Function.update_self] at hmessage
      cases hmessage
  | some value =>
      have hmetadata : latestValue (s.log.take time) change.key = some value :=
        hfetched.trans (hlatest.trans hvalue)
      rw [hvalue, hmetadata] at hmessage
      dsimp only at hmessage
      rcases hharmless (by rw [hvalue]; rfl) value hmetadata with
        hmem | ⟨happly, hresolved⟩ | ⟨hskip, hmissing⟩
      · exact absurd hmem hlast
      · rw [happly] at hmessage
        unfold History.save at hmessage
        dsimp only at hmessage
        rw [Function.update_self, pruneUnresolvedLabels_of_resolved hresolved] at hmessage
        rw [hlatest, hvalue]
        exact hmessage
      · rw [hskip] at hmessage
        dsimp only at hmessage
        rw [hmissing] at hmessage
        cases hmessage

theorem handleEvent_frame (change : ServerChange)
    (metadata : Option ApiMessageMetadata) (unresolved : List LabelId) :
    (s.handleEvent change metadata unresolved).log = s.log ∧
      (s.handleEvent change metadata unresolved).pages = s.pages ∧
      forall id, id ≠ change.key ->
        (s.handleEvent change metadata unresolved).messages id = s.messages id := by
  unfold handleEvent
  split
  · exact ⟨rfl, rfl, fun id hid => Function.update_of_ne hid _ _⟩
  · split
    · exact ⟨rfl, rfl, fun _ _ => rfl⟩
    · split
      · exact ⟨rfl, rfl, fun id hid => Function.update_of_ne hid _ _⟩
      · exact ⟨rfl, rfl, fun _ _ => rfl⟩

theorem Tracked.deliver (h : Tracked s)
    (hchange : s.log[s.delivered]? = some change) {time : Nat}
    (htime : s.delivered < time) (hharmless : change.value.isSome ->
      forall metadata, metadata ∈ latestValue (s.log.take time) change.key ->
        s.HarmlessEvent change metadata unresolved) :
    Tracked { s.handleEvent change (latestValue (s.log.take time) change.key)
        unresolved with
      delivered := s.delivered + 1 } := by
  rcases List.getElem?_eq_some_iff.mp hchange with ⟨hlt, _⟩
  rcases handleEvent_frame (s := s) change
    (latestValue (s.log.take time) change.key) unresolved with ⟨hlog, hpages, hother⟩
  refine ⟨?_, ?_, ?_, ?_⟩
  · change s.delivered + 1 <= (s.handleEvent _ _ _).log.length
    rw [hlog]
    exact hlt
  · intro id message hmessage
    unfold Awaited
    dsimp only at hmessage ⊢
    rw [hlog]
    by_cases hid : id = change.key
    · rw [hid] at hmessage ⊢
      by_cases hlast : change.key ∈ (s.log.drop (s.delivered + 1)).map TableChange.key
      · exact Or.inl hlast
      · exact Or.inr (handleEvent_current hchange htime hharmless hlast hmessage)
    · rw [hother id hid] at hmessage
      rcases h.current id message hmessage with hawaited | hcurrent
      · exact Or.inl ((hawaited.after_delivery hchange).resolve_left hid)
      · exact Or.inr hcurrent
  · dsimp only
    rw [hlog, hpages]
    exact h.time_le
  · dsimp only
    rw [hlog, hpages]
    exact h.shown

end Delivery

theorem Tracked.verifyAndCleanup (h : Tracked s) (expired : Finset MessageId) :
    Tracked (s.verifyAndCleanup expired) := by
  refine ⟨h.delivered_le, ?_, h.time_le, h.shown⟩
  intro id message hmessage
  unfold History.verifyAndCleanup at hmessage
  dsimp only at hmessage
  split at hmessage
  · cases hmessage
  · exact h.current id message hmessage

theorem Tracked.setDrafts (h : Tracked s)
    (drafts : MessageId -> Option DraftMetadata) :
    Tracked { s with drafts := drafts } :=
  ⟨h.delivered_le, h.current, h.time_le, h.shown⟩

/-!
# Every run
-/

theorem Tracked.next {s' : History} {e : HistoryEvent} (h : Tracked s)
    (hharmless : s.Harmless e) (hnext : s.next e = some s') : Tracked s' := by
  cases e with
  | change c =>
      cases hnext
      exact h.change c
  | fetchPage source ids =>
      cases hnext
      exact h.fetchPage source ids
  | storePage i unresolved =>
      unfold History.next at hnext
      dsimp only at hnext
      split at hnext
      · cases hnext
      · rename_i page hpage
        cases hnext
        have hstored := h.storeMessages (List.mem_of_getElem? hpage)
          (hharmless page hpage)
        apply hstored.dropPage
        intro other hother
        rw [storeMessages_pages]
        exact List.mem_of_mem_eraseIdx hother
  | deliver time unresolved =>
      unfold History.next at hnext
      dsimp only at hnext
      split at hnext
      · cases hnext
      · rename_i change hchange
        split at hnext
        · rename_i htime
          cases hnext
          exact h.deliver hchange htime.left (hharmless change hchange)
        · cases hnext
  | verifyAndCleanup expired =>
      cases hnext
      exact h.verifyAndCleanup expired
  | saveDraft id draft =>
      cases hnext
      exact h.setDrafts _
  | deleteDraft id =>
      cases hnext
      exact h.setDrafts _

theorem reachable_tracked (h : ReachableWhen system Harmless s) : Tracked s :=
  TransitionSystem.invariant_when Tracked (fun _ => tracked_initial)
    (fun _ _ _ _ htracked hharmless hnext => htracked.next hharmless hnext) h

/--
In every run in which no page is stored after an event that overtook it, no
event is skipped and all labels are there, the stored messages are those of the
server when everything has come in.
-/
theorem stored_messages_up_to_date {s : History}
    (hreach : ReachableWhen system Harmless s) (hsettled : s.Settled) :
    s.UpToDate := by
  intro id message hmessage
  rcases (reachable_tracked hreach).current id message hmessage with
    hawaited | hcurrent
  · unfold Awaited at hawaited
    rw [hsettled.right.left, List.drop_length] at hawaited
    cases hawaited
  · exact hcurrent

/-!
# Runs with one message
-/

def unreadMail : ApiMessageMetadata := ⟨"subject", true, 0, ["0"]⟩

def readMail : ApiMessageMetadata := ⟨"subject", false, 0, ["0"]⟩

def emptyClient : History where
  log := []
  delivered := 0
  messages := fun _ => none
  deletedItems := ∅
  drafts := fun _ => none
  pages := []

theorem emptyClient_initial : emptyClient.Initial :=
  ⟨rfl, fun _ => rfl, rfl, fun _ => rfl, rfl⟩

/-- A page of the message is fetched, and the message is created here. -/
def createAndFetch (source : PageSource) : List HistoryEvent :=
  [HistoryEvent.change ⟨"m", some unreadMail⟩, HistoryEvent.fetchPage source ["m"],
    HistoryEvent.deliver 1 []]

/-- The message changes after the fetch, and its event comes after the page. -/
theorem late_event_applied :
    exists s, ReachableWhen system Harmless s ∧ s.Settled ∧
      s.messages "m" = some (Message.fromApiMetadata readMail) ∧ s.UpToDate := by
  have hrun : exists s : History, List.foldlM
      (fun s e => if s.Harmless e then s.next e else none) emptyClient
        (createAndFetch PageSource.backwardSync ++
          [HistoryEvent.change ⟨"m", some readMail⟩, HistoryEvent.storePage 0 [],
            HistoryEvent.deliver 2 []]) = some s ∧ s.Settled ∧
      s.messages "m" = some (Message.fromApiMetadata readMail) :=
    ⟨_, rfl, ⟨rfl, rfl, fun _ => rfl⟩, rfl⟩
  rcases hrun with ⟨s, hfold, hsettled, hmessage⟩
  have hreach : ReachableWhen system Harmless s :=
    ReachableWhen.replay (fun _ _ _ h => h)
      (ReachableWhen.start emptyClient_initial) hfold
  exact ⟨s, hreach, hsettled, hmessage, stored_messages_up_to_date hreach hsettled⟩

theorem not_upToDate {id : MessageId} {message : Message}
    (hmessage : s.messages id = some message)
    (hlatest : (latestValue s.log id).map Message.fromApiMetadata ≠ some message) :
    ¬ s.UpToDate :=
  fun h => hlatest (h id message hmessage)

/--
An update that is handled before a page of the scroller is stored is undone by
the page; and a page of the backward sync brings a deleted message back.
-/
theorem overtaken_page_stored :
    (exists s : History, Reachable system s ∧ s.Settled ∧
      latestValue s.log "m" = some readMail ∧
      s.messages "m" = some (Message.fromApiMetadata unreadMail) ∧ ¬ s.UpToDate) ∧
    exists s : History, Reachable system s ∧ s.Settled ∧
      latestValue s.log "m" = none ∧
      s.messages "m" = some (Message.fromApiMetadata unreadMail) ∧ ¬ s.UpToDate := by
  have hreach : forall {events : List HistoryEvent} {s : History},
      events.foldlM next emptyClient = some s -> Reachable system s :=
    fun h => Reachable.replay (fun _ _ _ h => h)
      (ReachableWhen.start emptyClient_initial) h
  refine ⟨?_, ?_⟩
  · have hrun : exists s : History, List.foldlM next emptyClient
        (createAndFetch PageSource.scroller ++
          [HistoryEvent.change ⟨"m", some readMail⟩, HistoryEvent.deliver 2 [],
            HistoryEvent.storePage 0 []]) = some s ∧ s.Settled ∧
        latestValue s.log "m" = some readMail ∧
        s.messages "m" = some (Message.fromApiMetadata unreadMail) :=
      ⟨_, rfl, ⟨rfl, rfl, fun _ => rfl⟩, rfl, rfl⟩
    rcases hrun with ⟨s, hfold, hsettled, hlatest, hmessage⟩
    refine ⟨s, hreach hfold, hsettled, hlatest, hmessage, not_upToDate hmessage ?_⟩
    rw [hlatest]
    decide
  · have hrun : exists s : History, List.foldlM next emptyClient
        (createAndFetch PageSource.backwardSync ++
          [HistoryEvent.change ⟨"m", none⟩, HistoryEvent.deliver 2 [],
            HistoryEvent.storePage 0 []]) = some s ∧ s.Settled ∧
        latestValue s.log "m" = none ∧
        s.messages "m" = some (Message.fromApiMetadata unreadMail) :=
      ⟨_, rfl, ⟨rfl, rfl, fun _ => rfl⟩, rfl, rfl⟩
    rcases hrun with ⟨s, hfold, hsettled, hlatest, hmessage⟩
    refine ⟨s, hreach hfold, hsettled, hlatest, hmessage, not_upToDate hmessage ?_⟩
    rw [hlatest]
    decide

end History

end BackwardSync
end MailClient
