import MailClient.Actions.Counters

/-!
# Counters of the server

A mail event brings the counters of all labels as the server has them, and the
server's version of some messages.  The pending actions are not in either, so
they are rebased, each of them on the messages that the event has saved.
-/

namespace MailClient
namespace Actions

open Foundation
open Labels (LabelRow)

/-- The messages, and the counters of the labels. -/
abbrev MessageTables := Ledger LocalMessageId MessageView LocalLabelId MessageCounter

/-- The actions on messages. -/
inductive PendingAction where
  | move (destination : Option LocalLabelId) (targets : List LocalMessageId)
  | labelAs (items : List LabelAsItem)
  | read (targets : List LocalMessageId)
  | unread (targets : List LocalMessageId)
  deriving DecidableEq, Repr

namespace PendingAction

def targets : PendingAction -> List LocalMessageId
  | move _ targets => targets
  | labelAs items => items.map LabelAsItem.id
  | read targets => targets
  | unread targets => targets

/-- What the action does to each of its messages when it is rebased. -/
def changes (cat : Catalog) :
    PendingAction -> List (LocalMessageId × (MessageCell -> MessageCell))
  | move destination targets =>
      targets.map (fun m => (m, moveAgain cat destination))
  | labelAs items => items.map (fun item => (item.id, labelMessageAs item))
  | read targets => targets.map (fun m => (m, markReadOrUnread cat true))
  | unread targets => targets.map (fun m => (m, markReadOrUnread cat false))

/-- `rebase_local`: the targets in the change set. -/
def rebaseLocal (cat : Catalog) (changeset : LocalMessageId -> Bool)
    (s : MessageTables) (action : PendingAction) : MessageTables :=
  s.run changeset (action.changes cat)

end PendingAction

/-- `Queue::rebase_in`, with the actions in the order they were created. -/
def rebaseIn (cat : Catalog) (changeset : LocalMessageId -> Bool)
    (pending : List PendingAction) (s : MessageTables) : MessageTables :=
  pending.foldl (PendingAction.rebaseLocal cat changeset) s

namespace Catalog

def stored (cat : Catalog) : Finset LocalMessageId :=
  (cat.messages.map MessageRow.localId).toFinset

/--
While only actions on messages are pending, no label is new or hidden: a label
without a remote id has a pending creation, a hidden one a pending deletion.
-/
def LabelsSettled (cat : Catalog) : Prop :=
  forall r, r ∈ cat.labels.rows -> r.remoteId ≠ none ∧ r.deleted = 0

end Catalog

/-- `MessageLabelsCount::upsert`, with one count for each remote id. -/
def upsert (cat : Catalog) (counts : LabelId -> Option MessageCounter)
    (s : MessageTables) : MessageTables :=
  { s with
    totals := fun l =>
      ((cat.labels.localIdCounterpart l).bind counts).getD (s.totals l) }

/--
What the server sees before it has executed the pending actions.  Its counters
also count messages that are not stored here.
-/
structure ServerView (cat : Catalog) where
  messages : LocalMessageId -> MessageView
  counts : LabelId -> MessageCounter
  others : LabelId -> MessageCounter
  counts_eq : forall r, r ∈ cat.labels.rows -> forall rid, r.remoteId = some rid ->
    counts rid = others rid +
      ∑ m ∈ cat.stored, (messages m).weight r.localId

/-- Updates of messages; those that are open as drafts are skipped. -/
structure MailEvent where
  messages : List LocalMessageId
  openDrafts : LocalMessageId -> Bool

namespace MailEvent

/-- The messages that are saved, which are those of the change set. -/
def saved (event : MailEvent) : Finset LocalMessageId :=
  (event.messages.filter (fun m => !event.openDrafts m)).toFinset

end MailEvent

namespace ServerView

variable {cat : Catalog} (server : ServerView cat)

/-- `Message::handle_event` of an update. -/
def handleEvent (event : MailEvent) (s : MessageTables) (m : LocalMessageId) :
    MessageTables :=
  if event.openDrafts m then s
  else { s with entries := Function.update s.entries m (server.messages m) }

/-- The transaction of `MailEventV6Subscriber::on_event`. -/
def onEvent (pending : List PendingAction) (event : MailEvent)
    (s : MessageTables) : MessageTables :=
  rebaseIn cat (fun m => m ∈ event.saved) pending
    (upsert cat (fun rid => some (server.counts rid))
      (event.messages.foldl (server.handleEvent event) s))

/-- The messages and counters of the server. -/
def tables : MessageTables where
  entries := server.messages
  totals := fun l => ((cat.labels.localIdCounterpart l).map server.counts).getD 0

/-- The messages and counters of the server with all pending actions applied. -/
def adjusted (pending : List PendingAction) : MessageTables :=
  rebaseIn cat (fun _ => true) pending server.tables

/-!
# Which counters are right after an event
-/

theorem changes_target {cat : Catalog} {action : PendingAction}
    {c : LocalMessageId × (MessageCell -> MessageCell)}
    (h : c ∈ action.changes cat) : c.1 ∈ action.targets := by
  cases action with
  | move destination targets =>
      rcases List.mem_map.mp h with ⟨m, hm, rfl⟩
      exact hm
  | labelAs items =>
      rcases List.mem_map.mp h with ⟨item, hitem, rfl⟩
      exact List.mem_map_of_mem hitem
  | read targets =>
      rcases List.mem_map.mp h with ⟨m, hm, rfl⟩
      exact hm
  | unread targets =>
      rcases List.mem_map.mp h with ⟨m, hm, rfl⟩
      exact hm

theorem changes_keepCount {cat : Catalog} {action : PendingAction}
    {c : LocalMessageId × (MessageCell -> MessageCell)}
    (h : c ∈ action.changes cat) : KeepsCount cat c.2 := by
  cases action with
  | move destination targets =>
      rcases List.mem_map.mp h with ⟨m, _, rfl⟩
      exact keepsCount_moveAgain destination
  | labelAs items =>
      rcases List.mem_map.mp h with ⟨item, _, rfl⟩
      exact keepsCount_labelMessageAs item
  | read targets =>
      rcases List.mem_map.mp h with ⟨m, _, rfl⟩
      exact keepsCount_markReadOrUnread true
  | unread targets =>
      rcases List.mem_map.mp h with ⟨m, _, rfl⟩
      exact keepsCount_markReadOrUnread false

theorem rebaseIn_eq_run (changeset : LocalMessageId -> Bool)
    (pending : List PendingAction) (s : MessageTables) :
    rebaseIn cat changeset pending s =
      s.run changeset (pending.flatMap (PendingAction.changes cat)) := by
  unfold Ledger.run
  rw [List.foldl_flatMap]
  rfl

theorem handleEvent_entries (event : MailEvent) (s : MessageTables)
    (m m' : LocalMessageId) :
    (server.handleEvent event s m').entries m =
      if event.openDrafts m' = false ∧ m = m' then server.messages m
      else s.entries m := by
  unfold handleEvent
  cases event.openDrafts m' with
  | true => simp
  | false =>
      by_cases hm : m = m'
      · simp [hm]
      · simp [hm]

theorem saved_entries {event : MailEvent} {m : LocalMessageId}
    (hm : m ∈ event.saved) (s : MessageTables) :
    (event.messages.foldl (server.handleEvent event) s).entries m =
      server.messages m := by
  rcases List.mem_filter.mp (List.mem_toFinset.mp hm) with ⟨hmem, hopen⟩
  have hclosed : event.openDrafts m = false := by simpa using hopen
  have hall : forall (ids : List LocalMessageId) (s : MessageTables),
      m ∈ ids ∨ s.entries m = server.messages m ->
      (ids.foldl (server.handleEvent event) s).entries m = server.messages m := by
    intro ids
    induction ids with
    | nil =>
        intro s h
        exact h.resolve_left List.not_mem_nil
    | cons first rest ih =>
        intro s h
        apply ih
        rw [handleEvent_entries]
        by_cases hfirst : m = first
        · apply Or.inr
          rw [<- hfirst, if_pos ⟨hclosed, rfl⟩]
        · rw [if_neg (fun hboth => hfirst hboth.right)]
          exact h.imp_left (List.mem_of_ne_of_mem hfirst)
  exact hall event.messages s (Or.inl hmem)

theorem exists_counts (hsettled : cat.LabelsSettled) {l : LocalLabelId}
    (hl : l ∈ cat.labels.ids) :
    exists r rid, r ∈ cat.labels.rows ∧ r.localId = l ∧ r.remoteId = some rid ∧
      cat.labels.localIdCounterpart l = some rid := by
  rcases List.mem_map.mp hl with ⟨r, hr, hid⟩
  rcases Option.ne_none_iff_exists'.mp (hsettled r hr).left with ⟨rid, hrid⟩
  refine ⟨r, rid, hr, hid, hrid, ?_⟩
  unfold Labels.LabelTable.localIdCounterpart
  cases hfind : cat.labels.rows.find? (fun r => r.localId = l) with
  | none => exact absurd (decide_eq_true hid) (List.find?_eq_none.mp hfind r hr)
  | some found =>
      have hfound := List.find?_some hfind
      simp only [decide_eq_true_eq] at hfound
      have hsame := List.inj_on_of_nodup_map cat.labels.ids_unique
        (List.mem_of_find?_eq_some hfind) hr (hfound.trans hid.symm)
      rw [hsame]
      exact hrid

theorem visible_of_settled (hsettled : cat.LabelsSettled) {l : LocalLabelId}
    (hl : l ∈ cat.labels.ids) : cat.visible l = true := by
  rcases List.mem_map.mp hl with ⟨r, hr, hid⟩
  exact List.any_eq_true.mpr ⟨r, hr, decide_eq_true ⟨hid, (hsettled r hr).right⟩⟩

/--
The pending actions leave the counts over the messages that the event does not
save as they are.
-/
def Neutral (pending : List PendingAction) (event : MailEvent) : Prop :=
  forall l, l ∈ cat.labels.ids ->
    ∑ m ∈ cat.stored \ event.saved,
        ((server.adjusted pending).entries m).weight l =
      ∑ m ∈ cat.stored \ event.saved, (server.messages m).weight l

/-- The counters are right for all labels exactly if nothing is missed. -/
theorem onEvent_counters_adjusted_iff (hsettled : cat.LabelsSettled)
    (pending : List PendingAction)
    (hpending : forall action, action ∈ pending ->
      forall m, m ∈ action.targets -> m ∈ cat.stored)
    (event : MailEvent) (hevent : forall m, m ∈ event.messages -> m ∈ cat.stored)
    (s : MessageTables) :
    (forall l, l ∈ cat.labels.ids ->
      (server.onEvent pending event s).totals l =
        (server.adjusted pending).totals l) ↔
      server.Neutral pending event := by
  apply forall_congr'
  intro l
  apply forall_congr'
  intro hl
  rcases exists_counts hsettled hl with ⟨r, rid, hr, hid, hrid, hcounterpart⟩
  unfold onEvent adjusted
  rw [rebaseIn_eq_run, rebaseIn_eq_run]
  have hkeep : forall c, c ∈ pending.flatMap (PendingAction.changes cat) ->
      KeepsCount cat c.2 := by
    intro c hc
    rcases List.mem_flatMap.mp hc with ⟨action, _, hchange⟩
    exact changes_keepCount hchange
  have hbalanced : Ledger.Balanced MessageView.weight cat.stored
      (server.others rid) l server.tables := by
    unfold Ledger.Balanced tables
    dsimp only
    rw [hcounterpart, <- hid]
    exact server.counts_eq r hr rid hrid
  refine Ledger.run_totals_eq_iff ?_ ?_ ?_ hkeep ?_ ?_ hbalanced
  · intro m hm
    exact hevent m (List.mem_of_mem_filter (List.mem_toFinset.mp hm))
  · exact visible_of_settled hsettled hl
  · intro c hc
    rcases List.mem_flatMap.mp hc with ⟨action, haction, hchange⟩
    exact hpending action haction c.1 (changes_target hchange)
  · intro m hm
    exact server.saved_entries hm s
  · unfold upsert tables
    simp only [hcounterpart, Option.bind_some, Option.map_some, Option.getD_some]

/-- Two conversations with a message each. -/
def twoMessages : Catalog where
  labels := Labels.LabelTable.ofRows
    [{ localId := 1, remoteId := some "0", labelType := Labels.LabelType.system },
      { localId := 2, remoteId := some "3", labelType := Labels.LabelType.system },
      { localId := 3, remoteId := some "4", labelType := Labels.LabelType.system },
      { localId := 4, remoteId := some "15", labelType := Labels.LabelType.system }]
    5 (by decide) (by decide) (by decide)
  messages := [⟨1, 1⟩, ⟨2, 2⟩]
  trash := 2
  spam := 3
  almostAllMail := 4
  ids_unique := by decide
  trash_id := by decide
  spam_id := by decide
  almostAllMail_id := by decide
  system_type := by decide +kernel

/-- Both messages are in the inbox and unread. -/
def bothUnread : ServerView twoMessages where
  messages := fun _ => { labels := {1, 4}, unread := true }
  counts := fun rid => if rid = "0" ∨ rid = "15" then ⟨2, 2⟩ else 0
  others := fun _ => 0
  counts_eq := by
    intro r hr
    simp only [twoMessages, Labels.LabelTable.ofRows, List.mem_cons,
      List.not_mem_nil, or_false] at hr
    rcases hr with rfl | rfl | rfl | rfl
    · rintro rid ⟨⟩
      decide
    · rintro rid ⟨⟩
      decide
    · rintro rid ⟨⟩
      decide
    · rintro rid ⟨⟩
      decide

/-- The first message has been read offline. -/
def firstRead : MessageTables :=
  rebaseIn twoMessages (fun _ => true) [PendingAction.read [1]] bothUnread.tables

theorem twoMessages_settled : twoMessages.LabelsSettled := by
  unfold Catalog.LabelsSettled
  decide

/-- An event that has the message is fine. -/
theorem read_message_saved :
    twoMessages.LabelsSettled ∧
      forall l, l ∈ twoMessages.labels.ids ->
        (bothUnread.onEvent [PendingAction.read [1]] ⟨[1], fun _ => false⟩
            firstRead).totals l =
          (bothUnread.adjusted [PendingAction.read [1]]).totals l := by
  refine ⟨twoMessages_settled, ?_⟩
  apply (onEvent_counters_adjusted_iff bothUnread twoMessages_settled
    [PendingAction.read [1]] (by decide) ⟨[1], fun _ => false⟩ (by decide)
    firstRead).mpr
  unfold Neutral
  decide

/-- Without the message, the inbox has two unread messages again. -/
theorem read_message_forgotten :
    twoMessages.LabelsSettled ∧
      (bothUnread.onEvent [PendingAction.read [1]] ⟨[], fun _ => false⟩
        firstRead).totals 1 = ⟨2, 2⟩ ∧
      (bothUnread.adjusted [PendingAction.read [1]]).totals 1 = ⟨2, 1⟩ ∧
      ¬ forall l, l ∈ twoMessages.labels.ids ->
        (bothUnread.onEvent [PendingAction.read [1]] ⟨[], fun _ => false⟩
            firstRead).totals l =
          (bothUnread.adjusted [PendingAction.read [1]]).totals l := by
  have hforgotten : (bothUnread.onEvent [PendingAction.read [1]]
      ⟨[], fun _ => false⟩ firstRead).totals 1 = ⟨2, 2⟩ := by
    decide
  have hread : (bothUnread.adjusted [PendingAction.read [1]]).totals 1 =
      ⟨2, 1⟩ := by
    decide
  refine ⟨twoMessages_settled, hforgotten, hread, ?_⟩
  intro hall
  have hsame := hall 1 (by decide)
  rw [hforgotten, hread] at hsame
  cases hsame

end ServerView

end Actions
end MailClient
