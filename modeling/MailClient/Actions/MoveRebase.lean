import MailClient.Actions.MoveUndo
import MailClient.Foundation.Transition

/-!
# Server saves while a move is pending

The server saves conversations and messages on their own.  A pending move of
conversations is rebased after each save, but an entry only when its
conversation has been saved: a saved message does not count.  Rebasing forgets
the record of an entry, so what the entry had done to a message that was not
saved together with its conversation cannot be undone any more.
-/

namespace MailClient
namespace Actions

open Foundation
open Mailbox

/-!
# Saves
-/

/-- The server's version of a message. -/
structure SavedMessage where
  id : LocalMessageId
  labels : Finset LocalLabelId
  unread : Bool
  deriving DecidableEq

/-- The server's version of a conversation; it says nothing of the messages. -/
structure SavedConversation where
  id : LocalConversationId
  labels : Finset LocalLabelId
  numUnread : Nat
  deriving DecidableEq

structure ServerSave where
  conversations : List SavedConversation
  messages : List SavedMessage
  deriving DecidableEq

namespace Mailbox

def storeMessage (db : Mailbox) (s : SavedMessage) : Mailbox :=
  { db with
    messageLabels := db.messageLabels.filter (fun x => x.id ≠ s.id) ∪
      s.labels.image (fun l => ⟨l, s.id⟩)
    unread := if s.unread then insert s.id db.unread else db.unread.erase s.id }

def storeConversation (db : Mailbox) (s : SavedConversation) : Mailbox :=
  { db with
    conversationLabels := db.conversationLabels.filter (fun x => x.1 ≠ s.id) ∪
      s.labels.image (fun l => (s.id, l))
    numUnread := fun c => if c = s.id then s.numUnread else db.numUnread c }

def store (db : Mailbox) (save : ServerSave) : Mailbox :=
  save.messages.foldl storeMessage (save.conversations.foldl storeConversation db)

end Mailbox

namespace ServerSave

/-- The conversations in the change set of a save. -/
def changes (save : ServerSave) (c : LocalConversationId) : Bool :=
  c ∈ save.conversations.map SavedConversation.id

def saves (save : ServerSave) (m : LocalMessageId) : Bool :=
  m ∈ save.messages.map SavedMessage.id

end ServerSave

/--
The labels of a message by its last version in a list, newest first, or those
it has in the tables.
-/
def Expected (db : Mailbox) (saved : List SavedMessage) (x : LabelPair) :
    Prop :=
  match saved.find? (fun s => s.id = x.id) with
  | some s => x.label ∈ s.labels
  | none => x ∈ db.messageLabels

section Store

variable {db db' : Mailbox} {save : ServerSave} {x : LabelPair}

theorem mem_storeMessage {s : SavedMessage} :
    x ∈ (db.storeMessage s).messageLabels ↔
      if s.id = x.id then x.label ∈ s.labels else x ∈ db.messageLabels := by
  simp only [storeMessage, Finset.mem_union, Finset.mem_filter,
    Finset.mem_image]
  split
  · rename_i hid
    constructor
    · rintro (⟨_, hne⟩ | ⟨l, hl, rfl⟩)
      · exact absurd hid.symm hne
      · exact hl
    · intro hl
      exact Or.inr ⟨x.label, hl, by rw [hid]⟩
  · rename_i hid
    constructor
    · rintro (⟨hx, _⟩ | ⟨l, _, rfl⟩)
      · exact hx
      · exact absurd rfl hid
    · intro hx
      exact Or.inl ⟨hx, fun heq => hid heq.symm⟩

theorem mem_storeMessages (messages : List SavedMessage) (db : Mailbox) :
    x ∈ (messages.foldl storeMessage db).messageLabels ↔
      Expected db messages.reverse x := by
  induction messages generalizing db with
  | nil => rfl
  | cons s rest ih =>
      rw [List.foldl_cons, ih]
      unfold Expected
      rw [List.reverse_cons, List.find?_append]
      cases hrest : rest.reverse.find? (fun s => s.id = x.id) with
      | some s' => rfl
      | none =>
          rw [Option.none_or, List.find?_singleton]
          dsimp only
          rw [mem_storeMessage]
          by_cases hid : s.id = x.id
          · simp [hid]
          · simp [hid]

theorem storeConversations_labels (conversations : List SavedConversation)
    (db : Mailbox) :
    (conversations.foldl storeConversation db).messageLabels =
      db.messageLabels := by
  induction conversations generalizing db with
  | nil => rfl
  | cons s rest ih =>
      rw [List.foldl_cons, ih]
      rfl

theorem mem_store :
    x ∈ (db.store save).messageLabels ↔
      Expected db save.messages.reverse x := by
  unfold store
  rw [mem_storeMessages]
  unfold Expected
  rw [storeConversations_labels]

theorem find?_of_saves (h : save.saves x.id = true) :
    exists s, save.messages.reverse.find? (fun s => s.id = x.id) = some s := by
  rw [<- Option.isSome_iff_exists, List.find?_isSome]
  simp only [ServerSave.saves, decide_eq_true_eq, List.mem_map] at h
  rcases h with ⟨s, hs, hid⟩
  exact ⟨s, List.mem_reverse.mpr hs, decide_eq_true hid⟩

theorem find?_of_not_saves (h : save.saves x.id = false) :
    save.messages.reverse.find? (fun s => s.id = x.id) = none := by
  rw [List.find?_eq_none]
  intro s hs hid
  simp only [ServerSave.saves, decide_eq_false_iff_not, List.mem_map] at h
  exact h ⟨s, List.mem_reverse.mp hs, of_decide_eq_true hid⟩

theorem expected_of_saves (h : save.saves x.id = true)
    (saved : List SavedMessage) :
    Expected db' (save.messages.reverse ++ saved) x ↔
      x ∈ (db.store save).messageLabels := by
  rcases find?_of_saves h with ⟨s, hs⟩
  rw [mem_store]
  unfold Expected
  rw [List.find?_append, hs]
  rfl

theorem expected_of_not_saves (h : save.saves x.id = false)
    (saved : List SavedMessage) :
    Expected db (save.messages.reverse ++ saved) x ↔ Expected db saved x := by
  unfold Expected
  rw [List.find?_append, find?_of_not_saves h, Option.none_or]

theorem mem_store_of_not_saves (h : save.saves x.id = false) :
    x ∈ (db.store save).messageLabels ↔ x ∈ db.messageLabels := by
  rw [mem_store]
  unfold Expected
  rw [find?_of_not_saves h]

end Store

namespace MoveData

open MoveEntry

variable {cat : Catalog} {kind : MailKind} {destination : Option LocalLabelId}

/-!
# Rebasing some of the entries
-/

/-- The message would have the label if the entry were undone now. -/
def UndoneTo (e : MoveEntry) (db : Mailbox) (x : LabelPair) : Prop :=
  (x ∈ db.messageLabels ∨ x ∈ e.removedLabels) ∧ x ∉ e.appliedLabels

theorem Undoable.same {id : Nat} {db db' : Mailbox}
    (hview : SameView cat kind id db db')
    (h : Undoable cat kind db destination [id]) :
    Undoable cat kind db' destination [id] := by
  refine ⟨?_, ?_⟩
  · intro id' hid' m hm d hd hin
    cases List.mem_singleton.mp hid'
    rw [exclusiveLocations_same hview, takenOff_same hview]
    exact h.left id hid' m hm d hd ((hview.labels ⟨d, m⟩ hm).mp hin)
  · intro htrash id' hid' m hm l hin
    cases List.mem_singleton.mp hid'
    rw [hview.newlyRead] at hm
    exact h.visible htrash id hid' m hm l
      ((hview.labels ⟨l, m⟩ (newlyRead_subset hm).left).mp hin)

/-- The effect of moving an entity that can be moved back. -/
structure Rebased (cat : Catalog) (kind : MailKind)
    (destination : Option LocalLabelId) (db : Mailbox) (id : Nat)
    (e : MoveEntry) (db' : Mailbox) : Prop where
  within : forall x, x ∈ e.removedLabels ++ e.appliedLabels ->
    x.id ∈ cat.members kind id
  read : e.markedRead = readFor cat kind destination db id
  undone : forall x : LabelPair, x.id ∈ cat.members kind id ->
    (UndoneTo e db' x ↔ x ∈ db.messageLabels)

theorem rebase_spec {id : Nat} {db : Mailbox} (e : MoveEntry)
    (h : Undoable cat kind db destination [id]) :
    Rebased cat kind destination db id
      (MoveEntry.rebase cat kind id destination (e, db)).1
      (MoveEntry.rebase cat kind id destination (e, db)).2 := by
  have hmoved : MovedAll cat kind destination
      (db.exclusiveLocations cat kind) [id] db
      [(id, (MoveEntry.rebase cat kind id destination (e, db)).1)]
      (MoveEntry.rebase cat kind id destination (e, db)).2 :=
    moveAll_spec _ (List.nodup_singleton id) db
  have hkept := hmoved.kept_iff.mpr h
  refine ⟨hmoved.within id _ (List.mem_singleton.mpr rfl),
    hmoved.read id _ (List.mem_singleton.mpr rfl), ?_⟩
  intro x _
  have hreplayed := hmoved.replayed (x := x)
  simp only [removedIn, appliedIn, List.flatMap_singleton] at hreplayed hkept
  unfold UndoneTo
  rw [hreplayed]
  exact ⟨fun hx => hx.left, fun hx => ⟨hx, hkept x hx⟩⟩

structure RebasedAll (cat : Catalog) (kind : MailKind)
    (destination : Option LocalLabelId) (changeset : Nat -> Bool)
    (entries : List (Nat × MoveEntry)) (db : Mailbox)
    (entries' : List (Nat × MoveEntry)) (db' : Mailbox) : Prop where
  ids : entries'.map Prod.fst = entries.map Prod.fst
  kept : forall id e, (id, e) ∈ entries' -> changeset id = false ->
    (id, e) ∈ entries
  untouched : forall x : LabelPair,
    (forall id, id ∈ entries.map Prod.fst -> changeset id = true ->
      x.id ∉ cat.members kind id) ->
    (x ∈ db'.messageLabels ↔ x ∈ db.messageLabels)
  rebased : forall id e, (id, e) ∈ entries' -> changeset id = true ->
    Undoable cat kind db destination [id] ->
    Rebased cat kind destination db id e db'

theorem Rebased.same {id : Nat} {e : MoveEntry} {db db' db'' : Mailbox}
    (hview : SameView cat kind id db db')
    (h : Rebased cat kind destination db' id e db'') :
    Rebased cat kind destination db id e db'' := by
  refine ⟨h.within, ?_, ?_⟩
  · rw [h.read, readFor_same hview]
  · intro x hx
    rw [h.undone x hx, hview.labels x hx]

/-- The effect of one entry's turn on the entities. -/
structure RebasedOne (cat : Catalog) (kind : MailKind)
    (destination : Option LocalLabelId) (changed : Bool) (id : Nat)
    (e : MoveEntry) (db : Mailbox) (p : Progress) : Prop where
  kept : changed = false -> p.1 = e
  untouched : forall x : LabelPair,
    (changed = true -> x.id ∉ cat.members kind id) ->
    (x ∈ p.2.messageLabels ↔ x ∈ db.messageLabels)
  view : forall id', id' ≠ id -> SameView cat kind id' db p.2
  rebased : changed = true -> Undoable cat kind db destination [id] ->
    Rebased cat kind destination db id p.1 p.2

theorem rebaseOne_spec (changed : Bool) (id : Nat) (e : MoveEntry)
    (db : Mailbox) :
    RebasedOne cat kind destination changed id e db
      (if changed then MoveEntry.rebase cat kind id destination (e, db)
      else (e, db)) := by
  cases changed with
  | false =>
      exact ⟨fun _ => rfl, fun _ _ => Iff.rfl,
        fun _ _ => ⟨fun _ _ => Iff.rfl, rfl, rfl⟩, fun h => (nomatch h)⟩
  | true =>
      have helsewhere : Elsewhere cat kind id db
          (MoveEntry.rebase cat kind id destination (e, db)).2 :=
        (moveTo_spec destination _ db).elsewhere
      exact ⟨fun h => (nomatch h), fun x hx => helsewhere.labels x (hx rfl),
        fun id' hne => helsewhere.sameView hne, fun _ => rebase_spec e⟩

theorem rebaseAll_spec (changeset : Nat -> Bool)
    {entries : List (Nat × MoveEntry)}
    (hnodup : (entries.map Prod.fst).Nodup) (db : Mailbox) :
    RebasedAll cat kind destination changeset entries db
      (updateEntries (fun id p =>
        if changeset id then MoveEntry.rebase cat kind id destination p
        else p) entries db).1
      (updateEntries (fun id p =>
        if changeset id then MoveEntry.rebase cat kind id destination p
        else p) entries db).2 := by
  induction entries generalizing db with
  | nil =>
      exact ⟨rfl, fun _ _ h => (nomatch h), fun _ _ => Iff.rfl,
        fun _ _ h => (nomatch h)⟩
  | cons entry rest ih =>
      obtain ⟨id, e⟩ := entry
      rw [List.map_cons, List.nodup_cons] at hnodup
      rw [updateEntries_cons]
      have hhead : RebasedOne cat kind destination (changeset id) id e db
          (if changeset id then MoveEntry.rebase cat kind id destination (e, db)
          else (e, db)) := rebaseOne_spec (changeset id) id e db
      generalize (if changeset id then
        MoveEntry.rebase cat kind id destination (e, db)
        else (e, db)) = p at hhead ⊢
      have htail := ih hnodup.right p.2
      refine ⟨by rw [List.map_cons, List.map_cons, htail.ids], ?_, ?_, ?_⟩
      · intro id' e' hentry hsame
        rcases List.mem_cons.mp hentry with heq | hentry
        · cases heq
          rw [hhead.kept hsame]
          exact List.mem_cons_self ..
        · exact List.mem_cons_of_mem _ (htail.kept id' e' hentry hsame)
      · intro x hx
        rw [htail.untouched x (fun id' hid' =>
            hx id' (List.mem_cons_of_mem _ hid')),
          hhead.untouched x (hx id (List.mem_cons_self ..))]
      · intro id' e' hentry hchanged hundoable
        rcases List.mem_cons.mp hentry with heq | hentry
        · cases heq
          have hmoved := hhead.rebased hchanged hundoable
          refine ⟨hmoved.within, hmoved.read, ?_⟩
          intro x hx
          rw [<- hmoved.undone x hx]
          unfold UndoneTo
          rw [htail.untouched x (fun id' hid' _ hx' =>
            hnodup.left (members_unique hx hx' ▸ hid'))]
        · have hid' : id' ∈ rest.map Prod.fst := by
            rw [<- htail.ids]
            exact List.mem_map_of_mem hentry
          have hview := hhead.view id' (fun heq => hnodup.left (heq ▸ hid'))
          exact (htail.rebased id' e' hentry hchanged
            (hundoable.same hview)).same hview

end MoveData

/-!
# A pending move of conversations
-/

/-- The action, the tables, and the saved messages since it was applied. -/
structure PendingMove where
  db : Mailbox
  data : MoveData
  saved : List SavedMessage

namespace PendingMove

open MoveData MoveEntry

variable (cat : Catalog)

def apply (db : Mailbox) (destination : Option LocalLabelId)
    (targets : List LocalConversationId) : PendingMove :=
  let (data, db) := (MoveData.new cat MailKind.conversation db destination
    targets).moveTo cat MailKind.conversation db
  { db := db, data := data, saved := [] }

/-- A save by the server and the rebase with the change set of that save. -/
def rebase (s : PendingMove) (save : ServerSave) : PendingMove :=
  let (data, db) := s.data.rebaseLocal cat MailKind.conversation save.changes
    (s.db.store save)
  { db := db, data := data, saved := save.messages.reverse ++ s.saved }

def withEntries (s : PendingMove) (entries : List (Nat × MoveEntry)) :
    PendingMove :=
  { s with data := { s.data with entries := entries } }

/-- The entries are gone through in any order. -/
def system (db : Mailbox) (destination : Option LocalLabelId)
    (targets : List LocalConversationId) :
    TransitionSystem PendingMove ServerSave where
  init := fun s => s = apply cat db destination targets
  step := fun s save s' => exists entries,
    entries.Perm s.data.entries ∧ s' = (s.withEntries entries).rebase cat save

/-- After a revert every message has the labels of its last version. -/
def Reverts (db : Mailbox) (s : PendingMove) : Prop :=
  forall entries, entries.Perm s.data.entries -> forall x,
    x ∈ (revertLocal cat { s.data with entries := entries }
      s.db).messageLabels ↔ Expected db s.saved x

/-- Undoing the entry now would not change the labels of the message. -/
def LeavesAlone (e : MoveEntry) (db : Mailbox) (m : LocalMessageId) : Prop :=
  forall l,
    (⟨l, m⟩ ∈ e.removedLabels -> ⟨l, m⟩ ∉ e.appliedLabels ->
      ⟨l, m⟩ ∈ db.messageLabels) ∧
    (⟨l, m⟩ ∈ e.appliedLabels -> ⟨l, m⟩ ∉ db.messageLabels) ∧
    (m ∈ e.markedRead -> ⟨l, m⟩ ∈ db.messageLabels -> cat.visible l = true)

/--
A save that does not separate a conversation from its messages: where only one
of both is saved, there is nothing left to undo for the message.
-/
structure Harmless (s : PendingMove) (save : ServerSave) : Prop where
  together : forall id e, (id, e) ∈ s.data.entries ->
    forall m, m ∈ cat.messagesOf id -> save.changes id ≠ save.saves m ->
      LeavesAlone cat e (s.db.store save) m
  undoable : forall id, id ∈ s.data.entries.map Prod.fst ->
    save.changes id = true ->
    Undoable cat MailKind.conversation (s.db.store save) s.data.destination
      [id]

/-- The labels that undoing one entry has to lead to. -/
structure EntryTracks (id : LocalConversationId) (e : MoveEntry)
    (db : Mailbox) (goal : LabelPair -> Prop) : Prop where
  within : forall x, x ∈ e.removedLabels ++ e.appliedLabels ->
    x.id ∈ cat.messagesOf id
  read : forall m, m ∈ e.markedRead -> m ∈ cat.messagesOf id
  undone : forall x : LabelPair, x.id ∈ cat.messagesOf id ->
    (UndoneTo e db x ↔ goal x)
  visible : forall x : LabelPair, x.id ∈ e.markedRead -> goal x ->
    cat.visible x.label = true

/-- The records still lead to the goal. -/
structure Tracks (entries : List (Nat × MoveEntry)) (db : Mailbox)
    (goal : LabelPair -> Prop) : Prop where
  nodup : (entries.map Prod.fst).Nodup
  entry : forall id e, (id, e) ∈ entries -> EntryTracks cat id e db goal
  other : forall x : LabelPair,
    (forall id, id ∈ entries.map Prod.fst -> x.id ∉ cat.messagesOf id) ->
    (x ∈ db.messageLabels ↔ goal x)

variable {cat}

section Steps

variable {db : Mailbox} {destination : Option LocalLabelId}
  {targets : List LocalConversationId} {s : PendingMove} {save : ServerSave}
  {entries entries' : List (Nat × MoveEntry)} {goal : LabelPair -> Prop}

theorem Tracks.perm (h : Tracks cat entries db goal)
    (hperm : entries'.Perm entries) : Tracks cat entries' db goal := by
  refine ⟨?_, ?_, ?_⟩
  · exact (hperm.map Prod.fst).nodup_iff.mpr h.nodup
  · exact fun id e hentry => h.entry id e (hperm.mem_iff.mp hentry)
  · intro x hx
    exact h.other x
      (fun id hid => hx id ((hperm.map Prod.fst).mem_iff.mpr hid))

theorem Harmless.perm (h : Harmless cat s save)
    (hperm : entries'.Perm s.data.entries) :
    Harmless cat (s.withEntries entries') save := by
  refine ⟨?_, ?_⟩
  · exact fun id e hentry => h.together id e (hperm.mem_iff.mp hentry)
  · intro id hid
    exact h.undoable id ((hperm.map Prod.fst).mem_iff.mp hid)

theorem LeavesAlone.undoneTo {e : MoveEntry} {x : LabelPair}
    (h : LeavesAlone cat e db x.id) :
    UndoneTo e db x ↔ x ∈ db.messageLabels := by
  unfold UndoneTo
  constructor
  · rintro ⟨hin | hremoved, happlied⟩
    · exact hin
    · exact (h x.label).left hremoved happlied
  · intro hin
    exact ⟨Or.inl hin, fun happlied => (h x.label).right.left happlied hin⟩

/--
Rebasing keeps on track the entries that are on it, and brings those there
whose conversations have the expected labels.
-/
theorem tracks_rebaseAll {changeset : Nat -> Bool}
    (hnodup : (entries.map Prod.fst).Nodup)
    (hkept : forall id e, (id, e) ∈ entries -> changeset id = false ->
      EntryTracks cat id e db goal)
    (hundoable : forall id, id ∈ entries.map Prod.fst ->
      changeset id = true ->
      Undoable cat MailKind.conversation db destination [id])
    (hchanged : forall id, id ∈ entries.map Prod.fst ->
      changeset id = true -> forall x : LabelPair,
      x.id ∈ cat.messagesOf id -> (x ∈ db.messageLabels ↔ goal x))
    (hother : forall x : LabelPair,
      (forall id, id ∈ entries.map Prod.fst -> x.id ∉ cat.messagesOf id) ->
      (x ∈ db.messageLabels ↔ goal x)) :
    Tracks cat
      (updateEntries (fun id p => if changeset id then
        MoveEntry.rebase cat MailKind.conversation id destination p
        else p) entries db).1
      (updateEntries (fun id p => if changeset id then
        MoveEntry.rebase cat MailKind.conversation id destination p
        else p) entries db).2 goal := by
  have hspec : RebasedAll cat MailKind.conversation destination changeset
      entries db _ _ := rebaseAll_spec changeset hnodup db
  have hid : forall id e, (id, e) ∈ (updateEntries (fun id p =>
      if changeset id then
        MoveEntry.rebase cat MailKind.conversation id destination p
      else p) entries db).1 -> id ∈ entries.map Prod.fst := by
    intro id e hentry
    rw [<- hspec.ids]
    exact List.mem_map_of_mem hentry
  refine ⟨by rw [hspec.ids]; exact hnodup, ?_, ?_⟩
  · intro id e hentry
    cases hchange : changeset id with
    | false =>
        have hold := hkept id e (hspec.kept id e hentry hchange) hchange
        refine ⟨hold.within, hold.read, ?_, hold.visible⟩
        intro x hx
        rw [<- hold.undone x hx]
        unfold UndoneTo
        rw [hspec.untouched x]
        intro id' _ hchange' hx'
        have hsame : id = id' := messagesOf_unique hx hx'
        rw [<- hsame, hchange] at hchange'
        cases hchange'
    | true =>
        have hundo := hundoable id (hid id e hentry) hchange
        have hnew := hspec.rebased id e hentry hchange hundo
        have hgoal := hchanged id (hid id e hentry) hchange
        refine ⟨hnew.within, ?_, ?_, ?_⟩
        · intro m hm
          rw [hnew.read] at hm
          exact (readFor_subset hm).left
        · intro x hx
          rw [hnew.undone x hx, hgoal x hx]
        · intro x hread hx
          rw [hnew.read] at hread
          have hin := (hgoal x (readFor_subset hread).left).mpr hx
          unfold readFor at hread
          split at hread
          · rename_i htrash
            exact hundo.visible htrash id (List.mem_singleton.mpr rfl) x.id
              hread x.label hin
          · cases hread
  · intro x hx
    rw [hspec.ids] at hx
    rw [hspec.untouched x (fun id hid _ => hx id hid), hother x hx]

theorem tracks_apply
    (h : Undoable cat MailKind.conversation db destination targets) :
    Tracks cat (apply cat db destination targets).data.entries
      (apply cat db destination targets).db
      (fun x => x ∈ db.messageLabels) := by
  have hids : (freshEntries (db.exclusiveLocations cat MailKind.conversation)
      targets.dedup).map Prod.fst = targets.dedup := by
    simp [freshEntries, Function.comp_def]
  have hnodup : ((freshEntries (db.exclusiveLocations cat
      MailKind.conversation) targets.dedup).map Prod.fst).Nodup := by
    rw [hids]
    exact List.nodup_dedup targets
  have heq := rebaseAll_eq cat MailKind.conversation destination
    (fun _ => true) hnodup (fun _ _ => rfl) db
  rw [hids] at heq
  change Tracks cat
    (updateEntries (fun id p => MoveEntry.moveTo cat MailKind.conversation
      id destination p) (freshEntries _ targets.dedup) db).1
    (updateEntries (fun id p => MoveEntry.moveTo cat MailKind.conversation
      id destination p) (freshEntries _ targets.dedup) db).2 _
  rw [<- heq]
  refine tracks_rebaseAll hnodup
    (fun _ _ _ hfalse => by cases hfalse) ?_ (fun _ _ _ _ _ => Iff.rfl)
    (fun _ _ => Iff.rfl)
  intro id hid _
  have hmem : id ∈ targets := List.mem_dedup.mp (hids ▸ hid)
  refine ⟨?_, ?_⟩
  · intro id' hid'
    cases List.mem_singleton.mp hid'
    exact h.left id hmem
  · intro htrash id' hid'
    cases List.mem_singleton.mp hid'
    exact h.visible htrash id hmem

theorem tracks_rebase
    (h : Tracks cat s.data.entries s.db (Expected db s.saved))
    (hharmless : Harmless cat s save) :
    Tracks cat (s.rebase cat save).data.entries (s.rebase cat save).db
      (Expected db (s.rebase cat save).saved) := by
  have hold : forall {x : LabelPair}, save.saves x.id = false ->
      (x ∈ (s.db.store save).messageLabels ↔ x ∈ s.db.messageLabels) ∧
      (Expected db (save.messages.reverse ++ s.saved) x ↔
        Expected db s.saved x) :=
    fun hx => ⟨mem_store_of_not_saves hx, expected_of_not_saves hx s.saved⟩
  have hundone : forall {e : MoveEntry} {x : LabelPair},
      save.saves x.id = false ->
      (UndoneTo e (s.db.store save) x ↔ UndoneTo e s.db x) := by
    intro e x hx
    unfold UndoneTo
    rw [(hold hx).left]
  refine tracks_rebaseAll h.nodup ?_ hharmless.undoable ?_ ?_
  · intro id e hentry hchange
    have hentryTracks := h.entry id e hentry
    refine ⟨hentryTracks.within, hentryTracks.read, ?_, ?_⟩
    · intro x hx
      cases hsaves : save.saves x.id with
      | false =>
          rw [hundone hsaves]
          exact (hentryTracks.undone x hx).trans (hold hsaves).right.symm
      | true =>
          have halone := hharmless.together id e hentry x.id hx
            (by rw [hchange, hsaves]; exact Bool.false_ne_true)
          exact halone.undoneTo.trans (expected_of_saves hsaves s.saved).symm
    · intro x hread hx
      cases hsaves : save.saves x.id with
      | false =>
          exact hentryTracks.visible x hread ((hold hsaves).right.mp hx)
      | true =>
          have halone := hharmless.together id e hentry x.id
            (hentryTracks.read x.id hread)
            (by rw [hchange, hsaves]; exact Bool.false_ne_true)
          exact (halone x.label).right.right hread
            ((expected_of_saves hsaves s.saved).mp hx)
  · intro id hid hchange x hx
    cases hsaves : save.saves x.id with
    | false =>
        rcases List.mem_map.mp hid with ⟨⟨id', e⟩, hentry, rfl⟩
        have halone := hharmless.together id' e hentry x.id hx
          (by rw [hchange, hsaves]; exact Bool.false_ne_true.symm)
        rw [<- halone.undoneTo, hundone hsaves]
        exact ((h.entry id' e hentry).undone x hx).trans
          (hold hsaves).right.symm
    | true => exact (expected_of_saves hsaves s.saved).symm
  · intro x hx
    cases hsaves : save.saves x.id with
    | false =>
        rw [(hold hsaves).left]
        exact (h.other x hx).trans (hold hsaves).right.symm
    | true => exact (expected_of_saves hsaves s.saved).symm

/-!
# Reverting in the end
-/

theorem revertAll_untouched {x : LabelPair}
    (h : forall entry, entry ∈ entries -> x.id ∉ entry.2.markedRead ∧
      x ∉ entry.2.removedLabels ++ entry.2.appliedLabels) :
    x ∈ (entries.foldl (fun db entry => entry.2.revert cat db)
      db).messageLabels ↔ x ∈ db.messageLabels := by
  induction entries generalizing db with
  | nil => rfl
  | cons entry rest ih =>
      have hfirst := h entry (List.mem_cons_self ..)
      rw [List.mem_append, not_or] at hfirst
      rw [List.foldl_cons,
        ih (fun entry' hentry' => h entry' (List.mem_cons_of_mem _ hentry')),
        mem_revert_iff]
      simp [hfirst]

theorem EntryTracks.untouched {id : LocalConversationId} {e : MoveEntry}
    (h : EntryTracks cat id e db goal) {x : LabelPair}
    (hx : x.id ∉ cat.messagesOf id) :
    x.id ∉ e.markedRead ∧ x ∉ e.removedLabels ++ e.appliedLabels :=
  ⟨fun hread => hx (h.read x.id hread), fun hin => hx (h.within x hin)⟩

theorem EntryTracks.mem_revert {id : LocalConversationId} {e : MoveEntry}
    {db' : Mailbox} (h : EntryTracks cat id e db goal) {x : LabelPair}
    (hx : x.id ∈ cat.messagesOf id)
    (hsame : x ∈ db'.messageLabels ↔ x ∈ db.messageLabels) :
    x ∈ (e.revert cat db').messageLabels ↔ goal x := by
  have hundone := h.undone x hx
  unfold UndoneTo at hundone
  rw [mem_revert_iff, hsame]
  constructor
  · rintro ⟨hin | hremoved, happlied⟩
    · exact hundone.mp ⟨Or.inl hin.left, happlied⟩
    · exact hundone.mp ⟨Or.inr hremoved, happlied⟩
  · intro hgoal
    rcases hundone.mpr hgoal with ⟨hin | hremoved, happlied⟩
    · refine ⟨Or.inl ⟨hin, ?_⟩, happlied⟩
      rintro ⟨hread, _, hhidden⟩
      rw [h.visible x hread hgoal] at hhidden
      cases hhidden
    · exact ⟨Or.inr hremoved, happlied⟩

theorem Tracks.mem_reverted (h : Tracks cat entries db goal)
    {x : LabelPair} :
    x ∈ (entries.foldl (fun db entry => entry.2.revert cat db)
      db).messageLabels ↔ goal x := by
  by_cases hmember : exists id, id ∈ entries.map Prod.fst ∧
      x.id ∈ cat.messagesOf id
  · rcases hmember with ⟨id, hid, hx⟩
    rcases List.mem_map.mp hid with ⟨⟨id', e⟩, hentry, rfl⟩
    -- the entries before and after this one are of other conversations
    rcases List.append_of_mem hentry with ⟨before, after, hsplit⟩
    have hnodup := h.nodup
    rw [hsplit, List.map_append, List.map_cons, List.nodup_append] at hnodup
    have hentries : forall entry, entry ∈ before ∨ entry ∈ after ->
        x.id ∉ entry.2.markedRead ∧
          x ∉ entry.2.removedLabels ++ entry.2.appliedLabels := by
      intro entry hin
      have hne : entry.1 ≠ id' := by
        rcases hin with hin | hin
        · exact hnodup.right.right _ (List.mem_map_of_mem hin) _
            (List.mem_cons_self ..)
        · intro heq
          have hafter : entry.1 ∈ after.map Prod.fst :=
            List.mem_map_of_mem hin
          rw [heq] at hafter
          exact (List.nodup_cons.mp hnodup.right.left).left hafter
      have hmem : entry ∈ entries := by
        rw [hsplit]
        rcases hin with hin | hin
        · exact List.mem_append_left _ hin
        · exact List.mem_append_right _ (List.mem_cons_of_mem _ hin)
      exact (h.entry entry.1 entry.2 hmem).untouched
        (fun hx' => hne (messagesOf_unique hx' hx))
    rw [hsplit, List.foldl_append, List.foldl_cons,
      revertAll_untouched (fun entry hin => hentries entry (Or.inr hin))]
    exact (h.entry id' e hentry).mem_revert hx
      (revertAll_untouched (fun entry hin => hentries entry (Or.inl hin)))
  · have hout : forall id, id ∈ entries.map Prod.fst ->
        x.id ∉ cat.messagesOf id :=
      fun id hid hx => hmember ⟨id, hid, hx⟩
    rw [revertAll_untouched]
    · exact h.other x hout
    · intro entry hentry
      exact (h.entry entry.1 entry.2 hentry).untouched
        (hout entry.1 (List.mem_map_of_mem hentry))

theorem reverts_of_reachable
    (h : Undoable cat MailKind.conversation db destination targets)
    (hreach : TransitionSystem.ReachableWhen
      (system cat db destination targets) (Harmless cat) s) :
    Reverts cat db s := by
  have htracks : Tracks cat s.data.entries s.db (Expected db s.saved) := by
    refine TransitionSystem.invariant_when
      (fun s => Tracks cat s.data.entries s.db (Expected db s.saved))
      ?_ ?_ hreach
    · rintro s rfl
      exact tracks_apply h
    · rintro s save s' _ hinv hharmless ⟨entries, hperm, rfl⟩
      exact tracks_rebase (hinv.perm hperm) (hharmless.perm hperm)
  intro entries hperm x
  exact (htracks.perm hperm).mem_reverted

end Steps

end PendingMove

end Actions
end MailClient
