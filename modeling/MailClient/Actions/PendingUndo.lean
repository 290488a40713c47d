import MailClient.Actions.MoveRebase
import MailClient.Labels.Update

/-!
# Undoing pending actions

A pending action is rebased after every save of the server, and still has to
know how to undo itself in the end.  A move of conversations and an update of a
label do, as long as the server does not save one of two related entities
without the other: a conversation and its messages, or a label and one below it.
-/

namespace MailClient
namespace Actions

open Foundation
open Foundation.TransitionSystem (ReachableWhen Reachable)
open Labels (LabelRow LabelTable LabelType ApiLabel Update UpdateValues PendingUpdate ParentSettled)
open MoveData (Undoable)

/-- No sequence of harmless saves makes a pending action forget. -/
theorem pending_actions_revert (cat : Catalog) (db : Mailbox)
    (destination : Option LocalLabelId) (targets : List LocalConversationId)
    (move : PendingMove) (before : LabelTable) (r : LabelRow)
    (newValues : UpdateValues) (update : PendingUpdate) :
    (Undoable cat MailKind.conversation db destination targets ->
      ReachableWhen (PendingMove.system cat db destination targets)
        (PendingMove.Harmless cat) move ->
      PendingMove.Reverts cat db move) ∧
    (r ∈ before.rows -> ParentSettled before r.toLabelData ->
      ReachableWhen (PendingUpdate.system before r.localId newValues)
        PendingUpdate.Harmless update ->
      PendingUpdate.Reverts before update) :=
  ⟨fun hundoable hreach => PendingMove.reverts_of_reachable hundoable hreach,
    fun hr hsettled hreach =>
      PendingUpdate.reverts_of_reachable hr hsettled hreach⟩

/-!
# A conversation and a folder
-/

def customFolder (localId : LocalLabelId) (remoteId name : String)
    (parent : Option String) : LabelRow where
  localId := localId
  remoteId := some remoteId
  remoteParentId := parent
  labelType := LabelType.folder
  name := name

/-- The inbox, the trash, spam, almost all mail and a folder. -/
def withFolder : LabelTable :=
  LabelTable.ofRows [MoveData.folderRow 1 "0", MoveData.folderRow 2 "3",
    MoveData.folderRow 3 "4", MoveData.folderRow 4 "15",
    customFolder 5 "work" "Work" none] 6 (by decide) (by decide) (by decide)

def oneConversation : Catalog where
  labels := withFolder
  messages := [⟨1, 1⟩]
  trash := 2
  spam := 3
  almostAllMail := 4
  ids_unique := MoveData.oneMessage.ids_unique
  trash_id := by decide
  spam_id := by decide
  almostAllMail_id := by decide
  system_type := by decide +kernel

def conversationInInbox : Mailbox where
  unread := ∅
  messageLabels := {⟨1, 1⟩, ⟨4, 1⟩}
  conversationLabels := {(1, 1), (1, 4)}
  numUnread := fun _ => 0

theorem conversationInInbox_undoable :
    Undoable oneConversation MailKind.conversation conversationInInbox
      (some 5) [1] := by
  refine ⟨?_, ?_⟩
  · intro id _ m hm d hd hin
    cases hd
    simp [conversationInInbox] at hin
  · intro htrash
    cases htrash

/-- The folder "Work" with a folder below it. -/
def nested : LabelTable :=
  LabelTable.ofRows [customFolder 1 "work" "Work" none,
    customFolder 2 "old" "Old" (some "work")] 3 (by decide) (by decide)
    (by decide)

def rename : UpdateValues where
  localParentId := none
  name := "Projects"
  color := ""
  notify := false
  displayOrder := 0

def childOfWork : ApiLabel where
  id := "old"
  parentId := some "work"
  labelType := LabelType.folder
  name := "Old"

def work : ApiLabel where
  id := "work"
  labelType := LabelType.folder
  name := "Work"

def savedAlone : ServerSave where
  conversations := [⟨1, {1, 4}, 0⟩]
  messages := []

def savedTogether : ServerSave where
  conversations := [⟨1, {1, 4}, 0⟩]
  messages := [⟨1, {1, 4}, false⟩]

def movedToWork : PendingMove :=
  PendingMove.apply oneConversation conversationInInbox (some 5) [1]

/-- The names of the folders after a rename, one step and a revert. -/
def namesAfter (labels : List ApiLabel) :
    Option (List (LocalLabelId × String)) := do
  let p <- (Update.applyLocal ⟨1, rename, none⟩ nested).toOption
  let s <- (PendingUpdate.rebase ⟨p.2, p.1, []⟩ labels).toOption
  let q <- (s.action.revertLocal s.table).toOption
  some (q.2.rows.map (fun r => (r.localId, r.name)))

theorem toOption_eq_some {ε α : Type} {x : Except ε α} {a : α}
    (h : x.toOption = some a) : x = Except.ok a := by
  cases x with
  | error e => cases h
  | ok b =>
      cases h
      rfl

theorem namesAfter_run {labels : List ApiLabel}
    {names : List (LocalLabelId × String)}
    (h : namesAfter labels = some names) :
    exists s s' q, (PendingUpdate.system nested 1 rename).init s ∧
      s.rebase labels = Except.ok s' ∧ s'.saved = labels.reverse ∧
      s'.action.revertLocal s'.table = Except.ok q ∧
      q.2.rows.map (fun r => (r.localId, r.name)) = names := by
  simp only [namesAfter, Option.bind_eq_bind, Option.bind_eq_some_iff] at h
  rcases h with ⟨p, hp, s', hs', q, hq, h⟩
  have hrebase := toOption_eq_some hs'
  refine ⟨_, s', q, ⟨p, toOption_eq_some hp, rfl⟩, hrebase, ?_,
    toOption_eq_some hq, Option.some.inj h⟩
  unfold PendingUpdate.rebase at hrebase
  cases hlocal : Update.rebaseLocal (Labels.handleEvents p.2 labels).2 p.1
      (Labels.handleEvents p.2 labels).1 with
  | error e =>
      rw [hlocal] at hrebase
      cases hrebase
  | ok p' =>
      rw [hlocal] at hrebase
      cases hrebase
      exact List.append_nil _

/-- Saved with its message, or with the folder below, nothing is forgotten. -/
theorem saved_together_reverts :
    PendingMove.Reverts oneConversation conversationInInbox
        (movedToWork.rebase oneConversation savedTogether) ∧
      exists s s', (PendingUpdate.system nested 1 rename).init s ∧
        s.rebase [childOfWork, work] = Except.ok s' ∧
        PendingUpdate.Reverts nested s' := by
  have hnames : namesAfter [childOfWork, work] =
      some [(1, "Work"), (2, "Old")] := by
    decide +kernel
  rcases namesAfter_run hnames with ⟨s, s', q, hinit, hstep, _, _, _⟩
  have hboth := pending_actions_revert oneConversation conversationInInbox
    (some 5) [1] (movedToWork.rebase oneConversation savedTogether) nested
    (customFolder 1 "work" "Work" none) rename s'
  refine ⟨hboth.left conversationInInbox_undoable
      (ReachableWhen.next (ReachableWhen.start rfl) ?_
        ⟨_, List.Perm.refl _, rfl⟩),
    s, s', hinit, hstep, hboth.right (List.mem_cons_self ..)
      (fun _ hparent => by cases hparent)
      (ReachableWhen.next (ReachableWhen.start hinit) ?_ hstep)⟩
  · refine ⟨?_, ?_⟩
    · intro id e hentry m hm hapart
      have hentries : movedToWork.data.entries.map Prod.fst = [1] := by
        decide +kernel
      have hid : id ∈ movedToWork.data.entries.map Prod.fst :=
        List.mem_map_of_mem hentry
      rw [hentries, List.mem_singleton] at hid
      subst hid
      have hm' : m = 1 := by
        simpa [oneConversation, Catalog.messagesOf] using hm
      subst hm'
      exact absurd rfl hapart
    · intro id hid _
      refine ⟨?_, fun htrash => by cases htrash⟩
      intro id' _ m hm d hd hin
      cases hd
      have hlabels : (movedToWork.db.store savedTogether).messageLabels =
          {⟨1, 1⟩, ⟨4, 1⟩} := by
        decide +kernel
      change _ ∈ (movedToWork.db.store savedTogether).messageLabels at hin
      rw [hlabels] at hin
      simp at hin
  · rintro rid _ ⟨a, ha, hparent⟩
    refine ⟨work, List.mem_cons_of_mem _ (List.mem_singleton.mpr rfl), ?_⟩
    rcases List.mem_cons.mp ha with rfl | ha
    · exact Option.some.inj hparent
    · rw [List.mem_singleton.mp ha] at hparent
      cases hparent

/-- The conversation is saved without its message, or the folder below alone. -/
theorem saved_apart_forgets :
    (exists s, Reachable (PendingMove.system oneConversation
        conversationInInbox (some 5) [1]) s ∧
      ¬ PendingMove.Reverts oneConversation conversationInInbox s) ∧
    exists s, Reachable (PendingUpdate.system nested 1 rename) s ∧
      ¬ PendingUpdate.Reverts nested s := by
  refine ⟨⟨movedToWork.rebase oneConversation savedAlone, ?_, ?_⟩, ?_⟩
  · exact Reachable.step (ReachableWhen.start rfl)
      ⟨_, List.Perm.refl _, rfl⟩
  · intro h
    have hinbox := (h _ (List.Perm.refl _) ⟨1, 1⟩).mpr (by
      change (⟨1, 1⟩ : LabelPair) ∈ conversationInInbox.messageLabels
      decide)
    revert hinbox
    decide +kernel
  · have hnames : namesAfter [childOfWork] =
        some [(1, "Projects"), (2, "Old")] := by
      decide +kernel
    rcases namesAfter_run hnames with
      ⟨s, s', q, hinit, hstep, hsaved, hrevert, hrows⟩
    refine ⟨s', Reachable.step (ReachableWhen.start hinit) hstep, ?_⟩
    rintro ⟨q', hrevert', hlast⟩
    have hsame : q' = q := Except.ok.inj (hrevert'.symm.trans hrevert)
    subst hsame
    rcases hlast.unsaved (customFolder 1 "work" "Work" none)
      (List.mem_cons_self ..) (by rw [hsaved]; decide) with
      ⟨r, hr, hid, hvalues⟩
    have hname : r.name = "Work" := congrArg UpdateValues.name hvalues
    have hmem : (r.localId, r.name) ∈
        q'.2.rows.map (fun r => (r.localId, r.name)) :=
      List.mem_map_of_mem hr
    rw [hrows, hid, hname] at hmem
    revert hmem
    decide

end Actions
end MailClient
