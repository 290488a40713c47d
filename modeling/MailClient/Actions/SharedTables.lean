import MailClient.Actions.Counters
import MailClient.Conversations.UnlabelSpec

/-!
# The labels of a message

The labels of messages stand in the tables of the conversations, in those of the
actions and, for one message, next to the counters.  Labelling does the same to
them in all three, and reading in the last two.
-/

namespace MailClient
namespace Actions

variable {cat : Catalog} {db : Mailbox} {l : LocalLabelId}

/-!
# The tables of conversations
-/

/-- Both have the same rows in `message_labels`. -/
def Mailbox.Shows (db : Mailbox) (tables : Conversations.Database) : Prop :=
  db.messageLabels = tables.messageLabels

section Tables

variable {tables tables' : Conversations.Database} {kind : MailKind} {id : Nat}
  {modified : List LocalMessageId}

theorem Mailbox.Shows.applyLabel (h : db.Shows tables)
    (hrun : Conversations.Message.applyLabel l (cat.members kind id) tables =
      some (modified, tables')) :
    (db.applyLabel cat kind l id).2.Shows tables' := by
  have happlied := Conversations.Message.applyLabel_spec hrun
  unfold Mailbox.Shows at h ⊢
  ext p
  change p ∈ db.messageLabels ∪ _ ↔ _
  rw [Finset.mem_union, List.mem_toFinset, mem_pairs, happlied.pairs, h]

theorem Mailbox.Shows.removeLabel (h : db.Shows tables)
    (hrun : Conversations.Message.removeLabel l (cat.members kind id) tables =
      some (modified, tables')) :
    (db.removeLabel cat kind l id).2.Shows tables' := by
  have hpairs : forall p, p ∈ tables'.messageLabels ↔
      p ∈ tables.messageLabels ∧ ¬ (p.label = l ∧ p.id ∈ cat.members kind id) := by
    rcases Conversations.Message.removeLabel_cases hrun with
      ⟨r, hdeleted, ⟨hnone, rfl⟩ | ⟨_, _, p', _, _, _, hlabels, rfl⟩⟩
    · intro p
      refine ⟨fun hp => ⟨hp, ?_⟩, fun hp => hp.left⟩
      rintro ⟨rfl, hid⟩
      exact Conversations.Message.losing_eq_nil.mp hnone _ hid hp
    · intro p
      rw [<- hdeleted.pairs]
      change p ∈ p'.2.messageLabels ↔ _
      rw [hlabels.messageLabels]
      exact Iff.rfl
  unfold Mailbox.Shows at h ⊢
  ext p
  change p ∈ db.messageLabels \ _ ↔ _
  rw [Finset.mem_sdiff, List.mem_toFinset, mem_pairs, hpairs, h]

end Tables

/-!
# One message and its counters
-/

/-- A message as the tables have it. -/
def Mailbox.view (db : Mailbox) (id : LocalMessageId) : MessageView where
  labels := (db.messageLabels.filter (fun x => x.id = id)).image LabelPair.label
  unread := id ∈ db.unread

section View

variable {id : LocalMessageId} {c : MessageCell}

theorem Mailbox.mem_view {l' : LocalLabelId} :
    l' ∈ (db.view id).labels ↔ ⟨l', id⟩ ∈ db.messageLabels := by
  unfold Mailbox.view
  rw [Finset.mem_image]
  constructor
  · rintro ⟨p, hp, rfl⟩
    rcases Finset.mem_filter.mp hp with ⟨hmem, rfl⟩
    exact hmem
  · exact fun hp => ⟨_, Finset.mem_filter.mpr ⟨hp, rfl⟩, rfl⟩

theorem Mailbox.view_applyLabel (h : db.view id = c.entry) :
    (db.applyLabel cat MailKind.message l id).2.view id =
      (applyLabelTo l c).entry := by
  have hlabels : forall l', l' ∈ c.entry.labels ↔
      ⟨l', id⟩ ∈ db.messageLabels := fun l' => h ▸ Mailbox.mem_view
  have hunread := congrArg MessageView.unread h
  refine MessageView.ext ?_ ?_
  · ext l'
    rw [Mailbox.mem_view]
    change _ ∈ db.messageLabels ∪ _ ↔ _
    rw [Finset.mem_union, List.mem_toFinset, mem_pairs, <- hlabels,
      applyLabelTo]
    change _ ∨ l' = l ∧ id ∈ [id] ↔ _
    split
    · rename_i hl
      simp only [List.mem_singleton, and_true]
      exact or_iff_left_of_imp (fun heq => heq ▸ hl)
    · simp [or_comm]
  · rw [applyLabelTo]
    split <;> exact hunread

theorem Mailbox.view_removeLabel (h : db.view id = c.entry) :
    (db.removeLabel cat MailKind.message l id).2.view id =
      (removeLabelFrom l c).entry := by
  have hlabels : forall l', l' ∈ c.entry.labels ↔
      ⟨l', id⟩ ∈ db.messageLabels := fun l' => h ▸ Mailbox.mem_view
  have hunread := congrArg MessageView.unread h
  refine MessageView.ext ?_ ?_
  · ext l'
    rw [Mailbox.mem_view]
    change _ ∈ db.messageLabels \ _ ↔ _
    rw [Finset.mem_sdiff, List.mem_toFinset, mem_pairs, <- hlabels,
      removeLabelFrom]
    change _ ∧ ¬ (l' = l ∧ id ∈ [id]) ↔ _
    split
    · rename_i hl
      simp only [List.mem_singleton, and_true]
      exact and_iff_left_of_imp (fun hl' heq => hl (heq ▸ hl'))
    · simp [and_comm]
  · rw [removeLabelFrom]
    split <;> exact hunread

theorem Mailbox.view_markRead (h : db.view id = c.entry) :
    (db.markRead cat MailKind.message id).2.view id =
      (markReadOrUnread cat true c).entry := by
  have hlabels : forall l', l' ∈ c.entry.labels ↔
      ⟨l', id⟩ ∈ db.messageLabels := fun l' => h ▸ Mailbox.mem_view
  have hunread : c.entry.unread = true ↔ id ∈ db.unread := by
    rw [<- h]
    exact decide_eq_true_iff
  by_cases hread : id ∈ db.unread
  · have hnewly : db.newlyRead cat MailKind.message id = [id] :=
      List.filter_eq_self.mpr (fun m hm => by
        rw [List.mem_singleton.mp hm]
        exact decide_eq_true hread)
    have hentry : c.entry.unread = true := hunread.mpr hread
    rw [markReadOrUnread, if_neg (not_not_intro hentry)]
    refine MessageView.ext ?_ ?_
    · ext l'
      rw [Mailbox.mem_view, Mailbox.markRead, hnewly]
      simp [Mailbox.saveMessages, hlabels]
    · rw [Mailbox.markRead, hnewly]
      simp [Mailbox.view]
  · have hnewly : db.newlyRead cat MailKind.message id = [] :=
      List.filter_eq_nil_iff.mpr (fun m hm => by
        rw [List.mem_singleton.mp hm]
        simpa using hread)
    have hentry : c.entry.unread ≠ true := fun hu => hread (hunread.mp hu)
    rw [markReadOrUnread, if_pos hentry, <- h, Mailbox.markRead, hnewly]
    simp [Mailbox.saveMessages, Mailbox.view]

end View

end Actions
end MailClient
