import MailClient.Actions.Move
import MailClient.Foundation.Tally

/-!
# Message counters

Each label has a counter of its messages, and of those that are unread.  The
counters are not computed from the tables: an action on a message adjusts them
for each label it puts on, takes off or finds on the message.
-/

namespace MailClient
namespace Actions

open Foundation
open Labels (LabelRow)

@[ext]
structure MessageCounter where
  total : Nat
  unread : Nat
  deriving DecidableEq, Repr

namespace MessageCounter

instance : Zero MessageCounter := ⟨⟨0, 0⟩⟩

instance : Add MessageCounter :=
  ⟨fun a b => ⟨a.total + b.total, a.unread + b.unread⟩⟩

@[simp]
theorem add_total (a b : MessageCounter) : (a + b).total = a.total + b.total :=
  rfl

@[simp]
theorem add_unread (a b : MessageCounter) :
    (a + b).unread = a.unread + b.unread :=
  rfl

instance : AddCancelCommMonoid MessageCounter where
  add_assoc a b c := by
    ext
    · exact Nat.add_assoc _ _ _
    · exact Nat.add_assoc _ _ _
  zero_add a := by
    ext
    · exact Nat.zero_add _
    · exact Nat.zero_add _
  add_zero a := by
    ext
    · rfl
    · rfl
  add_comm a b := by
    ext
    · exact Nat.add_comm _ _
    · exact Nat.add_comm _ _
  add_left_cancel a b c h := by
    ext
    · exact Nat.add_left_cancel (congrArg MessageCounter.total h)
    · exact Nat.add_left_cancel (congrArg MessageCounter.unread h)
  nsmul := nsmulRec

end MessageCounter

/-- What the actions read and write of a message. -/
@[ext]
structure MessageView where
  labels : Finset LocalLabelId
  unread : Bool
  deriving DecidableEq

/-- What a message adds to the counter of a label. -/
def MessageView.weight (v : MessageView) (l : LocalLabelId) : MessageCounter :=
  if l ∈ v.labels then ⟨1, v.unread.toNat⟩ else 0

/-- A message with all counters. -/
abbrev MessageCell := Cell MessageView LocalLabelId MessageCounter

/-!
# Changing a message
-/

/-- `Message::apply_label` of one message. -/
def applyLabelTo (l : LocalLabelId) (c : MessageCell) : MessageCell :=
  if l ∈ c.entry.labels then c
  else
    { entry := { c.entry with labels := insert l c.entry.labels }
      totals := Function.update c.totals l
        { total := (c.totals l).total + 1
          unread := (c.totals l).unread + c.entry.unread.toNat } }

/-- `Message::remove_label` of one message, with saturating subtractions. -/
def removeLabelFrom (l : LocalLabelId) (c : MessageCell) : MessageCell :=
  if l ∉ c.entry.labels then c
  else
    { entry := { c.entry with labels := c.entry.labels.erase l }
      totals := Function.update c.totals l
        { total := (c.totals l).total - 1
          unread := (c.totals l).unread - c.entry.unread.toNat } }

/--
`mark_read_or_unread` of one message.  The message is saved with the labels it
was loaded with, and the counters are those of its labels after that.
-/
def markReadOrUnread (cat : Catalog) (markRead : Bool) (c : MessageCell) :
    MessageCell :=
  if c.entry.unread ≠ markRead then c
  else
    let labels := c.entry.labels.filter (fun l => cat.visible l)
    { entry := { labels := labels, unread := !markRead }
      totals := fun l =>
        if l ∈ labels then
          { c.totals l with
            unread :=
              if markRead then (c.totals l).unread - 1
              else (c.totals l).unread + 1 }
        else c.totals l }

/-!
# Moving a message
-/

def MessageView.location (cat : Catalog) (v : MessageView) :
    Option LocalLabelId :=
  let rows := cat.visibleRows (fun l => l ∈ v.labels)
  let system := Catalog.exclusiveLocations.findSome? (fun n =>
    rows.find? (fun r => r.remoteId = some (toString n)))
  match system with
  | some r =>
      if Catalog.isExclusiveLocation r then some r.localId else none
  | none =>
      match rows.filter Catalog.isExclusiveLocation with
      | [r] => some r.localId
      | _ => none

def removeAllRemovable (cat : Catalog) (c : MessageCell) : MessageCell :=
  ((c.entry.labels.sort (fun a b => a ≤ b)).filter
    (fun l => ¬ cat.nonRemovable l)).foldl (fun c l => removeLabelFrom l c) c

def leaveLocation (cat : Catalog) (source : LocalLabelId) (c : MessageCell) :
    MessageCell :=
  let c := if MoveEntry.isLeft cat source then removeLabelFrom source c else c
  if source = cat.trash ∨ source = cat.spam then
    applyLabelTo cat.almostAllMail c
  else c

def leaveAll (cat : Catalog) (destination : Option LocalLabelId)
    (locations : List LocalLabelId) (c : MessageCell) : MessageCell :=
  if destination = some cat.trash ∨ destination = some cat.spam then
    removeAllRemovable cat c
  else if destination.any cat.isCategory then c
  else locations.foldl (fun c source => leaveLocation cat source c) c

def arriveAt (cat : Catalog) (destination : Option LocalLabelId)
    (c : MessageCell) : MessageCell :=
  match destination with
  | none => c
  | some d =>
      let c := applyLabelTo d c
      if cat.isCategory d then
        (cat.otherCategories d).foldl (fun c l => removeLabelFrom l c) c
      else c

/-- `ActionMoveDataV2Entry::move_to` without its record. -/
def moveMessage (cat : Catalog) (destination : Option LocalLabelId)
    (locations : List LocalLabelId) (c : MessageCell) : MessageCell :=
  arriveAt cat destination (leaveAll cat destination locations
    (if destination = some cat.trash then markReadOrUnread cat true c else c))

/-- `ActionMoveDataV2Entry::rebase`, from where the message is now. -/
def moveAgain (cat : Catalog) (destination : Option LocalLabelId)
    (c : MessageCell) : MessageCell :=
  moveMessage cat destination (c.entry.location cat).toList c

def labelMessageAs (item : LabelAsItem) (c : MessageCell) : MessageCell :=
  item.removed.foldl (fun c l => removeLabelFrom l c)
    (item.added.foldl (fun c l => applyLabelTo l c) c)

/-!
# The counters follow the message
-/

/-- The change adjusts the counters of the visible labels as it should. -/
abbrev KeepsCount (cat : Catalog) (f : MessageCell -> MessageCell) : Prop :=
  Tracks MessageView.weight (fun l => cat.visible l = true) f

section KeepsCount

variable {cat : Catalog}

theorem weight_of_mem {v : MessageView} {l : LocalLabelId} (h : l ∈ v.labels) :
    v.weight l = ⟨1, v.unread.toNat⟩ :=
  if_pos h

theorem weight_of_notMem {v : MessageView} {l : LocalLabelId}
    (h : l ∉ v.labels) : v.weight l = 0 :=
  if_neg h

theorem weight_congr {v v' : MessageView} {l : LocalLabelId}
    (hlabels : l ∈ v'.labels ↔ l ∈ v.labels) (hunread : v'.unread = v.unread) :
    v'.weight l = v.weight l := by
  unfold MessageView.weight
  rw [hunread]
  by_cases h : l ∈ v.labels
  · rw [if_pos h, if_pos (hlabels.mpr h)]
  · rw [if_neg h, if_neg (fun h' => h (hlabels.mp h'))]

theorem keepsCount_applyLabelTo (l : LocalLabelId) :
    KeepsCount cat (applyLabelTo l) := by
  refine ⟨?_, ?_⟩
  · intro c c' h
    unfold applyLabelTo
    rw [h]
    split
    · exact h
    · rfl
  · intro c i _ base h
    unfold applyLabelTo
    by_cases hl : l ∈ c.entry.labels
    · rw [if_pos hl]
      exact h
    · rw [if_neg hl]
      dsimp only
      by_cases hi : i = l
      · rw [hi] at h ⊢
        rw [weight_of_notMem hl, add_zero] at h
        rw [Function.update_self, weight_of_mem (Finset.mem_insert_self l _), h]
        rfl
      · rw [Function.update_of_ne hi, h]
        congr 1
        apply Eq.symm
        apply weight_congr
        · exact ⟨fun hmem => Finset.mem_of_mem_insert_of_ne hmem hi,
            Finset.mem_insert_of_mem⟩
        · rfl

theorem keepsCount_removeLabelFrom (l : LocalLabelId) :
    KeepsCount cat (removeLabelFrom l) := by
  refine ⟨?_, ?_⟩
  · intro c c' h
    unfold removeLabelFrom
    rw [h]
    split
    · exact h
    · rfl
  · intro c i _ base h
    unfold removeLabelFrom
    by_cases hl : l ∈ c.entry.labels
    · rw [if_neg (not_not.mpr hl)]
      dsimp only
      by_cases hi : i = l
      · rw [hi] at h ⊢
        rw [weight_of_mem hl] at h
        rw [Function.update_self, weight_of_notMem (Finset.notMem_erase l _), h,
          add_zero]
        simp only [MessageCounter.add_total, MessageCounter.add_unread,
          Nat.add_sub_cancel]
      · rw [Function.update_of_ne hi, h]
        congr 1
        apply Eq.symm
        apply weight_congr
        · exact ⟨Finset.mem_of_mem_erase,
            fun hmem => Finset.mem_erase.mpr ⟨hi, hmem⟩⟩
        · rfl
    · rw [if_pos hl]
      exact h

theorem keepsCount_markReadOrUnread (markRead : Bool) :
    KeepsCount cat (markReadOrUnread cat markRead) := by
  refine ⟨?_, ?_⟩
  · intro c c' h
    unfold markReadOrUnread
    rw [h]
    split
    · exact h
    · rfl
  · intro c i hvisible base h
    unfold markReadOrUnread
    by_cases hunread : c.entry.unread = markRead
    · rw [if_neg (not_not.mpr hunread)]
      dsimp only
      by_cases hi : i ∈ c.entry.labels
      · have hkept : i ∈ c.entry.labels.filter (fun l => cat.visible l) :=
          Finset.mem_filter.mpr ⟨hi, hvisible⟩
        rw [if_pos hkept, weight_of_mem hkept]
        rw [weight_of_mem hi, hunread] at h
        rw [h]
        cases markRead with
        | false => rfl
        | true => rfl
      · have hnot : i ∉ c.entry.labels.filter (fun l => cat.visible l) :=
          fun hmem => hi (Finset.mem_filter.mp hmem).left
        rw [if_neg hnot, weight_of_notMem hnot, h, weight_of_notMem hi]
    · rw [if_pos hunread]
      exact h

theorem keepsCount_ite {p : Prop} [Decidable p]
    {f g : MessageCell -> MessageCell} (hf : KeepsCount cat f)
    (hg : KeepsCount cat g) :
    KeepsCount cat (fun c => if p then f c else g c) := by
  by_cases hp : p
  · simpa [hp] using hf
  · simpa [hp] using hg

theorem keepsCount_removeAllRemovable :
    KeepsCount cat (removeAllRemovable cat) :=
  Tracks.choose (F := fun (v : MessageView) c =>
    ((v.labels.sort (fun a b => a ≤ b)).filter
      (fun l => ¬ cat.nonRemovable l)).foldl (fun c l => removeLabelFrom l c) c)
    (fun _ => Tracks.foldl keepsCount_removeLabelFrom _)

theorem keepsCount_leaveLocation (source : LocalLabelId) :
    KeepsCount cat (leaveLocation cat source) := by
  have hleft : KeepsCount cat (fun c =>
      if MoveEntry.isLeft cat source then removeLabelFrom source c else c) :=
    keepsCount_ite (keepsCount_removeLabelFrom source) Tracks.id
  have hback : KeepsCount cat (fun c =>
      if source = cat.trash ∨ source = cat.spam then
        applyLabelTo cat.almostAllMail c
      else c) :=
    keepsCount_ite (keepsCount_applyLabelTo cat.almostAllMail) Tracks.id
  exact hback.comp hleft

theorem keepsCount_leaveAll (destination : Option LocalLabelId)
    (locations : List LocalLabelId) :
    KeepsCount cat (leaveAll cat destination locations) :=
  keepsCount_ite keepsCount_removeAllRemovable
    (keepsCount_ite Tracks.id (Tracks.foldl keepsCount_leaveLocation locations))

theorem keepsCount_arriveAt (destination : Option LocalLabelId) :
    KeepsCount cat (arriveAt cat destination) := by
  cases destination with
  | none => exact Tracks.id
  | some d =>
      have hothers : KeepsCount cat (fun c =>
          if cat.isCategory d then
            (cat.otherCategories d).foldl (fun c l => removeLabelFrom l c) c
          else c) :=
        keepsCount_ite (Tracks.foldl keepsCount_removeLabelFrom _) Tracks.id
      exact hothers.comp (keepsCount_applyLabelTo d)

theorem keepsCount_moveMessage (destination : Option LocalLabelId)
    (locations : List LocalLabelId) :
    KeepsCount cat (moveMessage cat destination locations) :=
  (keepsCount_arriveAt destination).comp
    ((keepsCount_leaveAll destination locations).comp
      (keepsCount_ite (keepsCount_markReadOrUnread true) Tracks.id))

theorem keepsCount_moveAgain (destination : Option LocalLabelId) :
    KeepsCount cat (moveAgain cat destination) :=
  Tracks.choose (F := fun (v : MessageView) =>
    moveMessage cat destination (v.location cat).toList)
    (fun _ => keepsCount_moveMessage destination _)

theorem keepsCount_labelMessageAs (item : LabelAsItem) :
    KeepsCount cat (labelMessageAs item) :=
  (Tracks.foldl keepsCount_removeLabelFrom item.removed).comp
    (Tracks.foldl keepsCount_applyLabelTo item.added)

end KeepsCount

end Actions
end MailClient
