import MailClient.Actions.MoveRecord

/-!
# Undoing a move

A move is undone from its record, by the action itself or by a `LabelAs` and an
`Unread` action.  Both put the labels on again that were removed and then take
off those that were applied.  A message that was in the destination all along
has its label in both lists if the move took it off, and loses it.
-/

namespace MailClient
namespace Actions

open Foundation
open Labels (LabelRow LabelTable LabelType)
open Mailbox

variable {cat : Catalog} {kind : MailKind} {destination : Option LocalLabelId}

namespace MoveData

open MoveEntry

/-!
# The record of the whole action
-/

def freshEntries (locations : Nat -> List LocalLabelId) (targets : List Nat) :
    List (Nat × MoveEntry) :=
  targets.map (fun id => (id, { originalLocations := locations id }))

def removedIn (entries : List (Nat × MoveEntry)) : List LabelPair :=
  entries.flatMap (fun entry => entry.2.removedLabels)

def appliedIn (entries : List (Nat × MoveEntry)) : List LabelPair :=
  entries.flatMap (fun entry => entry.2.appliedLabels)

/-- Some entity of a list loses the pair when its messages are saved. -/
def DroppedBy (cat : Catalog) (kind : MailKind)
    (destination : Option LocalLabelId) (db : Mailbox) (targets : List Nat)
    (x : LabelPair) : Prop :=
  exists id, id ∈ targets ∧ Dropped cat kind destination db id x

instance (db : Mailbox) (targets : List Nat) :
    DecidablePred (DroppedBy cat kind destination db targets) :=
  fun _ => inferInstanceAs (Decidable (exists id, id ∈ targets ∧ _))

structure MovedAll (cat : Catalog) (kind : MailKind)
    (destination : Option LocalLabelId)
    (locations : Nat -> List LocalLabelId) (targets : List Nat)
    (db : Mailbox) (entries : List (Nat × MoveEntry)) (db' : Mailbox) :
    Prop where
  ids : entries.map Prod.fst = targets
  within : forall id e, (id, e) ∈ entries ->
    forall x, x ∈ e.removedLabels ++ e.appliedLabels ->
      x.id ∈ cat.members kind id
  read : forall id e, (id, e) ∈ entries ->
    e.markedRead = readFor cat kind destination db id
  unread : forall m, m ∈ db'.unread ↔ m ∈ db.unread ∧
    forall id, id ∈ targets -> m ∉ readFor cat kind destination db id
  recorded : Recorded (db.messageLabels.filter (fun x =>
      ¬ DroppedBy cat kind destination db targets x)) db'.messageLabels
    (removedIn entries) (appliedIn entries)
  applied : forall x, x ∈ db.messageLabels ->
    ¬ DroppedBy cat kind destination db targets x ->
    (x ∈ appliedIn entries ↔ exists id, id ∈ targets ∧
      destination = some x.label ∧ x.id ∈ cat.members kind id ∧
      x.label ∈ takenOff cat kind db destination (locations id) id)

theorem updateEntries_cons
    (update : Nat -> MoveEntry.Progress -> MoveEntry.Progress) (id : Nat)
    (e : MoveEntry) (rest : List (Nat × MoveEntry)) (db : Mailbox) :
    updateEntries update ((id, e) :: rest) db =
      ((id, (update id (e, db)).1) ::
        (updateEntries update rest (update id (e, db)).2).1,
        (updateEntries update rest (update id (e, db)).2).2) := rfl

theorem readFor_same {id : Nat} {db db' : Mailbox}
    (h : SameView cat kind id db db') :
    readFor cat kind destination db' id =
      readFor cat kind destination db id := by
  unfold readFor
  rw [h.newlyRead]

theorem takenOff_same {id : Nat} {db db' : Mailbox}
    (h : SameView cat kind id db db') (locations : List LocalLabelId) :
    takenOff cat kind db' destination locations id =
      takenOff cat kind db destination locations id := by
  unfold takenOff
  rw [h.labelsOf]

theorem droppedBy_same {targets : List Nat} {db db' : Mailbox}
    (h : forall id, id ∈ targets -> SameView cat kind id db db')
    (x : LabelPair) :
    DroppedBy cat kind destination db' targets x ↔
      DroppedBy cat kind destination db targets x := by
  unfold DroppedBy Dropped
  constructor
  · rintro ⟨id, hid, hread, hhidden⟩
    rw [readFor_same (h id hid)] at hread
    exact ⟨id, hid, hread, hhidden⟩
  · rintro ⟨id, hid, hread, hhidden⟩
    rw [<- readFor_same (h id hid)] at hread
    exact ⟨id, hid, hread, hhidden⟩

theorem MovedAll.mem_members {locations : Nat -> List LocalLabelId}
    {targets : List Nat} {db db' : Mailbox}
    {entries : List (Nat × MoveEntry)}
    (h : MovedAll cat kind destination locations targets db entries db')
    {x : LabelPair} (hx : x ∈ removedIn entries ∨ x ∈ appliedIn entries) :
    exists id, id ∈ targets ∧ x.id ∈ cat.members kind id := by
  have hentry : exists entry, entry ∈ entries ∧
      x ∈ entry.2.removedLabels ++ entry.2.appliedLabels := by
    rcases hx with hx | hx
    · rcases List.mem_flatMap.mp hx with ⟨entry, hentry, hx⟩
      exact ⟨entry, hentry, List.mem_append_left _ hx⟩
    · rcases List.mem_flatMap.mp hx with ⟨entry, hentry, hx⟩
      exact ⟨entry, hentry, List.mem_append_right _ hx⟩
  rcases hentry with ⟨⟨id, e⟩, hentry, hx⟩
  refine ⟨id, ?_, h.within id e hentry x hx⟩
  rw [<- h.ids]
  exact List.mem_map_of_mem hentry

theorem MovedAll.cons {locations : Nat -> List LocalLabelId} {id : Nat}
    {targets : List Nat} (hnew : id ∉ targets) {db db' : Mailbox}
    {p : MoveEntry.Progress} {entries : List (Nat × MoveEntry)}
    (hhead : Moved cat kind id destination (locations id) db p)
    (htail : MovedAll cat kind destination locations targets p.2 entries db') :
    MovedAll cat kind destination locations (id :: targets) db
      ((id, p.1) :: entries) db' := by
  have hview : forall id', id' ∈ targets -> SameView cat kind id' db p.2 :=
    fun id' hid' => hhead.elsewhere.sameView (fun heq => hnew (heq ▸ hid'))
  have hdropped : forall x,
      DroppedBy cat kind destination db (id :: targets) x ↔
        Dropped cat kind destination db id x ∨
          DroppedBy cat kind destination p.2 targets x := by
    intro x
    rw [droppedBy_same hview]
    simp [DroppedBy]
  have hother : forall x : LabelPair, x.id ∈ cat.members kind id ->
      forall id', id' ∈ targets -> x.id ∉ cat.members kind id' :=
    fun x hx id' hid' hx' => hnew (members_unique hx hx' ▸ hid')
  refine ⟨by rw [List.map_cons, htail.ids], ?_, ?_, ?_, ?_, ?_⟩
  · intro id' e hentry
    rcases List.mem_cons.mp hentry with heq | hentry
    · cases heq
      exact hhead.within
    · exact htail.within id' e hentry
  · intro id' e hentry
    rcases List.mem_cons.mp hentry with heq | hentry
    · cases heq
      exact hhead.read
    · have hid' : id' ∈ targets := by
        rw [<- htail.ids]
        exact List.mem_map_of_mem hentry
      rw [htail.read id' e hentry, readFor_same (hview id' hid')]
  · intro m
    rw [htail.unread, hhead.unread, Finset.mem_sdiff, List.mem_toFinset,
      List.forall_mem_cons, and_assoc]
    refine and_congr_right (fun _ => and_congr_right (fun _ => ?_))
    refine forall_congr' (fun id' => forall_congr' (fun hid' => ?_))
    rw [readFor_same (hview id' hid')]
  · have hfirst : Recorded (db.messageLabels.filter (fun x =>
        ¬ DroppedBy cat kind destination db (id :: targets) x))
        (p.2.messageLabels.filter (fun x =>
          ¬ DroppedBy cat kind destination p.2 targets x))
        p.1.removedLabels p.1.appliedLabels := by
      have hbase : db.messageLabels.filter (fun x =>
          ¬ DroppedBy cat kind destination db (id :: targets) x) =
          (db.messageLabels.filter (fun x =>
            ¬ Dropped cat kind destination db id x)).filter (fun x =>
              ¬ DroppedBy cat kind destination p.2 targets x) := by
        rw [Finset.filter_filter]
        refine Finset.filter_congr ?_
        intro x _
        rw [hdropped, not_or]
      have hfree : forall x : LabelPair, x.id ∈ cat.members kind id ->
          ¬ DroppedBy cat kind destination p.2 targets x := by
        rintro x hx ⟨id', hid', hread, _⟩
        exact hother x hx id' hid' (readFor_subset hread).left
      rw [hbase]
      exact hhead.recorded.drop
        (fun x hx => hfree x (hhead.within x (List.mem_append_left _ hx)))
        (fun x hx => hfree x (hhead.within x (List.mem_append_right _ hx)))
    exact hfirst.trans htail.recorded
  · intro x hx hkept
    rw [hdropped, not_or] at hkept
    have happlied : x ∈ appliedIn ((id, p.1) :: entries) ↔
        x ∈ p.1.appliedLabels ∨ x ∈ appliedIn entries := by
      simp [appliedIn]
    rw [happlied, hhead.applied x hx hkept.left]
    simp only [List.exists_mem_cons_iff]
    refine or_congr Iff.rfl ?_
    by_cases hself : x.id ∈ cat.members kind id
    · constructor
      · intro htail'
        rcases htail.mem_members (Or.inr htail') with ⟨id', hid', hin⟩
        exact absurd hin (hother x hself id' hid')
      · rintro ⟨id', hid', _, hin, _⟩
        exact absurd hin (hother x hself id' hid')
    · have hin : x ∈ p.2.messageLabels :=
        (hhead.elsewhere.labels x hself).mpr hx
      rw [htail.applied x hin hkept.right]
      refine exists_congr (fun id' => and_congr_right (fun hid' => ?_))
      rw [takenOff_same (hview id' hid')]

theorem moveAll_spec (locations : Nat -> List LocalLabelId)
    {targets : List Nat} (hnodup : targets.Nodup) (db : Mailbox) :
    MovedAll cat kind destination locations targets db
      (updateEntries (fun id p => MoveEntry.moveTo cat kind id destination p)
        (freshEntries locations targets) db).1
      (updateEntries (fun id p => MoveEntry.moveTo cat kind id destination p)
        (freshEntries locations targets) db).2 := by
  induction targets generalizing db with
  | nil =>
      refine ⟨rfl, fun _ _ h => (nomatch h), fun _ _ h => (nomatch h), ?_, ?_,
        ?_⟩
      · intro m
        simp [freshEntries, updateEntries]
      · have hall : db.messageLabels.filter (fun x =>
            ¬ DroppedBy cat kind destination db [] x) = db.messageLabels := by
          rw [Finset.filter_true_of_mem]
          intro x _
          simp [DroppedBy]
        rw [hall]
        exact Recorded.refl _
      · intro x _ _
        simp [freshEntries, updateEntries, appliedIn]
  | cons id rest ih =>
      exact MovedAll.cons (List.nodup_cons.mp hnodup).left
        (moveTo_spec destination (locations id) db)
        (ih (List.nodup_cons.mp hnodup).right _)

/-!
# Undoing the record
-/

section Replay

variable {db : Mailbox} {x : LabelPair} {m : LocalMessageId}

theorem applyAll_spec (pairs : List LabelPair) (db : Mailbox) :
    (pairs.foldl (fun db pair => (db.applyLabel cat MailKind.message
        pair.label pair.id).2) db).messageLabels =
      db.messageLabels ∪ pairs.toFinset ∧
    (pairs.foldl (fun db pair => (db.applyLabel cat MailKind.message
        pair.label pair.id).2) db).unread = db.unread := by
  induction pairs generalizing db with
  | nil => simp
  | cons pair rest ih =>
      rw [List.foldl_cons]
      refine ⟨?_, (ih _).right⟩
      rw [(ih _).left, List.toFinset_cons, Finset.union_insert]
      simp [applyLabel, Catalog.members, Mailbox.pairs]

theorem removeAll_spec (pairs : List LabelPair) (db : Mailbox) :
    (pairs.foldl (fun db pair => (db.removeLabel cat MailKind.message
        pair.label pair.id).2) db).messageLabels =
      db.messageLabels \ pairs.toFinset ∧
    (pairs.foldl (fun db pair => (db.removeLabel cat MailKind.message
        pair.label pair.id).2) db).unread = db.unread := by
  induction pairs generalizing db with
  | nil => simp
  | cons pair rest ih =>
      rw [List.foldl_cons]
      refine ⟨?_, (ih _).right⟩
      rw [(ih _).left]
      ext x
      simp [removeLabel, Catalog.members, Mailbox.pairs, and_assoc]

theorem mem_markUnread (ids : List LocalMessageId) :
    x ∈ (db.markUnread cat ids).messageLabels ↔ x ∈ db.messageLabels ∧
      ¬ (x.id ∈ ids ∧ x.id ∉ db.unread ∧ cat.visible x.label = false) := by
  simp [markUnread, saveMessages, and_assoc]

theorem markUnread_unread (ids : List LocalMessageId) :
    m ∈ (db.markUnread cat ids).unread ↔ m ∈ db.unread ∨ m ∈ ids := by
  by_cases hm : m ∈ db.unread
  · simp [markUnread, hm]
  · simp [markUnread, hm]

/-- What undoing an entry does to the labels, if its messages are still read. -/
def undoEntry (cat : Catalog) (e : MoveEntry) : UndoEntry LabelPair where
  dropped := fun x => x.id ∈ e.markedRead ∧ cat.visible x.label = false
  removed := e.removedLabels
  applied := e.appliedLabels

theorem mem_revert_iff {e : MoveEntry} :
    x ∈ (e.revert cat db).messageLabels ↔
      ((x ∈ db.messageLabels ∧ ¬ (x.id ∈ e.markedRead ∧ x.id ∉ db.unread ∧
        cat.visible x.label = false)) ∨ x ∈ e.removedLabels) ∧
        x ∉ e.appliedLabels := by
  unfold revert
  dsimp only
  rw [(removeAll_spec _ _).left, (applyAll_spec _ _).left, Finset.mem_sdiff,
    Finset.mem_union, List.mem_toFinset, List.mem_toFinset]
  refine and_congr_left (fun _ => or_congr_left ?_)
  split
  · rename_i hnone
    simp [hnone]
  · exact mem_markUnread _

theorem mem_revert {e : MoveEntry}
    (hread : forall m, m ∈ e.markedRead -> m ∉ db.unread) :
    x ∈ (e.revert cat db).messageLabels ↔
      (undoEntry cat e).After (fun x => x ∈ db.messageLabels) x := by
  rw [mem_revert_iff]
  unfold UndoEntry.After undoEntry
  refine and_congr_left (fun _ => or_congr_left ?_)
  refine and_congr_right (fun _ => not_congr ?_)
  constructor
  · rintro ⟨hid, _, hhidden⟩
    exact ⟨hid, hhidden⟩
  · rintro ⟨hid, hhidden⟩
    exact ⟨hid, hread _ hid, hhidden⟩

theorem revert_unread (e : MoveEntry) :
    m ∈ (e.revert cat db).unread ↔ m ∈ db.unread ∨ m ∈ e.markedRead := by
  unfold revert
  dsimp only
  rw [(removeAll_spec _ _).right, (applyAll_spec _ _).right]
  split
  · rename_i hnone
    simp [hnone]
  · exact markUnread_unread _

theorem mem_revertAll {entries : List (Nat × MoveEntry)}
    (hread : forall entry, entry ∈ entries ->
      forall m, m ∈ entry.2.markedRead -> m ∉ db.unread)
    (hdisjoint : entries.Pairwise (fun entry entry' =>
      forall m, m ∈ entry.2.markedRead -> m ∉ entry'.2.markedRead)) :
    x ∈ (entries.foldl (fun db entry => entry.2.revert cat db)
        db).messageLabels ↔
      (entries.map (fun entry => undoEntry cat entry.2)).foldl
        (fun member e => e.After member) (fun x => x ∈ db.messageLabels)
        x := by
  induction entries generalizing db with
  | nil => rfl
  | cons entry rest ih =>
      have hfirst : (fun x => x ∈ (entry.2.revert cat db).messageLabels) =
          (undoEntry cat entry.2).After (fun x => x ∈ db.messageLabels) := by
        funext x
        exact propext (mem_revert (hread entry (List.mem_cons_self ..)))
      rw [List.foldl_cons, List.map_cons, List.foldl_cons, <- hfirst]
      refine ih ?_ hdisjoint.of_cons
      intro entry' hentry' m hm
      rw [revert_unread, not_or]
      refine ⟨hread entry' (List.mem_cons_of_mem _ hentry') m hm, ?_⟩
      intro hm'
      exact (List.pairwise_cons.mp hdisjoint).left entry' hentry' m hm' hm

end Replay

/-!
# Undoing the whole action
-/

section Undo

variable {locations : Nat -> List LocalLabelId} {targets : List Nat}
  {db db' : Mailbox} {entries entries' : List (Nat × MoveEntry)}
  {x : LabelPair} {m : LocalMessageId}

theorem MovedAll.mentions
    (h : MovedAll cat kind destination locations targets db entries db')
    {entry : Nat × MoveEntry} (hentry : entry ∈ entries)
    (hx : (undoEntry cat entry.2).Mentions x) :
    x.id ∈ cat.members kind entry.1 := by
  rcases hx with hx | hx
  · have hread := hx.left
    rw [h.read entry.1 entry.2 hentry] at hread
    exact (readFor_subset hread).left
  · exact h.within entry.1 entry.2 hentry x (List.mem_append.mpr hx)

theorem MovedAll.pairwise
    (h : MovedAll cat kind destination locations targets db entries db')
    (hnodup : targets.Nodup) :
    entries.Pairwise (fun entry entry' => forall m,
      m ∈ cat.members kind entry.1 -> m ∉ cat.members kind entry'.1) := by
  have hids : (entries.map Prod.fst).Nodup := by
    rw [h.ids]
    exact hnodup
  refine (List.pairwise_map.mp hids).imp ?_
  intro entry entry' hne m hm hm'
  exact hne (members_unique hm hm')

theorem MovedAll.mem_markedRead
    (h : MovedAll cat kind destination locations targets db entries db')
    (hperm : entries'.Perm entries) :
    (exists entry, entry ∈ entries' ∧ m ∈ entry.2.markedRead) ↔
      exists id, id ∈ targets ∧ m ∈ readFor cat kind destination db id := by
  constructor
  · rintro ⟨⟨id, e⟩, hentry, hm⟩
    have hin := hperm.mem_iff.mp hentry
    rw [h.read id e hin] at hm
    refine ⟨id, ?_, hm⟩
    rw [<- h.ids]
    exact List.mem_map_of_mem hin
  · rintro ⟨id, hid, hm⟩
    rw [<- h.ids] at hid
    rcases List.mem_map.mp hid with ⟨entry, hentry, rfl⟩
    refine ⟨entry, hperm.mem_iff.mpr hentry, ?_⟩
    rw [h.read entry.1 entry.2 hentry]
    exact hm

theorem MovedAll.replayed
    (h : MovedAll cat kind destination locations targets db entries db') :
    (x ∈ db'.messageLabels ∨ x ∈ removedIn entries) ∧
        x ∉ appliedIn entries ↔
      x ∈ db.messageLabels ∧ ¬ DroppedBy cat kind destination db targets x ∧
        x ∉ appliedIn entries := by
  rw [h.recorded.undo_iff, Finset.mem_filter, and_assoc]
  refine and_congr_right (fun hx => and_congr_right (fun hkept => ?_))
  refine not_congr ⟨fun hboth => hboth.right, fun happlied => ⟨?_, happlied⟩⟩
  by_contra hremoved
  exact (h.recorded.of_applied x happlied hremoved).left
    (Finset.mem_filter.mpr ⟨hx, hkept⟩)

theorem MovedAll.mem_reverted
    (h : MovedAll cat kind destination locations targets db entries db')
    (hnodup : targets.Nodup) (hperm : entries'.Perm entries) :
    x ∈ (entries'.foldl (fun db entry => entry.2.revert cat db)
        db').messageLabels ↔
      x ∈ db.messageLabels ∧ ¬ DroppedBy cat kind destination db targets x ∧
        x ∉ appliedIn entries := by
  have hread : forall entry, entry ∈ entries' ->
      forall m, m ∈ entry.2.markedRead -> m ∉ db'.unread := by
    intro entry hentry m hm hunread
    rcases (h.mem_markedRead hperm).mp ⟨entry, hentry, hm⟩ with
      ⟨id, hid, hin⟩
    exact ((h.unread m).mp hunread).right id hid hin
  have hmembers : entries'.Pairwise (fun entry entry' => forall m,
      m ∈ cat.members kind entry.1 -> m ∉ cat.members kind entry'.1) :=
    hperm.symm.pairwise (h.pairwise hnodup)
      (fun h m hm' hm => h m hm hm')
  have hmarked : entries'.Pairwise (fun entry entry' =>
      forall m, m ∈ entry.2.markedRead -> m ∉ entry'.2.markedRead) := by
    refine hmembers.imp_of_mem ?_
    intro entry entry' hentry hentry' hdisjoint m hm hm'
    rw [h.read entry.1 entry.2 (hperm.mem_iff.mp hentry)] at hm
    rw [h.read entry'.1 entry'.2 (hperm.mem_iff.mp hentry')] at hm'
    exact hdisjoint m (readFor_subset hm).left (readFor_subset hm').left
  have hmentions : (entries'.map (fun entry => undoEntry cat entry.2)).Pairwise
      (fun e e' => forall x, e.Mentions x -> ¬ e'.Mentions x) := by
    rw [List.pairwise_map]
    refine hmembers.imp_of_mem ?_
    intro entry entry' hentry hentry' hdisjoint x hx hx'
    exact hdisjoint x.id (h.mentions (hperm.mem_iff.mp hentry) hx)
      (h.mentions (hperm.mem_iff.mp hentry') hx')
  rw [mem_revertAll hread hmarked, UndoEntry.foldl_after hmentions,
    <- h.replayed]
  have hremoved : (exists e, e ∈ entries'.map
      (fun entry => undoEntry cat entry.2) ∧ x ∈ e.removed) ↔
      x ∈ removedIn entries := by
    simp [removedIn, undoEntry, hperm.mem_iff]
  have happlied : (forall e, e ∈ entries'.map
      (fun entry => undoEntry cat entry.2) -> x ∉ e.applied) ↔
      x ∉ appliedIn entries := by
    rw [List.forall_mem_map]
    simp [appliedIn, undoEntry, hperm.mem_iff]
  rw [hremoved, happlied]
  constructor
  · rintro ⟨hin | hin, hnot⟩
    · exact ⟨Or.inl hin.left, hnot⟩
    · exact ⟨Or.inr hin, hnot⟩
  · intro hundone
    refine ⟨?_, hundone.right⟩
    have hkept := (h.replayed.mp hundone).right.left
    rcases hundone.left with hin | hin
    · refine Or.inl ⟨hin, ?_⟩
      intro e he hdropped
      rcases List.mem_map.mp he with ⟨entry, hentry, rfl⟩
      rcases (h.mem_markedRead hperm).mp ⟨entry, hentry, hdropped.left⟩ with
        ⟨id, hid, hread⟩
      exact hkept ⟨id, hid, hread, hdropped.right⟩
    · exact Or.inr hin

end Undo

/-!
# Undoing with other actions
-/

section LabelAs

variable {db : Mailbox} {items items' : List LabelAsItem}
  {removed applied : List LabelPair} {x : LabelPair} {m : LocalMessageId}

/-- The items are a map from messages to the labels to put on and take off. -/
structure Undoes (items : List LabelAsItem)
    (removed applied : List LabelPair) : Prop where
  ids : (items.map LabelAsItem.id).Nodup
  added : forall x : LabelPair, (exists item, item ∈ items ∧
    x.id = item.id ∧ x.label ∈ item.added) ↔ x ∈ removed
  removed : forall x : LabelPair, (exists item, item ∈ items ∧
    x.id = item.id ∧ x.label ∈ item.removed) ↔ x ∈ applied

/-- The same item, with its labels in another order. -/
def SameItem (item item' : LabelAsItem) : Prop :=
  item.id = item'.id ∧ item.added.Perm item'.added ∧
    item.removed.Perm item'.removed

/-- The same maps, gone through in another order. -/
def Reordered (items items' : List LabelAsItem) : Prop :=
  exists middle, items.Perm middle ∧ List.Forall₂ SameItem middle items'

theorem Reordered.exists_iff {labels : LabelAsItem -> List LocalLabelId}
    (h : Reordered items items') (hlabels : forall item item',
      SameItem item item' -> (labels item).Perm (labels item')) :
    (exists item, item ∈ items' ∧ x.id = item.id ∧ x.label ∈ labels item) ↔
      exists item, item ∈ items ∧ x.id = item.id ∧ x.label ∈ labels item := by
  rcases h with ⟨middle, hperm, hsame⟩
  simp only [hperm.mem_iff]
  clear hperm
  induction hsame with
  | nil => simp
  | cons hitem _ ih =>
      simp only [List.exists_mem_cons_iff]
      rw [propext ih, hitem.left, (hlabels _ _ hitem).mem_iff]

theorem forall₂_sameItem_ids (h : List.Forall₂ SameItem items items') :
    items.map LabelAsItem.id = items'.map LabelAsItem.id := by
  induction h with
  | nil => rfl
  | cons hitem _ ih => rw [List.map_cons, List.map_cons, hitem.left, ih]

theorem Reordered.undoes (h : Reordered items items')
    (hundoes : Undoes items removed applied) :
    Undoes items' removed applied := by
  refine ⟨?_, ?_, ?_⟩
  · rcases h with ⟨middle, hperm, hsame⟩
    rw [<- forall₂_sameItem_ids hsame]
    exact (hperm.map LabelAsItem.id).nodup_iff.mp hundoes.ids
  · intro x
    rw [<- hundoes.added x]
    exact h.exists_iff (fun _ _ hitem => hitem.right.left)
  · intro x
    rw [<- hundoes.removed x]
    exact h.exists_iff (fun _ _ hitem => hitem.right.right)

theorem mem_labelsFor {pairs : List LabelPair} {l : LocalLabelId} :
    l ∈ labelsFor pairs m ↔ ⟨l, m⟩ ∈ pairs := by
  simp only [labelsFor, List.mem_dedup, List.mem_map, List.mem_filter,
    decide_eq_true_eq]
  constructor
  · rintro ⟨⟨l', m'⟩, ⟨hpair, rfl⟩, rfl⟩
    exact hpair
  · intro hpair
    exact ⟨⟨l, m⟩, ⟨hpair, rfl⟩, rfl⟩

theorem buildUndoStates_undoes (data : MoveData) :
    Undoes data.buildUndoStates.1 data.removedLabels data.appliedLabels := by
  have hitems : forall {pairs : List LabelPair}
      {labels : LabelAsItem -> List LocalLabelId} (x : LabelPair),
      (forall m, labels
        { id := m
          added := labelsFor data.removedLabels m
          removed := labelsFor data.appliedLabels m } = labelsFor pairs m) ->
      (x ∈ pairs -> x ∈ data.removedLabels ++ data.appliedLabels) ->
      ((exists item, item ∈ data.buildUndoStates.1 ∧ x.id = item.id ∧
        x.label ∈ labels item) ↔ x ∈ pairs) := by
    intro pairs labels x hlabels hsub
    constructor
    · rintro ⟨item, hitem, hid, hx⟩
      rcases List.mem_map.mp hitem with ⟨m, _, rfl⟩
      rw [hlabels, mem_labelsFor] at hx
      have hm : x.id = m := hid
      rw [<- hm] at hx
      exact hx
    · intro hx
      refine ⟨_, List.mem_map_of_mem (List.mem_dedup.mpr
        (List.mem_map_of_mem (hsub hx))), rfl, ?_⟩
      rw [hlabels, mem_labelsFor]
      exact hx
  refine ⟨?_, ?_, ?_⟩
  · unfold buildUndoStates
    rw [List.map_map]
    simpa [Function.comp_def] using List.nodup_dedup _
  · exact fun x => hitems x (fun _ => rfl) (List.mem_append_left _)
  · exact fun x => hitems x (fun _ => rfl) (List.mem_append_right _)

def itemEntry (item : LabelAsItem) : UndoEntry LabelPair where
  dropped := fun _ => False
  removed := item.added.map (fun l => ⟨l, item.id⟩)
  applied := item.removed.map (fun l => ⟨l, item.id⟩)

theorem mem_labelled {labels : List LocalLabelId} :
    x ∈ labels.map (fun l => (⟨l, m⟩ : LabelPair)) ↔
      x.id = m ∧ x.label ∈ labels := by
  rw [List.mem_map]
  constructor
  · rintro ⟨l, hl, rfl⟩
    exact ⟨rfl, hl⟩
  · rintro ⟨rfl, hl⟩
    exact ⟨x.label, hl, rfl⟩

theorem labelAs_spec (items : List LabelAsItem) (db : Mailbox) :
    (fun x => x ∈ (labelAs cat items db).messageLabels) =
      (items.map itemEntry).foldl (fun member e => e.After member)
        (fun x => x ∈ db.messageLabels) ∧
    (labelAs cat items db).unread = db.unread := by
  unfold labelAs
  induction items generalizing db with
  | nil => exact ⟨rfl, rfl⟩
  | cons item rest ih =>
      rw [List.foldl_cons, List.map_cons, List.foldl_cons]
      dsimp only
      rw [<- List.foldl_map (f := fun l => (⟨l, item.id⟩ : LabelPair))
          (g := fun db pair => (Mailbox.applyLabel cat db MailKind.message
            pair.label pair.id).2),
        <- List.foldl_map (f := fun l => (⟨l, item.id⟩ : LabelPair))
          (g := fun db pair => (Mailbox.removeLabel cat db MailKind.message
            pair.label pair.id).2)]
      refine ⟨?_, ?_⟩
      · rw [(ih _).left]
        congr 1
        funext x
        rw [(removeAll_spec _ _).left, (applyAll_spec _ _).left]
        simp [UndoEntry.After, itemEntry]
      · rw [(ih _).right, (removeAll_spec _ _).right,
          (applyAll_spec _ _).right]

theorem mem_labelAs (h : Undoes items removed applied) :
    x ∈ (labelAs cat items db).messageLabels ↔
      (x ∈ db.messageLabels ∨ x ∈ removed) ∧ x ∉ applied := by
  have hmentions : (items.map itemEntry).Pairwise
      (fun e e' => forall x, e.Mentions x -> ¬ e'.Mentions x) := by
    rw [List.pairwise_map]
    refine (List.pairwise_map.mp h.ids).imp ?_
    intro item item' hne x hx hx'
    have hid : forall item : LabelAsItem, (itemEntry item).Mentions x ->
        x.id = item.id := by
      rintro item (hx | hx | hx)
      · exact hx.elim
      · exact (mem_labelled.mp hx).left
      · exact (mem_labelled.mp hx).left
    exact hne ((hid item hx).symm.trans (hid item' hx'))
  have hfold : x ∈ (labelAs cat items db).messageLabels ↔
      (items.map itemEntry).foldl (fun member e => e.After member)
        (fun x => x ∈ db.messageLabels) x :=
    Iff.of_eq (congrFun (labelAs_spec items db).left x)
  have hremoved : (exists e, e ∈ items.map itemEntry ∧ x ∈ e.removed) ↔
      x ∈ removed := by
    rw [<- h.added x]
    simp [itemEntry, mem_labelled]
  have happlied : (exists e, e ∈ items.map itemEntry ∧ x ∈ e.applied) ↔
      x ∈ applied := by
    rw [<- h.removed x]
    simp [itemEntry, mem_labelled]
  rw [hfold, UndoEntry.foldl_after hmentions, hremoved, <- happlied]
  simp [itemEntry]

theorem mem_markAllUnread (ids : List LocalMessageId) :
    x ∈ (markAllUnread cat ids db).messageLabels ↔ x ∈ db.messageLabels ∧
      ¬ (x.id ∈ ids ∧ x.id ∉ db.unread ∧ cat.visible x.label = false) := by
  unfold markAllUnread
  induction ids generalizing db with
  | nil => simp
  | cons m rest ih =>
      rw [List.foldl_cons, ih, mem_markUnread, markUnread_unread]
      simp only [List.mem_cons]
      tauto

theorem markAllUnread_unread (ids : List LocalMessageId) :
    m ∈ (markAllUnread cat ids db).unread ↔ m ∈ db.unread ∨ m ∈ ids := by
  unfold markAllUnread
  induction ids generalizing db with
  | nil => simp
  | cons m' rest ih =>
      rw [List.foldl_cons, ih, markUnread_unread, List.mem_singleton,
        List.mem_cons, or_assoc]

end LabelAs

/-!
# Rebasing
-/

section Rebase

variable {db db' : Mailbox}

theorem mem_labelsOf_conversation {c : LocalConversationId}
    {l : LocalLabelId} :
    l ∈ db.labelsOf MailKind.conversation c ↔
      (c, l) ∈ db.conversationLabels := by
  simp only [labelsOf, Finset.mem_sort, Finset.mem_image, Finset.mem_filter]
  constructor
  · rintro ⟨⟨c', l'⟩, ⟨hpair, rfl⟩, rfl⟩
    exact hpair
  · intro hpair
    exact ⟨(c, l), ⟨hpair, rfl⟩, rfl⟩

theorem exclusiveLocations_same {id : Nat}
    (h : SameView cat kind id db db') :
    db'.exclusiveLocations cat kind id =
      db.exclusiveLocations cat kind id := by
  cases kind with
  | message =>
      have hlabels : (fun l => decide (⟨l, id⟩ ∈ db'.messageLabels)) =
          fun l => decide (⟨l, id⟩ ∈ db.messageLabels) := by
        funext l
        rw [decide_eq_decide]
        exact h.labels ⟨l, id⟩ (List.mem_singleton.mpr rfl)
      simp only [Mailbox.exclusiveLocations, messageLocation, hlabels]
  | conversation =>
      have hlabels : (fun l => decide ((id, l) ∈ db'.conversationLabels)) =
          fun l => decide ((id, l) ∈ db.conversationLabels) := by
        funext l
        rw [decide_eq_decide, <- mem_labelsOf_conversation, h.labelsOf,
          mem_labelsOf_conversation]
      simp only [Mailbox.exclusiveLocations, conversationLocations, hlabels]

theorem rebaseAll_eq (cat : Catalog) (kind : MailKind)
    (destination : Option LocalLabelId) (changeset : Nat -> Bool)
    {entries : List (Nat × MoveEntry)}
    (hnodup : (entries.map Prod.fst).Nodup)
    (hchanged : forall id, id ∈ entries.map Prod.fst ->
      changeset id = true) (db : Mailbox) :
    updateEntries (fun id p =>
        if changeset id then MoveEntry.rebase cat kind id destination p
        else p) entries db =
      updateEntries (fun id p => MoveEntry.moveTo cat kind id destination p)
        (freshEntries (db.exclusiveLocations cat kind)
          (entries.map Prod.fst)) db := by
  induction entries generalizing db with
  | nil => rfl
  | cons entry rest ih =>
      obtain ⟨id, e⟩ := entry
      rw [List.map_cons] at hnodup hchanged
      rw [List.map_cons]
      have hfresh : freshEntries (db.exclusiveLocations cat kind)
          (id :: rest.map Prod.fst) =
          (id, { originalLocations := db.exclusiveLocations cat kind id }) ::
            freshEntries (db.exclusiveLocations cat kind)
              (rest.map Prod.fst) := rfl
      rw [hfresh, updateEntries_cons, updateEntries_cons,
        if_pos (hchanged id (List.mem_cons_self ..)),
        ih (List.nodup_cons.mp hnodup).right
          (fun id' hid' => hchanged id' (List.mem_cons_of_mem _ hid'))]
      unfold MoveEntry.rebase
      dsimp only
      -- the entities that follow still are where they were
      have hlater : forall db' : Mailbox, Elsewhere cat kind id db db' ->
          freshEntries (db'.exclusiveLocations cat kind)
            (rest.map Prod.fst) =
          freshEntries (db.exclusiveLocations cat kind)
            (rest.map Prod.fst) := by
        intro db' helsewhere
        refine List.map_congr_left ?_
        intro id' hid'
        have hne : id' ≠ id :=
          fun heq => (List.nodup_cons.mp hnodup).left (heq ▸ hid')
        rw [exclusiveLocations_same (helsewhere.sameView hne)]
      rw [hlater _ (moveTo_spec destination _ db).elsewhere]

end Rebase

/-!
# When a move can be undone
-/

/-- Every message has its labels and its unread flag again. -/
structure Restored (db db' : Mailbox) : Prop where
  labels : db'.messageLabels = db.messageLabels
  unread : db'.unread = db.unread

/--
No message has the label of the destination and is taken out of it, and no
label of a message that a move to the trash marks as read is hidden.
-/
structure Undoable (cat : Catalog) (kind : MailKind) (db : Mailbox)
    (destination : Option LocalLabelId) (targets : List Nat) : Prop where
  left : forall id, id ∈ targets -> forall m, m ∈ cat.members kind id ->
    forall d, destination = some d -> ⟨d, m⟩ ∈ db.messageLabels ->
      d ∉ takenOff cat kind db destination
        (db.exclusiveLocations cat kind id) id
  visible : destination = some cat.trash -> forall id, id ∈ targets ->
    forall m, m ∈ db.newlyRead cat kind id ->
      forall l, ⟨l, m⟩ ∈ db.messageLabels -> cat.visible l = true

/-- A move is undone by a revert, by other actions, and after a rebase. -/
structure Undone (cat : Catalog) (kind : MailKind) (db : Mailbox)
    (destination : Option LocalLabelId) (targets : List Nat) : Prop where
  reverted : forall entries,
    entries.Perm ((new cat kind db destination targets).moveTo cat kind
      db).1.entries ->
    Restored db (revertLocal cat ⟨destination, entries⟩
      ((new cat kind db destination targets).moveTo cat kind db).2)
  undone : forall entries items,
    entries.Perm ((new cat kind db destination targets).moveTo cat kind
      db).1.entries ->
    Reordered (buildUndoStates ⟨destination, entries⟩).1 items ->
    Restored db (markAllUnread cat
      (buildUndoStates ⟨destination, entries⟩).2
      (labelAs cat items
        ((new cat kind db destination targets).moveTo cat kind db).2))
  rebased : forall stale changeset entries,
    stale.map Prod.fst = targets.dedup ->
    (forall id, id ∈ targets -> changeset id = true) ->
    entries.Perm (rebaseLocal cat kind changeset ⟨destination, stale⟩
      db).1.entries ->
    Restored db (revertLocal cat ⟨destination, entries⟩
      (rebaseLocal cat kind changeset ⟨destination, stale⟩ db).2)

section Exact

variable {targets : List Nat} {db db' final : Mailbox}
  {entries entries' : List (Nat × MoveEntry)}

theorem MovedAll.kept_iff
    (h : MovedAll cat kind destination (db.exclusiveLocations cat kind)
      targets db entries db') :
    (forall x, x ∈ db.messageLabels ->
      ¬ DroppedBy cat kind destination db targets x ∧
        x ∉ appliedIn entries) ↔
      Undoable cat kind db destination targets := by
  constructor
  · intro hkept
    refine ⟨?_, ?_⟩
    · intro id hid m hm d hd hin htaken
      have hpair := hkept ⟨d, m⟩ hin
      exact hpair.right ((h.applied _ hin hpair.left).mpr
        ⟨id, hid, hd, hm, htaken⟩)
    · intro htrash id hid m hm l hin
      by_contra hhidden
      refine (hkept ⟨l, m⟩ hin).left ⟨id, hid, ?_, ?_⟩
      · rw [readFor, if_pos htrash]
        exact hm
      · rwa [Bool.not_eq_true] at hhidden
  · intro hundoable x hx
    have hdropped : ¬ DroppedBy cat kind destination db targets x := by
      rintro ⟨id, hid, hread, hhidden⟩
      unfold readFor at hread
      split at hread
      · rename_i htrash
        have hvisible := hundoable.visible htrash id hid x.id hread x.label hx
        rw [hhidden] at hvisible
        cases hvisible
      · cases hread
    refine ⟨hdropped, ?_⟩
    intro happlied
    rcases (h.applied x hx hdropped).mp happlied with
      ⟨id, hid, hd, hm, htaken⟩
    exact hundoable.left id hid x.id hm x.label hd hx htaken

theorem MovedAll.restored_iff
    (h : MovedAll cat kind destination (db.exclusiveLocations cat kind)
      targets db entries db')
    (hlabels : forall x, x ∈ final.messageLabels ↔ x ∈ db.messageLabels ∧
      ¬ DroppedBy cat kind destination db targets x ∧
        x ∉ appliedIn entries)
    (hunread : forall m, m ∈ final.unread ↔ m ∈ db'.unread ∨
      exists id, id ∈ targets ∧ m ∈ readFor cat kind destination db id) :
    Restored db final ↔ Undoable cat kind db destination targets := by
  rw [<- h.kept_iff]
  constructor
  · intro hrestored x hx
    rw [<- hrestored.labels, hlabels] at hx
    exact hx.right
  · intro hkept
    refine ⟨?_, ?_⟩
    · ext x
      rw [hlabels]
      exact ⟨fun hx => hx.left, fun hx => ⟨hx, hkept x hx⟩⟩
    · ext m
      rw [hunread, h.unread]
      constructor
      · rintro (hm | ⟨id, _, hm⟩)
        · exact hm.left
        · exact (readFor_subset hm).right
      · intro hm
        by_cases hread : exists id, id ∈ targets ∧
            m ∈ readFor cat kind destination db id
        · exact Or.inr hread
        · exact Or.inl ⟨hm, fun id hid hin => hread ⟨id, hid, hin⟩⟩

theorem MovedAll.undone_iff
    (h : MovedAll cat kind destination (db.exclusiveLocations cat kind)
      targets db entries db')
    (hperm : entries'.Perm entries) {items : List LabelAsItem}
    (hitems : Reordered (buildUndoStates ⟨destination, entries'⟩).1 items) :
    Restored db (markAllUnread cat
        (buildUndoStates ⟨destination, entries'⟩).2
        (labelAs cat items db')) ↔
      Undoable cat kind db destination targets := by
  have hundoes := hitems.undoes (buildUndoStates_undoes _)
  have hread : forall m, m ∈ (buildUndoStates ⟨destination, entries'⟩).2 ↔
      exists id, id ∈ targets ∧ m ∈ readFor cat kind destination db id := by
    intro m
    rw [<- h.mem_markedRead hperm]
    exact List.mem_flatMap
  have hlabelled : forall x, x ∈ (labelAs cat items db').messageLabels ↔
      x ∈ db.messageLabels ∧ ¬ DroppedBy cat kind destination db targets x ∧
        x ∉ appliedIn entries := by
    intro x
    have hremoved : x ∈ removedLabels ⟨destination, entries'⟩ ↔
        x ∈ removedIn entries := by
      simp [removedLabels, removedIn, hperm.mem_iff]
    have happlied : x ∈ appliedLabels ⟨destination, entries'⟩ ↔
        x ∈ appliedIn entries := by
      simp [appliedLabels, appliedIn, hperm.mem_iff]
    rw [mem_labelAs hundoes, <- h.replayed, hremoved, happlied]
  refine h.restored_iff ?_ ?_
  · intro x
    rw [mem_markAllUnread, hlabelled]
    refine ⟨fun hx => hx.left, fun hx => ⟨hx, ?_⟩⟩
    rintro ⟨hid, _, hhidden⟩
    rcases (hread x.id).mp hid with ⟨id, hin, hm⟩
    exact hx.right.left ⟨id, hin, hm, hhidden⟩
  · intro m
    rw [markAllUnread_unread, (labelAs_spec items db').right, hread]

end Exact

/-!
# A message that stays in the inbox
-/

def folderRow (localId : LocalLabelId) (remoteId : String) : LabelRow where
  localId := localId
  remoteId := some remoteId
  labelType := LabelType.system

/-- The inbox, the trash, spam and almost all mail. -/
def folders : LabelTable :=
  LabelTable.ofRows [folderRow 1 "0", folderRow 2 "3", folderRow 3 "4",
    folderRow 4 "15"] 5 (by decide) (by decide) (by decide)

def oneMessage : Catalog where
  labels := folders
  messages := [⟨1, 1⟩]
  trash := 2
  spam := 3
  almostAllMail := 4
  ids_unique := by decide
  trash_id := by decide
  spam_id := by decide
  almostAllMail_id := by decide
  system_type := by decide

end MoveData

end Actions
end MailClient
