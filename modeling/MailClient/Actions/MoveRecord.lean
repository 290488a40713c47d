import MailClient.Actions.Move

/-!
# What a move records

One entry of a move is a sequence of labels taken off and put on.  Its record
describes the change of the labels, it is about the messages of its entity
only, and a pair of a label and a message that was there before is recorded as
applied in one case: when the destination is one of the labels taken off.
-/

namespace MailClient
namespace Actions

open Foundation
open Labels (LabelRow LabelType fromOptRid)

variable {cat : Catalog} {kind : MailKind} {id : Nat} {l : LocalLabelId}

namespace Mailbox

variable {db : Mailbox}

theorem pairs_filter {ids : List LocalMessageId} {p : LabelPair -> Bool} :
    pairs l (ids.filter (fun m => p ⟨l, m⟩)) = (pairs l ids).filter p := by
  unfold pairs
  rw [List.filter_map]
  rfl

end Mailbox

open Mailbox

namespace MoveEntry

variable {p : Progress}

/-!
# Single changes
-/

theorem takeOff_labels :
    (takeOff cat kind id l p).2.messageLabels =
      p.2.messageLabels \ (pairs l (cat.members kind id)).toFinset := rfl

theorem takeOff_removed :
    (takeOff cat kind id l p).1.removedLabels = p.1.removedLabels ++
      (pairs l (cat.members kind id)).filter
        (fun x => x ∈ p.2.messageLabels) := by
  rw [<- pairs_filter]
  rfl

theorem takeOff_applied :
    (takeOff cat kind id l p).1.appliedLabels = p.1.appliedLabels := rfl

theorem putOn_labels :
    (putOn cat kind id l p).2.messageLabels =
      p.2.messageLabels ∪ (pairs l (cat.members kind id)).toFinset := rfl

theorem putOn_applied :
    (putOn cat kind id l p).1.appliedLabels = p.1.appliedLabels ++
      (pairs l (cat.members kind id)).filter
        (fun x => x ∉ p.2.messageLabels) := by
  rw [<- pairs_filter]
  rfl

theorem putOn_removed :
    (putOn cat kind id l p).1.removedLabels = p.1.removedLabels := rfl

/-- A property of every stage of a move. -/
structure Stable (cat : Catalog) (kind : MailKind) (id : Nat)
    (P : Progress -> Prop) : Prop where
  takeOff : forall l p, P p -> P (takeOff cat kind id l p)
  putOn : forall l p, P p -> P (putOn cat kind id l p)

theorem Stable.foldl_takeOff {P : Progress -> Prop}
    (h : Stable cat kind id P) (ls : List LocalLabelId) {p : Progress}
    (hp : P p) : P (ls.foldl (fun p l => MoveEntry.takeOff cat kind id l p) p) := by
  induction ls generalizing p with
  | nil => exact hp
  | cons l rest ih => exact ih (h.takeOff l p hp)

theorem Stable.leaveSource {P : Progress -> Prop} (h : Stable cat kind id P)
    (source : LocalLabelId) (hp : P p) :
    P (leaveSource cat kind id source p) := by
  have hleft : P (if isLeft cat source then
      MoveEntry.takeOff cat kind id source p else p) := by
    split
    · exact h.takeOff source p hp
    · exact hp
  unfold MoveEntry.leaveSource
  dsimp only
  split
  · exact h.putOn _ _ hleft
  · exact hleft

theorem Stable.leave {P : Progress -> Prop} (h : Stable cat kind id P)
    (destination : Option LocalLabelId) (hremoved : p.1.removedLabels = [])
    (hp : P p) : P (leave cat kind id destination p) := by
  have hreset : ({ p.1 with removedLabels := [] } : MoveEntry) = p.1 := by
    rw [<- hremoved]
  unfold MoveEntry.leave
  split
  · unfold removeAllRemovableLabels
    rw [hreset]
    exact h.foldl_takeOff _ hp
  · split
    · exact hp
    · have hsources : forall (sources : List LocalLabelId) {p : Progress},
          P p -> P (sources.foldl
            (fun p source => MoveEntry.leaveSource cat kind id source p) p) := by
        intro sources
        induction sources with
        | nil => exact fun hp => hp
        | cons source rest ih =>
            intro p hp
            exact ih (h.leaveSource source hp)
      exact hsources _ hp

theorem Stable.arrive {P : Progress -> Prop} (h : Stable cat kind id P)
    (destination : Option LocalLabelId) (hp : P p) :
    P (arrive cat kind id destination p) := by
  unfold MoveEntry.arrive
  split
  · exact hp
  · dsimp only
    split
    · exact h.foldl_takeOff _ (h.putOn _ p hp)
    · exact h.putOn _ p hp

/-!
# The record of a move
-/

theorem stable_recorded (base : Finset LabelPair) :
    Stable cat kind id (fun p =>
      Recorded base p.2.messageLabels p.1.removedLabels
        p.1.appliedLabels) := by
  constructor
  · intro l p hp
    rw [takeOff_labels, takeOff_removed, takeOff_applied]
    exact hp.remove _
  · intro l p hp
    rw [putOn_labels, putOn_removed, putOn_applied]
    exact hp.apply _

/-- The record is about messages of the entity. -/
def Within (cat : Catalog) (kind : MailKind) (id : Nat) (p : Progress) :
    Prop :=
  forall x, x ∈ p.1.removedLabels ++ p.1.appliedLabels ->
    x.id ∈ cat.members kind id

theorem stable_within : Stable cat kind id (Within cat kind id) := by
  constructor
  · intro l p hp x hx
    rw [takeOff_removed, takeOff_applied] at hx
    simp only [List.mem_append, List.mem_filter, mem_pairs] at hx
    rcases hx with (hx | hx) | hx
    · exact hp x (List.mem_append_left _ hx)
    · exact hx.left.right
    · exact hp x (List.mem_append_right _ hx)
  · intro l p hp x hx
    rw [putOn_removed, putOn_applied] at hx
    simp only [List.mem_append, List.mem_filter, mem_pairs] at hx
    rcases hx with hx | hx | hx
    · exact hp x (List.mem_append_left _ hx)
    · exact hp x (List.mem_append_right _ hx)
    · exact hx.left.right

theorem foldl_takeOff_applied (ls : List LocalLabelId) :
    (ls.foldl (fun p l => takeOff cat kind id l p) p).1.appliedLabels =
      p.1.appliedLabels := by
  induction ls generalizing p with
  | nil => rfl
  | cons l rest ih =>
      rw [List.foldl_cons, ih, takeOff_applied]

theorem mem_foldl_takeOff (ls : List LocalLabelId) {x : LabelPair} :
    x ∈ (ls.foldl (fun p l => takeOff cat kind id l p) p).2.messageLabels ↔
      x ∈ p.2.messageLabels ∧
        ¬ (x.label ∈ ls ∧ x.id ∈ cat.members kind id) := by
  induction ls generalizing p with
  | nil => simp
  | cons l rest ih =>
      rw [List.foldl_cons, ih, takeOff_labels, Finset.mem_sdiff,
        List.mem_toFinset, mem_pairs, List.mem_cons]
      tauto

/-!
# Labels taken off before the destination is put on
-/

def takenOff (cat : Catalog) (kind : MailKind) (db : Mailbox)
    (destination : Option LocalLabelId) (locations : List LocalLabelId)
    (id : Nat) : List LocalLabelId :=
  if destination = some cat.trash ∨ destination = some cat.spam then
    (db.labelsOf kind id).filter (fun l => ¬ cat.nonRemovable l)
  else if destination.any cat.isCategory then
    []
  else
    locations.filter (isLeft cat)

theorem isLeft_almostAllMail (cat : Catalog) :
    isLeft cat cat.almostAllMail = false := by
  rcases Option.map_eq_some_iff.mp cat.almostAllMail_id with
    ⟨found, hfind, hfound⟩
  have hmem := List.mem_of_find?_eq_some hfind
  have hrid : found.remoteId = some "15" := by
    simpa using List.find?_some hfind
  unfold isLeft
  rw [Option.any_eq_false_iff_get]
  intro hsome
  have hrow := Option.some_get hsome
  have hrowMem := List.mem_of_find?_eq_some hrow.symm
  have hrowId : ((cat.labelRow cat.almostAllMail).get hsome).localId =
      cat.almostAllMail := by
    simpa using List.find?_some hrow.symm
  have hsame : (cat.labelRow cat.almostAllMail).get hsome = found :=
    List.inj_on_of_nodup_map cat.labels.ids_unique hrowMem hmem
      (hrowId.trans hfound.symm)
  have hsystem : found.labelType = LabelType.system :=
    cat.system_type found hmem (by rw [hrid]; decide)
  rw [hsame]
  simp [Catalog.isMovableOutOfFolder, Catalog.isSnoozed, hsystem, hrid]
  decide

theorem mem_leaveSource {source : LocalLabelId} {x : LabelPair} :
    x ∈ (leaveSource cat kind id source p).2.messageLabels ↔
      (x ∈ p.2.messageLabels ∧ ¬ (isLeft cat source = true ∧
        x.label = source ∧ x.id ∈ cat.members kind id)) ∨
      ((source = cat.trash ∨ source = cat.spam) ∧
        x.label = cat.almostAllMail ∧ x.id ∈ cat.members kind id) := by
  have hleft : x ∈ (if isLeft cat source then takeOff cat kind id source p
      else p).2.messageLabels ↔ x ∈ p.2.messageLabels ∧
        ¬ (isLeft cat source = true ∧ x.label = source ∧
          x.id ∈ cat.members kind id) := by
    split
    · rename_i h
      rw [takeOff_labels, Finset.mem_sdiff, List.mem_toFinset, mem_pairs]
      simp [h]
    · rename_i h
      simp [h]
  unfold leaveSource
  dsimp only
  split
  · rename_i h
    rw [putOn_labels, Finset.mem_union, hleft, List.mem_toFinset, mem_pairs]
    simp [h]
  · rename_i h
    rw [hleft]
    simp [h]

theorem leaveSource_applied {source : LocalLabelId} {x : LabelPair}
    (hx : x.label = cat.almostAllMail -> x ∈ p.2.messageLabels) :
    x ∈ (leaveSource cat kind id source p).1.appliedLabels ↔
      x ∈ p.1.appliedLabels := by
  have hleft : (if isLeft cat source then takeOff cat kind id source p
      else p).1.appliedLabels = p.1.appliedLabels := by
    split
    · exact takeOff_applied
    · rfl
  have hkept : x.label = cat.almostAllMail ->
      x ∈ (if isLeft cat source then takeOff cat kind id source p
        else p).2.messageLabels := by
    intro hlabel
    split
    · rename_i h
      rw [takeOff_labels, Finset.mem_sdiff, List.mem_toFinset, mem_pairs]
      refine ⟨hx hlabel, fun hoff => ?_⟩
      rw [<- hoff.left, hlabel, isLeft_almostAllMail] at h
      cases h
    · exact hx hlabel
  unfold leaveSource
  dsimp only
  split
  · rw [putOn_applied, hleft, List.mem_append, List.mem_filter, mem_pairs]
    simp only [decide_eq_true_eq]
    constructor
    · rintro (h | ⟨⟨hlabel, _⟩, hout⟩)
      · exact h
      · exact absurd (hkept hlabel) hout
    · exact Or.inl
  · rw [hleft]

theorem foldl_leaveSource (sources : List LocalLabelId) {x : LabelPair}
    (hx : x.label = cat.almostAllMail -> x ∈ p.2.messageLabels) :
    (x ∈ (sources.foldl (fun p source => leaveSource cat kind id source p)
        p).2.messageLabels ↔
      x ∈ p.2.messageLabels ∧ ¬ (x.label ∈ sources.filter (isLeft cat) ∧
        x.id ∈ cat.members kind id)) ∧
    (x ∈ (sources.foldl (fun p source => leaveSource cat kind id source p)
        p).1.appliedLabels ↔ x ∈ p.1.appliedLabels) := by
  induction sources generalizing p with
  | nil => simp
  | cons source rest ih =>
      have hnotLeft : x.label = cat.almostAllMail ->
          isLeft cat x.label = false := by
        intro hlabel
        rw [hlabel]
        exact isLeft_almostAllMail cat
      have hstep : x ∈ (leaveSource cat kind id source p).2.messageLabels ↔
          x ∈ p.2.messageLabels ∧ ¬ (isLeft cat source = true ∧
            x.label = source ∧ x.id ∈ cat.members kind id) := by
        rw [mem_leaveSource]
        constructor
        · rintro (h | ⟨_, hlabel, _⟩)
          · exact h
          · refine ⟨hx hlabel, ?_⟩
            rintro ⟨hleft, hsource, _⟩
            rw [<- hsource, hnotLeft hlabel] at hleft
            cases hleft
        · exact Or.inl
      have hnext : x.label = cat.almostAllMail ->
          x ∈ (leaveSource cat kind id source p).2.messageLabels := by
        intro hlabel
        refine hstep.mpr ⟨hx hlabel, ?_⟩
        rintro ⟨hleft, hsource, _⟩
        rw [<- hsource, hnotLeft hlabel] at hleft
        cases hleft
      rw [List.foldl_cons]
      refine ⟨?_, ?_⟩
      · rw [(ih hnext).left, hstep]
        simp only [List.mem_filter, List.mem_cons]
        constructor
        · rintro ⟨⟨hin, hfirst⟩, hrest⟩
          refine ⟨hin, ?_⟩
          rintro ⟨⟨rfl | hmem, hleft⟩, hid⟩
          · exact hfirst ⟨hleft, rfl, hid⟩
          · exact hrest ⟨⟨hmem, hleft⟩, hid⟩
        · rintro ⟨hin, hnone⟩
          refine ⟨⟨hin, ?_⟩, ?_⟩
          · rintro ⟨hleft, hsource, hid⟩
            exact hnone ⟨⟨Or.inl hsource, hsource ▸ hleft⟩, hid⟩
          · rintro ⟨⟨hmem, hleft⟩, hid⟩
            exact hnone ⟨⟨Or.inr hmem, hleft⟩, hid⟩
      · rw [(ih hnext).right, leaveSource_applied hx]

theorem leave_of_mem {destination : Option LocalLabelId} {x : LabelPair}
    (hx : x ∈ p.2.messageLabels) :
    (x ∈ (leave cat kind id destination p).2.messageLabels ↔
      ¬ (x.label ∈ takenOff cat kind p.2 destination p.1.originalLocations
        id ∧ x.id ∈ cat.members kind id)) ∧
    (x ∈ (leave cat kind id destination p).1.appliedLabels ↔
      x ∈ p.1.appliedLabels) := by
  unfold leave takenOff
  split
  · unfold removeAllRemovableLabels
    rw [mem_foldl_takeOff, foldl_takeOff_applied]
    simp [hx]
  · split
    · simp [hx]
    · refine ⟨?_, (foldl_leaveSource _ (fun _ => hx)).right⟩
      rw [(foldl_leaveSource _ (fun _ => hx)).left]
      simp [hx]

theorem arrive_leave_applied {destination : Option LocalLabelId}
    {x : LabelPair} (hfresh : p.1.appliedLabels = [])
    (hx : x ∈ p.2.messageLabels) :
    x ∈ (arrive cat kind id destination
        (leave cat kind id destination p)).1.appliedLabels ↔
      destination = some x.label ∧ x.id ∈ cat.members kind id ∧
        x.label ∈ takenOff cat kind p.2 destination p.1.originalLocations
          id := by
  have hput : forall d, destination = some d ->
      (x ∈ (putOn cat kind id d
        (leave cat kind id destination p)).1.appliedLabels ↔
      destination = some x.label ∧ x.id ∈ cat.members kind id ∧
        x.label ∈ takenOff cat kind p.2 destination p.1.originalLocations
          id) := by
    intro d hd
    rw [putOn_applied, List.mem_append, (leave_of_mem hx).right, hfresh,
      List.mem_filter, mem_pairs]
    simp only [List.not_mem_nil, false_or, decide_eq_true_eq,
      (leave_of_mem hx).left, not_not]
    rw [hd, Option.some.injEq]
    tauto
  unfold arrive
  split
  · rw [(leave_of_mem hx).right, hfresh]
    simp
  · rename_i d
    dsimp only
    split
    · rw [foldl_takeOff_applied]
      exact hput d rfl
    · exact hput d rfl

/-!
# One entry
-/

/-- The messages that a move marks as read. -/
def readFor (cat : Catalog) (kind : MailKind)
    (destination : Option LocalLabelId) (db : Mailbox) (id : Nat) :
    List LocalMessageId :=
  if destination = some cat.trash then db.newlyRead cat kind id else []

/-- A label that a message loses when the move saves it. -/
def Dropped (cat : Catalog) (kind : MailKind)
    (destination : Option LocalLabelId) (db : Mailbox) (id : Nat)
    (x : LabelPair) : Prop :=
  x.id ∈ readFor cat kind destination db id ∧ cat.visible x.label = false

instance (destination : Option LocalLabelId) (db : Mailbox) :
    DecidablePred (Dropped cat kind destination db id) :=
  fun _ => inferInstanceAs (Decidable (_ ∧ _))

/-- What an entity's own move does not touch. -/
structure Elsewhere (cat : Catalog) (kind : MailKind) (id : Nat)
    (db db' : Mailbox) : Prop where
  labels : forall x : LabelPair, x.id ∉ cat.members kind id ->
    (x ∈ db'.messageLabels ↔ x ∈ db.messageLabels)
  unread : forall m, m ∉ cat.members kind id ->
    (m ∈ db'.unread ↔ m ∈ db.unread)
  conversations : kind = MailKind.conversation -> forall c, c ≠ id ->
    (forall l, (c, l) ∈ db'.conversationLabels ↔
      (c, l) ∈ db.conversationLabels) ∧
    db'.numUnread c = db.numUnread c

theorem stable_elsewhere (db : Mailbox) :
    Stable cat kind id (fun p => Elsewhere cat kind id db p.2) := by
  constructor
  · intro l p hp
    refine ⟨?_, hp.unread, ?_⟩
    · intro x hx
      rw [takeOff_labels, Finset.mem_sdiff, List.mem_toFinset, mem_pairs,
        hp.labels x hx]
      simp [hx]
    · rintro rfl c hc
      have hold := hp.conversations rfl c hc
      refine ⟨?_, hold.right⟩
      intro l'
      rw [<- hold.left l']
      simp [takeOff, removeLabel, hc]
  · intro l p hp
    refine ⟨?_, hp.unread, ?_⟩
    · intro x hx
      rw [putOn_labels, Finset.mem_union, List.mem_toFinset, mem_pairs,
        hp.labels x hx]
      simp [hx]
    · rintro rfl c hc
      have hold := hp.conversations rfl c hc
      refine ⟨?_, hold.right⟩
      intro l'
      rw [<- hold.left l']
      simp [putOn, applyLabel, hc]

theorem newlyRead_subset {db : Mailbox} {m : LocalMessageId}
    (hm : m ∈ db.newlyRead cat kind id) :
    m ∈ cat.members kind id ∧ m ∈ db.unread := by
  unfold newlyRead at hm
  split at hm
  · simpa [Catalog.members] using hm
  · split at hm
    · cases hm
    · simpa [Catalog.members] using hm

theorem readFor_subset {destination : Option LocalLabelId} {db : Mailbox}
    {m : LocalMessageId} (hm : m ∈ readFor cat kind destination db id) :
    m ∈ cat.members kind id ∧ m ∈ db.unread := by
  unfold readFor at hm
  split at hm
  · exact newlyRead_subset hm
  · cases hm

/-- The state of an entry after the messages have been marked as read. -/
structure MarkedRead (cat : Catalog) (kind : MailKind) (id : Nat)
    (destination : Option LocalLabelId) (e : MoveEntry) (db : Mailbox)
    (p : Progress) : Prop where
  entry : p.1 = { e with markedRead := readFor cat kind destination db id }
  labels : p.2.messageLabels = db.messageLabels.filter (fun x =>
    ¬ Dropped cat kind destination db id x)
  unread : p.2.unread = db.unread \
    (readFor cat kind destination db id).toFinset
  conversationLabels : p.2.conversationLabels = db.conversationLabels
  elsewhere : Elsewhere cat kind id db p.2

theorem markedReadFor_spec (destination : Option LocalLabelId)
    {e : MoveEntry} (hfresh : e.markedRead = []) (db : Mailbox) :
    MarkedRead cat kind id destination e db
      (markedReadFor cat kind id destination (e, db)) := by
  unfold markedReadFor
  split
  · rename_i htrash
    have hread : readFor cat kind destination db id =
        db.newlyRead cat kind id := by
      rw [readFor, if_pos htrash]
    refine ⟨by rw [hread]; rfl, ?_, by rw [hread]; rfl, rfl, ?_⟩
    · change db.messageLabels.filter _ = _
      refine Finset.filter_congr ?_
      intro x _
      simp [Dropped, hread]
    · refine ⟨?_, ?_, ?_⟩
      · intro x hx
        have hnot : x.id ∉ db.newlyRead cat kind id :=
          fun hmem => hx (newlyRead_subset hmem).left
        change x ∈ db.messageLabels.filter _ ↔ _
        simp [hnot]
      · intro m hm
        have hnot : m ∉ db.newlyRead cat kind id :=
          fun hmem => hm (newlyRead_subset hmem).left
        change m ∈ db.unread \ _ ↔ _
        simp [hnot]
      · rintro rfl c hc
        refine ⟨fun _ => Iff.rfl, ?_⟩
        simp [markRead, hc]
  · rename_i hother
    have hread : readFor cat kind destination db id = [] := by
      rw [readFor, if_neg hother]
    refine ⟨?_, ?_, ?_, rfl, ?_⟩
    · rw [hread, <- hfresh]
    · rw [Finset.filter_true_of_mem]
      intro x _
      simp [Dropped, hread]
    · simp [hread]
    · exact ⟨fun _ _ => Iff.rfl, fun _ _ => Iff.rfl,
        fun _ _ _ => ⟨fun _ => Iff.rfl, rfl⟩⟩

/-- The effect of moving one entity. -/
structure Moved (cat : Catalog) (kind : MailKind) (id : Nat)
    (destination : Option LocalLabelId) (locations : List LocalLabelId)
    (db : Mailbox) (p : Progress) : Prop where
  within : Within cat kind id p
  read : p.1.markedRead = readFor cat kind destination db id
  unread : p.2.unread = db.unread \
    (readFor cat kind destination db id).toFinset
  recorded : Recorded (db.messageLabels.filter (fun x =>
      ¬ Dropped cat kind destination db id x)) p.2.messageLabels
    p.1.removedLabels p.1.appliedLabels
  applied : forall x, x ∈ db.messageLabels ->
    ¬ Dropped cat kind destination db id x ->
    (x ∈ p.1.appliedLabels ↔ destination = some x.label ∧
      x.id ∈ cat.members kind id ∧
      x.label ∈ takenOff cat kind db destination locations id)
  elsewhere : Elsewhere cat kind id db p.2

theorem takenOff_markedRead {destination : Option LocalLabelId}
    {locations : List LocalLabelId} {e : MoveEntry} {db : Mailbox}
    (h : MarkedRead cat kind id destination e db p) {x : LabelPair}
    (hx : x ∈ p.2.messageLabels) (hid : x.id ∈ cat.members kind id) :
    x.label ∈ takenOff cat kind p.2 destination locations id ↔
      x.label ∈ takenOff cat kind db destination locations id := by
  have hlabels : x.label ∈ p.2.labelsOf kind id ↔
      x.label ∈ db.labelsOf kind id := by
    cases kind with
    | message =>
        have hself : x.id = id := by
          simpa [Catalog.members] using hid
        have hold : x ∈ db.messageLabels := by
          rw [h.labels] at hx
          exact (Finset.mem_filter.mp hx).left
        simp only [labelsOf, Finset.mem_sort, Finset.mem_image,
          Finset.mem_filter]
        exact ⟨fun _ => ⟨x, ⟨hold, hself⟩, rfl⟩,
          fun _ => ⟨x, ⟨hx, hself⟩, rfl⟩⟩
    | conversation =>
        simp only [labelsOf, h.conversationLabels]
  unfold takenOff
  split
  · simp only [List.mem_filter, hlabels]
  · rfl

theorem stable_read (read : List LocalMessageId)
    (unread : Finset LocalMessageId) :
    Stable cat kind id (fun p =>
      p.1.markedRead = read ∧ p.2.unread = unread) :=
  ⟨fun _ _ hp => hp, fun _ _ hp => hp⟩

theorem moveTo_spec (destination : Option LocalLabelId)
    (locations : List LocalLabelId) (db : Mailbox) :
    Moved cat kind id destination locations db
      (moveTo cat kind id destination
        ({ originalLocations := locations }, db)) := by
  have hmarked : MarkedRead cat kind id destination
      { originalLocations := locations } db
      (markedReadFor cat kind id destination
        ({ originalLocations := locations }, db)) :=
    markedReadFor_spec destination rfl db
  unfold moveTo
  generalize markedReadFor cat kind id destination
    ({ originalLocations := locations }, db) = p at hmarked ⊢
  have hremoved : p.1.removedLabels = [] := by
    rw [hmarked.entry]
  have happlied : p.1.appliedLabels = [] := by
    rw [hmarked.entry]
  have hlocations : p.1.originalLocations = locations := by
    rw [hmarked.entry]
  have hread : p.1.markedRead = readFor cat kind destination db id := by
    rw [hmarked.entry]
  -- `decideNoop` only sets a flag, so every field is that of the stage before
  have hstage : forall {P : Progress -> Prop}, Stable cat kind id P -> P p ->
      P (arrive cat kind id destination (leave cat kind id destination p)) :=
    fun h hp => h.arrive destination (h.leave destination hremoved hp)
  have hfinal := hstage (stable_read _ _) ⟨hread, hmarked.unread⟩
  refine ⟨?_, hfinal.left, hfinal.right, ?_, ?_, ?_⟩
  · have hstart : Within cat kind id p := by
      intro x hx
      rw [hremoved, happlied] at hx
      cases hx
    exact hstage stable_within hstart
  · refine hstage (stable_recorded _) ?_
    rw [hremoved, happlied, hmarked.labels]
    exact Recorded.refl _
  · intro x hx hkept
    have hin : x ∈ p.2.messageLabels := by
      rw [hmarked.labels]
      exact Finset.mem_filter.mpr ⟨hx, hkept⟩
    refine (arrive_leave_applied happlied hin).trans ?_
    rw [hlocations]
    constructor
    · rintro ⟨hdestination, hid, htaken⟩
      exact ⟨hdestination, hid, (takenOff_markedRead hmarked hin hid).mp htaken⟩
    · rintro ⟨hdestination, hid, htaken⟩
      exact ⟨hdestination, hid,
        (takenOff_markedRead hmarked hin hid).mpr htaken⟩
  · exact hstage (stable_elsewhere db) hmarked.elsewhere

/-!
# Entities do not share messages
-/

theorem messagesOf_unique {m : LocalMessageId} {c c' : LocalConversationId}
    (h : m ∈ cat.messagesOf c) (h' : m ∈ cat.messagesOf c') : c = c' := by
  unfold Catalog.messagesOf at h h'
  rcases List.mem_map.mp h with ⟨r, hr, hrid⟩
  rcases List.mem_map.mp h' with ⟨r', hr', hrid'⟩
  have hsame : r = r' := List.inj_on_of_nodup_map cat.ids_unique
    (List.mem_of_mem_filter hr) (List.mem_of_mem_filter hr')
    (hrid.trans hrid'.symm)
  have hc := (List.mem_filter.mp hr).right
  have hc' := (List.mem_filter.mp hr').right
  simp only [decide_eq_true_eq] at hc hc'
  rw [<- hc, <- hc', hsame]

theorem members_unique {m : LocalMessageId} {id id' : Nat}
    (h : m ∈ cat.members kind id) (h' : m ∈ cat.members kind id') :
    id = id' := by
  cases kind with
  | message =>
      simp only [Catalog.members, List.mem_singleton] at h h'
      rw [<- h, <- h']
  | conversation => exact messagesOf_unique h h'

/-- Another entity's move leaves an entity as it sees itself. -/
structure SameView (cat : Catalog) (kind : MailKind) (id : Nat)
    (db db' : Mailbox) : Prop where
  labels : forall x : LabelPair, x.id ∈ cat.members kind id ->
    (x ∈ db'.messageLabels ↔ x ∈ db.messageLabels)
  newlyRead : db'.newlyRead cat kind id = db.newlyRead cat kind id
  labelsOf : db'.labelsOf kind id = db.labelsOf kind id

theorem Elsewhere.sameView {db db' : Mailbox} {id' : Nat}
    (h : Elsewhere cat kind id db db') (hne : id' ≠ id) :
    SameView cat kind id' db db' := by
  have hout : forall m, m ∈ cat.members kind id' ->
      m ∉ cat.members kind id :=
    fun m hm' hm => hne (members_unique hm' hm)
  refine ⟨fun x hx => h.labels x (hout x.id hx), ?_, ?_⟩
  · cases kind with
    | message =>
        unfold newlyRead
        dsimp only
        refine List.filter_congr ?_
        intro m hm
        simp [h.unread m (hout m hm)]
    | conversation =>
        have hcount := (h.conversations rfl id' hne).right
        unfold newlyRead
        dsimp only
        rw [hcount]
        congr 1
        refine List.filter_congr ?_
        intro m hm
        simp [h.unread m (hout m hm)]
  · cases kind with
    | message =>
        unfold labelsOf
        dsimp only
        congr 2
        ext x
        simp only [Finset.mem_filter]
        constructor
        · rintro ⟨hx, rfl⟩
          exact ⟨(h.labels x (hout _ (List.mem_singleton.mpr rfl))).mp hx, rfl⟩
        · rintro ⟨hx, rfl⟩
          exact ⟨(h.labels x (hout _ (List.mem_singleton.mpr rfl))).mpr hx,
            rfl⟩
    | conversation =>
        unfold labelsOf
        dsimp only
        congr 2
        ext ⟨c, l⟩
        simp only [Finset.mem_filter]
        constructor
        · rintro ⟨hx, rfl⟩
          exact ⟨((h.conversations rfl c hne).left l).mp hx, rfl⟩
        · rintro ⟨hx, rfl⟩
          exact ⟨((h.conversations rfl c hne).left l).mpr hx, rfl⟩

end MoveEntry

end Actions
end MailClient
