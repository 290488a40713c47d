import Mathlib.Data.List.Basic
import MailClient.ActionQueue.Queue
import MailClient.Actions.Move
import MailClient.Foundation.Writes

/-!
# Moves stored by older versions

Older versions of the app stored a move with its targets grouped by source and
one list of removed labels.  They are distributed to one entry for each target
when the action is read again.
-/

namespace MailClient
namespace Actions

open Foundation
open ActionQueue (FactoryError Bytes)

/-- `ActionMoveDataV1`, its sources in the order of the hash map. -/
structure MoveDataV1 where
  sources : List (Option LocalLabelId × List Nat)
  destination : Option LocalLabelId
  markedRead : List LocalMessageId
  removedLabels : List LabelPair
deriving DecidableEq, Repr

/-- `OldAction`, the first version. -/
structure OldMove where
  sourceLabelId : LocalLabelId
  destinationLabelId : LocalLabelId
  targetIds : List Nat
deriving DecidableEq, Repr

/-- There is no way to tell the messages of a conversation without the tables. -/
def intoLocalMessageId : MailKind -> Nat -> Option LocalMessageId
  | MailKind.message, id => some id
  | MailKind.conversation, _ => none

namespace MoveDataV1

/-- What an entry is made of: a source and one of its targets. -/
abbrev Listed :=
  Option LocalLabelId × Nat

def entry (kind : MailKind) (action : MoveDataV1) (x : Listed) : MoveEntry :=
  let (removedLabels, unread) :=
    match intoLocalMessageId kind x.2 with
    | some localMsgId =>
        (action.removedLabels.filterMap (fun v =>
            if v.id ≠ x.2 then some (LabelPair.mk v.label localMsgId) else none),
          if action.markedRead.contains localMsgId then [localMsgId] else [])
    | none => ([], [])
  { originalLocations := x.1.toList
    removedLabels := removedLabels
    markedRead := unread }

/-- `HashMap::insert`. -/
def insertEntry (entries : List (Nat × MoveEntry)) (id : Nat) (e : MoveEntry) :
    List (Nat × MoveEntry) :=
  entries.filter (fun x => x.1 ≠ id) ++ [(id, e)]

def listed (action : MoveDataV1) : List Listed :=
  action.sources.flatMap (fun source => source.2.map (fun id => (source.1, id)))

def ofOldMove (old : OldMove) : MoveDataV1 where
  sources := [(some old.sourceLabelId, old.targetIds)]
  destination := some old.destinationLabelId
  markedRead := []
  removedLabels := []

end MoveDataV1

namespace MoveData

def fromActionMoveData (kind : MailKind) (action : MoveDataV1) : MoveData where
  destination := action.destination
  entries := action.listed.foldl
    (fun entries x => MoveDataV1.insertEntry entries x.2 (action.entry kind x)) []

/-- What reads the three versions. -/
structure Deserializers where
  oldAction : Bytes -> Except FactoryError OldMove
  moveDataV1 : Bytes -> Except FactoryError MoveDataV1
  moveData : Bytes -> Except FactoryError MoveData

def convert (deserialize : Deserializers) (kind : MailKind) (oldVersion : Nat)
    (data : Bytes) : Except FactoryError MoveData :=
  match oldVersion with
  | 1 => do
      let data <- deserialize.oldAction data
      Except.ok (fromActionMoveData kind (MoveDataV1.ofOldMove data))
  | 2 => do
      let data <- deserialize.moveDataV1 data
      Except.ok (fromActionMoveData kind data)
  | 3 => deserialize.moveData data
  | _ => Except.error FactoryError.invalidVersion

end MoveData

/-!
# What is kept
-/

namespace MoveDataV1

def Lists (action : MoveDataV1) (label : Option LocalLabelId) (m : LocalMessageId) :
    Prop :=
  exists ids, (label, ids) ∈ action.sources ∧ m ∈ ids

/-- One entry for each message, and in it all that was stored about the message. -/
structure KeepsMeaning (action : MoveDataV1) (moved : MoveData) : Prop where
  destination : moved.destination = action.destination
  once : (moved.entries.map Prod.fst).Nodup
  entries : forall m, m ∈ moved.entries.map Prod.fst ↔ exists label, action.Lists label m
  removed : forall m e, (m, e) ∈ moved.entries -> forall x,
    x ∈ e.removedLabels ↔ x ∈ action.removedLabels ∧ x.id = m
  marked : forall m e, (m, e) ∈ moved.entries ->
    (m ∈ e.markedRead ↔ m ∈ action.markedRead)
  locations : forall m e, (m, e) ∈ moved.entries -> forall l,
    l ∈ e.originalLocations ↔ action.Lists (some l) m

/-- The last source that lists the message. -/
def lastSource (action : MoveDataV1) (m : LocalMessageId) :
    Option (Option LocalLabelId) :=
  ((action.sources.filter (fun source => m ∈ source.2)).getLast?).map Prod.fst

/--
The message has lost the labels that the others have, and no source with a
label lists it but the last one of all that do.
-/
structure Redistributed (action : MoveDataV1) (m : LocalMessageId) : Prop where
  removed : forall label, LabelPair.mk label m ∈ action.removedLabels ↔
    exists v, v ∈ action.removedLabels ∧ v.id ≠ m ∧ v.label = label
  source : forall l, action.Lists (some l) m -> action.lastSource m = some (some l)

end MoveDataV1

/-!
# Entries of a map
-/

/-- The entries are those of the table. -/
def EntriesOf (entries : List (Nat × MoveEntry)) (table : Nat -> Option MoveEntry) :
    Prop :=
  (entries.map Prod.fst).Nodup ∧ forall m e, (m, e) ∈ entries ↔ table m = some e

theorem EntriesOf.insert {entries : List (Nat × MoveEntry)}
    {table : Nat -> Option MoveEntry} (h : EntriesOf entries table) (id : Nat)
    (e : MoveEntry) :
    EntriesOf (MoveDataV1.insertEntry entries id e)
      (Function.update table id (some e)) := by
  have hfilter : ((entries.filter (fun x => x.1 ≠ id)).map Prod.fst).Nodup :=
    (List.filter_sublist.map Prod.fst).nodup h.left
  unfold MoveDataV1.insertEntry
  constructor
  · rw [List.map_append]
    refine List.nodup_append.mpr ⟨hfilter, List.nodup_singleton id, ?_⟩
    rintro a ha b hb rfl
    rcases List.mem_map.mp ha with ⟨x, hx, rfl⟩
    have hne := (List.mem_filter.mp hx).right
    rw [decide_eq_true_eq] at hne
    exact hne (List.mem_singleton.mp hb)
  · intro m e'
    rw [List.mem_append, List.mem_filter, List.mem_singleton, decide_eq_true_eq,
      Function.update_apply]
    by_cases hm : m = id
    · subst hm
      rw [if_pos rfl]
      constructor
      · rintro (⟨_, hne⟩ | heq)
        · exact absurd rfl hne
        · cases heq
          rfl
      · rintro ⟨⟩
        exact Or.inr rfl
    · rw [if_neg hm, <- h.right m e']
      constructor
      · rintro (⟨hmem, _⟩ | heq)
        · exact hmem
        · cases heq
          exact absurd rfl hm
      · exact fun hmem => Or.inl ⟨hmem, hm⟩

theorem entriesOf_foldl (write : MoveDataV1.Listed -> MoveEntry)
    (xs : List MoveDataV1.Listed) {entries : List (Nat × MoveEntry)}
    {table : Nat -> Option MoveEntry} (h : EntriesOf entries table) :
    EntriesOf
      (xs.foldl (fun entries x => MoveDataV1.insertEntry entries x.2 (write x)) entries)
      (writeAll Prod.snd (fun x => some (write x)) table xs) := by
  induction xs generalizing entries table with
  | nil => exact h
  | cons x xs ih => exact ih (h.insert x.2 (write x))

theorem mem_source {source : Option LocalLabelId × List Nat} {x : MoveDataV1.Listed} :
    x ∈ [source].flatMap (fun source => source.2.map (fun id => (source.1, id))) ↔
      x.1 = source.1 ∧ x.2 ∈ source.2 := by
  rw [List.flatMap_singleton, List.mem_map]
  constructor
  · rintro ⟨id, hid, rfl⟩
    exact ⟨rfl, hid⟩
  · rintro ⟨hlabel, hid⟩
    exact ⟨x.2, hid, by rw [<- hlabel]⟩

theorem filter_source {source : Option LocalLabelId × List Nat} {m : LocalMessageId}
    (hm : m ∈ source.2) :
    [source].filter (fun source => m ∈ source.2) = [source] :=
  List.filter_cons_of_pos (decide_eq_true hm)

theorem writeAll_listed (action : MoveDataV1)
    (write : MoveDataV1.Listed -> Option MoveEntry) (m : LocalMessageId) :
    writeAll Prod.snd write (fun _ => none) action.listed m =
      (action.lastSource m).bind (fun label => write (label, m)) := by
  unfold MoveDataV1.listed MoveDataV1.lastSource
  induction action.sources using List.reverseRecOn with
  | nil => rfl
  | append_singleton sources source ih =>
      rw [List.flatMap_append, writeAll_append, List.filter_append]
      by_cases hm : m ∈ source.2
      · rw [filter_source hm, List.getLast?_concat]
        have hexists : exists x : MoveDataV1.Listed, x ∈ [source].flatMap
            (fun source => source.2.map (fun id => (source.1, id))) ∧ x.2 = m :=
          ⟨(source.1, m), mem_source.mpr ⟨rfl, hm⟩, rfl⟩
        rcases exists_writeAll hexists _ with ⟨⟨label, id⟩, hx, hid, hwritten⟩
        rw [hwritten, Option.map_some, Option.bind_some]
        have hlabel : label = source.1 := (mem_source.mp hx).left
        have hm' : id = m := hid
        rw [hlabel, hm']
      · have hlast : [source].filter (fun source => m ∈ source.2) = [] :=
          List.filter_cons_of_neg (by simpa using hm)
        rw [hlast, List.append_nil, <- ih]
        apply writeAll_of_not_mem
        rintro x hx rfl
        exact hm (mem_source.mp hx).right

theorem lists_of_lastSource {action : MoveDataV1} {m : LocalMessageId}
    {label : Option LocalLabelId} (h : action.lastSource m = some label) :
    action.Lists label m := by
  rcases Option.map_eq_some_iff.mp h with ⟨source, hlast, rfl⟩
  have hmem := List.mem_filter.mp (List.mem_of_getLast? hlast)
  exact ⟨source.2, hmem.left, of_decide_eq_true hmem.right⟩

theorem lastSource_of_lists {action : MoveDataV1} {m : LocalMessageId}
    {label : Option LocalLabelId} (h : action.Lists label m) :
    exists last, action.lastSource m = some last := by
  rcases h with ⟨ids, hsource, hm⟩
  unfold MoveDataV1.lastSource
  cases hlast : (action.sources.filter (fun source => m ∈ source.2)).getLast? with
  | some source => exact ⟨source.1, rfl⟩
  | none =>
      rw [List.getLast?_eq_none_iff] at hlast
      exact absurd (decide_eq_true hm) (List.filter_eq_nil_iff.mp hlast _ hsource)

theorem entriesOf_converted (kind : MailKind) (action : MoveDataV1) :
    EntriesOf (MoveData.fromActionMoveData kind action).entries
      (writeAll Prod.snd (fun x => some (action.entry kind x)) (fun _ => none)
        action.listed) := by
  apply entriesOf_foldl
  exact ⟨List.nodup_nil, fun m e => ⟨fun h => absurd h List.not_mem_nil, fun h => nomatch h⟩⟩

theorem mem_entries {kind : MailKind} {action : MoveDataV1} {m : Nat} {e : MoveEntry} :
    (m, e) ∈ (MoveData.fromActionMoveData kind action).entries ↔
      exists label, action.lastSource m = some label ∧ e = action.entry kind (label, m) := by
  rw [(entriesOf_converted kind action).right m e, writeAll_listed,
    Option.bind_eq_some_iff]
  constructor
  · rintro ⟨label, hlabel, heq⟩
    exact ⟨label, hlabel, (Option.some.inj heq).symm⟩
  · rintro ⟨label, hlabel, heq⟩
    exact ⟨label, hlabel, congrArg some heq.symm⟩

/-!
# What an entry of a message says
-/

theorem mem_removedLabels {action : MoveDataV1} {label : Option LocalLabelId}
    {m : LocalMessageId} {x : LabelPair} :
    x ∈ (action.entry MailKind.message (label, m)).removedLabels ↔
      x.id = m ∧ exists v, v ∈ action.removedLabels ∧ v.id ≠ m ∧ v.label = x.label := by
  show x ∈ action.removedLabels.filterMap _ ↔ _
  rw [List.mem_filterMap]
  constructor
  · rintro ⟨v, hv, heq⟩
    dsimp only at heq
    split at heq
    · rename_i hne
      cases heq
      exact ⟨rfl, v, hv, hne, rfl⟩
    · cases heq
  · rintro ⟨rfl, v, hv, hne, hlabel⟩
    refine ⟨v, hv, ?_⟩
    dsimp only
    rw [if_pos hne, hlabel]

theorem mem_markedRead {action : MoveDataV1} {label : Option LocalLabelId}
    {m : LocalMessageId} :
    m ∈ (action.entry MailKind.message (label, m)).markedRead ↔
      m ∈ action.markedRead := by
  show m ∈ (if action.markedRead.contains m then [m] else []) ↔ _
  split
  · rename_i h
    simpa using h
  · rename_i h
    simpa using h

theorem entry_locations (kind : MailKind) (action : MoveDataV1)
    (label : Option LocalLabelId) (m : Nat) :
    (action.entry kind (label, m)).originalLocations = label.toList :=
  rfl

theorem keepsMeaning_iff (action : MoveDataV1) :
    action.KeepsMeaning (MoveData.fromActionMoveData MailKind.message action) ↔
      forall label m, action.Lists label m -> action.Redistributed m := by
  constructor
  · intro h label m hlists
    rcases lastSource_of_lists hlists with ⟨last, hlast⟩
    have hmem : (m, action.entry MailKind.message (last, m)) ∈ _ :=
      mem_entries.mpr ⟨last, hlast, rfl⟩
    constructor
    · intro removed
      have hremoved := h.removed m _ hmem ⟨removed, m⟩
      rw [mem_removedLabels] at hremoved
      constructor
      · intro hin
        exact (hremoved.mpr ⟨hin, rfl⟩).right
      · intro hothers
        exact (hremoved.mp ⟨rfl, hothers⟩).left
    · intro l hl
      have hlocation := (h.locations m _ hmem l).mpr hl
      rw [entry_locations, Option.mem_toList] at hlocation
      rw [hlast, hlocation]
  · intro h
    refine ⟨rfl, (entriesOf_converted _ action).left, ?_, ?_, ?_, ?_⟩
    · intro m
      rw [List.mem_map]
      constructor
      · rintro ⟨⟨id, e⟩, hmem, rfl⟩
        rcases mem_entries.mp hmem with ⟨label, hlast, _⟩
        exact ⟨label, lists_of_lastSource hlast⟩
      · rintro ⟨label, hlists⟩
        rcases lastSource_of_lists hlists with ⟨last, hlast⟩
        exact ⟨_, mem_entries.mpr ⟨last, hlast, rfl⟩, rfl⟩
    · intro m e hmem x
      rcases mem_entries.mp hmem with ⟨label, hlast, rfl⟩
      rw [mem_removedLabels]
      have hshared := (h label m (lists_of_lastSource hlast)).removed x.label
      rw [<- hshared]
      constructor
      · rintro ⟨rfl, hin⟩
        exact ⟨hin, rfl⟩
      · rintro ⟨hin, rfl⟩
        exact ⟨rfl, hin⟩
    · intro m e hmem
      rcases mem_entries.mp hmem with ⟨label, _, rfl⟩
      exact mem_markedRead
    · intro m e hmem l
      rcases mem_entries.mp hmem with ⟨label, hlast, rfl⟩
      rw [entry_locations, Option.mem_toList]
      constructor
      · intro hlabel
        exact lists_of_lastSource (hlast.trans (congrArg some hlabel))
      · intro hlists
        have hsource := (h (some l) m hlists).source l hlists
        rw [hlast] at hsource
        exact Option.some.inj hsource

theorem redistributed_ofOldMove (old : OldMove) (m : LocalMessageId) :
    (MoveDataV1.ofOldMove old).Redistributed m where
  removed := by
    intro label
    constructor
    · intro h
      cases h
    · rintro ⟨v, hv, _⟩
      cases hv
  source := by
    rintro l ⟨ids, hsource, hm⟩
    cases List.mem_singleton.mp hsource
    have hfilter : (MoveDataV1.ofOldMove old).sources.filter
        (fun source => m ∈ source.2) = [(some old.sourceLabelId, old.targetIds)] :=
      filter_source hm
    unfold MoveDataV1.lastSource
    rw [hfilter]
    rfl

/--
Both older versions as they are read: of the first nothing is lost, of the
second exactly what is redistributed is kept.
-/
theorem convert_keepsMeaning (deserialize : MoveData.Deserializers) (data : Bytes) :
    (forall old, deserialize.oldAction data = Except.ok old ->
      exists moved, MoveData.convert deserialize MailKind.message 1 data =
          Except.ok moved ∧
        (MoveDataV1.ofOldMove old).KeepsMeaning moved) ∧
    (forall action, deserialize.moveDataV1 data = Except.ok action ->
      exists moved, MoveData.convert deserialize MailKind.message 2 data =
          Except.ok moved ∧
        (action.KeepsMeaning moved ↔
          forall label m, action.Lists label m -> action.Redistributed m)) := by
  constructor
  · intro old hold
    refine ⟨MoveData.fromActionMoveData MailKind.message (MoveDataV1.ofOldMove old), ?_, ?_⟩
    · unfold MoveData.convert
      rw [hold]
      rfl
    · exact (keepsMeaning_iff _).mpr (fun _ m _ => redistributed_ofOldMove old m)
  · intro action haction
    refine ⟨MoveData.fromActionMoveData MailKind.message action, ?_, keepsMeaning_iff action⟩
    unfold MoveData.convert
    rw [haction]
    rfl

/-- One message that has lost one label. -/
def oneMoved : MoveDataV1 where
  sources := [(some 1, [7])]
  destination := some 3
  markedRead := [7]
  removedLabels := [⟨1, 7⟩]

def oneMovedDeserializers : MoveData.Deserializers where
  oldAction := fun _ => Except.ok ⟨1, 3, [7]⟩
  moveDataV1 := fun _ => Except.ok oneMoved
  moveData := fun _ => Except.error FactoryError.deserialize

theorem oneMoved_converted :
    (exists moved, MoveData.convert oneMovedDeserializers MailKind.message 1 [] =
        Except.ok moved ∧
      (MoveDataV1.ofOldMove ⟨1, 3, [7]⟩).KeepsMeaning moved) ∧
    (exists moved, MoveData.convert oneMovedDeserializers MailKind.message 2 [] =
        Except.ok moved ∧
      (oneMoved.KeepsMeaning moved ↔
        forall label m, oneMoved.Lists label m -> oneMoved.Redistributed m)) :=
  ⟨(convert_keepsMeaning oneMovedDeserializers []).left _ rfl,
    (convert_keepsMeaning oneMovedDeserializers []).right _ rfl⟩

/-- The label of the only message is not among those to put back. -/
theorem oneMoved_forgotten :
    ¬ forall action : MoveDataV1, action.KeepsMeaning
      (MoveData.fromActionMoveData MailKind.message action) := by
  intro hall
  have hmem : (7, oneMoved.entry MailKind.message (some 1, 7)) ∈
      (MoveData.fromActionMoveData MailKind.message oneMoved).entries := by
    decide
  have hremoved := ((hall oneMoved).removed 7 _ hmem ⟨1, 7⟩).mpr ⟨by decide, rfl⟩
  revert hremoved
  decide

end Actions
end MailClient
