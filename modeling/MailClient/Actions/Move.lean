import MailClient.Actions.Mailbox
import MailClient.Foundation.Recorded

/-!
# The move action

A move takes messages, or conversations with all their messages, out of their
locations and gives them the label of the destination.  For each of them the
action records what it changed, so that the move can be undone: by the action
itself, or by the `LabelAs` and `Unread` actions that it builds.
-/

namespace MailClient
namespace Actions

open Foundation

/-- `ActionMoveDataV2Entry`. -/
structure MoveEntry where
  originalLocations : List LocalLabelId
  removedLabels : List LabelPair := []
  appliedLabels : List LabelPair := []
  markedRead : List LocalMessageId := []
  isNoop : Bool := false
  deriving DecidableEq, Repr

namespace MoveEntry

variable (cat : Catalog) (kind : MailKind) (id : Nat)

/-- An entry in the making, with the tables it has been applied to. -/
abbrev Progress := MoveEntry × Mailbox

/-- Removes a label and records the messages that had it. -/
def takeOff (l : LocalLabelId) (p : Progress) : Progress :=
  let (modified, db) := p.2.removeLabel cat kind l id
  ({ p.1 with
      removedLabels := p.1.removedLabels ++ Mailbox.pairs l modified }, db)

/-- Applies a label and records the messages that did not have it. -/
def putOn (l : LocalLabelId) (p : Progress) : Progress :=
  let (modified, db) := p.2.applyLabel cat kind l id
  ({ p.1 with
      appliedLabels := p.1.appliedLabels ++ Mailbox.pairs l modified }, db)

def removeAllRemovableLabels (p : Progress) : Progress :=
  ((p.2.labelsOf kind id).filter (fun l => ¬ cat.nonRemovable l)).foldl
    (fun p l => takeOff cat kind id l p) ({ p.1 with removedLabels := [] }, p.2)

/-- A source is left if it is a folder mail can be moved out of, or snoozed. -/
def isLeft (source : LocalLabelId) : Bool :=
  (cat.labelRow source).any (fun r =>
    Catalog.isMovableOutOfFolder r ∨ Catalog.isSnoozed r)

def leaveSource (source : LocalLabelId) (p : Progress) : Progress :=
  let p := if isLeft cat source then takeOff cat kind id source p else p
  if source = cat.trash ∨ source = cat.spam then
    putOn cat kind id cat.almostAllMail p
  else
    p

def markedReadFor (destination : Option LocalLabelId) (p : Progress) :
    Progress :=
  if destination = some cat.trash then
    let (read, db) := p.2.markRead cat kind id
    ({ p.1 with markedRead := read }, db)
  else
    p

/-- The labels that the destination replaces. -/
def leave (destination : Option LocalLabelId) (p : Progress) : Progress :=
  if destination = some cat.trash ∨ destination = some cat.spam then
    removeAllRemovableLabels cat kind id p
  else if destination.any cat.isCategory then
    p
  else
    p.1.originalLocations.foldl
      (fun p source => leaveSource cat kind id source p) p

def arrive (destination : Option LocalLabelId) (p : Progress) : Progress :=
  match destination with
  | none => p
  | some d =>
      let p := putOn cat kind id d p
      if cat.isCategory d then
        (cat.otherCategories d).foldl
          (fun p l => takeOff cat kind id l p) p
      else
        p

def decideNoop (p : Progress) : Progress :=
  ({ p.1 with
      isNoop := p.1.markedRead = [] ∧
        p.1.removedLabels.all (fun pair => pair ∈ p.1.appliedLabels) }, p.2)

def moveTo (destination : Option LocalLabelId) (p : Progress) : Progress :=
  decideNoop (arrive cat kind id destination
    (leave cat kind id destination
      (markedReadFor cat kind id destination p)))

def revert (e : MoveEntry) (db : Mailbox) : Mailbox :=
  let db := if e.markedRead = [] then db else db.markUnread cat e.markedRead
  let db := e.removedLabels.foldl (fun db pair =>
    (db.applyLabel cat MailKind.message pair.label pair.id).2) db
  e.appliedLabels.foldl (fun db pair =>
    (db.removeLabel cat MailKind.message pair.label pair.id).2) db

/-- Forgets what was recorded and moves again. -/
def rebase (destination : Option LocalLabelId) (p : Progress) : Progress :=
  moveTo cat kind id destination
    ({ originalLocations := p.2.exclusiveLocations cat kind id }, p.2)

end MoveEntry

/-!
# The whole action
-/

/-- `ActionMoveData`, its entries in some order and each target once. -/
structure MoveData where
  destination : Option LocalLabelId
  entries : List (Nat × MoveEntry)
  deriving DecidableEq, Repr

namespace MoveData

variable (cat : Catalog) (kind : MailKind)

def new (db : Mailbox) (destination : Option LocalLabelId)
    (targets : List Nat) : MoveData where
  destination := destination
  entries := targets.dedup.map (fun id =>
    (id, { originalLocations := db.exclusiveLocations cat kind id }))

/-- One pass over the entries that changes each of them and the tables. -/
def updateEntries (update : Nat -> MoveEntry.Progress -> MoveEntry.Progress) :
    List (Nat × MoveEntry) -> Mailbox -> List (Nat × MoveEntry) × Mailbox
  | [], db => ([], db)
  | (id, e) :: rest, db =>
      let (e, db) := update id (e, db)
      let (rest, db) := updateEntries update rest db
      ((id, e) :: rest, db)

def moveTo (data : MoveData) (db : Mailbox) : MoveData × Mailbox :=
  let (entries, db) := updateEntries
    (fun id p => MoveEntry.moveTo cat kind id data.destination p) data.entries
    db
  ({ data with entries := entries }, db)

def revertLocal (data : MoveData) (db : Mailbox) : Mailbox :=
  data.entries.foldl (fun db entry => entry.2.revert cat db) db

def rebaseLocal (changeset : Nat -> Bool) (data : MoveData) (db : Mailbox) :
    MoveData × Mailbox :=
  let (entries, db) := updateEntries
    (fun id p =>
      if changeset id then
        MoveEntry.rebase cat kind id data.destination p
      else p) data.entries db
  ({ data with entries := entries }, db)

end MoveData

/-!
# Undoing with other actions
-/

/-- An item of a `LabelAs` action on messages. -/
structure LabelAsItem where
  id : LocalMessageId
  added : List LocalLabelId
  removed : List LocalLabelId
  deriving DecidableEq, Repr

namespace MoveData

variable (cat : Catalog)

def removedLabels (data : MoveData) : List LabelPair :=
  data.entries.flatMap (fun entry => entry.2.removedLabels)

def appliedLabels (data : MoveData) : List LabelPair :=
  data.entries.flatMap (fun entry => entry.2.appliedLabels)

def markedRead (data : MoveData) : List LocalMessageId :=
  data.entries.flatMap (fun entry => entry.2.markedRead)

def labelsFor (pairs : List LabelPair) (m : LocalMessageId) :
    List LocalLabelId :=
  ((pairs.filter (fun pair => pair.id = m)).map LabelPair.label).dedup

/-- The items of the `LabelAs` action, and the messages to mark as unread. -/
def buildUndoStates (data : MoveData) :
    List LabelAsItem × List LocalMessageId :=
  let messages :=
    ((data.removedLabels ++ data.appliedLabels).map LabelPair.id).dedup
  (messages.map (fun m =>
      { id := m
        added := labelsFor data.removedLabels m
        removed := labelsFor data.appliedLabels m }),
    data.markedRead)

end MoveData

/-- `apply_local` of a `LabelAs` action on messages. -/
def labelAs (cat : Catalog) (items : List LabelAsItem) (db : Mailbox) :
    Mailbox :=
  items.foldl (fun db item =>
    let db := item.added.foldl (fun db l =>
      (db.applyLabel cat MailKind.message l item.id).2) db
    item.removed.foldl (fun db l =>
      (db.removeLabel cat MailKind.message l item.id).2) db) db

/-- `apply_local` of an `Unread` action on messages. -/
def markAllUnread (cat : Catalog) (ids : List LocalMessageId) (db : Mailbox) :
    Mailbox :=
  ids.foldl (fun db m => db.markUnread cat [m]) db

end Actions
end MailClient
