import MailClient.Foundation.Dedup
import MailClient.Labels.Label
import MailClient.Scroller.Update

/-!
# The command channel of a scroller

Clients, the watchers of the database and the worker itself send commands over
one channel.  The worker takes everything that is waiting at once, ignores what
was meant for an older generation and merges neighbours that are equal.  The
comparison ignores where a command comes from and who waits for its answer.
-/

namespace MailClient
namespace Scroller

open Foundation

inductive ReadFilter where
  | all
  | unread
  | read
  deriving DecidableEq, Repr

inductive IncludeSwitch where
  | default
  | withSpamAndTrash
  deriving DecidableEq, Repr

abbrev SearchOptions := String

/-- The sending half of a one-shot channel, by its name. -/
abbrev Sender := Nat

/-- `ScrollerCommand` as it is sent. -/
inductive Command where
  | fetchMore (src : ScrollerSource) (generation : Nat) (tx : Option Sender)
  | fetchNew (src : ScrollerSource) (generation : Nat) (notify : Bool)
  | refresh (src : ScrollerSource) (generation : Nat)
  | forceRefresh (src : ScrollerSource) (generation : Nat)
  | getItems (src : ScrollerSource) (generation : Nat)
  | changeUnreadFilter (src : ScrollerSource) (generation : Nat)
      (readFilter : ReadFilter)
  | changeCategoryView (src : ScrollerSource) (generation : Nat)
      (category : Option LocalLabelId)
  | changeLabel (src : ScrollerSource) (generation : Nat)
      (label : LocalLabelId)
  | changeInclude (src : ScrollerSource) (generation : Nat)
      (switch : IncludeSwitch)
  | changeKeywords (src : ScrollerSource) (generation : Nat)
      (keywords : SearchOptions)
  | clear (src : ScrollerSource) (generation : Nat)
  | alternativeLabels (generation : Nat) (tx : Sender)
  | categoryView (generation : Nat) (tx : Sender)
  | categoryViewChanged (src : ScrollerSource) (generation : Nat)
  deriving DecidableEq, Repr

namespace Command

def generation : Command -> Nat
  | fetchMore _ generation _ => generation
  | fetchNew _ generation _ => generation
  | refresh _ generation => generation
  | forceRefresh _ generation => generation
  | getItems _ generation => generation
  | changeUnreadFilter _ generation _ => generation
  | changeCategoryView _ generation _ => generation
  | changeLabel _ generation _ => generation
  | changeInclude _ generation _ => generation
  | changeKeywords _ generation _ => generation
  | clear _ generation => generation
  | alternativeLabels generation _ => generation
  | categoryView generation _ => generation
  | categoryViewChanged _ generation => generation

/-- The derived comparison: sources are always equal, senders and keywords are
ignored. -/
def partialEq : Command -> Command -> Bool
  | fetchMore _ g _, fetchMore _ g' _ => g = g'
  | fetchNew _ g notify, fetchNew _ g' notify' => g = g' ∧ notify = notify'
  | refresh _ g, refresh _ g' => g = g'
  | forceRefresh _ g, forceRefresh _ g' => g = g'
  | getItems _ g, getItems _ g' => g = g'
  | changeUnreadFilter _ g readFilter, changeUnreadFilter _ g' readFilter' =>
      g = g' ∧ readFilter = readFilter'
  | changeCategoryView _ g category, changeCategoryView _ g' category' =>
      g = g' ∧ category = category'
  | changeLabel _ g label, changeLabel _ g' label' => g = g' ∧ label = label'
  | changeInclude _ g switch, changeInclude _ g' switch' =>
      g = g' ∧ switch = switch'
  | changeKeywords _ g _, changeKeywords _ g' _ => g = g'
  | clear _ g, clear _ g' => g = g'
  | alternativeLabels g _, alternativeLabels g' _ => g = g'
  | categoryView g _, categoryView g' _ => g = g'
  | categoryViewChanged _ g, categoryViewChanged _ g' => g = g'
  | _, _ => false

/-- Who waits for the answer. -/
def tx : Command -> Option Sender
  | fetchMore _ _ tx => tx
  | alternativeLabels _ tx => some tx
  | categoryView _ tx => some tx
  | _ => none

/-- The commands of the `change_*` methods. -/
def isChange : Command -> Bool
  | changeUnreadFilter _ _ _ => true
  | changeCategoryView _ _ _ => true
  | changeLabel _ _ _ => true
  | changeInclude _ _ _ => true
  | changeKeywords _ _ _ => true
  | _ => false

/-- The kind of a command is its constructor. -/
def sameKind (a b : Command) : Prop :=
  a.ctorIdx = b.ctorIdx

theorem partialEq_euclid (a b c : Command) (hab : a.partialEq b = true)
    (hac : a.partialEq c = true) : b.partialEq c = true := by
  cases a <;> cases b <;> simp [partialEq] at hab <;>
    cases c <;> simp [partialEq] at hac <;> simp_all [partialEq]

theorem isChange_of_partialEq (a b : Command) (h : a.partialEq b = true) :
    a.isChange = b.isChange := by
  cases a <;> cases b <;> simp [partialEq] at h <;> rfl

end Command

/-!
# Taking a batch
-/

/-- The commands the worker handles of those that are waiting. -/
def takeBatch {stamped : Type} (command : stamped -> Command)
    (generation : Nat) (waiting : List stamped) : List stamped :=
  dedupBy (fun a b => (command a).partialEq (command b))
    (waiting.filter (fun c => generation ≤ (command c).generation))

end Scroller
end MailClient
