import MailClient.Foundation.Transition
import MailClient.Scroller.Channel

/-!
# Changing the view of a scroller

Every `change_*` method starts a new generation: it has the old worker aborted,
waits for that, and then sends its command, which the next worker handles.  The
label, the read filter, the keywords and the category view live in the source,
which all workers share; the alternative labels live in the worker, and a new
worker gets those that the scroller was created with.
-/

namespace MailClient
namespace Scroller

open Foundation
open Labels (LabelTable)

/-!
# What the database answers
-/

structure CategoryView where
  enabled : Option LocalLabelId := none
  available : List LocalLabelId := []
  unseen : List (LocalLabelId × Bool) := []
  filterIds : List LocalLabelId := []
  deriving DecidableEq, Repr

/-- The tables that categories and labels are read from. -/
structure ViewTables where
  labels : LabelTable
  loadView : LocalLabelId -> CategoryView
  resolveFilterIds : LocalLabelId -> List LocalLabelId

namespace CategoryView

def load (db : ViewTables) (label : LocalLabelId) : CategoryView :=
  db.loadView label

/-- Fails for a category that is not available; nothing disables a category. -/
def enable (db : ViewTables) (view : CategoryView)
    (category : Option LocalLabelId) : Option CategoryView :=
  if category.all (fun c => c ∈ view.available) then
    let enabled := category.or view.enabled
    some { view with
      enabled := enabled
      filterIds := (enabled.map db.resolveFilterIds).getD [] }
  else
    none

def didNotChange (view other : CategoryView) : Bool :=
  view.unseen = other.unseen

end CategoryView

structure AlternativeLabels where
  label : LocalLabelId
  altLabel : Option LocalLabelId
  deriving DecidableEq, Repr

namespace AlternativeLabels

/-- `All Mail` for the label `Almost All Mail`, by their remote ids. -/
def alternativeLocalLabel (db : ViewTables) (id : LocalLabelId) :
    Option LocalLabelId := do
  let rid <- db.labels.localIdCounterpart id
  if rid = "15" then db.labels.remoteIdCounterpart "5" else none

def new (db : ViewTables) (label : LocalLabelId) : AlternativeLabels where
  label := label
  altLabel := alternativeLocalLabel db label

def supportsIncludeFilter (labels : AlternativeLabels) : Bool :=
  labels.altLabel.isSome

def includeToLabel (labels : AlternativeLabels) (switch : IncludeSwitch) :
    LocalLabelId :=
  match switch, labels.altLabel with
  | IncludeSwitch.withSpamAndTrash, some altLabel => altLabel
  | _, _ => labels.label

end AlternativeLabels

/-!
# The source
-/

inductive SourceKind where
  | dataScroller
  | hybridSearch
  | localSearch
  deriving DecidableEq, Repr

/-- What a source shows. -/
structure Selection where
  label : LocalLabelId
  unread : ReadFilter
  keywords : SearchOptions
  categoryView : CategoryView
  deriving DecidableEq, Repr

/-- Lists have no keywords and searches no read filter. -/
def changeSelection (kind : SourceKind) (s : Selection)
    (unread : Option ReadFilter) (label : Option LocalLabelId)
    (keywords : Option SearchOptions) (categoryView : Option CategoryView) :
    Selection where
  label := label.getD s.label
  unread :=
    match kind with
    | SourceKind.dataScroller => unread.getD s.unread
    | _ => s.unread
  keywords :=
    match kind with
    | SourceKind.dataScroller => s.keywords
    | _ => keywords.getD s.keywords
  categoryView := categoryView.getD s.categoryView

/-- What handling a command does to the source. -/
def handleSelection (db : ViewTables) (kind : SourceKind)
    (labels : AlternativeLabels) (s : Selection) : Command -> Selection
  | Command.changeUnreadFilter _ _ readFilter =>
      changeSelection kind s (some readFilter) none none none
  | Command.changeCategoryView _ _ category =>
      match s.categoryView.enable db category with
      | none => s
      | some view => changeSelection kind s none none none (some view)
  | Command.changeLabel _ _ label =>
      changeSelection kind s (some ReadFilter.all) (some label) none
        (some (CategoryView.load db label))
  | Command.changeInclude _ _ switch =>
      if labels.supportsIncludeFilter then
        let label := labels.includeToLabel switch
        changeSelection kind s none (some label) none
          (some (CategoryView.load db label))
      else
        s
  | Command.changeKeywords _ _ keywords =>
      changeSelection kind s none none (some keywords) none
  | Command.categoryViewChanged _ _ =>
      let candidate := CategoryView.load db labels.label
      if s.categoryView.didNotChange candidate then
        s
      else
        changeSelection kind s none none none
          (some ((candidate.enable db s.categoryView.enabled).getD candidate))
  | _ => s

/-!
# The calls of a client
-/

inductive Call where
  | changeFilter (readFilter : ReadFilter)
  | changeLabel (label : LocalLabelId)
  | changeInclude (switch : IncludeSwitch)
  | changeCategoryView (category : Option LocalLabelId)
  | changeKeywords (keywords : SearchOptions)
  deriving DecidableEq, Repr

def Call.command (generation : Nat) : Call -> Command
  | changeFilter readFilter =>
      Command.changeUnreadFilter (ScrollerSource.scrollEvent 0) generation
        readFilter
  | changeLabel label =>
      Command.changeLabel (ScrollerSource.scrollEvent 0) generation label
  | changeInclude switch =>
      Command.changeInclude (ScrollerSource.scrollEvent 0) generation switch
  | changeCategoryView category =>
      Command.changeCategoryView (ScrollerSource.scrollEvent 0) generation
        category
  | changeKeywords keywords =>
      Command.changeKeywords (ScrollerSource.scrollEvent 0) generation keywords

/-- What the user looks at: the selection and the label that was chosen last. -/
structure View where
  selection : Selection
  chosen : LocalLabelId

/-- A call on its own, with the alternatives of the label that was chosen. -/
def View.apply (db : ViewTables) (kind : SourceKind) (v : View) (call : Call) :
    View where
  selection := handleSelection db kind (AlternativeLabels.new db v.chosen)
    v.selection (call.command 0)
  chosen :=
    match call with
    | Call.changeLabel label => label
    | _ => v.chosen

/-- The calls one after another. -/
def View.run (db : ViewTables) (kind : SourceKind) (v : View)
    (calls : List Call) : View :=
  calls.foldl (View.apply db kind) v

/-!
# Clients, the respawn task and the worker
-/

structure RespawnedWorker where
  generation : Nat
  alternativeLabels : AlternativeLabels
  batch : List Command
  /-- The command in work and whether the source has been changed for it. -/
  current : Option (Command × Bool)
  deriving DecidableEq, Repr

structure PendingCall where
  generation : Nat
  call : Call
  /-- The old worker has stopped. -/
  aborted : Bool
  deriving DecidableEq, Repr

/-- `calls` and `handledLabel` record history. -/
structure ScrollerState where
  generation : Nat
  signals : List Nat
  client : Option PendingCall
  /-- The generation that the respawn task is about to spawn. -/
  respawning : Option Nat
  worker : Option RespawnedWorker
  queue : List Command
  source : Selection
  /-- The calls whose commands have been sent. -/
  calls : List Call
  /-- The label of the last `ChangeLabel` that was handled to its end. -/
  handledLabel : Option LocalLabelId

inductive ScrollerEvent where
  /-- The client bumps the generation and signals the respawn task. -/
  | call (call : Call)
  /-- The respawn task aborts the worker and tells the client. -/
  | abort
  | spawn
  | send
  /-- Any other command, of a generation that was read some time ago. -/
  | post (command : Command)
  | receive
  | begin
  /-- The source takes over the new values. -/
  | change
  | finish
  deriving DecidableEq, Repr

/-- A scroller as it is created. -/
structure Setup where
  db : ViewTables
  kind : SourceKind
  label : LocalLabelId
  source : Selection

namespace ScrollerState

def worker₀ (setup : Setup) (generation : Nat) : RespawnedWorker where
  generation := generation
  alternativeLabels := AlternativeLabels.new setup.db setup.label
  batch := []
  current := none

def start (setup : Setup) : ScrollerState where
  generation := 0
  signals := []
  client := none
  respawning := none
  worker := some (worker₀ setup 0)
  queue := []
  source := setup.source
  calls := []
  handledLabel := none

def next (setup : Setup) (s : ScrollerState) :
    ScrollerEvent -> Option ScrollerState
  | ScrollerEvent.call call =>
      match s.client with
      | some _ => none
      | none =>
          some { s with
            generation := s.generation + 1
            signals := s.signals ++ [s.generation + 1]
            client := some ⟨s.generation + 1, call, false⟩ }
  | ScrollerEvent.abort =>
      match s.respawning, s.signals with
      | none, generation :: rest =>
          some { s with
            signals := rest
            respawning := some generation
            worker := none
            client := s.client.map (fun p =>
              if p.generation = generation then { p with aborted := true }
              else p) }
      | _, _ => none
  | ScrollerEvent.spawn =>
      match s.respawning with
      | none => none
      | some generation =>
          some { s with
            respawning := none
            worker := some (worker₀ setup generation) }
  | ScrollerEvent.send =>
      match s.client with
      | some ⟨generation, call, true⟩ =>
          some { s with
            client := none
            queue := s.queue ++ [call.command generation]
            calls := s.calls ++ [call] }
      | _ => none
  | ScrollerEvent.post command =>
      if command.isChange = false ∧ command.generation ≤ s.generation then
        some { s with queue := s.queue ++ [command] }
      else
        none
  | ScrollerEvent.receive =>
      match s.worker with
      | some ⟨generation, labels, [], none⟩ =>
          some { s with
            queue := []
            worker := some ⟨generation, labels,
              takeBatch id generation s.queue, none⟩ }
      | _ => none
  | ScrollerEvent.begin =>
      match s.worker with
      | some ⟨generation, labels, command :: rest, none⟩ =>
          some { s with
            worker := some ⟨generation, labels, rest, some (command, false)⟩ }
      | _ => none
  | ScrollerEvent.change =>
      match s.worker with
      | some ⟨generation, labels, batch, some (command, false)⟩ =>
          some { s with
            source := handleSelection setup.db setup.kind labels s.source
              command
            worker := some ⟨generation, labels, batch,
              some (command, true)⟩ }
      | _ => none
  | ScrollerEvent.finish =>
      match s.worker with
      | some ⟨generation, labels, batch, some (command, true)⟩ =>
          match command with
          | Command.changeLabel _ _ label =>
              some { s with
                handledLabel := some label
                worker := some ⟨generation,
                  AlternativeLabels.new setup.db label, batch, none⟩ }
          | _ =>
              some { s with worker := some ⟨generation, labels, batch, none⟩ }
      | _ => none

end ScrollerState

def respawnSystem (setup : Setup) :
    TransitionSystem ScrollerState ScrollerEvent where
  init := fun s => s = ScrollerState.start setup
  step := fun s e s' => s.next setup e = some s'

namespace ScrollerState

/-!
# Alternative labels
-/

variable {setup : Setup} {s s' : ScrollerState}

/-- The label of the last handled `ChangeLabel`, or the constructor's. -/
def selectedLabel (setup : Setup) (s : ScrollerState) : LocalLabelId :=
  s.handledLabel.getD setup.label

/-- What a worker does with its alternative labels, it does for `label`. -/
structure WorksFor (db : ViewTables) (label : LocalLabelId)
    (w : RespawnedWorker) : Prop where
  alternatives : w.alternativeLabels = AlternativeLabels.new db label
  switches : forall switch,
    w.alternativeLabels.supportsIncludeFilter = true ->
      w.alternativeLabels.includeToLabel switch = label ∨
        AlternativeLabels.alternativeLocalLabel db label =
          some (w.alternativeLabels.includeToLabel switch)
  answers : w.alternativeLabels.supportsIncludeFilter =
    (AlternativeLabels.alternativeLocalLabel db label).isSome
  reloads : w.alternativeLabels.label = label

theorem WorksFor.of_alternatives {db : ViewTables} {label : LocalLabelId}
    {w : RespawnedWorker}
    (h : w.alternativeLabels = AlternativeLabels.new db label) :
    WorksFor db label w where
  alternatives := h
  switches := by
    intro switch hsupports
    rw [h] at hsupports ⊢
    rcases Option.isSome_iff_exists.mp hsupports with ⟨altLabel, halt⟩
    unfold AlternativeLabels.includeToLabel
    cases switch with
    | default => exact Or.inl rfl
    | withSpamAndTrash =>
        rw [halt]
        exact Or.inr halt
  answers := by
    rw [h]
    rfl
  reloads := by
    rw [h]
    rfl

/-- A worker is replaced only while the constructor's label is selected. -/
def RespawnedAtHome (setup : Setup) (s : ScrollerState) :
    ScrollerEvent -> Prop
  | ScrollerEvent.abort => s.selectedLabel setup = setup.label
  | _ => True

structure LabelsFollow (setup : Setup) (s : ScrollerState) : Prop where
  worker : forall w, s.worker = some w ->
    w.alternativeLabels =
      AlternativeLabels.new setup.db (s.selectedLabel setup)
  respawning : s.respawning ≠ none -> s.selectedLabel setup = setup.label
  stopped : s.respawning ≠ none -> s.worker = none

theorem LabelsFollow.start : LabelsFollow setup (start setup) := by
  constructor
  · intro w hw
    cases hw
    rfl
  · intro h
    exact absurd rfl h
  · intro h
    exact absurd rfl h

theorem LabelsFollow.keep (hs : LabelsFollow setup s)
    {w w' : RespawnedWorker} (hworker : s.worker = some w)
    (hworker' : s'.worker = some w')
    (hlabels : w'.alternativeLabels = w.alternativeLabels)
    (hrespawning : s'.respawning = s.respawning)
    (hhandled : s'.handledLabel = s.handledLabel) : LabelsFollow setup s' := by
  have hstopped : s'.respawning = none := by
    by_contra hne
    rw [hrespawning] at hne
    rw [hs.stopped hne] at hworker
    cases hworker
  constructor
  · intro v hv
    rw [hworker'] at hv
    cases hv
    rw [hlabels, hs.worker w hworker]
    unfold selectedLabel
    rw [hhandled]
  · exact fun hne => absurd hstopped hne
  · exact fun hne => absurd hstopped hne

theorem LabelsFollow.next (hs : LabelsFollow setup s) {e : ScrollerEvent}
    (hallowed : RespawnedAtHome setup s e)
    (h : s.next setup e = some s') : LabelsFollow setup s' := by
  cases e with
  | call call =>
      simp only [ScrollerState.next] at h
      split at h
      · cases h
      · cases h
        exact ⟨hs.worker, hs.respawning, hs.stopped⟩
  | abort =>
      simp only [ScrollerState.next] at h
      split at h
      · cases h
        exact ⟨fun w hw => (nomatch hw), fun _ => hallowed, fun _ => rfl⟩
      · cases h
  | spawn =>
      simp only [ScrollerState.next] at h
      split at h
      · cases h
      · rename_i generation hrespawning
        cases h
        have hhome := hs.respawning (by simp [hrespawning])
        constructor
        · intro w hw
          cases hw
          show AlternativeLabels.new setup.db setup.label = _
          rw [<- hhome]
          rfl
        · intro hne
          exact absurd rfl hne
        · intro hne
          exact absurd rfl hne
  | send =>
      simp only [ScrollerState.next] at h
      split at h
      · cases h
        exact ⟨hs.worker, hs.respawning, hs.stopped⟩
      · cases h
  | post command =>
      simp only [ScrollerState.next] at h
      split at h
      · cases h
        exact ⟨hs.worker, hs.respawning, hs.stopped⟩
      · cases h
  | receive =>
      simp only [ScrollerState.next] at h
      split at h
      · rename_i hworker
        cases h
        exact hs.keep hworker rfl rfl rfl rfl
      · cases h
  | begin =>
      simp only [ScrollerState.next] at h
      split at h
      · rename_i hworker
        cases h
        exact hs.keep hworker rfl rfl rfl rfl
      · cases h
  | change =>
      simp only [ScrollerState.next] at h
      split at h
      · rename_i hworker
        cases h
        exact hs.keep hworker rfl rfl rfl rfl
      · cases h
  | finish =>
      simp only [ScrollerState.next] at h
      split at h
      · rename_i hworker
        split at h
        · cases h
          constructor
          · intro w hw
            cases hw
            rfl
          · intro hne
            rw [hs.stopped hne] at hworker
            cases hworker
          · intro hne
            rw [hs.stopped hne] at hworker
            cases hworker
        · cases h
          exact hs.keep hworker rfl rfl rfl rfl
      · cases h

/--
In every run in which workers are replaced only while the constructor's label
is selected, the worker's alternative labels are those of the label that the
last handled `ChangeLabel` has selected.
-/
theorem alternative_labels_follow
    (hreach : (respawnSystem setup).ReachableWhen (RespawnedAtHome setup) s)
    {w : RespawnedWorker} (hw : s.worker = some w) :
    WorksFor setup.db (s.selectedLabel setup) w := by
  have hs : LabelsFollow setup s :=
    TransitionSystem.invariant_when (LabelsFollow setup)
      (fun s hinit => by rw [hinit]; exact LabelsFollow.start)
      (fun s e s' _ hinv hallowed hstep => hinv.next hallowed hstep) hreach
  exact WorksFor.of_alternatives (hs.worker w hw)

/-- Label 7 and the constructor's label 0, neither with an alternative. -/
def twoLabels : Setup where
  db :=
    { labels := ⟨[], 0, List.nodup_nil, by simp, by simp⟩
      loadView := fun _ => {}
      resolveFilterIds := fun _ => [] }
  kind := SourceKind.dataScroller
  label := 0
  source := ⟨0, ReadFilter.all, "", {}⟩

def afterChangeLabel : ScrollerState :=
  { start twoLabels with
    generation := 1
    worker := some ⟨1, AlternativeLabels.new twoLabels.db 7, [], none⟩
    source := ⟨7, ReadFilter.all, "", {}⟩
    calls := [Call.changeLabel 7]
    handledLabel := some 7 }

theorem afterChangeLabel_follows :
    WorksFor twoLabels.db 7
      ⟨1, AlternativeLabels.new twoLabels.db 7, [], none⟩ := by
  have h₀ : (respawnSystem twoLabels).ReachableWhen
      (RespawnedAtHome twoLabels) (start twoLabels) :=
    TransitionSystem.ReachableWhen.start rfl
  have h₁ := h₀.next (l := ScrollerEvent.call (Call.changeLabel 7))
    True.intro rfl
  have h₂ := h₁.next (l := ScrollerEvent.abort) rfl rfl
  have h₃ := h₂.next (l := ScrollerEvent.send) True.intro rfl
  have h₄ := h₃.next (l := ScrollerEvent.spawn) True.intro rfl
  have h₅ := h₄.next (l := ScrollerEvent.receive) True.intro rfl
  have h₆ := h₅.next (l := ScrollerEvent.begin) True.intro rfl
  have h₇ := h₆.next (l := ScrollerEvent.change) True.intro rfl
  have h₈ := h₇.next (l := ScrollerEvent.finish) True.intro
    (show _ = some afterChangeLabel from rfl)
  exact alternative_labels_follow h₈ rfl

/-- The label is changed, and then the read filter. -/
def changeLabelThenFilter : List ScrollerEvent :=
  [ScrollerEvent.call (Call.changeLabel 7), ScrollerEvent.abort,
    ScrollerEvent.send, ScrollerEvent.spawn, ScrollerEvent.receive,
    ScrollerEvent.begin, ScrollerEvent.change, ScrollerEvent.finish,
    ScrollerEvent.call (Call.changeFilter ReadFilter.unread),
    ScrollerEvent.abort, ScrollerEvent.spawn, ScrollerEvent.send,
    ScrollerEvent.receive, ScrollerEvent.begin]

theorem filter_handled_with_old_alternatives :
    exists s w, (respawnSystem twoLabels).Reachable s ∧
      s.worker = some w ∧ w.current ≠ none ∧
      s.selectedLabel twoLabels = 7 ∧
      w.alternativeLabels ≠
        AlternativeLabels.new twoLabels.db (s.selectedLabel twoLabels) := by
  have hstart : (respawnSystem twoLabels).Reachable (start twoLabels) :=
    TransitionSystem.ReachableWhen.start rfl
  have hrun : changeLabelThenFilter.foldlM (next twoLabels)
      (start twoLabels) = some _ := rfl
  refine ⟨_, _, hstart.replay (fun _ _ _ hstep => hstep) hrun, rfl, ?_, rfl, ?_⟩
  · exact fun h => nomatch h
  · intro h
    cases congrArg AlternativeLabels.label h

end ScrollerState

end Scroller
end MailClient
