import MailClient.Scroller.Respawn

/-!
# View changes are not lost

The source of a drained scroller should show what the calls lead to when they
are applied one after another.  A call whose command has not reached the source
when the next call aborts the worker is lost, so the runs here are those in
which that does not happen.
-/

namespace MailClient
namespace Scroller
namespace ScrollerState

open Foundation

variable {setup : Setup} {s s' : ScrollerState}

/-- The commands that have not reached the source yet, in order. -/
def pending (s : ScrollerState) : List Command :=
  (match s.worker with
    | none => []
    | some w =>
        (match w.current with
          | some (command, false) => [command]
          | _ => []) ++ w.batch) ++ s.queue

/-- The view changes that have not reached the source yet. -/
def unapplied (s : ScrollerState) : List Command :=
  s.pending.filter Command.isChange

/-- The view that the calls so far lead to when they are applied in turn. -/
def intended (setup : Setup) (s : ScrollerState) : View :=
  View.run setup.db setup.kind ⟨setup.source, setup.label⟩ s.calls

/-- All channels are empty and nobody is working. -/
def Drained (s : ScrollerState) : Prop :=
  s.client = none ∧ s.signals = [] ∧ s.respawning = none ∧ s.queue = [] ∧
    exists w, s.worker = some w ∧ w.batch = [] ∧ w.current = none

def NoChangeLost (setup : Setup) (s : ScrollerState) : Prop :=
  s.Drained -> s.source = (s.intended setup).selection

/-- The include switch means for the worker what it means for the label. -/
def SwitchAgrees (db : ViewTables) (labels : AlternativeLabels)
    (chosen : LocalLabelId) : Prop :=
  labels = AlternativeLabels.new db chosen ∨
    (labels.supportsIncludeFilter = false ∧
      (AlternativeLabels.new db chosen).supportsIncludeFilter = false)

/--
A worker is aborted only when every view change that was sent has reached the
source, and `change_include` is handled with the alternatives of the label that
was chosen last.  The settings of the categories do not change meanwhile.
-/
def Settled (setup : Setup) (s : ScrollerState) : ScrollerEvent -> Prop
  | ScrollerEvent.abort => s.unapplied = []
  | ScrollerEvent.change =>
      forall w command, s.worker = some w ->
        w.current = some (command, false) ->
        match command with
        | Command.changeInclude _ _ _ =>
            SwitchAgrees setup.db w.alternativeLabels
              (s.intended setup).chosen
        | Command.categoryViewChanged _ _ => False
        | _ => True
  | _ => True

/-- Everything is applied, or everything but the last call, which is pending. -/
inductive Progressing (setup : Setup) (s : ScrollerState) : Prop where
  | applied : s.unapplied = [] ->
      s.source = (s.intended setup).selection -> Progressing setup s
  | waiting (before : List Call) (call : Call) (generation : Nat) :
      s.calls = before ++ [call] ->
      s.unapplied = [call.command generation] ->
      s.source = (View.run setup.db setup.kind ⟨setup.source, setup.label⟩
        before).selection ->
      (forall w, s.worker = some w -> w.generation ≤ generation) ->
      (forall g, s.respawning = some g -> g ≤ generation) ->
      Progressing setup s

structure InTurn (setup : Setup) (s : ScrollerState) : Prop where
  worker_generation : forall w, s.worker = some w ->
    w.generation ≤ s.generation
  respawning_generation : forall g, s.respawning = some g ->
    g ≤ s.generation
  signal_generation : forall g, g ∈ s.signals -> g ≤ s.generation
  client_generation : forall p, s.client = some p ->
    p.generation = s.generation
  stopped : s.respawning ≠ none -> s.worker = none
  aborted : forall p, s.client = some p -> p.aborted = true ->
    s.unapplied = []
  progressing : Progressing setup s

theorem Call.command_isChange (call : Call) (generation : Nat) :
    (call.command generation).isChange = true := by
  cases call <;> rfl

theorem Call.command_generation (call : Call) (generation : Nat) :
    (call.command generation).generation = generation := by
  cases call <;> rfl

theorem filter_takeBatch {generation : Nat} {queue : List Command}
    (hone : (queue.filter Command.isChange).length ≤ 1)
    (hrecent : forall c, c ∈ queue -> c.isChange = true ->
      generation ≤ c.generation) :
    (takeBatch id generation queue).filter Command.isChange =
      queue.filter Command.isChange := by
  have hfilter : (queue.filter (fun c => decide
      (generation ≤ (id c).generation))).filter Command.isChange =
      queue.filter Command.isChange := by
    rw [List.filter_filter]
    apply List.filter_congr
    intro c hc
    cases hchange : c.isChange with
    | false => rfl
    | true => simp [hrecent c hc hchange]
  refine Eq.trans (filter_dedupBy ?_ ?_) hfilter
  · exact fun a b h => Command.isChange_of_partialEq a b h
  · rw [hfilter]
    exact hone

theorem Progressing.length_le (h : Progressing setup s) :
    s.unapplied.length ≤ 1 := by
  cases h with
  | applied hnil _ => simp [hnil]
  | waiting _ _ _ _ hone _ _ _ => simp [hone]

theorem Progressing.recent (h : Progressing setup s) {w : RespawnedWorker}
    (hw : s.worker = some w) {c : Command} (hc : c ∈ s.unapplied) :
    w.generation ≤ c.generation := by
  cases h with
  | applied hnil _ =>
      rw [hnil] at hc
      cases hc
  | waiting before call generation _ hone _ hworker _ =>
      rw [hone] at hc
      rw [List.mem_singleton.mp hc, Call.command_generation]
      exact hworker w hw

theorem Progressing.keep (h : Progressing setup s)
    (hcalls : s'.calls = s.calls) (hsource : s'.source = s.source)
    (hunapplied : s'.unapplied = s.unapplied)
    (hworker : forall w', s'.worker = some w' ->
      (exists w, s.worker = some w ∧ w.generation = w'.generation) ∨
        s.respawning = some w'.generation)
    (hrespawning : forall g, s'.respawning = some g ->
      s.respawning = some g) : Progressing setup s' := by
  cases h with
  | applied hnil hsrc =>
      apply Progressing.applied
      · rw [hunapplied, hnil]
      · unfold intended
        rw [hsource, hcalls]
        exact hsrc
  | waiting before call generation hc hone hsrc hw hg =>
      apply Progressing.waiting before call generation
      · rw [hcalls, hc]
      · rw [hunapplied, hone]
      · rw [hsource, hsrc]
      · intro w' hw'
        rcases hworker w' hw' with ⟨w, hwold, heq⟩ | hnew
        · rw [<- heq]
          exact hw w hwold
        · exact hg _ hnew
      · intro g hgnew
        exact hg g (hrespawning g hgnew)

theorem handleSelection_call {labels : AlternativeLabels} {v : View}
    {call : Call} {generation : Nat}
    (hagrees : forall switch, call = Call.changeInclude switch ->
      SwitchAgrees setup.db labels v.chosen) :
    handleSelection setup.db setup.kind labels v.selection
        (call.command generation) =
      (v.apply setup.db setup.kind call).selection := by
  cases call with
  | changeInclude switch =>
      rcases hagrees switch rfl with hsame | ⟨hno, hno'⟩
      · rw [hsame]
        rfl
      · simp [handleSelection, View.apply, Call.command, hno, hno']
  | changeFilter readFilter => rfl
  | changeLabel label => rfl
  | changeCategoryView category => rfl
  | changeKeywords keywords => rfl

theorem handleSelection_other {labels : AlternativeLabels} {sel : Selection}
    {command : Command} (hother : command.isChange = false)
    (hcategory : forall src g, command ≠ Command.categoryViewChanged src g) :
    handleSelection setup.db setup.kind labels sel command = sel := by
  cases command with
  | categoryViewChanged src g => exact absurd rfl (hcategory src g)
  | changeUnreadFilter src g readFilter => cases hother
  | changeCategoryView src g category => cases hother
  | changeLabel src g label => cases hother
  | changeInclude src g switch => cases hother
  | changeKeywords src g keywords => cases hother
  | fetchMore src g tx => rfl
  | fetchNew src g notify => rfl
  | refresh src g => rfl
  | forceRefresh src g => rfl
  | getItems src g => rfl
  | clear src g => rfl
  | alternativeLabels g tx => rfl
  | categoryView g tx => rfl

theorem Progressing.change (h : Progressing setup s)
    {generation : Nat} {labels : AlternativeLabels} {batch : List Command}
    {command : Command}
    (hw : s.worker = some ⟨generation, labels, batch, some (command, false)⟩)
    (hallowed : Settled setup s ScrollerEvent.change) :
    Progressing setup { s with
      source := handleSelection setup.db setup.kind labels s.source command
      worker := some ⟨generation, labels, batch, some (command, true)⟩ } := by
  have hpending : s.pending = command :: (batch ++ s.queue) := by
    simp [pending, hw]
  have hcond := hallowed _ command hw rfl
  cases hchange : command.isChange with
  | false =>
      have hunapplied : s.unapplied =
          (batch ++ s.queue).filter Command.isChange := by
        simp [unapplied, hpending, hchange]
      have hsame : handleSelection setup.db setup.kind labels s.source
          command = s.source := by
        apply handleSelection_other hchange
        rintro src g rfl
        exact hcond
      refine h.keep rfl hsame ?_ ?_ (fun _ hg => hg)
      · rw [hunapplied]
        rfl
      · intro w' hw'
        cases hw'
        exact Or.inl ⟨_, hw, rfl⟩
  | true =>
      have hunapplied : s.unapplied =
          command :: (batch ++ s.queue).filter Command.isChange := by
        simp [unapplied, hpending, hchange]
      cases h with
      | applied hnil _ =>
          rw [hunapplied] at hnil
          cases hnil
      | waiting before call g hcalls hone hsource _ _ =>
          rw [hunapplied] at hone
          rcases List.cons.inj hone with ⟨rfl, hnil⟩
          apply Progressing.applied
          · exact hnil
          · have hrun : View.run setup.db setup.kind
                ⟨setup.source, setup.label⟩ s.calls =
                (View.run setup.db setup.kind ⟨setup.source, setup.label⟩
                  before).apply setup.db setup.kind call := by
              rw [hcalls]
              unfold View.run
              rw [List.foldl_append]
              rfl
            show handleSelection _ _ _ s.source _ = (View.run _ _ _ s.calls).selection
            rw [hrun, hsource]
            apply handleSelection_call
            rintro switch rfl
            have hagrees : SwitchAgrees setup.db labels
                (s.intended setup).chosen := hcond
            unfold intended at hagrees
            rw [hrun] at hagrees
            exact hagrees

theorem InTurn.work (hs : InTurn setup s) {w w' : RespawnedWorker}
    (hw : s.worker = some w) (hw' : s'.worker = some w')
    (hgeneration : w'.generation = w.generation)
    (hstate : s'.generation = s.generation ∧ s'.signals = s.signals ∧
      s'.client = s.client ∧ s'.respawning = s.respawning)
    (hunapplied : s.unapplied = [] -> s'.unapplied = [])
    (hprogressing : Progressing setup s') : InTurn setup s' := by
  rcases hstate with ⟨hgen, hsignals, hclient, hrespawning⟩
  constructor
  · intro v hv
    rw [hw'] at hv
    cases hv
    rw [hgeneration, hgen]
    exact hs.worker_generation w hw
  · rw [hrespawning, hgen]
    exact hs.respawning_generation
  · rw [hsignals, hgen]
    exact hs.signal_generation
  · rw [hclient, hgen]
    exact hs.client_generation
  · intro hne
    rw [hrespawning] at hne
    rw [hs.stopped hne] at hw
    cases hw
  · intro p hp haborted
    rw [hclient] at hp
    exact hunapplied (hs.aborted p hp haborted)
  · exact hprogressing

theorem InTurn.work_on (hs : InTurn setup s) {w w' : RespawnedWorker}
    (hw : s.worker = some w) (hw' : s'.worker = some w')
    (hgeneration : w'.generation = w.generation)
    (hstate : s'.generation = s.generation ∧ s'.signals = s.signals ∧
      s'.client = s.client ∧ s'.respawning = s.respawning)
    (hcalls : s'.calls = s.calls) (hsource : s'.source = s.source)
    (hunapplied : s'.unapplied = s.unapplied) : InTurn setup s' := by
  refine hs.work hw hw' hgeneration hstate (fun h => hunapplied.trans h) ?_
  refine hs.progressing.keep hcalls hsource hunapplied ?_ ?_
  · intro v hv
    rw [hw'] at hv
    cases hv
    exact Or.inl ⟨w, hw, hgeneration.symm⟩
  · intro g hg
    rw [hstate.right.right.right] at hg
    exact hg

theorem InTurn.start : InTurn setup (start setup) := by
  constructor
  · intro w hw
    cases hw
    exact Nat.le_refl 0
  · exact fun _ h => nomatch h
  · exact fun _ h => nomatch h
  · exact fun _ h => nomatch h
  · exact fun h => absurd rfl h
  · exact fun _ h => nomatch h
  · exact Progressing.applied rfl rfl

theorem InTurn.abort (hs : InTurn setup s) (hnil : s.unapplied = [])
    (h : s.next setup ScrollerEvent.abort = some s') : InTurn setup s' := by
  simp only [ScrollerState.next] at h
  split at h
  · rename_i generation rest _ hsignals
    cases h
    have hqueue : s.queue.filter Command.isChange = [] := by
      unfold unapplied pending at hnil
      rw [List.filter_append] at hnil
      exact (List.append_eq_nil_iff.mp hnil).right
    have hle : generation ≤ s.generation :=
      hs.signal_generation generation (by simp [hsignals])
    constructor
    · intro _ hw
      cases hw
    · intro g hg
      cases hg
      exact hle
    · intro g hg
      exact hs.signal_generation g (by simp [hsignals, hg])
    · intro p hp
      rcases Option.map_eq_some_iff.mp hp with ⟨old, hold, rfl⟩
      have hgeneration := hs.client_generation old hold
      split
      · exact hgeneration
      · exact hgeneration
    · exact fun _ => rfl
    · exact fun _ _ _ => hqueue
    · cases hs.progressing with
      | applied _ hsource => exact Progressing.applied hqueue hsource
      | waiting _ _ _ _ hone _ _ _ =>
          rw [hnil] at hone
          cases hone
  · cases h

theorem InTurn.send (hs : InTurn setup s)
    (h : s.next setup ScrollerEvent.send = some s') : InTurn setup s' := by
  simp only [ScrollerState.next] at h
  split at h
  · rename_i generation call hclient
    cases h
    have hnil := hs.aborted _ hclient rfl
    have hgeneration : generation = s.generation :=
      hs.client_generation _ hclient
    refine ⟨hs.worker_generation, hs.respawning_generation,
      hs.signal_generation, (fun _ hp => by cases hp), hs.stopped,
      (fun _ hp => by cases hp), ?_⟩
    cases hs.progressing with
    | applied _ hsource =>
        apply Progressing.waiting s.calls call generation rfl
        · have hpending : pending { s with
              client := none
              queue := s.queue ++ [call.command generation]
              calls := s.calls ++ [call] } =
              s.pending ++ [call.command generation] := by
            simp [pending]
          unfold unapplied
          rw [hpending, List.filter_append]
          unfold unapplied at hnil
          rw [hnil]
          simp [Call.command_isChange]
        · exact hsource
        · intro w hw
          rw [hgeneration]
          exact hs.worker_generation w hw
        · intro g hg
          rw [hgeneration]
          exact hs.respawning_generation g hg
    | waiting _ _ _ _ hone _ _ _ =>
        rw [hnil] at hone
        cases hone
  · cases h

theorem InTurn.spawn (hs : InTurn setup s)
    (h : s.next setup ScrollerEvent.spawn = some s') : InTurn setup s' := by
  simp only [ScrollerState.next] at h
  split at h
  · cases h
  · rename_i generation hrespawning
    cases h
    have hstopped : s.worker = none := hs.stopped (by simp [hrespawning])
    have hunapplied : unapplied { s with
        respawning := none
        worker := some (worker₀ setup generation) } = s.unapplied := by
      simp [unapplied, pending, hstopped, worker₀]
    constructor
    · intro w hw
      cases hw
      exact hs.respawning_generation generation hrespawning
    · intro _ hg
      cases hg
    · exact hs.signal_generation
    · exact hs.client_generation
    · exact fun hne => absurd rfl hne
    · intro p hp haborted
      rw [hunapplied]
      exact hs.aborted p hp haborted
    · refine hs.progressing.keep rfl rfl hunapplied ?_
        (fun _ hg => by cases hg)
      intro w' hw'
      cases hw'
      exact Or.inr hrespawning

theorem InTurn.receive (hs : InTurn setup s)
    (h : s.next setup ScrollerEvent.receive = some s') : InTurn setup s' := by
  simp only [ScrollerState.next] at h
  split at h
  · rename_i generation labels hworker
    cases h
    have hpending : s.pending = s.queue := by
      simp [pending, hworker]
    have hunapplied : unapplied { s with
        queue := []
        worker := some ⟨generation, labels,
          takeBatch id generation s.queue, none⟩ } = s.unapplied := by
      have hone := hs.progressing.length_le
      have hrecent := fun c (hc : c ∈ s.unapplied) =>
        hs.progressing.recent hworker hc
      unfold unapplied at hone hrecent ⊢
      rw [hpending] at hone hrecent ⊢
      simp only [pending, List.nil_append, List.append_nil]
      apply filter_takeBatch hone
      intro c hc hchange
      exact hrecent c (List.mem_filter.mpr ⟨hc, hchange⟩)
    exact hs.work_on hworker rfl rfl ⟨rfl, rfl, rfl, rfl⟩ rfl rfl hunapplied
  · cases h

theorem InTurn.begin (hs : InTurn setup s)
    (h : s.next setup ScrollerEvent.begin = some s') : InTurn setup s' := by
  simp only [ScrollerState.next] at h
  split at h
  · rename_i generation labels command rest hworker
    cases h
    have hunapplied : unapplied { s with
        worker := some ⟨generation, labels, rest, some (command, false)⟩ } =
        s.unapplied := by
      simp [unapplied, pending, hworker]
    exact hs.work_on hworker rfl rfl ⟨rfl, rfl, rfl, rfl⟩ rfl rfl hunapplied
  · cases h

theorem InTurn.change (hs : InTurn setup s)
    (hallowed : Settled setup s ScrollerEvent.change)
    (h : s.next setup ScrollerEvent.change = some s') : InTurn setup s' := by
  simp only [ScrollerState.next] at h
  split at h
  · rename_i generation labels batch command hworker
    cases h
    refine hs.work hworker rfl rfl ⟨rfl, rfl, rfl, rfl⟩ ?_
      (hs.progressing.change hworker hallowed)
    intro hnil
    unfold unapplied pending at hnil ⊢
    simp only [hworker, List.cons_append, List.filter_cons] at hnil
    simp only [List.nil_append]
    split at hnil
    · cases hnil
    · exact hnil
  · cases h

theorem InTurn.finish (hs : InTurn setup s)
    (h : s.next setup ScrollerEvent.finish = some s') : InTurn setup s' := by
  have hkeep : forall {generation labels labels' batch command handledLabel},
      s.worker = some ⟨generation, labels, batch, some (command, true)⟩ ->
      InTurn setup { s with
        handledLabel := handledLabel
        worker := some ⟨generation, labels', batch, none⟩ } := by
    intro generation labels labels' batch command handledLabel hworker
    have hunapplied : unapplied { s with
        handledLabel := handledLabel
        worker := some ⟨generation, labels', batch, none⟩ } =
        s.unapplied := by
      simp [unapplied, pending, hworker]
    exact hs.work_on hworker rfl rfl ⟨rfl, rfl, rfl, rfl⟩ rfl rfl hunapplied
  simp only [ScrollerState.next] at h
  split at h
  · rename_i hworker
    split at h
    · cases h
      exact hkeep hworker
    · cases h
      exact hkeep hworker
  · cases h

theorem InTurn.next (hs : InTurn setup s) {e : ScrollerEvent}
    (hallowed : Settled setup s e) (h : s.next setup e = some s') :
    InTurn setup s' := by
  cases e with
  | call call =>
      simp only [ScrollerState.next] at h
      split at h
      · cases h
      · cases h
        refine ⟨fun w hw => Nat.le_succ_of_le (hs.worker_generation w hw),
          fun g hg => Nat.le_succ_of_le (hs.respawning_generation g hg),
          ?_, ?_, hs.stopped, ?_, ?_⟩
        · intro g hg
          rcases List.mem_append.mp hg with hg | hg
          · exact Nat.le_succ_of_le (hs.signal_generation g hg)
          · exact Nat.le_of_eq (List.mem_singleton.mp hg)
        · intro p hp
          cases hp
          rfl
        · intro p hp haborted
          cases hp
          cases haborted
        · exact hs.progressing.keep rfl rfl rfl
            (fun w hw => Or.inl ⟨w, hw, rfl⟩) (fun _ hg => hg)
  | abort => exact hs.abort hallowed h
  | spawn => exact hs.spawn h
  | send => exact hs.send h
  | post command =>
      simp only [ScrollerState.next] at h
      split at h
      · rename_i hother
        cases h
        have hunapplied : unapplied { s with queue := s.queue ++ [command] } =
            s.unapplied := by
          simp [unapplied, pending, hother.left]
        refine ⟨hs.worker_generation, hs.respawning_generation,
          hs.signal_generation, hs.client_generation, hs.stopped, ?_, ?_⟩
        · intro p hp haborted
          rw [hunapplied]
          exact hs.aborted p hp haborted
        · exact hs.progressing.keep rfl rfl hunapplied
            (fun w hw => Or.inl ⟨w, hw, rfl⟩) (fun _ hg => hg)
      · cases h
  | receive => exact hs.receive h
  | begin => exact hs.begin h
  | change => exact hs.change hallowed h
  | finish => exact hs.finish h

/--
In every run in which workers are aborted only after the view changes sent so
far have reached the source, and `change_include` uses the alternatives of the
chosen label, no view change is lost.
-/
theorem view_changes_not_lost
    (hreach : (respawnSystem setup).ReachableWhen (Settled setup) s) :
    s.NoChangeLost setup := by
  have hs : InTurn setup s :=
    TransitionSystem.invariant_when (InTurn setup)
      (fun s hinit => by rw [hinit]; exact InTurn.start)
      (fun s e s' _ hinv hallowed hstep => hinv.next hallowed hstep) hreach
  rintro ⟨_, _, _, hqueue, w, hworker, hbatch, hcurrent⟩
  have hnil : s.unapplied = [] := by
    simp [unapplied, pending, hworker, hbatch, hcurrent, hqueue]
  cases hs.progressing with
  | applied _ hsource => exact hsource
  | waiting _ _ _ _ hone _ _ _ =>
      rw [hnil] at hone
      cases hone

theorem afterChangeLabel_not_lost : afterChangeLabel.NoChangeLost twoLabels := by
  have h₀ : (respawnSystem twoLabels).ReachableWhen (Settled twoLabels)
      (start twoLabels) := TransitionSystem.ReachableWhen.start rfl
  have h₁ := h₀.next (l := ScrollerEvent.call (Call.changeLabel 7))
    True.intro rfl
  have h₂ := h₁.next (l := ScrollerEvent.abort) rfl rfl
  have h₃ := h₂.next (l := ScrollerEvent.send) True.intro rfl
  have h₄ := h₃.next (l := ScrollerEvent.spawn) True.intro rfl
  have h₅ := h₄.next (l := ScrollerEvent.receive) True.intro rfl
  have h₆ := h₅.next (l := ScrollerEvent.begin) True.intro rfl
  have h₇ := h₆.next (l := ScrollerEvent.change) (by
    intro w command hw hcurrent
    cases hw
    cases hcurrent
    exact True.intro) rfl
  have h₈ := h₇.next (l := ScrollerEvent.finish) True.intro
    (show _ = some afterChangeLabel from rfl)
  exact view_changes_not_lost h₈

/-- The second call aborts the worker before it has looked at the first. -/
def overtaken : List ScrollerEvent :=
  [ScrollerEvent.call (Call.changeLabel 7), ScrollerEvent.abort,
    ScrollerEvent.send, ScrollerEvent.spawn,
    ScrollerEvent.call (Call.changeFilter ReadFilter.unread),
    ScrollerEvent.abort, ScrollerEvent.send, ScrollerEvent.spawn,
    ScrollerEvent.receive, ScrollerEvent.begin, ScrollerEvent.change,
    ScrollerEvent.finish]

theorem overtaken_loses_label :
    exists s, (respawnSystem twoLabels).Reachable s ∧ s.Drained ∧
      s.calls = [Call.changeLabel 7, Call.changeFilter ReadFilter.unread] ∧
      s.source.label = 0 ∧ (s.intended twoLabels).selection.label = 7 ∧
      ¬ s.NoChangeLost twoLabels := by
  have hstart : (respawnSystem twoLabels).Reachable (start twoLabels) :=
    TransitionSystem.ReachableWhen.start rfl
  have hrun : overtaken.foldlM (next twoLabels) (start twoLabels) = some _ :=
    rfl
  refine ⟨_, hstart.replay (fun _ _ _ hstep => hstep) hrun,
    ⟨rfl, rfl, rfl, rfl, _, rfl, rfl, rfl⟩, rfl, rfl, rfl, ?_⟩
  intro hkept
  cases congrArg Selection.label
    (hkept ⟨rfl, rfl, rfl, rfl, _, rfl, rfl, rfl⟩)

end ScrollerState

end Scroller
end MailClient
