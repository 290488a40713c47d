import MailClient.Foundation.Transition
import MailClient.Scroller.Channel

/-!
# Requests that wait for an answer

`MailCursor::fetch_next`, `category_view` and `supports_include_filter` send a
command with the sender of a one-shot channel and wait until it is used or
dropped.  The worker of one generation handles the commands of a batch one
after another, while clients go on sending.
-/

namespace MailClient
namespace Scroller

open Foundation

/-- A command with its position among all commands that were sent. -/
abbrev SentCommand := Nat × Command

/--
The worker of one generation with its channels.  The last four fields record
history: what was sent and handled, and which senders were used or dropped.
-/
structure CommandLoop where
  generation : Nat
  queue : List SentCommand
  batch : List SentCommand
  /-- The receiver of the updates has not been dropped. -/
  updatesOpen : Bool
  sent : List SentCommand
  handled : List SentCommand
  answered : List Sender
  dropped : List Sender
  deriving DecidableEq, Repr

inductive LoopEvent where
  | send (command : Command)
  /-- The worker is idle, and `recv_async` and `drain` empty the channel. -/
  | receive
  /-- The next command of the batch; `isSome` is about the update it leads to. -/
  | handle (isSome : Bool)
  | closeUpdates
  deriving DecidableEq, Repr

namespace CommandLoop

def start (generation : Nat) : CommandLoop where
  generation := generation
  queue := []
  batch := []
  updatesOpen := true
  sent := []
  handled := []
  answered := []
  dropped := []

/-- The senders of the commands that did not make it into a batch. -/
def merged (waiting kept : List SentCommand) : List Sender :=
  (waiting.filter (fun c => c ∉ kept)).filterMap (fun c => c.2.tx)

/--
Only `FetchMore` reports to the client before it answers, and it gives up if
nobody listens.
-/
def reportFails (s : CommandLoop) (isSome : Bool) : Command -> Bool
  | Command.fetchMore src _ _ =>
      !s.updatesOpen &&
        (isSome || match src with
          | ScrollerSource.scrollEvent _ => true
          | _ => false)
  | _ => false

def next (s : CommandLoop) : LoopEvent -> Option CommandLoop
  | LoopEvent.send command =>
      if command.generation = s.generation ∧
          (forall tx, command.tx = some tx ->
            tx ∉ s.sent.filterMap (fun c => c.2.tx)) then
        some { s with
          queue := s.queue ++ [(s.sent.length, command)]
          sent := s.sent ++ [(s.sent.length, command)] }
      else
        none
  | LoopEvent.receive =>
      if s.batch = [] ∧ s.queue ≠ [] then
        let batch := takeBatch Prod.snd s.generation s.queue
        some { s with
          queue := []
          batch := batch
          dropped := s.dropped ++ merged s.queue batch }
      else
        none
  | LoopEvent.handle isSome =>
      match s.batch with
      | [] => none
      | c :: rest =>
          let s' := { s with batch := rest, handled := s.handled ++ [c] }
          if s.reportFails isSome c.2 then
            some { s' with dropped := s.dropped ++ c.2.tx.toList }
          else
            some { s' with answered := s.answered ++ c.2.tx.toList }
  | LoopEvent.closeUpdates => some { s with updatesOpen := false }

end CommandLoop

def commandLoop (generation : Nat) :
    TransitionSystem CommandLoop LoopEvent where
  init := fun s => s = CommandLoop.start generation
  step := fun s e s' => s.next e = some s'

namespace CommandLoop

/--
No waiting request directly follows an equal command when the channel is
emptied, and the receiver of the updates is there when one is handled.
-/
def Unmerged (s : CommandLoop) : LoopEvent -> Prop
  | LoopEvent.receive =>
      forall c, c ∈ s.queue -> c.2.tx ≠ none ->
        ¬ FollowsSame (fun a b => a.2.partialEq b.2) s.queue c
  | LoopEvent.handle isSome =>
      forall c rest, s.batch = c :: rest -> c.2.tx ≠ none ->
        s.reportFails isSome c.2 = false
  | _ => True

/-- Every sender is used, or its command is still on the way. -/
def NoneDropped (s : CommandLoop) : Prop :=
  s.dropped = [] ∧
    forall c tx, c ∈ s.sent -> c.2.tx = some tx ->
      c ∈ s.queue ∨ c ∈ s.batch ∨ tx ∈ s.answered

/--
A sender is used only after a command of the kind of its request, which was not
sent before the request, has been handled.
-/
def AnsweredAfterHandling (s : CommandLoop) : Prop :=
  forall c tx, c ∈ s.sent -> c.2.tx = some tx -> tx ∈ s.answered ->
    exists c', c' ∈ s.handled ∧ c.2.sameKind c'.2 ∧ c.1 ≤ c'.1

structure Sound (s : CommandLoop) : Prop where
  queue_sent : forall c, c ∈ s.queue -> c ∈ s.sent
  batch_sent : forall c, c ∈ s.batch -> c ∈ s.sent
  queue_generation : forall c, c ∈ s.queue -> c.2.generation = s.generation
  tx_unique : forall c c' tx, c ∈ s.sent -> c' ∈ s.sent ->
    c.2.tx = some tx -> c'.2.tx = some tx -> c = c'
  answered_handled : forall tx, tx ∈ s.answered ->
    exists c, c ∈ s.sent ∧ c ∈ s.handled ∧ c.2.tx = some tx
  noneDropped : s.NoneDropped

variable {s s' : CommandLoop}

theorem Sound.start (generation : Nat) : Sound (start generation) := by
  constructor
  · exact fun _ h => nomatch h
  · exact fun _ h => nomatch h
  · exact fun _ h => nomatch h
  · exact fun _ _ _ h => nomatch h
  · exact fun _ h => nomatch h
  · exact ⟨rfl, fun _ _ h => nomatch h⟩

theorem Sound.send (hs : Sound s) {command : Command}
    (h : s.next (LoopEvent.send command) = some s') : Sound s' := by
  simp only [CommandLoop.next] at h
  split at h
  · rename_i hcond
    rcases hcond with ⟨hgeneration, hfresh⟩
    cases h
    have hnew : forall c tx, c ∈ s.sent -> c.2.tx = some tx ->
        command.tx ≠ some tx := by
      intro c tx hc htx hcommand
      exact hfresh tx hcommand (List.mem_filterMap.mpr ⟨c, hc, htx⟩)
    constructor
    · intro c hc
      rcases List.mem_append.mp hc with hc | hc
      · exact List.mem_append_left _ (hs.queue_sent c hc)
      · exact List.mem_append_right _ hc
    · intro c hc
      exact List.mem_append_left _ (hs.batch_sent c hc)
    · intro c hc
      rcases List.mem_append.mp hc with hc | hc
      · exact hs.queue_generation c hc
      · rw [List.mem_singleton.mp hc]
        exact hgeneration
    · intro c c' tx hc hc' htx htx'
      rcases List.mem_append.mp hc with hc | hc
      · rcases List.mem_append.mp hc' with hc' | hc'
        · exact hs.tx_unique c c' tx hc hc' htx htx'
        · rw [List.mem_singleton.mp hc'] at htx'
          exact absurd htx' (hnew c tx hc htx)
      · rw [List.mem_singleton.mp hc] at htx ⊢
        rcases List.mem_append.mp hc' with hc' | hc'
        · exact absurd htx (hnew c' tx hc' htx')
        · exact (List.mem_singleton.mp hc').symm
    · intro tx htx
      rcases hs.answered_handled tx htx with ⟨c, hc, hrest⟩
      exact ⟨c, List.mem_append_left _ hc, hrest⟩
    · refine ⟨hs.noneDropped.left, ?_⟩
      intro c tx hc htx
      rcases List.mem_append.mp hc with hc | hc
      · rcases hs.noneDropped.right c tx hc htx with hq | hrest
        · exact Or.inl (List.mem_append_left _ hq)
        · exact Or.inr hrest
      · exact Or.inl (List.mem_append_right _ hc)
  · cases h

theorem Sound.mem_takeBatch (hs : Sound s)
    (hunmerged : s.Unmerged LoopEvent.receive) {c : SentCommand}
    (hc : c ∈ s.queue) (htx : c.2.tx ≠ none) :
    c ∈ takeBatch Prod.snd s.generation s.queue := by
  have hall : s.queue.filter
      (fun c => decide (s.generation ≤ c.2.generation)) = s.queue := by
    apply List.filter_eq_self.mpr
    intro c' hc'
    exact decide_eq_true (Nat.le_of_eq (hs.queue_generation c' hc').symm)
  unfold takeBatch
  rw [hall]
  refine mem_dedupBy ?_ hc (hunmerged c hc htx)
  exact fun a b c' => Command.partialEq_euclid a.2 b.2 c'.2

theorem mem_queue_of_mem_takeBatch {c : SentCommand}
    (hc : c ∈ takeBatch Prod.snd s.generation s.queue) : c ∈ s.queue :=
  List.mem_of_mem_filter ((dedupBy_sublist _).subset hc)

theorem Sound.receive (hs : Sound s)
    (hunmerged : s.Unmerged LoopEvent.receive)
    (h : s.next LoopEvent.receive = some s') : Sound s' := by
  simp only [CommandLoop.next] at h
  split at h
  · cases h
    have hmerged : merged s.queue (takeBatch Prod.snd s.generation s.queue) =
        [] := by
      unfold merged
      apply List.filterMap_eq_nil_iff.mpr
      intro c hc
      rcases List.mem_filter.mp hc with ⟨hqueue, hlost⟩
      by_contra htx
      exact of_decide_eq_true hlost (hs.mem_takeBatch hunmerged hqueue htx)
    constructor
    · exact fun _ hc => nomatch hc
    · exact fun c hc => hs.queue_sent c (mem_queue_of_mem_takeBatch hc)
    · exact fun _ hc => nomatch hc
    · exact hs.tx_unique
    · exact hs.answered_handled
    · constructor
      · show s.dropped ++ merged _ _ = []
        rw [hmerged, hs.noneDropped.left]
        rfl
      · intro c tx hc htx
        rcases hs.noneDropped.right c tx hc htx with hqueue | hbatch | hdone
        · exact Or.inr (Or.inl (hs.mem_takeBatch hunmerged hqueue
            (by simp [htx])))
        · rename_i hidle
          rw [hidle.left] at hbatch
          cases hbatch
        · exact Or.inr (Or.inr hdone)
  · cases h

theorem Sound.handle (hs : Sound s) {isSome : Bool}
    (hunmerged : s.Unmerged (LoopEvent.handle isSome))
    (h : s.next (LoopEvent.handle isSome) = some s') : Sound s' := by
  simp only [CommandLoop.next] at h
  split at h
  · cases h
  · rename_i c rest hbatch
    have hsent : c ∈ s.sent := by
      apply hs.batch_sent
      rw [hbatch]
      exact List.mem_cons_self
    have hrest : forall c', c' ∈ rest -> c' ∈ s.sent := by
      intro c' hc'
      apply hs.batch_sent
      rw [hbatch]
      exact List.mem_cons_of_mem _ hc'
    have hkept : forall tx, tx ∈ s.answered ->
        exists c', c' ∈ s.sent ∧ c' ∈ s.handled ++ [c] ∧
          c'.2.tx = some tx := by
      intro tx htx
      rcases hs.answered_handled tx htx with ⟨c', hc', hhandled, htx'⟩
      exact ⟨c', hc', List.mem_append_left _ hhandled, htx'⟩
    split at h
    · -- The report failed, so nobody waits for this command.
      rename_i hfails
      cases h
      have htx : c.2.tx = none := by
        by_contra htx
        have hopen := hunmerged c rest hbatch htx
        rw [hfails] at hopen
        cases hopen
      refine ⟨hs.queue_sent, hrest, hs.queue_generation, hs.tx_unique, hkept,
        ?_, ?_⟩
      · show s.dropped ++ c.2.tx.toList = []
        rw [htx, hs.noneDropped.left]
        rfl
      · intro c' tx hc' htx'
        rcases hs.noneDropped.right c' tx hc' htx' with hq | hb | hdone
        · exact Or.inl hq
        · rw [hbatch] at hb
          rcases List.mem_cons.mp hb with rfl | hb
          · rw [htx] at htx'
            cases htx'
          · exact Or.inr (Or.inl hb)
        · exact Or.inr (Or.inr hdone)
    · cases h
      refine ⟨hs.queue_sent, hrest, hs.queue_generation, hs.tx_unique, ?_,
        hs.noneDropped.left, ?_⟩
      · intro tx htx
        rcases List.mem_append.mp htx with htx | htx
        · exact hkept tx htx
        · exact ⟨c, hsent, List.mem_append_right _ (List.mem_singleton.mpr rfl),
            by simpa using htx⟩
      · intro c' tx hc' htx'
        rcases hs.noneDropped.right c' tx hc' htx' with hq | hb | hdone
        · exact Or.inl hq
        · rw [hbatch] at hb
          rcases List.mem_cons.mp hb with rfl | hb
          · refine Or.inr (Or.inr (List.mem_append_right _ ?_))
            rw [htx']
            exact List.mem_singleton.mpr rfl
          · exact Or.inr (Or.inl hb)
        · exact Or.inr (Or.inr (List.mem_append_left _ hdone))

theorem Sound.next (hs : Sound s) {e : LoopEvent} (hunmerged : s.Unmerged e)
    (h : s.next e = some s') : Sound s' := by
  cases e with
  | send command => exact hs.send h
  | receive => exact hs.receive hunmerged h
  | handle isSome => exact hs.handle hunmerged h
  | closeUpdates =>
      cases h
      exact ⟨hs.queue_sent, hs.batch_sent, hs.queue_generation, hs.tx_unique,
        hs.answered_handled, hs.noneDropped⟩

theorem Sound.answeredAfterHandling (hs : Sound s) :
    s.AnsweredAfterHandling := by
  intro c tx hc htx hanswered
  rcases hs.answered_handled tx hanswered with ⟨c', hc', hhandled, htx'⟩
  cases hs.tx_unique c c' tx hc hc' htx htx'
  exact ⟨c, hhandled, rfl, Nat.le_refl _⟩

/--
In every run in which no waiting request directly follows an equal command in
a batch, and in which the updates are received, every request is answered by
its own command and none is dropped.
-/
theorem waiting_requests_answered {generation : Nat}
    (hreach : (commandLoop generation).ReachableWhen Unmerged s) :
    s.NoneDropped ∧ s.AnsweredAfterHandling := by
  have hs : Sound s := TransitionSystem.invariant_when Sound
    (fun s hinit => by rw [hinit]; exact Sound.start generation)
    (fun s e s' _ hinv hallowed hstep => hinv.next hallowed hstep) hreach
  exact ⟨hs.noneDropped, hs.answeredAfterHandling⟩

/-- A client waits for more items and another one for the category view. -/
def twoKindsAnswered : CommandLoop :=
  let fetchMore := (0, Command.fetchMore (ScrollerSource.scrollEvent 0) 0
    (some 7))
  let categoryView := (1, Command.categoryView 0 8)
  { CommandLoop.start 0 with
    sent := [fetchMore, categoryView]
    handled := [fetchMore, categoryView]
    answered := [7, 8] }

theorem twoKinds_answered : twoKindsAnswered.NoneDropped := by
  have h₀ : (commandLoop 0).ReachableWhen Unmerged (CommandLoop.start 0) :=
    TransitionSystem.ReachableWhen.start rfl
  have h₁ := h₀.next
    (l := LoopEvent.send (Command.fetchMore (ScrollerSource.scrollEvent 0) 0
      (some 7))) True.intro rfl
  have h₂ := h₁.next (l := LoopEvent.send (Command.categoryView 0 8))
    True.intro rfl
  have h₃ := h₂.next (l := LoopEvent.receive) (by
    intro c hc _ hfollows
    rcases hfollows with ⟨before, y, after, heq, hsame⟩
    cases before with
    | nil =>
        cases heq
        cases hsame
    | cons a rest =>
        cases rest with
        | nil => cases heq
        | cons b rest => cases rest <;> cases heq) rfl
  have h₄ := h₃.next (l := LoopEvent.handle true) (by
    intro c rest hbatch _
    cases hbatch
    rfl) rfl
  have h₅ := h₄.next (l := LoopEvent.handle false) (by
    intro c rest hbatch _
    cases hbatch
    rfl) (show _ = some twoKindsAnswered from rfl)
  exact (waiting_requests_answered h₅).left

/-- Two clients ask for more items before the worker looks at the channel. -/
theorem merging_drops :
    exists s, (commandLoop 0).Reachable s ∧ s.dropped = [8] ∧
      ¬ s.NoneDropped := by
  have h₀ : (commandLoop 0).Reachable (CommandLoop.start 0) :=
    TransitionSystem.ReachableWhen.start rfl
  have h₁ := h₀.step
    (l := LoopEvent.send (Command.fetchMore (ScrollerSource.scrollEvent 0) 0
      (some 7))) rfl
  have h₂ := h₁.step
    (l := LoopEvent.send (Command.fetchMore (ScrollerSource.scrollEvent 1) 0
      (some 8))) rfl
  have h₃ := h₂.step (l := LoopEvent.receive) rfl
  refine ⟨_, h₃, rfl, ?_⟩
  rintro ⟨hnil, _⟩
  cases hnil

end CommandLoop

end Scroller
end MailClient
