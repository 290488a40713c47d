import MailClient.TaskService.Service

/-!
# Futures that cannot be paused

A task is let through while a future inside of it must not be paused.  What the
guard knows of this is a flag of the thread, which the futures set while the
task is polled and which the task clears before.  So the guard forgets those
that a poll does not reach.
-/

namespace MailClient
namespace TaskService

open Foundation

/-!
# A poll of the task
-/

/-- A future inside of a task, and whether it is a `NonPausableFuture`. -/
structure SubFuture where
  id : Nat
  nonPausable : Bool
  deriving DecidableEq, Repr

inductive SubState where
  | absent
  | created
  | pending
  | ready
  deriving DecidableEq, Repr

/-- What the combinators of a task do while it is polled, in any order. -/
inductive SubEvent where
  | create (f : SubFuture)
  | poll (f : SubFuture) (ready : Bool)
  | drop (f : SubFuture)
  deriving DecidableEq, Repr

/-- The futures of the task and the variable `DRAIN` of the thread. -/
structure Polled where
  subs : SubFuture -> SubState
  drain : Bool

/-- `NonPausableFuture::poll`, after the poll of the inner future. -/
def nonPausablePoll (ready drain : Bool) : Bool :=
  if ready then drain else true

/-- A future is polled as long as it is not ready, and dropped once. -/
def Polled.next (p : Polled) : SubEvent -> Option Polled
  | SubEvent.create f =>
      if p.subs f = SubState.absent then
        some { p with subs := Function.update p.subs f SubState.created }
      else none
  | SubEvent.poll f ready =>
      if p.subs f = SubState.created ∨ p.subs f = SubState.pending then
        some
          { subs := Function.update p.subs f
              (if ready then SubState.ready else SubState.pending)
            drain :=
              if f.nonPausable then nonPausablePoll ready p.drain
              else p.drain }
      else none
  | SubEvent.drop f =>
      if p.subs f = SubState.absent then none
      else some { p with subs := Function.update p.subs f SubState.absent }

/-!
# The guard
-/

structure FutureGuard where
  future : FutureRef
  drain : Bool := false
  deriving DecidableEq, Repr

/-- The answer and what is sent; a dead service lets every future through. -/
def FutureGuard.canContinue (guard : FutureGuard) (active connected : Bool) :
    Bool × List Command :=
  if guard.drain || active then (true, [])
  else if connected then (false, [Command.futurePaused guard.future])
  else (true, [])

structure GuardedFuture where
  guard : FutureGuard
  subs : SubFuture -> SubState := fun _ => SubState.absent
  /-- The inner future has returned. -/
  finished : Bool := false
  active : Bool := true
  /-- The thread of the service is there to receive commands. -/
  connected : Bool := true
  sent : List Command := []

/--
A poll says what the inner future does and whether it returns, if it is polled.
Between the polls the service is paused and resumed, and futures of the task are
created and dropped.
-/
inductive GuardEvent where
  | poll (events : List SubEvent) (ready : Bool)
  | create (f : SubFuture)
  | drop (f : SubFuture)
  | setActive (active : Bool)
  | disconnect

namespace GuardedFuture

def continues (s : GuardedFuture) : Bool :=
  (s.guard.canContinue s.active s.connected).1

/-- `DRAIN` is cleared, and read again after the poll of the inner future. -/
def poll (s : GuardedFuture) (events : List SubEvent) (ready : Bool) :
    Option GuardedFuture :=
  if s.finished then none
  else if s.continues then
    (List.foldlM Polled.next { subs := s.subs, drain := false } events).map
      (fun p =>
        { s with
          subs := p.subs
          guard := { s.guard with drain := p.drain }
          finished := ready })
  else
    some
      { s with
        sent := s.sent ++ (s.guard.canContinue s.active s.connected).2 }

/-- What is done to a future of the task while the task is not polled. -/
def outside (s : GuardedFuture) (e : SubEvent) : Option GuardedFuture :=
  (Polled.next { subs := s.subs, drain := false } e).map (fun p =>
    { s with subs := p.subs })

def next (s : GuardedFuture) : GuardEvent -> Option GuardedFuture
  | GuardEvent.poll events ready => s.poll events ready
  | GuardEvent.create f => s.outside (SubEvent.create f)
  | GuardEvent.drop f => s.outside (SubEvent.drop f)
  | GuardEvent.setActive active => some { s with active := active }
  | GuardEvent.disconnect => some { s with connected := false }

end GuardedFuture

/-- One task from its creation on. -/
def GuardRuns : TransitionSystem GuardedFuture GuardEvent where
  init := fun s => exists future, s = { guard := { future := future } }
  step := fun s e s' => s.next e = some s'

/-!
# Work that is not to be paused
-/

/-- A `NonPausableFuture` that was polled and is pending. -/
def Held (subs : SubFuture -> SubState) (f : SubFuture) : Prop :=
  f.nonPausable = true ∧ subs f = SubState.pending

/-- Whatever happens to the service, the guard lets the next poll through. -/
def FutureGuard.LetsThrough (guard : FutureGuard) : Prop :=
  forall active connected, (guard.canContinue active connected).1 = true

/-- Work that is held is not paused. -/
def GuardedFuture.Safe (s : GuardedFuture) : Prop :=
  s.finished = false -> (exists f, Held s.subs f) -> s.guard.LetsThrough

/-- A `NonPausableFuture` is found pending. -/
def Drains (events : List SubEvent) : Prop :=
  exists f, f.nonPausable = true ∧ SubEvent.poll f false ∈ events

/-- A future becomes ready or is dropped. -/
def Settles (events : List SubEvent) (f : SubFuture) : Prop :=
  SubEvent.poll f true ∈ events ∨ SubEvent.drop f ∈ events

/--
A poll that finds no `NonPausableFuture` pending settles all that were held
before.
-/
def Reaches (s : GuardedFuture) : GuardEvent -> Prop
  | GuardEvent.poll events false =>
      s.continues = true -> Drains events ∨
        forall f, Held s.subs f -> Settles events f
  | _ => True

theorem letsThrough_iff {guard : FutureGuard} :
    guard.LetsThrough ↔ guard.drain = true := by
  unfold FutureGuard.LetsThrough FutureGuard.canContinue
  constructor
  · intro h
    have hpaused := h false true
    cases hdrain : guard.drain with
    | true => rfl
    | false =>
        rw [hdrain] at hpaused
        cases hpaused
  · intro h active connected
    rw [h]
    rfl

/-!
# One poll
-/

theorem Polled.next_drain {p p' : Polled} {e : SubEvent}
    (h : p.next e = some p') :
    p'.drain = true ↔ p.drain = true ∨ Drains [e] := by
  cases e with
  | create f =>
      simp only [Polled.next] at h
      split at h
      · cases h
        simp [Drains]
      · cases h
  | drop f =>
      simp only [Polled.next] at h
      split at h
      · cases h
      · cases h
        simp [Drains]
  | poll f ready =>
      simp only [Polled.next] at h
      split at h
      · cases h
        unfold Drains nonPausablePoll
        cases ready with
        | true => simp
        | false =>
            cases hf : f.nonPausable with
            | true => simp [hf]
            | false => simp [hf]
      · cases h

theorem drains_cons {e : SubEvent} {events : List SubEvent} :
    Drains (e :: events) ↔ Drains [e] ∨ Drains events := by
  unfold Drains
  constructor
  · intro ⟨f, hf, hmem⟩
    rcases List.mem_cons.mp hmem with heq | hmem
    · exact Or.inl ⟨f, hf, List.mem_singleton.mpr heq⟩
    · exact Or.inr ⟨f, hf, hmem⟩
  · intro h
    rcases h with ⟨f, hf, hmem⟩ | ⟨f, hf, hmem⟩
    · exact ⟨f, hf, List.mem_cons.mpr (Or.inl (List.mem_singleton.mp hmem))⟩
    · exact ⟨f, hf, List.mem_cons_of_mem e hmem⟩

theorem drain_iff {p p' : Polled} {events : List SubEvent}
    (h : events.foldlM Polled.next p = some p') :
    p'.drain = true ↔ p.drain = true ∨ Drains events := by
  induction events generalizing p with
  | nil =>
      cases h
      simp [Drains]
  | cons e rest ih =>
      rcases Option.bind_eq_some_iff.mp h with ⟨q, hq, hrest⟩
      rw [ih hrest, Polled.next_drain hq, or_assoc, <- drains_cons]

theorem Polled.next_held {p p' : Polled} {e : SubEvent}
    (h : p.next e = some p') (hno : ¬ Drains [e]) (f : SubFuture) :
    Held p'.subs f ↔ Held p.subs f ∧ ¬ Settles [e] f := by
  unfold Held Settles
  cases e with
  | create g =>
      simp only [Polled.next] at h
      split at h
      · rename_i habsent
        cases h
        by_cases hf : f = g
        · subst hf
          simp [habsent]
        · simp [Function.update_of_ne hf]
      · cases h
  | drop g =>
      simp only [Polled.next] at h
      split at h
      · cases h
      · cases h
        by_cases hf : f = g
        · subst hf
          simp
        · simp [hf]
  | poll g ready =>
      simp only [Polled.next] at h
      split at h
      · cases h
        by_cases hf : f = g
        · subst hf
          cases ready with
          | true => simp
          | false =>
              have hpausable : f.nonPausable = false := by
                cases hf : f.nonPausable with
                | true => exact absurd ⟨f, hf, List.mem_singleton.mpr rfl⟩ hno
                | false => rfl
              simp [hpausable]
        · simp [hf]
      · cases h

theorem settles_cons {e : SubEvent} {events : List SubEvent} {f : SubFuture} :
    Settles (e :: events) f ↔ Settles [e] f ∨ Settles events f := by
  unfold Settles
  simp only [List.mem_cons, List.not_mem_nil, or_false]
  tauto

theorem held_iff {p p' : Polled} {events : List SubEvent}
    (h : events.foldlM Polled.next p = some p') (hno : ¬ Drains events)
    (f : SubFuture) :
    Held p'.subs f ↔ Held p.subs f ∧ ¬ Settles events f := by
  induction events generalizing p with
  | nil =>
      cases h
      simp [Settles]
  | cons e rest ih =>
      rcases Option.bind_eq_some_iff.mp h with ⟨q, hq, hrest⟩
      rw [drains_cons, not_or] at hno
      rw [ih hrest hno.right, Polled.next_held hq hno.left, and_assoc,
        <- not_or, <- settles_cons]

/-!
# Every step
-/

namespace GuardedFuture

theorem poll_safe_iff {s s' : GuardedFuture} {events : List SubEvent}
    {ready : Bool} (hsafe : s.Safe) (h : s.poll events ready = some s') :
    s'.Safe ↔ Reaches s (GuardEvent.poll events ready) := by
  unfold poll at h
  split at h
  · cases h
  · split at h
    · rename_i hcontinues
      rcases Option.map_eq_some_iff.mp h with ⟨p, hp, heq⟩
      subst heq
      cases ready with
      | true => exact iff_of_true (fun hfinished => nomatch hfinished) trivial
      | false =>
          have hdrain := drain_iff hp
          unfold Safe Reaches
          rw [letsThrough_iff]
          dsimp only
          simp only [hcontinues, true_implies]
          by_cases hd : Drains events
          · refine iff_of_true (fun _ => ?_) (Or.inl hd)
            exact hdrain.mpr (Or.inr hd)
          · have hflag : p.drain ≠ true := by
              intro htrue
              rcases hdrain.mp htrue with hfalse | hdrains
              · cases hfalse
              · exact hd hdrains
            rw [or_iff_right hd]
            constructor
            · intro hsafe f hf
              by_contra hunsettled
              have hheld := (held_iff hp hd f).mpr ⟨hf, hunsettled⟩
              exact hflag (hsafe ⟨f, hheld⟩)
            · intro hall ⟨f, hf⟩
              have hbefore := (held_iff hp hd f).mp hf
              exact absurd (hall f hbefore.left) hbefore.right
    · rename_i hrefused
      cases h
      refine iff_of_true hsafe ?_
      cases ready with
      | true => trivial
      | false => exact fun hcontinues => absurd hcontinues hrefused

theorem outside_safe {s s' : GuardedFuture} {e : SubEvent} (hsafe : s.Safe)
    (he : ¬ Drains [e]) (h : s.outside e = some s') : s'.Safe := by
  rcases Option.map_eq_some_iff.mp h with ⟨p, hp, heq⟩
  subst heq
  intro hfinished ⟨f, hf⟩
  exact hsafe hfinished ⟨f, ((Polled.next_held hp he f).mp hf).left⟩

theorem next_safe_iff {s s' : GuardedFuture} {e : GuardEvent} (hsafe : s.Safe)
    (h : s.next e = some s') : s'.Safe ↔ Reaches s e := by
  cases e with
  | poll events ready => exact poll_safe_iff hsafe h
  | create f =>
      refine iff_of_true (outside_safe hsafe ?_ h) trivial
      simp [Drains]
  | drop f =>
      refine iff_of_true (outside_safe hsafe ?_ h) trivial
      simp [Drains]
  | setActive active =>
      cases h
      exact iff_of_true hsafe trivial
  | disconnect =>
      cases h
      exact iff_of_true hsafe trivial

end GuardedFuture

/-!
# Whole runs
-/

/--
In runs whose polls reach what is held, held work is never paused; and the
first poll of a run that does not reach it leaves a task that can be paused.
-/
theorem held_not_paused (s : GuardedFuture)
    (hreach : GuardRuns.ReachableWhen Reaches s) :
    s.Safe ∧ forall e s', GuardRuns.step s e s' -> (s'.Safe ↔ Reaches s e) := by
  have hsafe : s.Safe := by
    refine TransitionSystem.invariant_when GuardedFuture.Safe ?_ ?_ hreach
    · intro s hinit
      rcases hinit with ⟨future, rfl⟩
      intro _ ⟨f, hf⟩
      cases hf.right
    · intro s e s' _ hbefore hreaches hstep
      exact (GuardedFuture.next_safe_iff hbefore hstep).mpr hreaches
  exact ⟨hsafe, fun e s' hstep => GuardedFuture.next_safe_iff hsafe hstep⟩

/-- A task that has not been polled. -/
theorem new_task_safe :
    GuardedFuture.Safe { guard := { future := ⟨0, 0⟩ } } ∧
      forall e s', GuardRuns.step { guard := { future := ⟨0, 0⟩ } } e s' ->
        (s'.Safe ↔ Reaches { guard := { future := ⟨0, 0⟩ } } e) :=
  held_not_paused _ (TransitionSystem.ReachableWhen.start ⟨_, rfl⟩)

/-- A future that cannot be paused, next to one that can. -/
def upload : SubFuture :=
  ⟨0, true⟩

def timer : SubFuture :=
  ⟨1, false⟩

/-- The timer wakes the task, and the upload is not polled with it. -/
def forgotten : List GuardEvent :=
  [GuardEvent.poll [SubEvent.create upload, SubEvent.create timer,
      SubEvent.poll upload false, SubEvent.poll timer false] false,
    GuardEvent.poll [SubEvent.poll timer false] false,
    GuardEvent.setActive false]

theorem upload_paused :
    exists s, GuardRuns.Reachable s ∧ s.finished = false ∧
      Held s.subs upload ∧ s.continues = false := by
  have hrun : exists s, List.foldlM GuardedFuture.next
      { guard := { future := ⟨0, 0⟩ } } forgotten = some s ∧
      s.finished = false ∧ Held s.subs upload ∧ s.continues = false :=
    ⟨_, rfl, rfl, ⟨rfl, rfl⟩, rfl⟩
  rcases hrun with ⟨s, hs, hrest⟩
  refine ⟨s, TransitionSystem.Reachable.replay (fun _ _ _ h => h)
    (TransitionSystem.ReachableWhen.start ⟨_, rfl⟩) hs, hrest⟩

end TaskService
end MailClient
