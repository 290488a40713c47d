import Mathlib.Data.List.Forall2
import Mathlib.Logic.Relation

/-!
# Labelled transition systems

The components of the client are verified over whole runs.  This module fixes
the vocabulary: a system with initial states and labelled steps, the states
reached by runs whose steps all satisfy a side condition, and the induction
rules that turn a step lemma into a statement about every run.
-/

namespace MailClient
namespace Foundation

structure TransitionSystem (state label : Type) where
  init : state -> Prop
  step : state -> label -> state -> Prop

namespace TransitionSystem

variable {state label : Type}

/-!
# Reachable states

A side condition is a predicate on the state before a step and the label of
that step, so it never refers to what the step computes.
-/

inductive ReachableWhen (T : TransitionSystem state label)
    (allowed : state -> label -> Prop) : state -> Prop where
  | start {s : state} : T.init s -> ReachableWhen T allowed s
  | next {s s' : state} {l : label} :
      ReachableWhen T allowed s ->
      allowed s l ->
      T.step s l s' ->
      ReachableWhen T allowed s'

def Reachable (T : TransitionSystem state label) (s : state) : Prop :=
  ReachableWhen T (fun _ _ => True) s

/-- Finite runs from one state to another, without a side condition. -/
inductive Runs (T : TransitionSystem state label) :
    state -> state -> Prop where
  | refl (s : state) : Runs T s s
  | next {s t u : state} {l : label} :
      Runs T s t -> T.step t l u -> Runs T s u

variable {T : TransitionSystem state label} {s : state}

theorem Runs.head {t u : state} {l : label} (hstep : T.step s l t)
    (hruns : Runs T t u) : Runs T s u := by
  induction hruns with
  | refl =>
      exact Runs.next (Runs.refl s) hstep
  | next _ hlast ih =>
      exact Runs.next ih hlast

theorem ReachableWhen.weaken {p q : state -> label -> Prop}
    (hreach : ReachableWhen T p s) (himp : forall s l, p s l -> q s l) :
    ReachableWhen T q s := by
  induction hreach with
  | start hinit =>
      exact ReachableWhen.start hinit
  | next _ hallowed hstep ih =>
      exact ReachableWhen.next ih (himp _ _ hallowed) hstep

theorem ReachableWhen.reachable {p : state -> label -> Prop}
    (hreach : ReachableWhen T p s) : Reachable T s :=
  hreach.weaken (fun _ _ _ => True.intro)

theorem Reachable.step {s' : state} {l : label} (hreach : Reachable T s)
    (hstep : T.step s l s') : Reachable T s' :=
  ReachableWhen.next hreach True.intro hstep

theorem Reachable.runs {s' : state} (hreach : Reachable T s)
    (hruns : Runs T s s') : Reachable T s' := by
  induction hruns with
  | refl =>
      exact hreach
  | next _ hstep ih =>
      exact ih.step hstep

theorem Reachable.replay {next : state -> label -> Option state}
    (hnext : forall s l s', next s l = some s' -> T.step s l s') {s' : state}
    {labels : List label} (hreach : Reachable T s)
    (h : labels.foldlM next s = some s') : Reachable T s' := by
  induction labels generalizing s with
  | nil =>
      cases h
      exact hreach
  | cons l rest ih =>
      rcases Option.bind_eq_some_iff.mp h with ⟨t, hstep, hrest⟩
      exact ih (hreach.step (hnext s l t hstep)) hrest

theorem ReachableWhen.replay {allowed : state -> label -> Prop}
    [forall s l, Decidable (allowed s l)]
    {next : state -> label -> Option state}
    (hnext : forall s l s', next s l = some s' -> T.step s l s') {s' : state}
    {labels : List label} (hreach : ReachableWhen T allowed s)
    (h : labels.foldlM (fun s l => if allowed s l then next s l else none) s =
      some s') : ReachableWhen T allowed s' := by
  induction labels generalizing s with
  | nil =>
      cases h
      exact hreach
  | cons l rest ih =>
      rcases Option.bind_eq_some_iff.mp h with ⟨t, hstep, hrest⟩
      simp only at hstep
      split at hstep
      · rename_i hallowed
        exact ih (ReachableWhen.next hreach hallowed (hnext s l t hstep)) hrest
      · cases hstep

/-!
# Invariant rules
-/

/--
Invariant rule for conditional runs.  The step premise may use that the state
before the step is itself reachable, so invariants can be layered.
-/
theorem invariant_when {allowed : state -> label -> Prop} (inv : state -> Prop)
    (hinit : forall s, T.init s -> inv s)
    (hstep : forall s l s', ReachableWhen T allowed s -> inv s ->
      allowed s l -> T.step s l s' -> inv s')
    (hreach : ReachableWhen T allowed s) : inv s := by
  induction hreach with
  | start h =>
      exact hinit _ h
  | next hprev hallowed hs ih =>
      exact hstep _ _ _ hprev ih hallowed hs

theorem invariant (inv : state -> Prop) (hinit : forall s, T.init s -> inv s)
    (hstep : forall s l s', Reachable T s -> inv s -> T.step s l s' -> inv s')
    (hreach : Reachable T s) : inv s :=
  invariant_when inv hinit
    (fun s l s' hprev hinv _ hs => hstep s l s' hprev hinv hs) hreach

/--
Run rule: a relation between the first and the last state of a run that holds
of the empty run and is extended by every step holds of every run.
-/
theorem runs_rel (rel : state -> state -> Prop) (hrefl : forall s, rel s s)
    (hstep : forall s t l u, rel s t -> T.step t l u -> rel s u) {s' : state}
    (hruns : Runs T s s') : rel s s' := by
  induction hruns with
  | refl =>
      exact hrefl s
  | next _ hs ih =>
      exact hstep _ _ _ _ ih hs

/-!
# Simulation
-/

/--
If every step of a concrete system is matched by a run of an abstract one, a
reachable concrete state maps to a reachable abstract state.
-/
theorem reachable_of_simulation {cstate clabel : Type}
    {C : TransitionSystem cstate clabel} (abs : cstate -> state)
    (hinit : forall c, C.init c -> T.init (abs c))
    (hstep : forall c l c', C.step c l c' -> Runs T (abs c) (abs c'))
    {c : cstate} (hreach : Reachable C c) : Reachable T (abs c) := by
  induction hreach with
  | start h =>
      exact ReachableWhen.start (hinit _ h)
  | next _ _ hs ih =>
      exact Reachable.runs ih (hstep _ _ _ hs)

/-!
# Runs of a given length
-/

inductive RunsIn (T : TransitionSystem state label) :
    Nat -> state -> state -> Prop where
  | refl (s : state) : RunsIn T 0 s s
  | next {n : Nat} {s t u : state} {l : label} :
      RunsIn T n s t -> T.step t l u -> RunsIn T (n + 1) s u

theorem RunsIn.measure_le {inv : state -> Prop} {measure : state -> Nat}
    (hstep : forall s l t, inv s -> T.step s l t ->
      inv t ∧ measure t <= measure s - 1) {n : Nat} {t : state}
    (hruns : RunsIn T n s t) (hinv : inv s) :
    inv t ∧ measure t <= measure s - n := by
  induction hruns with
  | refl => exact ⟨hinv, Nat.le_refl _⟩
  | next _ hs ih =>
      have hbefore := ih hinv
      have hafter := hstep _ _ _ hbefore.left hs
      exact ⟨hafter.left, by omega⟩

/-- Where every step lowers `measure` by one, a run lowers it by its length. -/
theorem RunsIn.measure_add {inv : state -> Prop} {measure : state -> Nat}
    (hstep : forall s l t, inv s -> T.step s l t ->
      inv t ∧ measure t + 1 = measure s) {n : Nat} {t : state}
    (hruns : RunsIn T n s t) (hinv : inv s) :
    inv t ∧ measure t + n = measure s := by
  induction hruns with
  | refl => exact ⟨hinv, Nat.add_zero _⟩
  | next _ hs ih =>
      have hbefore := ih hinv
      have hafter := hstep _ _ _ hbefore.left hs
      exact ⟨hafter.left, by omega⟩

/--
Progress rule: a run can be continued to the goal if there is a step towards it
as long as it is not reached.
-/
theorem Runs.finishes {inv goal : state -> Prop} {measure : state -> Nat}
    (hmore : forall s, inv s -> ¬ goal s -> exists l t, T.step s l t ∧ inv t ∧
      measure t < measure s) (hinv : inv s) :
    exists t, Runs T s t ∧ inv t ∧ goal t := by
  induction hn : measure s using Nat.strongRecOn generalizing s with
  | ind n ih =>
      by_cases hgoal : goal s
      · exact ⟨s, Runs.refl s, hinv, hgoal⟩
      · rcases hmore s hinv hgoal with ⟨l, t, hs, ht, hlt⟩
        rcases ih (measure t) (hn ▸ hlt) ht rfl with ⟨u, hruns, hu⟩
        exact ⟨u, Runs.head hs hruns, hu⟩

/-- Where there is always a step that keeps `inv`, there are runs of any length. -/
theorem exists_runsIn {inv : state -> Prop}
    (hstep : forall s, inv s -> exists l t, T.step s l t ∧ inv t) (hinv : inv s)
    (n : Nat) :
    exists t, RunsIn T n s t ∧ inv t := by
  induction n with
  | zero => exact ⟨s, RunsIn.refl s, hinv⟩
  | succ n ih =>
      rcases ih with ⟨t, hruns, ht⟩
      rcases hstep t ht with ⟨l, u, hs, hu⟩
      exact ⟨u, RunsIn.next hruns hs, hu⟩

end TransitionSystem

/-!
# Steps that may fail
-/

theorem bind_eq_ok {failure arg result : Type} {x : Except failure arg}
    {f : arg -> Except failure result} {r : result}
    (h : x >>= f = Except.ok r) :
    exists a, x = Except.ok a ∧ f a = Except.ok r := by
  cases x with
  | error e =>
      cases h
  | ok a =>
      exact ⟨a, rfl, h⟩

theorem mapM_eq_error {failure arg result : Type}
    {f : arg -> Except failure result} {l : List arg} {e : failure}
    (h : l.mapM f = Except.error e) :
    exists a, a ∈ l ∧ f a = Except.error e := by
  induction l with
  | nil => cases h
  | cons a rest ih =>
      rw [List.mapM_cons] at h
      cases ha : f a with
      | error e' =>
          rw [ha] at h
          cases h
          exact ⟨a, List.mem_cons_self, ha⟩
      | ok r =>
          rw [ha] at h
          cases hrest : rest.mapM f with
          | error e' =>
              simp only [hrest] at h
              cases h
              rcases ih hrest with ⟨a', hmem, ha'⟩
              exact ⟨a', List.mem_cons_of_mem _ hmem, ha'⟩
          | ok rs =>
              simp only [hrest] at h
              cases h

theorem mapM_eq_ok {failure arg result : Type}
    {f : arg -> Except failure result} {l : List arg} {rs : List result}
    (h : l.mapM f = Except.ok rs) :
    List.Forall₂ (fun a r => f a = Except.ok r) l rs := by
  induction l generalizing rs with
  | nil =>
      cases h
      exact List.Forall₂.nil
  | cons a rest ih =>
      rw [List.mapM_cons] at h
      rcases bind_eq_ok h with ⟨r, ha, htail⟩
      rcases bind_eq_ok htail with ⟨rs', hrest, hpure⟩
      cases hpure
      exact List.Forall₂.cons ha (ih hrest)

theorem mapM_eq_ok_iff {failure arg result : Type}
    {f : arg -> Except failure result} {l : List arg} {rs : List result} :
    l.mapM f = Except.ok rs ↔
      List.Forall₂ (fun a r => f a = Except.ok r) l rs := by
  constructor
  · exact mapM_eq_ok
  · intro h
    induction h with
    | nil => rfl
    | cons hfirst hrest ih =>
        rw [List.mapM_cons, hfirst, ih]
        rfl

theorem ok_of_mapM_eq_ok {failure arg result : Type}
    {f : arg -> Except failure result} {l : List arg} {rs : List result}
    (h : l.mapM f = Except.ok rs) {a : arg} (ha : a ∈ l) :
    exists r, f a = Except.ok r := by
  have hall := mapM_eq_ok h
  induction hall with
  | nil => exact absurd ha List.not_mem_nil
  | cons hfirst hrest ih =>
      rcases List.mem_cons.mp ha with heq | hmem
      · exact ⟨_, heq ▸ hfirst⟩
      · rw [List.mapM_cons] at h
        rcases bind_eq_ok h with ⟨_, _, htail⟩
        rcases bind_eq_ok htail with ⟨_, hok, hpure⟩
        cases hpure
        exact ih hok hmem

end Foundation
end MailClient
