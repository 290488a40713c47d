import Mathlib.Logic.Function.Basic
import MailClient.Foundation.Transition

/-!
# The sync mediator

Tasks that need the same resource at the same time share one request.  A call
first drops the cached items that are too old, then looks for the resource in
the store, and then either joins the future that the map holds for its key,
takes the cached item, or puts a new future into the map.  Calls, futures and
the clock move independently, and a call can be dropped wherever it waits.
-/

namespace MailClient
namespace SyncMediator

open Foundation

inductive SyncMediatorError (fetchError storeError : Type) where
  | fetch (e : fetchError)
  | store (e : storeError)
  deriving DecidableEq, Repr

/--
How far the body of a shared future is.  It is `created` until somebody polls
it for the first time, and `stored` between the end of the store and the lock
under which its item is put into the map.
-/
inductive Progress (item fetchError storeError : Type) where
  | created
  | fetching
  | storing (fetched : item)
  | stored (synced : item)
  | completed (output : Except (SyncMediatorError fetchError storeError) item)

/-- `stored` records the item and the time of a successful store. -/
structure FetchFuture (key item fetchError storeError : Type) where
  key : key
  progress : Progress item fetchError storeError
  stored : Option (item × Nat) := none

inductive SyncState (item : Type) where
  | inFlight (future : Nat)
  | cached (value : item) (instant : Nat)

inductive CallState (item fetchError storeError : Type) where
  | loading
  | missing
  | awaiting (future : Nat)
  | returned (result : Except (SyncMediatorError fetchError storeError) item)
  | dropped

/-- `loaded` records the item that the call has found in the store. -/
structure Call (key item fetchError storeError : Type) where
  key : key
  state : CallState item fetchError storeError
  loaded : Option item := none

structure Mediator (key item fetchError storeError : Type) where
  cacheTtl : Nat
  now : Nat
  inFlight : key -> Option (SyncState item)
  futures : Nat -> Option (FetchFuture key item fetchError storeError)
  calls : Nat -> Option (Call key item fetchError storeError)

/-- What happens in the body of a future when it is polled. -/
inductive PollResult (item fetchError storeError : Type) where
  | fetchStarts
  | fetchEnds (result : Except fetchError item)
  | storeEnds (result : Except storeError item)
  | lockTaken

inductive MediatorEvent (key item fetchError storeError : Type) where
  | tick (elapsed : Nat)
  | sync (call : Nat) (k : key)
  | load (call : Nat) (result : Except storeError (Option item))
  | getOrCreateFuture (call future : Nat)
  | poll (call : Nat) (result : PollResult item fetchError storeError)
  | resume (call : Nat)
  | drop (call : Nat)

def withCacheTtl {key item fetchError storeError : Type} (cacheTtl now : Nat) :
    Mediator key item fetchError storeError where
  cacheTtl := cacheTtl
  now := now
  inFlight := fun _ => none
  futures := fun _ => none
  calls := fun _ => none

def Progress.isCompleted {item fetchError storeError : Type} :
    Progress item fetchError storeError -> Bool
  | completed _ => true
  | _ => false

/-- The future has ended with an error of the fetch or of the store. -/
def Progress.isFailed {item fetchError storeError : Type} :
    Progress item fetchError storeError -> Bool
  | completed (Except.error _) => true
  | _ => false

/-- The future has put its item into the map. -/
def Progress.isSynced {item fetchError storeError : Type} :
    Progress item fetchError storeError -> Bool
  | completed (Except.ok _) => true
  | _ => false

namespace Mediator

variable {key item fetchError storeError : Type} [DecidableEq key]

def isFresh (s : Mediator key item fetchError storeError) :
    SyncState item -> Bool
  | SyncState.inFlight _ => true
  | SyncState.cached _ instant => s.now - instant < s.cacheTtl

def retainFresh (s : Mediator key item fetchError storeError) :
    Mediator key item fetchError storeError :=
  { s with inFlight := fun k => (s.inFlight k).filter s.isFresh }

def setCall (s : Mediator key item fetchError storeError) (c : Nat)
    (call : Call key item fetchError storeError) :
    Mediator key item fetchError storeError :=
  { s with calls := Function.update s.calls c (some call) }

def setFuture (s : Mediator key item fetchError storeError) (f : Nat)
    (future : FetchFuture key item fetchError storeError) :
    Mediator key item fetchError storeError :=
  { s with futures := Function.update s.futures f (some future) }

def insert (s : Mediator key item fetchError storeError) (k : key)
    (state : SyncState item) : Mediator key item fetchError storeError :=
  { s with inFlight := Function.update s.inFlight k (some state) }

/-- The answer of `R::load`, where an error ends the call. -/
def loadDone (s : Mediator key item fetchError storeError) (c : Nat)
    (call : Call key item fetchError storeError) :
    Except storeError (Option item) -> Mediator key item fetchError storeError
  | Except.error e =>
      s.setCall c { call with
        state := CallState.returned (Except.error (SyncMediatorError.store e)) }
  | Except.ok (some i) =>
      s.setCall c { call with
        state := CallState.returned (Except.ok i), loaded := some i }
  | Except.ok none =>
      s.setCall c { call with state := CallState.missing }

/-- `f` is the identity that a new future gets. -/
def getOrCreateFuture (s : Mediator key item fetchError storeError) (c : Nat)
    (call : Call key item fetchError storeError) (f : Nat) :
    Option (Mediator key item fetchError storeError) :=
  match s.inFlight call.key with
  | some (SyncState.inFlight joined) =>
      some (s.setCall c { call with state := CallState.awaiting joined })
  | some (SyncState.cached i _) =>
      some (s.setCall c { call with state := CallState.returned (Except.ok i) })
  | none =>
      if (s.futures f).isNone then
        some (((s.setFuture f { key := call.key, progress := Progress.created }).insert
          call.key (SyncState.inFlight f)).setCall c
            { call with state := CallState.awaiting f })
      else none

/--
One step of the body of a future.  A failed fetch or store leaves the body at
once, and with it the entry of the map as it was.
-/
def pollFuture (s : Mediator key item fetchError storeError) (f : Nat)
    (future : FetchFuture key item fetchError storeError) :
    PollResult item fetchError storeError ->
      Option (Mediator key item fetchError storeError)
  | PollResult.fetchStarts =>
      match future.progress with
      | Progress.created =>
          some (s.setFuture f { future with progress := Progress.fetching })
      | _ => none
  | PollResult.fetchEnds result =>
      match future.progress, result with
      | Progress.fetching, Except.ok i =>
          some (s.setFuture f { future with progress := Progress.storing i })
      | Progress.fetching, Except.error e =>
          some (s.setFuture f { future with
            progress := Progress.completed
              (Except.error (SyncMediatorError.fetch e)) })
      | _, _ => none
  | PollResult.storeEnds result =>
      match future.progress, result with
      | Progress.storing _, Except.ok i =>
          some (s.setFuture f { future with
            progress := Progress.stored i, stored := some (i, s.now) })
      | Progress.storing _, Except.error e =>
          some (s.setFuture f { future with
            progress := Progress.completed
              (Except.error (SyncMediatorError.store e)) })
      | _, _ => none
  | PollResult.lockTaken =>
      match future.progress with
      | Progress.stored i =>
          some ((s.setFuture f { future with
            progress := Progress.completed (Except.ok i) }).insert future.key
              (SyncState.cached i s.now))
      | _ => none

def awaited (s : Mediator key item fetchError storeError) (c : Nat) :
    Option Nat := do
  let call <- s.calls c
  match call.state with
  | CallState.awaiting f => some f
  | _ => none

/-- Only a live caller polls the future that it awaits. -/
def next (s : Mediator key item fetchError storeError) :
    MediatorEvent key item fetchError storeError ->
      Option (Mediator key item fetchError storeError)
  | MediatorEvent.tick elapsed => some { s with now := s.now + elapsed }
  | MediatorEvent.sync c k =>
      match s.calls c with
      | none =>
          some (s.retainFresh.setCall c { key := k, state := CallState.loading })
      | some _ => none
  | MediatorEvent.load c result => do
      let call <- s.calls c
      match call.state with
      | CallState.loading => some (s.loadDone c call result)
      | _ => none
  | MediatorEvent.getOrCreateFuture c f => do
      let call <- s.calls c
      match call.state with
      | CallState.missing => s.getOrCreateFuture c call f
      | _ => none
  | MediatorEvent.poll c result => do
      let f <- s.awaited c
      let future <- s.futures f
      s.pollFuture f future result
  | MediatorEvent.resume c => do
      let call <- s.calls c
      let f <- s.awaited c
      let future <- s.futures f
      match future.progress with
      | Progress.completed output =>
          some (s.setCall c { call with state := CallState.returned output })
      | _ => none
  | MediatorEvent.drop c => do
      let call <- s.calls c
      match call.state with
      | CallState.returned _ => none
      | _ => some (s.setCall c { call with state := CallState.dropped })

end Mediator

def mediatorSystem (key item fetchError storeError : Type) [DecidableEq key] :
    TransitionSystem (Mediator key item fetchError storeError)
      (MediatorEvent key item fetchError storeError) where
  init := fun s => exists cacheTtl now, s = withCacheTtl cacheTtl now
  step := fun s e s' => s.next e = some s'

namespace Mediator

variable {key item fetchError storeError : Type} [DecidableEq key]

/-!
# Fields after an update
-/

section Fields

variable (s : Mediator key item fetchError storeError)

omit [DecidableEq key] in
@[simp] theorem setCall_calls (c d : Nat)
    (call : Call key item fetchError storeError) :
    (s.setCall c call).calls d = if d = c then some call else s.calls d :=
  Function.update_apply _ _ _ _

omit [DecidableEq key] in
@[simp] theorem setCall_futures (c : Nat)
    (call : Call key item fetchError storeError) :
    (s.setCall c call).futures = s.futures := rfl

omit [DecidableEq key] in
@[simp] theorem setCall_inFlight (c : Nat)
    (call : Call key item fetchError storeError) :
    (s.setCall c call).inFlight = s.inFlight := rfl

omit [DecidableEq key] in
@[simp] theorem setFuture_futures (f g : Nat)
    (future : FetchFuture key item fetchError storeError) :
    (s.setFuture f future).futures g =
      if g = f then some future else s.futures g :=
  Function.update_apply _ _ _ _

omit [DecidableEq key] in
@[simp] theorem setFuture_calls (f : Nat)
    (future : FetchFuture key item fetchError storeError) :
    (s.setFuture f future).calls = s.calls := rfl

omit [DecidableEq key] in
@[simp] theorem setFuture_inFlight (f : Nat)
    (future : FetchFuture key item fetchError storeError) :
    (s.setFuture f future).inFlight = s.inFlight := rfl

@[simp] theorem insert_inFlight (k l : key) (state : SyncState item) :
    (s.insert k state).inFlight l =
      if l = k then some state else s.inFlight l :=
  Function.update_apply _ _ _ _

@[simp] theorem insert_futures (k : key) (state : SyncState item) :
    (s.insert k state).futures = s.futures := rfl

@[simp] theorem insert_calls (k : key) (state : SyncState item) :
    (s.insert k state).calls = s.calls := rfl

end Fields

/-!
# What a step can do
-/

/-- How a call that has started goes on without touching the map. -/
inductive CallMoves (s : Mediator key item fetchError storeError)
    (call : Call key item fetchError storeError) :
    Call key item fetchError storeError -> Prop where
  | loadFailed (e : storeError) :
      CallMoves s call { call with
        state := CallState.returned (Except.error (SyncMediatorError.store e)) }
  | found (i : item) :
      CallMoves s call { call with
        state := CallState.returned (Except.ok i), loaded := some i }
  | missing :
      CallMoves s call { call with state := CallState.missing }
  | joins (f : Nat) :
      s.inFlight call.key = some (SyncState.inFlight f) ->
      CallMoves s call { call with state := CallState.awaiting f }
  | takesCached (i : item) (instant : Nat) :
      s.inFlight call.key = some (SyncState.cached i instant) ->
      CallMoves s call { call with state := CallState.returned (Except.ok i) }
  | resumes (f : Nat) (future : FetchFuture key item fetchError storeError)
      (output : Except (SyncMediatorError fetchError storeError) item) :
      call.state = CallState.awaiting f ->
      s.futures f = some future ->
      future.progress = Progress.completed output ->
      CallMoves s call { call with state := CallState.returned output }
  | dropped :
      CallMoves s call { call with state := CallState.dropped }

/-- How the body of a future goes on before it takes the lock. -/
inductive Advances (now : Nat) :
    FetchFuture key item fetchError storeError ->
      FetchFuture key item fetchError storeError -> Prop where
  | fetchStarts (k : key) (l : Option (item × Nat)) :
      Advances now ⟨k, Progress.created, l⟩ ⟨k, Progress.fetching, l⟩
  | fetched (k : key) (i : item) (l : Option (item × Nat)) :
      Advances now ⟨k, Progress.fetching, l⟩ ⟨k, Progress.storing i, l⟩
  | fetchFails (k : key) (e : fetchError) (l : Option (item × Nat)) :
      Advances now ⟨k, Progress.fetching, l⟩
        ⟨k, Progress.completed (Except.error (SyncMediatorError.fetch e)), l⟩
  | stored (k : key) (i j : item) (l : Option (item × Nat)) :
      Advances now ⟨k, Progress.storing i, l⟩
        ⟨k, Progress.stored j, some (j, now)⟩
  | storeFails (k : key) (i : item) (e : storeError)
      (l : Option (item × Nat)) :
      Advances now ⟨k, Progress.storing i, l⟩
        ⟨k, Progress.completed (Except.error (SyncMediatorError.store e)), l⟩

inductive Moves (s : Mediator key item fetchError storeError) :
    Mediator key item fetchError storeError -> Prop where
  | tick (elapsed : Nat) : Moves s { s with now := s.now + elapsed }
  | starts (c : Nat) (k : key) :
      s.calls c = none ->
      Moves s (s.retainFresh.setCall c { key := k, state := CallState.loading })
  | call (c : Nat) (call call' : Call key item fetchError storeError) :
      s.calls c = some call ->
      CallMoves s call call' ->
      Moves s (s.setCall c call')
  | creates (c f : Nat) (call : Call key item fetchError storeError) :
      s.calls c = some call ->
      s.inFlight call.key = none ->
      s.futures f = none ->
      Moves s (((s.setFuture f
        { key := call.key, progress := Progress.created }).insert
          call.key (SyncState.inFlight f)).setCall c
            { call with state := CallState.awaiting f })
  | advances (f : Nat)
      (future future' : FetchFuture key item fetchError storeError) :
      s.futures f = some future ->
      Advances s.now future future' ->
      Moves s (s.setFuture f future')
  | caches (f : Nat) (future : FetchFuture key item fetchError storeError)
      (i : item) :
      s.futures f = some future ->
      future.progress = Progress.stored i ->
      Moves s ((s.setFuture f { future with
        progress := Progress.completed (Except.ok i) }).insert future.key
          (SyncState.cached i s.now))

variable {s s' : Mediator key item fetchError storeError}

omit [DecidableEq key] in
theorem awaited_eq_some {c f : Nat} (h : s.awaited c = some f) :
    exists call, s.calls c = some call ∧ call.state = CallState.awaiting f := by
  unfold awaited at h
  rcases Option.bind_eq_some_iff.mp h with ⟨call, hcall, hstate⟩
  refine ⟨call, hcall, ?_⟩
  split at hstate
  · rename_i joined hjoined
    rw [hjoined, Option.some.inj hstate]
  · cases hstate

theorem pollFuture_moves {f : Nat}
    {future : FetchFuture key item fetchError storeError}
    {result : PollResult item fetchError storeError}
    (hfuture : s.futures f = some future)
    (h : s.pollFuture f future result = some s') : Moves s s' := by
  rcases future with ⟨k, progress, l⟩
  cases result with
  | fetchStarts =>
      cases progress <;> simp only [pollFuture, Option.some.injEq, reduceCtorEq] at h
      rw [<- h]
      exact Moves.advances f _ _ hfuture (Advances.fetchStarts k l)
  | fetchEnds result =>
      cases progress <;> cases result <;>
        simp only [pollFuture, Option.some.injEq, reduceCtorEq] at h
      · rw [<- h]
        exact Moves.advances f _ _ hfuture (Advances.fetchFails k _ l)
      · rw [<- h]
        exact Moves.advances f _ _ hfuture (Advances.fetched k _ l)
  | storeEnds result =>
      cases progress <;> cases result <;>
        simp only [pollFuture, Option.some.injEq, reduceCtorEq] at h
      · rw [<- h]
        exact Moves.advances f _ _ hfuture (Advances.storeFails k _ _ l)
      · rw [<- h]
        exact Moves.advances f _ _ hfuture (Advances.stored k _ _ l)
  | lockTaken =>
      cases progress <;> simp only [pollFuture, Option.some.injEq, reduceCtorEq] at h
      rw [<- h]
      exact Moves.caches f ⟨k, _, l⟩ _ hfuture rfl

theorem getOrCreateFuture_moves {c f : Nat}
    {call : Call key item fetchError storeError} (hcall : s.calls c = some call)
    (h : s.getOrCreateFuture c call f = some s') : Moves s s' := by
  unfold getOrCreateFuture at h
  split at h
  · rename_i joined hjoined
    cases h
    exact Moves.call c call _ hcall (CallMoves.joins joined hjoined)
  · rename_i i instant hcached
    cases h
    exact Moves.call c call _ hcall (CallMoves.takesCached i instant hcached)
  · rename_i hvacant
    split at h
    · rename_i hnew
      cases h
      exact Moves.creates c f call hcall hvacant (Option.isNone_iff_eq_none.mp hnew)
    · cases h

theorem next_moves {e : MediatorEvent key item fetchError storeError}
    (h : s.next e = some s') : Moves s s' := by
  cases e with
  | tick elapsed =>
      cases h
      exact Moves.tick elapsed
  | sync c k =>
      simp only [next] at h
      split at h
      · rename_i hnew
        cases h
        exact Moves.starts c k hnew
      · cases h
  | load c result =>
      rcases Option.bind_eq_some_iff.mp h with ⟨call, hcall, hstate⟩
      split at hstate
      · cases hstate
        rcases result with e | _ | i
        · exact Moves.call c call _ hcall (CallMoves.loadFailed e)
        · exact Moves.call c call _ hcall CallMoves.missing
        · exact Moves.call c call _ hcall (CallMoves.found i)
      · cases hstate
  | getOrCreateFuture c f =>
      rcases Option.bind_eq_some_iff.mp h with ⟨call, hcall, hstate⟩
      split at hstate
      · exact getOrCreateFuture_moves hcall hstate
      · cases hstate
  | poll c result =>
      rcases Option.bind_eq_some_iff.mp h with ⟨f, _, hpoll⟩
      rcases Option.bind_eq_some_iff.mp hpoll with ⟨future, hfuture, hpoll⟩
      exact pollFuture_moves hfuture hpoll
  | resume c =>
      rcases Option.bind_eq_some_iff.mp h with ⟨call, hcall, hresume⟩
      rcases Option.bind_eq_some_iff.mp hresume with ⟨f, hawaited, hresume⟩
      rcases Option.bind_eq_some_iff.mp hresume with ⟨future, hfuture, hresume⟩
      rcases awaited_eq_some hawaited with ⟨call', hcall', hstate⟩
      cases hcall.symm.trans hcall'
      split at hresume
      · rename_i output houtput
        cases hresume
        exact Moves.call c call _ hcall
          (CallMoves.resumes f future output hstate hfuture houtput)
      · cases hresume
  | drop c =>
      rcases Option.bind_eq_some_iff.mp h with ⟨call, hcall, hstate⟩
      split at hstate
      · cases hstate
      · cases hstate
        exact Moves.call c call _ hcall CallMoves.dropped

/-!
# Futures and the map

A future that has not put its item into the map is the one that the map holds
for its key.  So a key never has two of them, and a failed one stays.
-/

structure Mapped (s : Mediator key item fetchError storeError) : Prop where
  entry : forall k f, s.inFlight k = some (SyncState.inFlight f) ->
    exists future, s.futures f = some future ∧ future.key = k ∧
      future.progress.isSynced = false
  unsynced : forall f future, s.futures f = some future ->
    future.progress.isSynced = false ->
    s.inFlight future.key = some (SyncState.inFlight f)

omit [DecidableEq key] in
theorem retainFresh_inFlight {k : key} {f : Nat} :
    s.retainFresh.inFlight k = some (SyncState.inFlight f) <->
      s.inFlight k = some (SyncState.inFlight f) := by
  simp [retainFresh, Option.filter_eq_some_iff, isFresh]

omit [DecidableEq key] in
theorem Advances.unsynced {now : Nat}
    {future future' : FetchFuture key item fetchError storeError}
    (h : Advances now future future') :
    future'.key = future.key ∧ future.progress.isSynced = false ∧
      future'.progress.isSynced = false := by
  cases h <;> exact ⟨rfl, rfl, rfl⟩

theorem Mapped.moves (hs : Mapped s) (h : Moves s s') : Mapped s' := by
  rcases hs with ⟨hentry, hunsynced⟩
  cases h with
  | tick elapsed => exact ⟨hentry, hunsynced⟩
  | starts c k hnew =>
      constructor
      · intro k f hk
        exact hentry k f (retainFresh_inFlight.mp hk)
      · intro f future hf hopen
        exact retainFresh_inFlight.mpr (hunsynced f future hf hopen)
  | call c call call' hcall hmoves => exact ⟨hentry, hunsynced⟩
  | creates c f call hcall hvacant hnew =>
      constructor
      · intro l g hl
        by_cases hkey : l = call.key
        · have hg : f = g := by simpa [hkey] using hl
          exact ⟨{ key := call.key, progress := Progress.created },
            by simp [hg], hkey.symm, rfl⟩
        · have hold : s.inFlight l = some (SyncState.inFlight g) := by
            simpa [hkey] using hl
          rcases hentry l g hold with ⟨future, hg, hrest⟩
          have hne : g ≠ f := by
            intro heq
            rw [heq, hnew] at hg
            cases hg
          exact ⟨future, by simp [hne, hg], hrest⟩
      · intro g future hg hopen
        by_cases hgf : g = f
        · have hfuture : { key := call.key, progress := Progress.created } =
              future := by
            simpa [hgf] using hg
          rw [<- hfuture]
          simp [hgf]
        · have hold : s.futures g = some future := by simpa [hgf] using hg
          have hmapped := hunsynced g future hold hopen
          have hne : future.key ≠ call.key := by
            intro heq
            rw [heq, hvacant] at hmapped
            cases hmapped
          simp [hne, hmapped]
  | advances f future future' hf hadv =>
      rcases hadv.unsynced with ⟨hkey, hbefore, hafter⟩
      constructor
      · intro l g hl
        rcases hentry l g hl with ⟨old, hold, hrest⟩
        by_cases hgf : g = f
        · have hsame : old = future := by simpa [hgf, hf] using hold.symm
          rw [hsame] at hrest
          exact ⟨future', by simp [hgf], hkey.trans hrest.left, hafter⟩
        · exact ⟨old, by simp [hgf, hold], hrest⟩
      · intro g future'' hg hopen
        by_cases hgf : g = f
        · have hsame : future' = future'' := by simpa [hgf] using hg
          rw [<- hsame, hkey, hgf]
          exact hunsynced f future hf hbefore
        · exact hunsynced g future'' (by simpa [hgf] using hg) hopen
  | caches f future i hf hi =>
      have hmapped := hunsynced f future hf (by rw [hi]; rfl)
      constructor
      · intro l g hl
        by_cases hkey : l = future.key
        · simp [hkey] at hl
        · have hold : s.inFlight l = some (SyncState.inFlight g) := by
            simpa [hkey] using hl
          rcases hentry l g hold with ⟨old, hg, hl', hopen⟩
          have hne : g ≠ f := by
            intro heq
            rw [heq, hf] at hg
            cases hg
            exact hkey hl'.symm
          exact ⟨old, by simp [hne, hg], hl', hopen⟩
      · intro g old hg hopen
        by_cases hgf : g = f
        · have hsame : { future with progress := Progress.completed (Except.ok i) } =
              old := by
            simpa [hgf] using hg
          rw [<- hsame] at hopen
          cases hopen
        · have hold : s.futures g = some old := by simpa [hgf] using hg
          have hother := hunsynced g old hold hopen
          have hne : old.key ≠ future.key := by
            intro heq
            rw [heq, hmapped] at hother
            cases hother
            exact hgf rfl
          simp [hne, hother]

omit [DecidableEq key] in
theorem Mapped.unique (hs : Mapped s) {f g : Nat}
    {future other : FetchFuture key item fetchError storeError}
    (hf : s.futures f = some future) (hg : s.futures g = some other)
    (hkey : future.key = other.key) (hopen : future.progress.isSynced = false)
    (hother : other.progress.isSynced = false) : f = g := by
  have hmapped := hs.unsynced f future hf hopen
  rw [hkey, hs.unsynced g other hg hother] at hmapped
  cases hmapped
  rfl

end Mediator

/-!
# Stored items
-/

/-- The record of the store agrees with the progress of the body. -/
def FetchFuture.Recorded {key item fetchError storeError : Type}
    (future : FetchFuture key item fetchError storeError) : Prop :=
  match future.progress with
  | Progress.stored i => exists t, future.stored = some (i, t)
  | Progress.completed (Except.ok i) => exists t, future.stored = some (i, t)
  | _ => future.stored = none

namespace Mediator

variable {key item fetchError storeError : Type} [DecidableEq key]

def AllRecorded (s : Mediator key item fetchError storeError) : Prop :=
  forall f future, s.futures f = some future -> future.Recorded

omit [DecidableEq key] in
theorem Advances.recorded {now : Nat}
    {future future' : FetchFuture key item fetchError storeError}
    (h : Advances now future future') (hrec : future.Recorded) :
    future'.Recorded := by
  cases h with
  | fetchStarts k l => exact hrec
  | fetched k i l => exact hrec
  | fetchFails k e l => exact hrec
  | stored k i j l => exact ⟨now, rfl⟩
  | storeFails k i e l => exact hrec

omit [DecidableEq key] in
theorem Advances.stored_none {now : Nat}
    {future future' : FetchFuture key item fetchError storeError}
    (h : Advances now future future') (hrec : future.Recorded) :
    future.stored = none := by
  cases h <;> exact hrec

omit [DecidableEq key] in
theorem Advances.stored_now {now : Nat}
    {future future' : FetchFuture key item fetchError storeError}
    (h : Advances now future future') (hrec : future.Recorded) {i : item}
    {t : Nat} (hstored : future'.stored = some (i, t)) : t = now := by
  have hnone := h.stored_none hrec
  cases h with
  | stored k i j l =>
      cases hstored
      rfl
  | _ =>
      rw [show _ = none from hnone] at hstored
      cases hstored

variable {s s' : Mediator key item fetchError storeError}

theorem AllRecorded.moves (hs : AllRecorded s) (h : Moves s s') :
    AllRecorded s' := by
  intro g future hg
  cases h with
  | tick elapsed => exact hs g future hg
  | starts c k hnew => exact hs g future hg
  | call c call call' hcall hmoves => exact hs g future hg
  | creates c f call hcall hvacant hnew =>
      by_cases hgf : g = f
      · have hfuture : { key := call.key, progress := Progress.created } =
            future := by
          simpa [hgf] using hg
        rw [<- hfuture]
        rfl
      · exact hs g future (by simpa [hgf] using hg)
  | advances f old new hf hadv =>
      by_cases hgf : g = f
      · have hfuture : new = future := by simpa [hgf] using hg
        rw [<- hfuture]
        exact hadv.recorded (hs f old hf)
      · exact hs g future (by simpa [hgf] using hg)
  | caches f old i hf hi =>
      by_cases hgf : g = f
      · have hfuture : { old with progress := Progress.completed (Except.ok i) } =
            future := by
          simpa [hgf] using hg
        have hrec := hs f old hf
        unfold FetchFuture.Recorded at hrec
        rw [hi] at hrec
        rw [<- hfuture]
        exact hrec
      · exact hs g future (by simpa [hgf] using hg)

theorem Moves.future (h : Moves s s') (hs : AllRecorded s) {g : Nat}
    {future : FetchFuture key item fetchError storeError}
    (hg : s.futures g = some future) :
    exists future', s'.futures g = some future' ∧ future'.key = future.key ∧
      (forall x, future.stored = some x -> future'.stored = some x) ∧
      (future.progress.isCompleted = true -> future' = future) := by
  have hsame : s'.futures g = some future ->
      exists future', s'.futures g = some future' ∧ future'.key = future.key ∧
        (forall x, future.stored = some x -> future'.stored = some x) ∧
        (future.progress.isCompleted = true -> future' = future) :=
    fun hkept => ⟨future, hkept, rfl, fun _ hx => hx, fun _ => rfl⟩
  cases h with
  | tick elapsed => exact hsame hg
  | starts c k hnew => exact hsame hg
  | call c call call' hcall hmoves => exact hsame hg
  | creates c f call hcall hvacant hnew =>
      have hne : g ≠ f := by
        intro heq
        rw [heq, hnew] at hg
        cases hg
      exact hsame (by simp [hne, hg])
  | advances f old new hf hadv =>
      by_cases hgf : g = f
      · have hold : old = future := by simpa [hgf, hf] using hg
        subst hold
        refine ⟨new, by simp [hgf], hadv.unsynced.left, ?_, ?_⟩
        · intro x hx
          rw [hadv.stored_none (hs f old hf)] at hx
          cases hx
        · intro hended
          cases hadv <;> cases hended
      · exact hsame (by simp [hgf, hg])
  | caches f old i hf hi =>
      by_cases hgf : g = f
      · have hold : old = future := by simpa [hgf, hf] using hg
        subst hold
        refine ⟨{ old with progress := Progress.completed (Except.ok i) },
          by simp [hgf], rfl, fun _ hx => hx, ?_⟩
        intro hended
        rw [hi] at hended
        cases hended
      · exact hsame (by simp [hgf, hg])

/-!
# Cached items

While a stored item is younger than the time to live, the map has an entry for
its key: the future that is about to cache it, or the item in the cache.
-/

/-- A store of `k` by `f` at time `t` still keeps other fetches away. -/
def Guarded (s : Mediator key item fetchError storeError) (k : key) (f t : Nat) :
    Prop :=
  s.inFlight k = some (SyncState.inFlight f) ∨
    exists i t', s.inFlight k = some (SyncState.cached i t') ∧ t <= t'

structure Cached (s : Mediator key item fetchError storeError) : Prop where
  origin : forall k i t, s.inFlight k = some (SyncState.cached i t) ->
    exists f future t', s.futures f = some future ∧ future.key = k ∧
      future.stored = some (i, t')
  past : forall f future i t, s.futures f = some future ->
    future.stored = some (i, t) -> t <= s.now
  recent : forall f future i t, s.futures f = some future ->
    future.stored = some (i, t) ->
    t + s.cacheTtl <= s.now ∨ s.Guarded future.key f t

omit [DecidableEq key] in
theorem retainFresh_cached {k : key} {i : item} {t : Nat}
    (h : s.inFlight k = some (SyncState.cached i t)) :
    s.retainFresh.inFlight k = some (SyncState.cached i t) ∨
      s.cacheTtl <= s.now - t := by
  by_cases hfresh : s.now - t < s.cacheTtl
  · exact Or.inl (by simp [retainFresh, h, isFresh, hfresh])
  · exact Or.inr (Nat.le_of_not_lt hfresh)

omit [DecidableEq key] in
theorem Guarded.retainFresh {k : key} {f t : Nat} (h : s.Guarded k f t)
    (hpast : t <= s.now) :
    t + s.cacheTtl <= s.now ∨ s.retainFresh.Guarded k f t := by
  rcases h with hopen | ⟨i, t', hcached, hle⟩
  · exact Or.inr (Or.inl (retainFresh_inFlight.mpr hopen))
  · rcases retainFresh_cached hcached with hkept | hold
    · exact Or.inr (Or.inr ⟨i, t', hkept, hle⟩)
    · exact Or.inl (by omega)

omit [DecidableEq key] in
theorem retainFresh_subset {k : key} {state : SyncState item}
    (h : s.retainFresh.inFlight k = some state) : s.inFlight k = some state :=
  (Option.filter_eq_some_iff.mp h).left

theorem Cached.origin_moves (hs : Cached s) (hrec : AllRecorded s)
    (h : Moves s s') (k : key) (i : item) (t : Nat)
    (hk : s'.inFlight k = some (SyncState.cached i t)) :
    exists f future t', s'.futures f = some future ∧ future.key = k ∧
      future.stored = some (i, t') := by
  -- An item that was cached before the step keeps its future.
  have hkept : s.inFlight k = some (SyncState.cached i t) ->
      exists f future t', s'.futures f = some future ∧ future.key = k ∧
        future.stored = some (i, t') := by
    intro hold
    rcases hs.origin k i t hold with ⟨f, future, t', hf, hkey, hstored⟩
    rcases h.future hrec hf with ⟨future', hf', hkey', hstored', _⟩
    exact ⟨f, future', t', hf', hkey'.trans hkey, hstored' _ hstored⟩
  cases h with
  | tick elapsed => exact hkept hk
  | starts c l hnew => exact hkept (retainFresh_subset hk)
  | call c call call' hcall hmoves => exact hkept hk
  | creates c f call hcall hvacant hnew =>
      by_cases hkey : k = call.key
      · simp [hkey] at hk
      · exact hkept (by simpa [hkey] using hk)
  | advances f old new hf hadv => exact hkept hk
  | caches f old j hf hj =>
      by_cases hkey : k = old.key
      · have hsame : j = i ∧ s.now = t := by simpa [hkey] using hk
        have hstored := hrec f old hf
        unfold FetchFuture.Recorded at hstored
        rw [hj] at hstored
        rcases hstored with ⟨t', hstored⟩
        exact ⟨f, { old with progress := Progress.completed (Except.ok j) }, t',
          by simp, hkey.symm, by rw [<- hsame.left]; exact hstored⟩
      · exact hkept (by simpa [hkey] using hk)

theorem Moves.stored (h : Moves s s') (hrec : AllRecorded s) {g : Nat}
    {future : FetchFuture key item fetchError storeError} {i : item} {t : Nat}
    (hg : s'.futures g = some future) (hstored : future.stored = some (i, t)) :
    (exists old, s.futures g = some old ∧ old.key = future.key ∧
      old.stored = some (i, t)) ∨
    (t = s.now ∧ exists old, s.futures g = some old ∧ old.key = future.key ∧
      Advances s.now old future ∧ s' = s.setFuture g future) := by
  cases h with
  | tick elapsed => exact Or.inl ⟨future, hg, rfl, hstored⟩
  | starts c k hnew => exact Or.inl ⟨future, hg, rfl, hstored⟩
  | call c call call' hcall hmoves => exact Or.inl ⟨future, hg, rfl, hstored⟩
  | creates c f call hcall hvacant hnew =>
      by_cases hgf : g = f
      · have hfuture : { key := call.key, progress := Progress.created } =
            future := by
          simpa [hgf] using hg
        rw [<- hfuture] at hstored
        cases hstored
      · exact Or.inl ⟨future, by simpa [hgf] using hg, rfl, hstored⟩
  | advances f old new hf hadv =>
      by_cases hgf : g = f
      · have hfuture : new = future := by simpa [hgf] using hg
        subst hfuture hgf
        exact Or.inr ⟨hadv.stored_now (hrec g old hf) hstored, old, hf,
          hadv.unsynced.left.symm, hadv, rfl⟩
      · exact Or.inl ⟨future, by simpa [hgf] using hg, rfl, hstored⟩
  | caches f old j hf hj =>
      by_cases hgf : g = f
      · have hfuture : { old with progress := Progress.completed (Except.ok j) } =
            future := by
          simpa [hgf] using hg
        subst hfuture hgf
        exact Or.inl ⟨old, hf, rfl, hstored⟩
      · exact Or.inl ⟨future, by simpa [hgf] using hg, rfl, hstored⟩

theorem Guarded.moves {k : key} {f t : Nat} (hpast : t <= s.now)
    (hg : s.Guarded k f t) (h : Moves s s') :
    t + s'.cacheTtl <= s'.now ∨ s'.Guarded k f t := by
  cases h with
  | tick elapsed => exact Or.inr hg
  | starts c l hnew => exact hg.retainFresh hpast
  | call c call call' hcall hmoves => exact Or.inr hg
  | creates c g call hcall hvacant hnew =>
      have hne : k ≠ call.key := by
        intro heq
        rcases hg with hopen | ⟨i, t', hcached, _⟩
        · rw [heq, hvacant] at hopen
          cases hopen
        · rw [heq, hvacant] at hcached
          cases hcached
      exact Or.inr (by simpa [Guarded, hne] using hg)
  | advances g old new hf hadv => exact Or.inr hg
  | caches g old i hf hi =>
      by_cases hkey : k = old.key
      · exact Or.inr (Or.inr ⟨i, s.now, by simp [hkey], hpast⟩)
      · exact Or.inr (by simpa [Guarded, hkey] using hg)

theorem Moves.clock (h : Moves s s') :
    s.now <= s'.now ∧ s'.cacheTtl = s.cacheTtl := by
  cases h with
  | tick elapsed => exact ⟨Nat.le_add_right _ _, rfl⟩
  | _ => exact ⟨Nat.le_refl _, rfl⟩

theorem Cached.moves (hs : Cached s) (hmap : Mapped s) (hrec : AllRecorded s)
    (h : Moves s s') :
    Cached s' := by
  rcases h.clock with ⟨hnow, httl⟩
  constructor
  · exact hs.origin_moves hrec h
  · intro f future i t hf hstored
    rcases h.stored hrec hf hstored with ⟨old, hold, _, hstored'⟩ | ⟨ht, _⟩
    · exact Nat.le_trans (hs.past f old i t hold hstored') hnow
    · rw [ht]
      exact hnow
  · intro f future i t hf hstored
    rcases h.stored hrec hf hstored with
      ⟨old, hold, hkey, hstored'⟩ | ⟨ht, old, hold, hkey, hadv, hs'⟩
    · rcases hs.recent f old i t hold hstored' with hexpired | hguard
      · exact Or.inl (by rw [httl]; exact Nat.le_trans hexpired hnow)
      · rw [<- hkey]
        exact hguard.moves (hs.past f old i t hold hstored') h
    · have hopen := hmap.unsynced f old hold hadv.unsynced.right.left
      refine Or.inr (Or.inl ?_)
      rw [hs', <- hkey]
      exact hopen

/-!
# What calls return
-/

structure Answered (s : Mediator key item fetchError storeError) : Prop where
  awaits : forall c call f, s.calls c = some call ->
    call.state = CallState.awaiting f ->
    exists future, s.futures f = some future ∧ future.key = call.key
  answers : forall c call i, s.calls c = some call ->
    call.state = CallState.returned (Except.ok i) ->
    call.loaded = some i ∨ exists f future t, s.futures f = some future ∧
      future.key = call.key ∧ future.stored = some (i, t)

omit [DecidableEq key] in
theorem CallMoves.answered (hs : Answered s) (hmap : Mapped s)
    (hrec : AllRecorded s) (hcache : Cached s) {c : Nat}
    {call call' : Call key item fetchError storeError}
    (hcall : s.calls c = some call) (h : CallMoves s call call') :
    (forall f, call'.state = CallState.awaiting f ->
      exists future, s.futures f = some future ∧ future.key = call'.key) ∧
    (forall i, call'.state = CallState.returned (Except.ok i) ->
      call'.loaded = some i ∨ exists f future t, s.futures f = some future ∧
        future.key = call'.key ∧ future.stored = some (i, t)) := by
  cases h with
  | loadFailed e =>
      exact ⟨fun _ hf => (nomatch hf), fun _ hi => (nomatch hi)⟩
  | found i =>
      refine ⟨fun _ hf => (nomatch hf), ?_⟩
      intro j hj
      cases hj
      exact Or.inl rfl
  | missing => exact ⟨fun _ hf => (nomatch hf), fun _ hi => (nomatch hi)⟩
  | joins f hjoined =>
      refine ⟨?_, fun _ hi => (nomatch hi)⟩
      intro g hg
      cases hg
      rcases hmap.entry call.key f hjoined with ⟨future, hf, hkey, _⟩
      exact ⟨future, hf, hkey⟩
  | takesCached i instant hcached =>
      refine ⟨fun _ hf => (nomatch hf), ?_⟩
      intro j hj
      cases hj
      exact Or.inr (hcache.origin call.key i instant hcached)
  | resumes f future output hstate hf houtput =>
      refine ⟨fun _ hf => (nomatch hf), ?_⟩
      intro i hi
      cases hi
      rcases hs.awaits c call f hcall hstate with ⟨future', hf', hkey⟩
      cases hf.symm.trans hf'
      have hstored := hrec f future hf
      unfold FetchFuture.Recorded at hstored
      rw [houtput] at hstored
      rcases hstored with ⟨t, hstored⟩
      exact Or.inr ⟨f, future, t, hf, hkey, hstored⟩
  | dropped => exact ⟨fun _ hf => (nomatch hf), fun _ hi => (nomatch hi)⟩

theorem Answered.moves (hs : Answered s) (hmap : Mapped s)
    (hrec : AllRecorded s) (hcache : Cached s) (h : Moves s s') :
    Answered s' := by
  -- It is enough to look at each call with the futures before the step.
  have hcalls : forall d call, s'.calls d = some call ->
      (forall f, call.state = CallState.awaiting f ->
        exists future, s'.futures f = some future ∧ future.key = call.key) ∧
      (forall i, call.state = CallState.returned (Except.ok i) ->
        call.loaded = some i ∨ exists f future t, s.futures f = some future ∧
          future.key = call.key ∧ future.stored = some (i, t)) := by
    intro d call hd
    have hold : s.calls d = some call ->
        (forall f, call.state = CallState.awaiting f ->
          exists future, s'.futures f = some future ∧ future.key = call.key) ∧
        (forall i, call.state = CallState.returned (Except.ok i) ->
          call.loaded = some i ∨ exists f future t, s.futures f = some future ∧
            future.key = call.key ∧ future.stored = some (i, t)) := by
      intro hd
      refine ⟨?_, fun i hi => hs.answers d call i hd hi⟩
      intro f hf
      rcases hs.awaits d call f hd hf with ⟨future, hfuture, hkey⟩
      rcases h.future hrec hfuture with ⟨future', hfuture', hkey', _⟩
      exact ⟨future', hfuture', hkey'.trans hkey⟩
    cases h with
    | tick elapsed => exact hold hd
    | starts c k hnew =>
        by_cases hdc : d = c
        · have hcall : { key := k, state := CallState.loading } = call := by
            simpa [hdc] using hd
          rw [<- hcall]
          exact ⟨fun _ hf => (nomatch hf), fun _ hi => (nomatch hi)⟩
        · exact hold (by simpa [hdc, retainFresh] using hd)
    | call c old call' hcall hmoves =>
        by_cases hdc : d = c
        · have hsame : call' = call := by simpa [hdc] using hd
          rw [<- hsame]
          exact hmoves.answered hs hmap hrec hcache hcall
        · exact hold (by simpa [hdc] using hd)
    | creates c f old hcall hvacant hnew =>
        by_cases hdc : d = c
        · have hsame : { old with state := CallState.awaiting f } = call := by
            simpa [hdc] using hd
          rw [<- hsame]
          refine ⟨?_, fun _ hi => (nomatch hi)⟩
          intro g hg
          cases hg
          exact ⟨{ key := old.key, progress := Progress.created }, by simp, rfl⟩
        · exact hold (by simpa [hdc] using hd)
    | advances f old new hf hadv => exact hold hd
    | caches f old i hf hi => exact hold hd
  constructor
  · intro d call f hd
    exact (hcalls d call hd).left f
  · intro d call i hd hi
    rcases (hcalls d call hd).right i hi with hloaded | ⟨f, future, t, hf, hkey, hst⟩
    · exact Or.inl hloaded
    · rcases h.future hrec hf with ⟨future', hf', hkey', hstored', _⟩
      exact Or.inr ⟨f, future', t, hf', hkey'.trans hkey, hstored' _ hst⟩

/-!
# Whole runs
-/

structure Consistent (s : Mediator key item fetchError storeError) : Prop where
  mapped : Mapped s
  recorded : AllRecorded s
  cached : Cached s
  answered : Answered s

omit [DecidableEq key] in
theorem consistent_withCacheTtl (cacheTtl now : Nat) :
    Consistent (withCacheTtl cacheTtl now :
      Mediator key item fetchError storeError) := by
  refine ⟨⟨?_, ?_⟩, ?_, ⟨?_, ?_, ?_⟩, ⟨?_, ?_⟩⟩ <;> simp [withCacheTtl, AllRecorded]

theorem Consistent.moves (hs : Consistent s) (h : Moves s s') :
    Consistent s' where
  mapped := hs.mapped.moves h
  recorded := hs.recorded.moves h
  cached := hs.cached.moves hs.mapped hs.recorded h
  answered := hs.answered.moves hs.mapped hs.recorded hs.cached h

theorem Consistent.of_reachable
    (hreach : (mediatorSystem key item fetchError storeError).Reachable s) :
    Consistent s := by
  refine TransitionSystem.invariant Consistent ?_ ?_ hreach
  · rintro s ⟨cacheTtl, now, rfl⟩
    exact consistent_withCacheTtl cacheTtl now
  · intro s e s' _ hs hstep
    exact hs.moves (next_moves hstep)

/-- `R::fetch` of the key runs in this future. -/
def FetchRunning (s : Mediator key item fetchError storeError) (k : key)
    (f : Nat) : Prop :=
  exists future, s.futures f = some future ∧ future.key = k ∧
    future.progress = Progress.fetching

/-- `R::store` of the key runs in this future. -/
def StoreRunning (s : Mediator key item fetchError storeError) (k : key)
    (f : Nat) : Prop :=
  exists future i, s.futures f = some future ∧ future.key = k ∧
    future.progress = Progress.storing i

/-- `R::store` of the key has returned `Ok` with the item at time `t`. -/
def StoredAt (s : Mediator key item fetchError storeError) (k : key)
    (i : item) (t : Nat) : Prop :=
  exists f future, s.futures f = some future ∧ future.key = k ∧
    future.stored = some (i, t)

theorem fetchStarts_spec {c : Nat}
    (h : s.next (MediatorEvent.poll c PollResult.fetchStarts) = some s') :
    exists call f future, s.calls c = some call ∧
      call.state = CallState.awaiting f ∧ s.futures f = some future ∧
      future.progress = Progress.created := by
  rcases Option.bind_eq_some_iff.mp h with ⟨f, hawaited, hpoll⟩
  rcases Option.bind_eq_some_iff.mp hpoll with ⟨future, hfuture, hpoll⟩
  rcases awaited_eq_some hawaited with ⟨call, hcall, hstate⟩
  refine ⟨call, f, future, hcall, hstate, hfuture, ?_⟩
  simp only [pollFuture] at hpoll
  split at hpoll
  · assumption
  · cases hpoll

theorem Consistent.fetch_starts_late (hs : Consistent s) {c : Nat}
    {call : Call key item fetchError storeError} (hcall : s.calls c = some call)
    (h : s.next (MediatorEvent.poll c PollResult.fetchStarts) = some s')
    {i : item} {t : Nat} (hstored : s.StoredAt call.key i t) :
    t + s.cacheTtl <= s.now := by
  rcases fetchStarts_spec h with ⟨call', f, future, hcall', hstate, hf, hcreated⟩
  cases hcall.symm.trans hcall'
  rcases hs.answered.awaits c call f hcall hstate with ⟨future', hf', hkey⟩
  cases hf.symm.trans hf'
  have hopen := hs.mapped.unsynced f future hf (by rw [hcreated]; rfl)
  rw [hkey] at hopen
  rcases hstored with ⟨g, other, hg, hgkey, hrecord⟩
  rcases hs.cached.recent g other i t hg hrecord with hold | hmine | ⟨j, t', hitem, _⟩
  · exact hold
  · -- The future itself has not stored anything yet.
    rw [hgkey, hopen] at hmine
    cases hmine
    cases hf.symm.trans hg
    have hnone := hs.recorded f future hf
    unfold FetchFuture.Recorded at hnone
    rw [hcreated] at hnone
    rw [hrecord] at hnone
    cases hnone
  · rw [hgkey, hopen] at hitem
    cases hitem

/--
In every reachable state one fetch and one store of a key run at most, a fetch
that starts finds every successful store of its key at least the time to live
ago, and an `Ok` value of a call was loaded by that call or comes from a fetch
of its key that was stored.
-/
theorem one_resource_one_request
    {s : Mediator key item fetchError storeError}
    (hreach : (mediatorSystem key item fetchError storeError).Reachable s) :
    (forall k f g, s.FetchRunning k f -> s.FetchRunning k g -> f = g) ∧
    (forall k f g, s.StoreRunning k f -> s.StoreRunning k g -> f = g) ∧
    (forall c call s', s.calls c = some call ->
      s.next (MediatorEvent.poll c PollResult.fetchStarts) = some s' ->
      forall i t, s.StoredAt call.key i t -> t + s.cacheTtl <= s.now) ∧
    (forall c call i, s.calls c = some call ->
      call.state = CallState.returned (Except.ok i) ->
      call.loaded = some i ∨ exists t, s.StoredAt call.key i t) := by
  have hs := Consistent.of_reachable hreach
  refine ⟨?_, ?_, ?_, ?_⟩
  · rintro k f g ⟨future, hf, hfkey, hfetching⟩ ⟨other, hg, hgkey, hother⟩
    exact hs.mapped.unique hf hg (hfkey.trans hgkey.symm) (by rw [hfetching]; rfl)
      (by rw [hother]; rfl)
  · rintro k f g ⟨future, i, hf, hfkey, hstoring⟩ ⟨other, j, hg, hgkey, hother⟩
    exact hs.mapped.unique hf hg (hfkey.trans hgkey.symm) (by rw [hstoring]; rfl)
      (by rw [hother]; rfl)
  · intro c call s' hcall hstart i t hstored
    exact hs.fetch_starts_late hcall hstart hstored
  · intro c call i hcall hreturned
    rcases hs.answered.answers c call i hcall hreturned with
      hloaded | ⟨f, future, t, hf, hkey, hstored⟩
    · exact Or.inl hloaded
    · exact Or.inr ⟨t, f, future, hf, hkey, hstored⟩

/-- Two calls for one key that overlap, up to the end of the first. -/
def overlappingCalls : List (MediatorEvent Nat String Unit Unit) :=
  [MediatorEvent.sync 0 7, MediatorEvent.sync 1 7,
    MediatorEvent.load 0 (Except.ok none), MediatorEvent.load 1 (Except.ok none),
    MediatorEvent.getOrCreateFuture 0 0,
    MediatorEvent.poll 0 PollResult.fetchStarts,
    MediatorEvent.getOrCreateFuture 1 1]

theorem overlapping_calls_share_fetch :
    exists s, overlappingCalls.foldlM next (withCacheTtl 60 0) = some s ∧
      s.FetchRunning 7 0 ∧ forall f, s.FetchRunning 7 f -> f = 0 := by
  refine ⟨_, rfl, ⟨_, rfl, rfl, rfl⟩, ?_⟩
  intro f hf
  have hreach := TransitionSystem.Reachable.replay
    (T := mediatorSystem Nat String Unit Unit) (fun _ _ _ h => h)
    (TransitionSystem.ReachableWhen.start ⟨60, 0, rfl⟩)
    (show overlappingCalls.foldlM next (withCacheTtl 60 0) = some _ from rfl)
  exact (one_resource_one_request hreach).left 7 f 0 hf ⟨_, rfl, rfl, rfl⟩

end Mediator

/-!
# No call is stranded

Wake-ups are not modelled: a call may poll its future at any time.  What is shown
is that no state keeps a call from its answer, not that somebody wakes it.
-/

def Progress.left {item fetchError storeError : Type} :
    Progress item fetchError storeError -> Nat
  | created => 5
  | fetching => 4
  | storing _ => 3
  | stored _ => 2
  | completed _ => 1

namespace Mediator

variable {key item fetchError storeError : Type} [DecidableEq key]

/-- What a call that awaits a future does if these are the answers. -/
def own (c : Nat) (fetched : Except fetchError item)
    (stored : Except storeError item) :
    List (MediatorEvent key item fetchError storeError) :=
  [MediatorEvent.poll c PollResult.fetchStarts,
    MediatorEvent.poll c (PollResult.fetchEnds fetched),
    MediatorEvent.poll c (PollResult.storeEnds stored),
    MediatorEvent.poll c PollResult.lockTaken, MediatorEvent.resume c]

/-- All other calls stand still. -/
def alone (c : Nat) (fetched : Except fetchError item)
    (stored : Except storeError item) :
    TransitionSystem (Mediator key item fetchError storeError)
      (MediatorEvent key item fetchError storeError) where
  init := (mediatorSystem key item fetchError storeError).Reachable
  step s e s' := e ∈ own c fetched stored ∧ s.next e = some s'

/-- The steps that the call still has to take. -/
def left (s : Mediator key item fetchError storeError) (c : Nat) : Nat :=
  ((s.awaited c).bind s.futures).elim 0 (fun future => future.progress.left)

def Returned (s : Mediator key item fetchError storeError) (c : Nat) : Prop :=
  exists call output, s.calls c = some call ∧
    call.state = CallState.returned output

variable {s : Mediator key item fetchError storeError} {c g : Nat}
  {future : FetchFuture key item fetchError storeError}
  {fetched : Except fetchError item} {stored : Except storeError item}

/-- Whoever has polled the future before, a call that awaits it goes on. -/
theorem awaiting_continues (hawaits : s.awaited c = some g)
    (hfuture : s.futures g = some future) :
    exists e s', (alone c fetched stored).step s e s' ∧
      (s'.awaited c = some g ∨ s'.Returned c) ∧ s'.left c < s.left c := by
  have hpoll : forall result, s.next (MediatorEvent.poll c result) =
      s.pollFuture g future result := by
    intro result
    simp [next, hawaits, hfuture]
  have hmoves : forall e s' future', e ∈ own c fetched stored ->
      s.next e = some s' -> s'.calls = s.calls ->
      s'.futures g = some future' ->
      future'.progress.left < future.progress.left ->
      exists e s', (alone c fetched stored).step s e s' ∧
        (s'.awaited c = some g ∨ s'.Returned c) ∧ s'.left c < s.left c := by
    intro e s' future' he hnext hcalls hfuture' hlt
    have hsame : s'.awaited c = some g := by
      unfold awaited
      rw [hcalls]
      exact hawaits
    refine ⟨e, s', ⟨he, hnext⟩, Or.inl hsame, ?_⟩
    simpa [left, hsame, hawaits, hfuture, hfuture'] using hlt
  rcases future with ⟨k, progress, l⟩
  cases progress with
  | created =>
      exact hmoves _ _ _ (by simp [own]) (hpoll PollResult.fetchStarts) rfl
        (Function.update_self ..) (by simp [Progress.left])
  | fetching =>
      have hends := hpoll (PollResult.fetchEnds fetched)
      cases fetched <;> exact hmoves _ _ _ (by simp [own]) hends rfl
        (Function.update_self ..) (by simp [Progress.left])
  | storing i =>
      have hends := hpoll (PollResult.storeEnds stored)
      cases stored <;> exact hmoves _ _ _ (by simp [own]) hends rfl
        (Function.update_self ..) (by simp [Progress.left])
  | stored i =>
      exact hmoves _ _ _ (by simp [own]) (hpoll PollResult.lockTaken) rfl
        (Function.update_self ..) (by simp [Progress.left])
  | completed output =>
      rcases awaited_eq_some hawaits with ⟨call, hcall, _⟩
      refine ⟨MediatorEvent.resume c, s.setCall c { call with
          state := CallState.returned output }, ⟨by simp [own], ?_⟩,
        Or.inr ⟨_, output, Function.update_self .., rfl⟩, ?_⟩
      · simp [next, hawaits, hcall, hfuture]
      · have hlast : s.left c = 1 := by
          simp [left, hawaits, hfuture, Progress.left]
        rw [hlast]
        simp [left, awaited]

/--
A call that awaits a future returns on its own, whatever the answers are and
however far other calls, dropped or not, have come with the future.
-/
theorem awaiting_call_returns
    (hreach : (mediatorSystem key item fetchError storeError).Reachable s)
    (hawaits : s.awaited c = some g) :
    exists s', (alone c fetched stored).Runs s s' ∧ s'.Returned c := by
  have hmore : forall t : Mediator key item fetchError storeError,
      (Consistent t ∧ (t.awaited c = some g ∨ t.Returned c)) ->
      ¬ t.Returned c -> exists e u, (alone c fetched stored).step t e u ∧
        (Consistent u ∧ (u.awaited c = some g ∨ u.Returned c)) ∧
          u.left c < t.left c := by
    rintro t ⟨ht, hstate⟩ hopen
    have hwaits := hstate.resolve_right hopen
    rcases awaited_eq_some hwaits with ⟨call, hcall, hawaiting⟩
    rcases ht.answered.awaits c call g hcall hawaiting with ⟨future, hfuture, _⟩
    rcases awaiting_continues hwaits hfuture with ⟨e, u, hstep, hstate', hlt⟩
    exact ⟨e, u, hstep, ⟨ht.moves (next_moves hstep.right), hstate'⟩, hlt⟩
  rcases TransitionSystem.Runs.finishes hmore
    ⟨Consistent.of_reachable hreach, Or.inl hawaits⟩ with
    ⟨s', hruns, _, hreturned⟩
  exact ⟨s', hruns, hreturned⟩

/-- The call that had started the fetch is dropped. -/
theorem abandoned_fetch_returns :
    exists s s', (overlappingCalls ++ [MediatorEvent.drop 0]).foldlM next
        (withCacheTtl 60 0) = some s ∧
      (alone 1 (Except.ok "new") (Except.ok "new")).Runs s s' ∧
      s'.Returned 1 := by
  have hrun : (overlappingCalls ++ [MediatorEvent.drop 0]).foldlM next
      (withCacheTtl 60 0) = some _ := rfl
  have hreach := TransitionSystem.Reachable.replay
    (T := mediatorSystem Nat String Unit Unit) (fun _ _ _ h => h)
    (TransitionSystem.ReachableWhen.start ⟨60, 0, rfl⟩) hrun
  rcases awaiting_call_returns (c := 1) (g := 0) hreach rfl with
    ⟨s', hruns, hreturned⟩
  exact ⟨_, s', hrun, hruns, hreturned⟩

end Mediator

end SyncMediator
end MailClient
