import MailClient.SyncMediator.Mediator

/-!
# Asking again

A call that starts when every fetch of its key has ended should fetch again.
The map entry of a future is replaced only on its way to success, so this
depends on how the earlier fetches have ended.
-/

namespace MailClient
namespace SyncMediator

open Foundation

namespace Mediator

variable {key item fetchError storeError : Type} [DecidableEq key]

/-- Every fetch of the key has ended, and what it has left in the cache is old. -/
structure Ended (s : Mediator key item fetchError storeError) (k : key) :
    Prop where
  futures : forall f future, s.futures f = some future -> future.key = k ->
    future.progress.isCompleted = true
  cache : forall i t, s.inFlight k = some (SyncState.cached i t) ->
    s.cacheTtl <= s.now - t

/-- Some fetch of the key has ended with an error. -/
def HasFailed (s : Mediator key item fetchError storeError) (k : key) : Prop :=
  exists f future, s.futures f = some future ∧ future.key = k ∧
    future.progress.isFailed = true

/-- A future of the key is there that was not there in `s`. -/
def NewFetch (s t : Mediator key item fetchError storeError) (k : key) : Prop :=
  exists f future, t.futures f = some future ∧ future.key = k ∧
    s.futures f = none

/--
A call that has started in `s` looks its key up in `t`, which leads to `u`: it
does not wait for a future that is older than itself, and it starts a fetch of
its own unless another call has started one in the meantime.
-/
structure FetchesAnew (s t u : Mediator key item fetchError storeError)
    (k : key) (c : Nat) : Prop where
  awaits_new : forall call f, u.calls c = some call ->
    call.state = CallState.awaiting f -> s.futures f = none
  starts : ¬ NewFetch s t k ->
    NewFetch t u k ∧ exists u',
      u.next (MediatorEvent.poll c PollResult.fetchStarts) = some u'

variable {s t u : Mediator key item fetchError storeError}
  {call : Call key item fetchError storeError} {k : key} {c : Nat}

theorem Moves.call_key {s' : Mediator key item fetchError storeError}
    (h : Moves s s') {d : Nat} (hd : s.calls d = some call) :
    exists call', s'.calls d = some call' ∧ call'.key = call.key := by
  cases h with
  | tick elapsed => exact ⟨call, hd, rfl⟩
  | starts c k hnew =>
      have hne : d ≠ c := by
        intro heq
        rw [heq, hnew] at hd
        cases hd
      exact ⟨call, by simpa [hne, retainFresh] using hd, rfl⟩
  | call c old call' hcall hmoves =>
      by_cases hdc : d = c
      · have hsame : old = call := by simpa [hdc, hcall] using hd
        refine ⟨call', by simp [hdc], ?_⟩
        rw [<- hsame]
        cases hmoves <;> rfl
      · exact ⟨call, by simpa [hdc] using hd, rfl⟩
  | creates c f old hcall hvacant hnew =>
      by_cases hdc : d = c
      · have hsame : old = call := by simpa [hdc, hcall] using hd
        exact ⟨{ old with state := CallState.awaiting f }, by simp [hdc],
          by rw [hsame]⟩
      · exact ⟨call, by simpa [hdc] using hd, rfl⟩
  | advances f old new hf hadv => exact ⟨call, hd, rfl⟩
  | caches f old i hf hi => exact ⟨call, hd, rfl⟩

/-!
# After the start of the call
-/

/-- What the run since the start of the call leaves of the state `s`. -/
structure Since (s t : Mediator key item fetchError storeError) (k : key)
    (c : Nat) : Prop where
  consistent : Consistent t
  called : exists call, t.calls c = some call ∧ call.key = k
  kept : forall f future, s.futures f = some future ->
    exists future', t.futures f = some future' ∧ future'.key = future.key ∧
      (future.progress.isCompleted = true -> future' = future)

theorem Since.moves (hsince : Since s t k c) (h : Moves t u) :
    Since s u k c where
  consistent := hsince.consistent.moves h
  called := by
    rcases hsince.called with ⟨call, hcall, hkey⟩
    rcases h.call_key hcall with ⟨call', hcall', hkey'⟩
    exact ⟨call', hcall', hkey'.trans hkey⟩
  kept := by
    intro f future hf
    rcases hsince.kept f future hf with ⟨future', hf', hkey', hended'⟩
    rcases h.future hsince.consistent.recorded hf' with
      ⟨future'', hf'', hkey'', _, hended''⟩
    refine ⟨future'', hf'', hkey''.trans hkey', ?_⟩
    intro hended
    have hsame := hended' hended
    rw [hsame] at hended''
    exact hended'' hended

theorem sync_since (hs : Consistent s)
    (h : s.next (MediatorEvent.sync c k) = some t) :
    t = s.retainFresh.setCall c { key := k, state := CallState.loading } ∧
      Since s t k c := by
  have hmoves := next_moves h
  simp only [next] at h
  split at h
  · cases h
    refine ⟨rfl, hs.moves hmoves,
      ⟨{ key := k, state := CallState.loading }, by simp, rfl⟩, ?_⟩
    intro f future hf
    exact ⟨future, hf, rfl, fun _ => rfl⟩
  · cases h

/-- The entry of the key comes from a fetch that the call did not find. -/
structure Renewed (s t : Mediator key item fetchError storeError) (k : key) :
    Prop where
  vacant : t.inFlight k = none ∨ NewFetch s t k
  entry : forall f, t.inFlight k = some (SyncState.inFlight f) ->
    s.futures f = none

theorem Ended.sync_vacant (hs : Consistent s) (hended : Ended s k)
    (hok : ¬ HasFailed s k) (h : s.next (MediatorEvent.sync c k) = some t) :
    t.inFlight k = none := by
  rcases sync_since hs h with ⟨ht, _⟩
  rw [ht, setCall_inFlight]
  cases hentry : s.inFlight k with
  | none => simp [retainFresh, hentry]
  | some state =>
      cases state with
      | inFlight f =>
          rcases hs.mapped.entry k f hentry with ⟨future, hf, hkey, hopen⟩
          have hcompleted := hended.futures f future hf hkey
          have hfailed : future.progress.isFailed = true := by
            cases hprogress : future.progress with
            | completed output =>
                cases output with
                | error e => rfl
                | ok i =>
                    rw [hprogress] at hopen
                    cases hopen
            | _ =>
                rw [hprogress] at hcompleted
                cases hcompleted
          exact absurd ⟨f, future, hf, hkey, hfailed⟩ hok
      | cached i instant =>
          have hold := hended.cache i instant hentry
          simp [retainFresh, hentry, isFresh, hold]

theorem NewFetch.moves (hsince : Since s t k c) (hnew : NewFetch s t k)
    (h : Moves t u) : NewFetch s u k := by
  rcases hnew with ⟨f, future, hf, hkey, hold⟩
  rcases h.future hsince.consistent.recorded hf with ⟨future', hf', hkey', _⟩
  exact ⟨f, future', hf', hkey'.trans hkey, hold⟩

omit [DecidableEq key] in
theorem Since.unknown {f : Nat} (hsince : Since s t k c)
    (hf : t.futures f = none) :
    s.futures f = none := by
  cases hold : s.futures f with
  | none => rfl
  | some future =>
      rcases hsince.kept f future hold with ⟨future', hf', _⟩
      rw [hf] at hf'
      cases hf'

theorem Renewed.moves (hsince : Since s t k c) (hs : Renewed s t k)
    (h : Moves t u) :
    Renewed s u k := by
  have hnew : NewFetch s t k -> NewFetch s u k :=
    fun hnew => hnew.moves hsince h
  cases h with
  | tick elapsed => exact ⟨hs.vacant.imp id hnew, hs.entry⟩
  | starts d l hd =>
      constructor
      · rcases hs.vacant with hvacant | hfetch
        · exact Or.inl (by simp [retainFresh, hvacant])
        · exact Or.inr (hnew hfetch)
      · intro f hf
        exact hs.entry f (retainFresh_inFlight.mp hf)
  | call d call call' hcall hmoves => exact ⟨hs.vacant.imp id hnew, hs.entry⟩
  | creates d g call hcall hvacant hg =>
      by_cases hkey : k = call.key
      · refine ⟨Or.inr ?_, ?_⟩
        · exact ⟨g, { key := call.key, progress := Progress.created }, by simp,
            hkey.symm, hsince.unknown hg⟩
        · intro f hf
          have hgf : g = f := by simpa [hkey] using hf
          rw [<- hgf]
          exact hsince.unknown hg
      · refine ⟨?_, ?_⟩
        · rcases hs.vacant with hvacant' | hfetch
          · exact Or.inl (by simpa [hkey] using hvacant')
          · exact Or.inr (hnew hfetch)
        · intro f hf
          exact hs.entry f (by simpa [hkey] using hf)
  | advances g old new hg hadv => exact ⟨hs.vacant.imp id hnew, hs.entry⟩
  | caches g old i hg hi =>
      by_cases hkey : k = old.key
      · have hopen := hsince.consistent.mapped.unsynced g old hg (by rw [hi]; rfl)
        refine ⟨Or.inr (hnew ?_), ?_⟩
        · -- The future that caches its item was in the map before.
          exact ⟨g, old, hg, hkey.symm, hs.entry g (by rw [hkey]; exact hopen)⟩
        · intro f hf
          simp [hkey] at hf
      · refine ⟨?_, ?_⟩
        · rcases hs.vacant with hvacant | hfetch
          · exact Or.inl (by simpa [hkey] using hvacant)
          · exact Or.inr (hnew hfetch)
        · intro f hf
          exact hs.entry f (by simpa [hkey] using hf)

theorem Since.runs (hsince : Since s t k c)
    (hruns : (mediatorSystem key item fetchError storeError).Runs t u) :
    Since s u k c := by
  induction hruns with
  | refl => exact hsince
  | next _ hstep ih => exact ih.moves (next_moves hstep)

theorem Renewed.runs (hsince : Since s t k c) (hs : Renewed s t k)
    (hruns : (mediatorSystem key item fetchError storeError).Runs t u) :
    Renewed s u k := by
  induction hruns with
  | refl => exact hs
  | next hbefore hstep ih =>
      exact ih.moves (hsince.runs hbefore) (next_moves hstep)

/-!
# The lookup
-/

theorem lookup_spec {f : Nat}
    (h : t.next (MediatorEvent.getOrCreateFuture c f) = some u) :
    exists call, t.calls c = some call ∧
      t.getOrCreateFuture c call f = some u := by
  rcases Option.bind_eq_some_iff.mp h with ⟨call, hcall, hstate⟩
  refine ⟨call, hcall, ?_⟩
  split at hstate
  · exact hstate
  · cases hstate

theorem getOrCreateFuture_joins {f g : Nat}
    (hentry : t.inFlight call.key = some (SyncState.inFlight g))
    (h : t.getOrCreateFuture c call f = some u) :
    u = t.setCall c { call with state := CallState.awaiting g } := by
  unfold getOrCreateFuture at h
  rw [hentry] at h
  exact (Option.some.inj h).symm

theorem getOrCreateFuture_creates {f : Nat}
    (hvacant : t.inFlight call.key = none)
    (h : t.getOrCreateFuture c call f = some u) :
    t.futures f = none ∧
      u.futures f =
        some { key := call.key, progress := Progress.created } ∧
      u.calls c = some { call with state := CallState.awaiting f } := by
  unfold getOrCreateFuture at h
  rw [hvacant] at h
  simp only at h
  split at h
  · rename_i hnew
    cases h
    exact ⟨Option.isNone_iff_eq_none.mp hnew, by simp, by simp⟩
  · cases h

theorem fetchStarts_enabled {f : Nat}
    (hcall : u.calls c = some { call with state := CallState.awaiting f })
    (hf : u.futures f = some { key := k, progress := Progress.created }) :
    exists u',
      u.next (MediatorEvent.poll c PollResult.fetchStarts) = some u' := by
  simp [next, awaited, hcall, hf, pollFuture]

theorem Renewed.fetchesAnew {f : Nat} (hsince : Since s t k c)
    (hs : Renewed s t k)
    (h : t.next (MediatorEvent.getOrCreateFuture c f) = some u) :
    FetchesAnew s t u k c := by
  rcases lookup_spec h with ⟨call, hcall, hlookup⟩
  have hkey : call.key = k := by
    rcases hsince.called with ⟨call', hcall', hkey⟩
    cases hcall.symm.trans hcall'
    exact hkey
  cases hentry : t.inFlight call.key with
  | none =>
      rcases getOrCreateFuture_creates hentry hlookup with ⟨hnew, hf, hu⟩
      constructor
      · intro call' g hcall' hstate
        cases hu.symm.trans hcall'
        cases hstate
        exact hsince.unknown hnew
      · intro _
        exact ⟨⟨f, { key := call.key, progress := Progress.created }, hf, hkey,
          hnew⟩, fetchStarts_enabled hu hf⟩
  | some state =>
      have hfetch : NewFetch s t k := by
        rcases hs.vacant with hvacant | hfetch
        · rw [hkey, hvacant] at hentry
          cases hentry
        · exact hfetch
      refine ⟨?_, fun hnone => absurd hfetch hnone⟩
      cases state with
      | inFlight g =>
          have hu := getOrCreateFuture_joins hentry hlookup
          intro call' g' hcall' hstate
          rw [hu] at hcall'
          simp only [setCall_calls, if_true, Option.some.injEq] at hcall'
          cases hcall'
          cases hstate
          exact hs.entry g (hkey ▸ hentry)
      | cached i instant =>
          intro call' g' hcall' hstate
          unfold getOrCreateFuture at hlookup
          rw [hentry] at hlookup
          cases hlookup
          simp only [setCall_calls, if_true, Option.some.injEq] at hcall'
          cases hcall'
          cases hstate

theorem HasFailed.not_fetchesAnew {f : Nat} (hfailed : HasFailed s k)
    (hsince : Since s t k c)
    (h : t.next (MediatorEvent.getOrCreateFuture c f) = some u) :
    ¬ FetchesAnew s t u k c := by
  intro hanew
  rcases hfailed with ⟨g, future, hg, hkey, hfail⟩
  have hcompleted : future.progress.isCompleted = true ∧
      future.progress.isSynced = false := by
    cases hprogress : future.progress with
    | completed output =>
        cases output with
        | error e => exact ⟨rfl, rfl⟩
        | ok i =>
            rw [hprogress] at hfail
            cases hfail
    | _ =>
        rw [hprogress] at hfail
        cases hfail
  rcases hsince.kept g future hg with ⟨future', hg', _, hsame⟩
  rw [hsame hcompleted.left] at hg'
  rcases lookup_spec h with ⟨call, hcall, hlookup⟩
  rcases hsince.called with ⟨call', hcall', hkey'⟩
  cases hcall.symm.trans hcall'
  have hentry := hsince.consistent.mapped.unsynced g future hg' hcompleted.right
  rw [hkey, <- hkey'] at hentry
  have hu := getOrCreateFuture_joins hentry hlookup
  have hnone := hanew.awaits_new { call with state := CallState.awaiting g } g
    (by rw [hu]; simp) rfl
  rw [hnone] at hg
  cases hg

/--
A call for `k` starts in a reachable state in which every fetch of `k` has
ended, and after any further steps looks `k` up because its load found nothing.
It fetches anew exactly if no fetch of `k` had failed when it started.
-/
theorem sync_fetches_anew_iff
    {s s' t u : Mediator key item fetchError storeError} {k : key} {c f : Nat}
    (hreach : (mediatorSystem key item fetchError storeError).Reachable s)
    (hended : Ended s k)
    (hstart : s.next (MediatorEvent.sync c k) = some s')
    (hruns : (mediatorSystem key item fetchError storeError).Runs s' t)
    (hlookup : t.next (MediatorEvent.getOrCreateFuture c f) = some u) :
    FetchesAnew s t u k c <-> ¬ HasFailed s k := by
  have hs := Consistent.of_reachable hreach
  have hsince := (sync_since hs hstart).right
  constructor
  · intro hanew hfailed
    exact hfailed.not_fetchesAnew (hsince.runs hruns) hlookup hanew
  · intro hok
    have hvacant := hended.sync_vacant hs hok hstart
    have hrenewed : Renewed s s' k :=
      ⟨Or.inl hvacant, fun g hg => by rw [hvacant] at hg; cases hg⟩
    exact (hrenewed.runs hsince hruns).fetchesAnew (hsince.runs hruns) hlookup

/-- A call whose future ends with the given events. -/
def firstCall (ending : List (PollResult String Unit Unit)) :
    List (MediatorEvent Nat String Unit Unit) :=
  [MediatorEvent.sync 0 7, MediatorEvent.load 0 (Except.ok none),
    MediatorEvent.getOrCreateFuture 0 0] ++
    ending.map (MediatorEvent.poll 0) ++
    [MediatorEvent.resume 0, MediatorEvent.tick 60]

theorem firstCall_reachable {ending : List (PollResult String Unit Unit)}
    {s : Mediator Nat String Unit Unit}
    (h : (firstCall ending).foldlM next (withCacheTtl 60 0) = some s) :
    (mediatorSystem Nat String Unit Unit).Reachable s :=
  TransitionSystem.Reachable.replay (fun _ _ _ h => h)
    (TransitionSystem.ReachableWhen.start ⟨60, 0, rfl⟩) h

def success : List (PollResult String Unit Unit) :=
  [PollResult.fetchStarts, PollResult.fetchEnds (Except.ok "a"),
    PollResult.storeEnds (Except.ok "a"), PollResult.lockTaken]

def failure : List (PollResult String Unit Unit) :=
  [PollResult.fetchStarts, PollResult.fetchEnds (Except.error ())]

theorem firstCall_future {s : Mediator Nat String Unit Unit}
    {ending : List (PollResult String Unit Unit)}
    (h : (firstCall ending).foldlM next (withCacheTtl 60 0) = some s)
    (hending : ending = success ∨ ending = failure) {f : Nat} (hf : f ≠ 0) :
    s.futures f = none := by
  rcases hending with rfl | rfl
  · cases (show some s = some _ from h.symm.trans rfl)
    simp [hf, withCacheTtl, loadDone, retainFresh]
  · cases (show some s = some _ from h.symm.trans rfl)
    simp [hf, withCacheTtl, loadDone, retainFresh]

/-- After a success and the time to live the next call fetches again. -/
theorem expired_item_fetched_anew :
    exists s s' t u : Mediator Nat String Unit Unit,
      (firstCall success).foldlM next (withCacheTtl 60 0) = some s ∧
      s.next (MediatorEvent.sync 1 7) = some s' ∧
      s'.next (MediatorEvent.load 1 (Except.ok none)) = some t ∧
      t.next (MediatorEvent.getOrCreateFuture 1 1) = some u ∧
      FetchesAnew s t u 7 1 := by
  refine ⟨_, _, _, _, rfl, rfl, rfl, rfl, ?_⟩
  have hrun : (firstCall success).foldlM next (withCacheTtl 60 0) = some _ := rfl
  refine (sync_fetches_anew_iff (firstCall_reachable hrun) ?_ rfl ?_
    (f := 1) rfl).mpr ?_
  · constructor
    · intro f future hf _
      by_cases h0 : f = 0
      · subst h0
        cases hf
        rfl
      · rw [firstCall_future hrun (Or.inl rfl) h0] at hf
        cases hf
    · intro i instant hentry
      cases hentry
      exact Nat.le_refl 60
  · exact TransitionSystem.Runs.next (TransitionSystem.Runs.refl _)
      (show next _ (MediatorEvent.load 1 (Except.ok none)) = some _ from rfl)
  · rintro ⟨f, future, hf, _, hfailed⟩
    by_cases h0 : f = 0
    · subst h0
      cases hf
      cases hfailed
    · rw [firstCall_future hrun (Or.inl rfl) h0] at hf
      cases hf

/--
A failed fetch is never forgotten: a call that starts long after it has ended
finds nothing in the store, waits for the old future and returns its error.
-/
theorem failed_fetch_not_retried :
    exists s s' t u v : Mediator Nat String Unit Unit,
      (mediatorSystem Nat String Unit Unit).Reachable s ∧ Ended s 7 ∧
      s.next (MediatorEvent.sync 1 7) = some s' ∧
      s'.next (MediatorEvent.load 1 (Except.ok none)) = some t ∧
      t.next (MediatorEvent.getOrCreateFuture 1 1) = some u ∧
      ¬ FetchesAnew s t u 7 1 ∧
      u.next (MediatorEvent.resume 1) = some v ∧
      (v.calls 1).map Call.state = some
        (CallState.returned (Except.error (SyncMediatorError.fetch ()))) := by
  have hrun : (firstCall failure).foldlM next (withCacheTtl 60 0) = some _ := rfl
  refine ⟨_, _, _, _, _, firstCall_reachable hrun, ?_, rfl, rfl, rfl, ?_, rfl, rfl⟩
  · constructor
    · intro f future hf _
      by_cases h0 : f = 0
      · subst h0
        cases hf
        rfl
      · rw [firstCall_future hrun (Or.inr rfl) h0] at hf
        cases hf
    · intro i instant hentry
      cases hentry
  · intro hanew
    cases hanew.awaits_new _ 0 rfl rfl

end Mediator

end SyncMediator
end MailClient
