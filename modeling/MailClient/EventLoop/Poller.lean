import Mathlib.Data.List.Chain
import MailClient.Foundation.Transition

/-!
# The event loop

A poll reads the id of the last event from the store and then, event by event,
fetches what the server has after that id, hands it to every subscriber and
stores the id of the event.  Every one of these steps can fail, and the process
can die between any two of them.
-/

namespace MailClient
namespace EventLoop

open Foundation

abbrev EventId := String

inductive RefreshFlag where
  | bool (v : Bool)
  | integer (v : UInt8)
  deriving DecidableEq, Repr

def RefreshFlag.asBool : RefreshFlag -> Bool
  | bool v => v
  | integer v => v ≠ 0

structure RawEvent where
  eventId : EventId
  more : RefreshFlag := RefreshFlag.bool false
  refresh : RefreshFlag := RefreshFlag.bool false
  raw : String := ""
  deriving DecidableEq, Repr

def RawEvent.hasMore (e : RawEvent) : Bool :=
  e.more.asBool

def RawEvent.isRefresh (e : RawEvent) : Bool :=
  e.refresh.asBool

/-!
# The server's log
-/

/-- An event carries the id that the log has after it. -/
structure EventLog where
  start : EventId
  events : List RawEvent
  ids_unique : (start :: events.map RawEvent.eventId).Nodup

namespace EventLog

def ids (log : EventLog) : List EventId :=
  log.start :: log.events.map RawEvent.eventId

def latest (log : EventLog) : EventId :=
  (log.events.getLast?.map RawEvent.eventId).getD log.start

/-- What the log has after an id; the id itself if there is nothing new. -/
def getEvent (log : EventLog) (id : EventId) : Option RawEvent :=
  (log.ids.idxOf? id).map (fun n => (log.events[n]?).getD { eventId := id })

def publish (log : EventLog) (e : RawEvent) (hnew : e.eventId ∉ log.ids) :
    EventLog where
  start := log.start
  events := log.events ++ [e]
  ids_unique := by
    have hids : log.start :: (log.events ++ [e]).map RawEvent.eventId =
        log.ids ++ [e.eventId] := by
      simp [ids]
    rw [hids]
    refine List.nodup_append.mpr
      ⟨log.ids_unique, List.nodup_cons.mpr ⟨List.not_mem_nil, List.nodup_nil⟩,
        ?_⟩
    intro a ha b hb heq
    rw [heq, List.mem_singleton.mp hb] at ha
    exact hnew ha

/-- The second id is the one that the log has after the first. -/
def Follows (log : EventLog) (id id' : EventId) : Prop :=
  exists n, log.ids[n]? = some id ∧ log.ids[n + 1]? = some id'

theorem publish_ids (log : EventLog) (e : RawEvent)
    (hnew : e.eventId ∉ log.ids) :
    (log.publish e hnew).ids = log.ids ++ [e.eventId] := by
  simp [ids, publish]

theorem index_unique (log : EventLog) {n m : Nat} {id : EventId}
    (hn : log.ids[n]? = some id) (hm : log.ids[m]? = some id) : n = m := by
  rcases List.getElem?_eq_some_iff.mp hn with ⟨hlt, _⟩
  exact (List.getElem?_inj hlt log.ids_unique).mp (hn.trans hm.symm)

theorem Follows.unique {log : EventLog} {id a b : EventId}
    (ha : log.Follows id a) (hb : log.Follows id b) : a = b := by
  rcases ha with ⟨n, hn, ha⟩
  rcases hb with ⟨m, hm, hb⟩
  rw [log.index_unique hn hm, hb] at ha
  exact (Option.some.inj ha).symm

theorem getElem?_publish {log : EventLog} {e : RawEvent}
    (hnew : e.eventId ∉ log.ids) {n : Nat} {id : EventId}
    (h : log.ids[n]? = some id) :
    (log.publish e hnew).ids[n]? = some id := by
  rcases List.getElem?_eq_some_iff.mp h with ⟨hlt, _⟩
  rw [publish_ids, List.getElem?_append_left hlt, h]

theorem Follows.publish {log : EventLog} {id id' : EventId}
    (h : log.Follows id id') {e : RawEvent} (hnew : e.eventId ∉ log.ids) :
    (log.publish e hnew).Follows id id' := by
  rcases h with ⟨n, hn, hn'⟩
  exact ⟨n, getElem?_publish hnew hn, getElem?_publish hnew hn'⟩

theorem getEvent_eq_some {log : EventLog} {id : EventId} {e : RawEvent}
    (h : log.getEvent id = some e) :
    e.eventId = id ∨ log.Follows id e.eventId := by
  unfold getEvent at h
  rcases Option.map_eq_some_iff.mp h with ⟨n, hn, he⟩
  rcases List.idxOf?_eq_some_iff.mp hn with ⟨hlt, hid, _⟩
  cases hevent : log.events[n]? with
  | none =>
      rw [hevent] at he
      exact Or.inl (he ▸ rfl)
  | some e' =>
      rw [hevent] at he
      have hsame : e' = e := he
      subst hsame
      refine Or.inr ⟨n, List.getElem?_eq_some_iff.mpr ⟨hlt, hid⟩, ?_⟩
      simp [ids, hevent]

theorem latest_mem (log : EventLog) :
    exists n : Nat, log.ids[n]? = some log.latest := by
  apply List.mem_iff_getElem?.mp
  unfold latest ids
  cases hlast : log.events.getLast? with
  | none => exact List.mem_cons_self
  | some e =>
      apply List.mem_cons_of_mem
      exact List.mem_map_of_mem (List.mem_of_getLast? hlast)

end EventLog

/-!
# Polling
-/

/-- `deserializes` tells whether the raw data is an event of the source. -/
structure EventSource (subscriber : Type) where
  subscribers : List subscriber
  deserializes : RawEvent -> Bool
  maxEvents : Nat

def maxErrorRetries : Nat :=
  3

/-- Where the poll is; `notifying` with nobody left is about to store the id. -/
inductive Progress (subscriber : Type) where
  | idle
  | looping (previousEventId : EventId) (processedEventCount : Nat)
      (hasMore : Bool)
  | notifying (event : RawEvent) (processedEventCount : Nat)
      (waiting : List subscriber) (numAttempts : Nat)

/--
`handled` and `storedIds` record history: for which event, named by its id,
each subscriber has returned `Ok`, and which ids the store has held.
-/
structure Poller (subscriber : Type) where
  log : EventLog
  stored : Option EventId
  progress : Progress subscriber
  handled : List (subscriber × EventId)
  storedIds : List EventId

inductive SubscriberResult where
  | ok
  | error (isRetryable : Bool)
  deriving DecidableEq, Repr

/-- A write that fails may have reached the store. -/
inductive StoreResult where
  | ok
  | error (written : Bool)
  deriving DecidableEq, Repr

inductive PollEvent where
  | publish (event : RawEvent)
  | initializeId (ok : Bool)
  | load (ok : Bool)
  /-- The head of the loop, with the answer of the provider if it is asked. -/
  | iterate (ok : Bool)
  | notify (result : SubscriberResult)
  | store (result : StoreResult)
  | crash
  deriving DecidableEq, Repr

namespace Poller

variable {subscriber : Type}

def write (s : Poller subscriber) (id : EventId) : Poller subscriber :=
  { s with
    stored := some id
    storedIds := s.storedIds ++ [id] }

def become (s : Poller subscriber) (progress : Progress subscriber) :
    Poller subscriber :=
  { s with progress := progress }

/-- A fetched event: the poll ends if it is the one already known. -/
def receive (c : EventSource subscriber) (s : Poller subscriber)
    (previousEventId : EventId) (processedEventCount : Nat)
    (rawEvent : RawEvent) : Poller subscriber :=
  if rawEvent.eventId = previousEventId then
    s.become Progress.idle
  else if rawEvent.isRefresh || c.deserializes rawEvent then
    s.become
      (Progress.notifying rawEvent processedEventCount c.subscribers 0)
  else
    s.become Progress.idle

def next (c : EventSource subscriber) (s : Poller subscriber) :
    PollEvent -> Option (Poller subscriber)
  | PollEvent.publish e =>
      if hnew : e.eventId ∉ s.log.ids then
        some { s with log := s.log.publish e hnew }
      else
        none
  | PollEvent.initializeId ok =>
      match s.progress, s.stored with
      | Progress.idle, none => some (if ok then s.write s.log.latest else s)
      | Progress.idle, some _ => some s
      | _, _ => none
  | PollEvent.load ok =>
      match s.progress, s.stored with
      | Progress.idle, some id =>
          some (if ok ∧ c.subscribers ≠ [] then
            s.become (Progress.looping id 0 true)
          else s)
      | Progress.idle, none => some s
      | _, _ => none
  | PollEvent.iterate ok =>
      match s.progress with
      | Progress.looping previousEventId count hasMore =>
          if (decide (count < c.maxEvents) || hasMore) && ok then
            match s.log.getEvent previousEventId with
            | none => some (s.become Progress.idle)
            | some e => some (s.receive c previousEventId count e)
          else
            some (s.become Progress.idle)
      | _ => none
  | PollEvent.notify result =>
      match s.progress with
      | Progress.notifying e count (sub :: rest) numAttempts =>
          match result with
          | SubscriberResult.ok =>
              some { s with
                progress := Progress.notifying e count rest 0
                handled := s.handled ++ [(sub, e.eventId)] }
          | SubscriberResult.error isRetryable =>
              if numAttempts + 1 = maxErrorRetries ∨ ¬ isRetryable then
                some (s.become Progress.idle)
              else
                some (s.become
                  (Progress.notifying e count (sub :: rest) (numAttempts + 1)))
      | _ => none
  | PollEvent.store result =>
      match s.progress with
      | Progress.notifying e count [] _ =>
          match result with
          | StoreResult.ok =>
              some ((s.write e.eventId).become
                (Progress.looping e.eventId (count + 1) e.hasMore))
          | StoreResult.error written =>
              some ((if written then s.write e.eventId else s).become
                Progress.idle)
      | _ => none
  | PollEvent.crash => some (s.become Progress.idle)

/-- Before the first id is stored, whatever the log of the server is. -/
def Fresh (s : Poller subscriber) : Prop :=
  s.stored = none ∧ s.storedIds = [] ∧ s.handled = [] ∧
    s.progress = Progress.idle

end Poller

def pollSystem {subscriber : Type} (c : EventSource subscriber) :
    TransitionSystem (Poller subscriber) PollEvent where
  init := Poller.Fresh
  step := fun s e s' => s.next c e = some s'

/-!
# What the log promises
-/

namespace Poller

variable {subscriber : Type} [DecidableEq subscriber]

/-- The events that a subscriber has handled, in the order of its answers. -/
def history (s : Poller subscriber) (sub : subscriber) : List EventId :=
  (s.handled.filter (fun entry => entry.1 = sub)).map Prod.snd

/--
The subscriber begins with the event after the first stored id and then always
goes to the next event of the log or repeats the one it is at.
-/
def InOrder (s : Poller subscriber) (sub : subscriber) : Prop :=
  (forall id, (s.history sub).head? = some id ->
    exists start, s.storedIds.head? = some start ∧
      s.log.Follows start id) ∧
  (s.history sub).IsChain (fun a b => b = a ∨ s.log.Follows a b)

/-- The subscriber has been given the event and has not answered yet. -/
def Processing (s : Poller subscriber) (sub : subscriber) (id : EventId) :
    Prop :=
  exists e count rest numAttempts,
    s.progress = Progress.notifying e count (sub :: rest) numAttempts ∧
      e.eventId = id

/-- If a step moves the stored id, every subscriber is done with the event. -/
def AdvancesAfterAll (c : EventSource subscriber)
    (s s' : Poller subscriber) : Prop :=
  forall id, s.stored = some id -> s'.stored ≠ some id ->
    exists id', s'.stored = some id' ∧ s.log.Follows id id' ∧
      forall sub, sub ∈ c.subscribers -> (sub, id') ∈ s.handled

/-!
# The invariant
-/

/-- What the program counter knows about the stored id. -/
def OnTrack (c : EventSource subscriber) (s : Poller subscriber)
    (id : EventId) : Progress subscriber -> Prop
  | Progress.idle => True
  | Progress.looping previousEventId _ _ => previousEventId = id
  | Progress.notifying e _ waiting _ =>
      s.log.Follows id e.eventId ∧
        exists done, c.subscribers = done ++ waiting ∧
          forall sub, sub ∈ done ->
            (s.history sub).getLast? = some e.eventId

/-- Where a subscriber is while `id` is stored. -/
def CaughtUp (s : Poller subscriber) (id : EventId) (sub : subscriber) :
    Prop :=
  (s.history sub = [] ∧ s.storedIds.head? = some id) ∨
    exists last, (s.history sub).getLast? = some last ∧
      (last = id ∨ s.log.Follows id last)

structure Sound (c : EventSource subscriber) (s : Poller subscriber) :
    Prop where
  fresh : s.stored = none -> s.Fresh
  stored_last : forall id, s.stored = some id -> exists n : Nat,
    s.log.ids[n]? = some id ∧ forall old, old ∈ s.storedIds ->
      exists m, m ≤ n ∧ s.log.ids[m]? = some old
  nonempty : forall id, s.stored = some id -> s.storedIds ≠ []
  reached : forall id, id ∈ s.storedIds.tail ->
    forall sub, sub ∈ c.subscribers -> (sub, id) ∈ s.handled
  inOrder : forall sub, sub ∈ c.subscribers -> s.InOrder sub
  caughtUp : forall id, s.stored = some id ->
    forall sub, sub ∈ c.subscribers -> s.CaughtUp id sub
  onTrack : forall id, s.stored = some id -> s.OnTrack c id s.progress

variable {c : EventSource subscriber} {s s' : Poller subscriber}

theorem mem_handled_of_getLast? {sub : subscriber} {id : EventId}
    (h : (s.history sub).getLast? = some id) : (sub, id) ∈ s.handled := by
  rcases List.mem_map.mp (List.mem_of_getLast? h) with ⟨entry, hentry, rfl⟩
  rcases List.mem_filter.mp hentry with ⟨hmem, hsub⟩
  simp only [decide_eq_true_eq] at hsub
  subst hsub
  exact hmem

theorem Sound.of_fresh (h : s.Fresh) : Sound c s := by
  rcases h with ⟨hstored, hids, hhandled, hprogress⟩
  have hhistory : forall sub, s.history sub = [] := by
    intro sub
    simp [history, hhandled]
  constructor
  · exact fun _ => ⟨hstored, hids, hhandled, hprogress⟩
  · simp [hstored]
  · simp [hstored]
  · simp [hids]
  · intro sub _
    simp [InOrder, hhistory]
  · simp [hstored]
  · simp [hstored]

/-!
# Steps that leave the histories alone
-/

theorem Sound.become (hs : Sound c s) {progress : Progress subscriber}
    (hfresh : s.stored = none -> progress = Progress.idle)
    (htrack : forall id, s.stored = some id -> s.OnTrack c id progress) :
    Sound c (s.become progress) where
  fresh := by
    intro hnone
    rcases hs.fresh hnone with ⟨hstored, hids, hhandled, _⟩
    exact ⟨hstored, hids, hhandled, hfresh hnone⟩
  stored_last := hs.stored_last
  nonempty := hs.nonempty
  reached := hs.reached
  inOrder := hs.inOrder
  caughtUp := hs.caughtUp
  onTrack := htrack

theorem Sound.idle (hs : Sound c s) : Sound c (s.become Progress.idle) :=
  hs.become (fun _ => rfl) (fun _ _ => True.intro)

theorem Sound.publish (hs : Sound c s) {e : RawEvent}
    (hnew : e.eventId ∉ s.log.ids) :
    Sound c { s with log := s.log.publish e hnew } where
  fresh := hs.fresh
  stored_last := by
    intro id hid
    rcases hs.stored_last id hid with ⟨n, hn, hold⟩
    refine ⟨n, EventLog.getElem?_publish hnew hn, ?_⟩
    intro old hmem
    rcases hold old hmem with ⟨m, hm, hindex⟩
    exact ⟨m, hm, EventLog.getElem?_publish hnew hindex⟩
  nonempty := hs.nonempty
  reached := hs.reached
  inOrder := by
    intro sub hsub
    rcases hs.inOrder sub hsub with ⟨hhead, hchain⟩
    constructor
    · intro id hid
      rcases hhead id hid with ⟨start, hstart, hfollows⟩
      exact ⟨start, hstart, hfollows.publish hnew⟩
    · exact hchain.imp (fun _ _ h => h.imp_right (fun h => h.publish hnew))
  caughtUp := by
    intro id hid sub hsub
    refine (hs.caughtUp id hid sub hsub).imp_right ?_
    rintro ⟨last, hlast, hcases⟩
    exact ⟨last, hlast, hcases.imp_right (fun h => h.publish hnew)⟩
  onTrack := by
    intro id hid
    have htrack := hs.onTrack id hid
    show OnTrack c _ id s.progress
    cases hprogress : s.progress with
    | idle => exact True.intro
    | looping previousEventId count hasMore =>
        rw [hprogress] at htrack
        exact htrack
    | notifying e' count waiting numAttempts =>
        rw [hprogress] at htrack
        exact ⟨htrack.left.publish hnew, htrack.right⟩

/-!
# Steps that extend a history
-/

theorem history_notified (s : Poller subscriber)
    (progress : Progress subscriber) (sub sub' : subscriber) (id : EventId) :
    history { s with
      progress := progress
      handled := s.handled ++ [(sub, id)] } sub' =
      if sub = sub' then s.history sub' ++ [id] else s.history sub' := by
  unfold history
  by_cases hsub : sub = sub'
  · simp [hsub]
  · simp [hsub]

theorem Sound.notified (hs : Sound c s) {id : EventId} {e : RawEvent}
    {count numAttempts : Nat} {sub : subscriber} {rest : List subscriber}
    (hstored : s.stored = some id)
    (hprogress : s.progress =
      Progress.notifying e count (sub :: rest) numAttempts) :
    Sound c { s with
      progress := Progress.notifying e count rest 0
      handled := s.handled ++ [(sub, e.eventId)] } := by
  have htrack := hs.onTrack id hstored
  rw [hprogress] at htrack
  rcases htrack with ⟨hfollows, done, hdone, hlast⟩
  have hsub : sub ∈ c.subscribers := by
    rw [hdone]
    exact List.mem_append_right _ List.mem_cons_self
  constructor
  · intro hnone
    rw [hstored] at hnone
    cases hnone
  · exact hs.stored_last
  · exact hs.nonempty
  · intro old hold sub' hsub'
    exact List.mem_append_left _ (hs.reached old hold sub' hsub')
  · intro sub' hsub'
    unfold InOrder
    rw [history_notified]
    rcases hs.inOrder sub' hsub' with ⟨hhead, hchain⟩
    split
    · rename_i heq
      subst heq
      -- The subscriber is at the stored id or already at this event.
      rcases hs.caughtUp id hstored sub hsub with
        ⟨hnil, hstart⟩ | ⟨last, hgetLast, hcases⟩
      · rw [hnil]
        constructor
        · intro first hfirst
          cases hfirst
          exact ⟨id, hstart, hfollows⟩
        · exact List.isChain_singleton _
      · constructor
        · intro first hfirst
          apply hhead first
          rw [List.head?_append, Option.or_of_isSome] at hfirst
          · exact hfirst
          · rw [List.isSome_head?]
            intro hnil
            rw [hnil] at hgetLast
            cases hgetLast
        · refine hchain.append (List.isChain_singleton _) ?_
          intro a ha b hb
          cases hb
          rw [hgetLast] at ha
          cases ha
          rcases hcases with rfl | hahead
          · exact Or.inr hfollows
          · exact Or.inl (hfollows.unique hahead)
    · exact ⟨hhead, hchain⟩
  · intro id' hid' sub' hsub'
    cases hstored.symm.trans hid'
    unfold CaughtUp
    rw [history_notified]
    split
    · exact Or.inr ⟨e.eventId, by simp, Or.inr hfollows⟩
    · exact hs.caughtUp id hstored sub' hsub'
  · intro id' hid'
    cases hstored.symm.trans hid'
    refine ⟨hfollows, done ++ [sub], by simp [hdone], ?_⟩
    intro sub' hsub'
    rw [history_notified]
    split
    · simp
    · rename_i hne
      rcases List.mem_append.mp hsub' with hsub' | hsub'
      · exact hlast sub' hsub'
      · exact absurd (List.mem_singleton.mp hsub').symm hne

theorem Sound.write_first (hs : Sound c s) (hnone : s.stored = none) :
    Sound c (s.write s.log.latest) := by
  rcases hs.fresh hnone with ⟨_, hids, hhandled, hprogress⟩
  have hhistory : forall sub, (s.write s.log.latest).history sub = [] := by
    intro sub
    simp [history, write, hhandled]
  constructor
  · intro h
    cases h
  · intro id hid
    cases hid
    rcases s.log.latest_mem with ⟨n, hn⟩
    refine ⟨n, hn, ?_⟩
    intro old hold
    simp only [write, hids, List.nil_append, List.mem_singleton] at hold
    exact ⟨n, Nat.le_refl n, hold ▸ hn⟩
  · simp [write]
  · simp [write, hids]
  · intro sub _
    simp [InOrder, hhistory]
  · intro id hid sub _
    cases hid
    exact Or.inl ⟨hhistory sub, by simp [write, hids]⟩
  · intro id _
    simp only [write, hprogress]
    exact True.intro

theorem Sound.write_handled (hs : Sound c s) {id : EventId} {e : RawEvent}
    {count numAttempts : Nat} (hstored : s.stored = some id)
    (hprogress : s.progress = Progress.notifying e count [] numAttempts)
    {progress : Progress subscriber}
    (htrack' : OnTrack c ((s.write e.eventId).become progress) e.eventId
      progress) :
    Sound c ((s.write e.eventId).become progress) := by
  have htrack := hs.onTrack id hstored
  rw [hprogress] at htrack
  rcases htrack with ⟨hfollows, done, hdone, hlast⟩
  rw [List.append_nil] at hdone
  rw [<- hdone] at hlast
  have hne := hs.nonempty id hstored
  have hhead : (s.storedIds ++ [e.eventId]).head? = s.storedIds.head? := by
    rw [List.head?_append, Option.or_of_isSome]
    exact List.isSome_head?.mpr hne
  constructor
  · intro h
    cases h
  · intro id' hid'
    cases hid'
    rcases hs.stored_last id hstored with ⟨n, hn, hold⟩
    rcases hfollows with ⟨m, hm, hm'⟩
    have hnm := s.log.index_unique hn hm
    subst hnm
    refine ⟨n + 1, hm', ?_⟩
    intro old hmem
    rcases List.mem_append.mp hmem with hmem | hmem
    · rcases hold old hmem with ⟨k, hk, hindex⟩
      exact ⟨k, Nat.le_succ_of_le hk, hindex⟩
    · rw [List.mem_singleton.mp hmem]
      exact ⟨n + 1, Nat.le_refl _, hm'⟩
  · simp [write, Poller.become]
  · intro old hmem sub hsub
    have htail : (s.storedIds ++ [e.eventId]).tail =
        s.storedIds.tail ++ [e.eventId] := List.tail_append_of_ne_nil hne
    replace hmem : old ∈ (s.storedIds ++ [e.eventId]).tail := hmem
    rw [htail] at hmem
    rcases List.mem_append.mp hmem with hmem | hmem
    · exact hs.reached old hmem sub hsub
    · rw [List.mem_singleton.mp hmem]
      exact mem_handled_of_getLast? (hlast sub hsub)
  · intro sub hsub
    rcases hs.inOrder sub hsub with ⟨hfirst, hchain⟩
    refine ⟨?_, hchain⟩
    intro first hget
    rcases hfirst first hget with ⟨start, hstart, hstartFollows⟩
    exact ⟨start, hhead.trans hstart, hstartFollows⟩
  · intro id' hid' sub hsub
    cases hid'
    exact Or.inr ⟨e.eventId, hlast sub hsub, Or.inl rfl⟩
  · intro id' hid'
    cases hid'
    exact htrack'

/-!
# Runs
-/

theorem Sound.stored_of_running (hs : Sound c s)
    (hrunning : s.progress ≠ Progress.idle) :
    exists id, s.stored = some id := by
  cases hstored : s.stored with
  | none => exact absurd (hs.fresh hstored).right.right.right hrunning
  | some id => exact ⟨id, rfl⟩

theorem Sound.receive (hs : Sound c s) {id : EventId} {e : RawEvent}
    {count : Nat} (hstored : s.stored = some id)
    (he : s.log.getEvent id = some e) : Sound c (s.receive c id count e) := by
  unfold Poller.receive
  split
  · exact hs.idle
  · rename_i hnew
    split
    · apply hs.become
      · intro hnone
        rw [hstored] at hnone
        cases hnone
      · intro id' hid'
        cases hstored.symm.trans hid'
        have hfollows := (EventLog.getEvent_eq_some he).resolve_left hnew
        exact ⟨hfollows, [], rfl, fun _ hsub => nomatch hsub⟩
    · exact hs.idle

theorem Sound.next (hs : Sound c s) {e : PollEvent}
    (h : s.next c e = some s') : Sound c s' := by
  cases e with
  | publish event =>
      simp only [Poller.next] at h
      split at h
      · cases h
        exact hs.publish _
      · cases h
  | initializeId ok =>
      simp only [Poller.next] at h
      split at h
      · rename_i hnone
        cases h
        split
        · exact hs.write_first hnone
        · exact hs
      · cases h
        exact hs
      · cases h
  | load ok =>
      simp only [Poller.next] at h
      split at h
      · rename_i id hstored
        cases h
        split
        · apply hs.become
          · intro hnone
            rw [hstored] at hnone
            cases hnone
          · intro id' hid'
            cases hstored.symm.trans hid'
            rfl
        · exact hs
      · cases h
        exact hs
      · cases h
  | iterate ok =>
      simp only [Poller.next] at h
      split at h
      · rename_i previousEventId count hasMore hprogress
        rcases hs.stored_of_running (by simp [hprogress]) with ⟨id, hstored⟩
        have htrack := hs.onTrack id hstored
        rw [hprogress] at htrack
        cases htrack
        split at h
        · split at h
          · cases h
            exact hs.idle
          · rename_i hevent
            cases h
            exact hs.receive hstored hevent
        · cases h
          exact hs.idle
      · cases h
  | notify result =>
      simp only [Poller.next] at h
      split at h
      · rename_i event count sub rest numAttempts hprogress
        rcases hs.stored_of_running (by simp [hprogress]) with ⟨id, hstored⟩
        split at h
        · cases h
          exact hs.notified hstored hprogress
        · split at h
          · cases h
            exact hs.idle
          · cases h
            have htrack := hs.onTrack id hstored
            rw [hprogress] at htrack
            apply hs.become
            · intro hnone
              rw [hstored] at hnone
              cases hnone
            · intro id' hid'
              cases hstored.symm.trans hid'
              exact htrack
      · cases h
  | store result =>
      simp only [Poller.next] at h
      split at h
      · rename_i event count numAttempts hprogress
        rcases hs.stored_of_running (by simp [hprogress]) with ⟨id, hstored⟩
        split at h
        · cases h
          exact hs.write_handled hstored hprogress rfl
        · cases h
          split
          · exact hs.write_handled hstored hprogress True.intro
          · exact hs.idle
      · cases h
  | crash =>
      cases h
      exact hs.idle

omit [DecidableEq subscriber] in
theorem stored_of_next {e : PollEvent} (h : s.next c e = some s')
    {id : EventId} (hstored : s.stored = some id) :
    s'.stored = some id ∨
      exists event count numAttempts,
        s.progress = Progress.notifying event count [] numAttempts ∧
          s'.stored = some event.eventId := by
  cases e with
  | store result =>
      simp only [Poller.next] at h
      split at h
      · rename_i event count numAttempts hprogress
        split at h
        · cases h
          exact Or.inr ⟨event, count, numAttempts, hprogress, rfl⟩
        · cases h
          split
          · exact Or.inr ⟨event, count, numAttempts, hprogress, rfl⟩
          · exact Or.inl hstored
      · cases h
  | initializeId ok =>
      simp only [Poller.next] at h
      split at h
      · rename_i hnone
        rw [hstored] at hnone
        cases hnone
      · cases h
        exact Or.inl hstored
      · cases h
  | load ok =>
      simp only [Poller.next] at h
      split at h
      · cases h
        split
        · exact Or.inl hstored
        · exact Or.inl hstored
      · cases h
        exact Or.inl hstored
      · cases h
  | publish event =>
      simp only [Poller.next] at h
      split at h
      · cases h
        exact Or.inl hstored
      · cases h
  | iterate ok =>
      simp only [Poller.next, Poller.receive] at h
      split at h
      · split at h
        · split at h
          · cases h
            exact Or.inl hstored
          · cases h
            split
            · exact Or.inl hstored
            · split
              · exact Or.inl hstored
              · exact Or.inl hstored
        · cases h
          exact Or.inl hstored
      · cases h
  | notify result =>
      simp only [Poller.next] at h
      split at h
      · split at h
        · cases h
          exact Or.inl hstored
        · split at h
          · cases h
            exact Or.inl hstored
          · cases h
            exact Or.inl hstored
      · cases h
  | crash =>
      cases h
      exact Or.inl hstored

theorem Sound.advancesAfterAll (hs : Sound c s) {e : PollEvent}
    (h : s.next c e = some s') : AdvancesAfterAll c s s' := by
  intro id hstored hmoved
  rcases stored_of_next h hstored with hsame | ⟨event, _, _, hprogress, hnew⟩
  · exact absurd hsame hmoved
  · have htrack := hs.onTrack id hstored
    rw [hprogress] at htrack
    rcases htrack with ⟨hfollows, done, hdone, hlast⟩
    rw [List.append_nil] at hdone
    refine ⟨event.eventId, hnew, hfollows, ?_⟩
    intro sub hsub
    exact mem_handled_of_getLast? (hlast sub (hdone ▸ hsub))

theorem Sound.not_stored (hs : Sound c s) {sub : subscriber} {id : EventId}
    (hprocessing : s.Processing sub id) :
    id ∉ s.storedIds ∧
      exists stored, s.stored = some stored ∧ s.log.Follows stored id := by
  rcases hprocessing with ⟨e, count, rest, numAttempts, hprogress, rfl⟩
  rcases hs.stored_of_running (by simp [hprogress]) with ⟨stored, hstored⟩
  have htrack := hs.onTrack stored hstored
  rw [hprogress] at htrack
  refine ⟨?_, stored, hstored, htrack.left⟩
  intro hmem
  rcases hs.stored_last stored hstored with ⟨n, hn, hold⟩
  rcases hold e.eventId hmem with ⟨m, hm, hindex⟩
  rcases htrack.left with ⟨k, hk, hk'⟩
  have hkn := s.log.index_unique hk hn
  have hkm := s.log.index_unique hk' hindex
  omega

/--
In every reachable state and for every step from it: subscribers have handled
the events in the order of the log without gaps, everything up to the stored id
has reached every subscriber, an event in work has never been stored, and the
stored id moves to the next one only after all subscribers are done.
-/
theorem every_event_reaches_every_subscriber
    (hreach : (pollSystem c).Reachable s) :
    (forall sub, sub ∈ c.subscribers -> s.InOrder sub) ∧
    (forall id, id ∈ s.storedIds.tail ->
      forall sub, sub ∈ c.subscribers -> (sub, id) ∈ s.handled) ∧
    (forall sub id, s.Processing sub id -> id ∉ s.storedIds ∧
      exists stored, s.stored = some stored ∧ s.log.Follows stored id) ∧
    (forall e s', s.next c e = some s' -> AdvancesAfterAll c s s') := by
  have hs : Sound c s := TransitionSystem.invariant (Sound c)
    (fun _ hinit => Sound.of_fresh hinit)
    (fun _ _ _ _ hinv hstep => hinv.next hstep) hreach
  exact ⟨hs.inOrder, hs.reached, fun _ _ h => hs.not_stored h,
    fun _ _ h => hs.advancesAfterAll h⟩

/-- One subscriber and one event, from the first id to the stored event. -/
def oneSubscriber : EventSource Unit where
  subscribers := [()]
  deserializes := fun _ => true
  maxEvents := 50

def oneEventLog : EventLog where
  start := "a"
  events := [{ eventId := "b" }]
  ids_unique := by simp

/-- The server had nothing before the event; the poller stored the first id. -/
def beforeEvent : Poller Unit where
  log := ⟨"a", [], by simp⟩
  stored := none
  progress := Progress.idle
  handled := []
  storedIds := []

def afterEvent : Poller Unit where
  log := oneEventLog
  stored := some "b"
  progress := Progress.looping "b" 1 false
  handled := [((), "b")]
  storedIds := ["a", "b"]

theorem oneEvent_reaches_subscriber :
    afterEvent.InOrder () ∧ ((), "b") ∈ afterEvent.handled := by
  have h₀ : (pollSystem oneSubscriber).Reachable beforeEvent :=
    TransitionSystem.ReachableWhen.start ⟨rfl, rfl, rfl, rfl⟩
  have h₁ := h₀.step (l := PollEvent.initializeId true) rfl
  have h₂ := h₁.step (l := PollEvent.publish { eventId := "b" }) rfl
  have h₃ := h₂.step (l := PollEvent.load true) rfl
  have h₄ := h₃.step (l := PollEvent.iterate true) rfl
  have h₅ := h₄.step (l := PollEvent.notify (SubscriberResult.error true)) rfl
  have h₆ := h₅.step (l := PollEvent.notify SubscriberResult.ok) rfl
  have h₇ := h₆.step (l := PollEvent.store StoreResult.ok)
    (show _ = some afterEvent from rfl)
  have hall := every_event_reaches_every_subscriber h₇
  constructor
  · exact hall.left () (by decide)
  · exact hall.right.left "b" (by decide) () (by decide)

/-!
# Catching up
-/

/-- Polls in which nothing fails, while the server has no news. -/
def healthy (c : EventSource subscriber) :
    TransitionSystem (Poller subscriber) PollEvent where
  init := (pollSystem c).Reachable
  step := fun s e s' => e ∈ [PollEvent.load true, PollEvent.iterate true,
    PollEvent.notify SubscriberResult.ok, PollEvent.store StoreResult.ok] ∧
      s.next c e = some s'

def stage (c : EventSource subscriber) : Progress subscriber -> Nat
  | Progress.idle => c.subscribers.length + 3
  | Progress.looping _ count hasMore =>
      c.subscribers.length +
        if decide (count < c.maxEvents) || hasMore then 2 else 4
  | Progress.notifying _ _ waiting _ => waiting.length

/-- A bound on the steps up to the latest event. -/
def backlog (c : EventSource subscriber) (s : Poller subscriber) : Nat :=
  (s.log.ids.length - s.log.ids.idxOf (s.stored.getD "")) *
    (c.subscribers.length + 5) + stage c s.progress

theorem getEvent_behind {log : EventLog} {n : Nat} {id : EventId}
    (hn : log.ids[n]? = some id) (hbehind : id ≠ log.latest) :
    exists e, e ∈ log.events ∧ log.getEvent id = some e ∧ e.eventId ≠ id := by
  rcases List.getElem?_eq_some_iff.mp hn with ⟨hlt, hid⟩
  have hindex : log.ids.idxOf? id = some n := by
    refine List.idxOf?_eq_some_iff.mpr ⟨hlt, hid, fun m hm heq => ?_⟩
    have hm' : log.ids[m]? = some id := heq ▸ List.getElem?_eq_getElem _
    exact Nat.ne_of_lt hm (log.index_unique hm' hn)
  cases hevent : log.events[n]? with
  | none =>
      have hlast : log.ids.length - 1 = n := by
        have hle := List.getElem?_eq_none_iff.mp hevent
        have hlength : log.ids.length = log.events.length + 1 := by
          simp [EventLog.ids]
        omega
      have hlatest : log.ids.getLast? = some log.latest := by
        simp [EventLog.ids, EventLog.latest, List.getLast?_cons]
      rw [List.getLast?_eq_getElem?, hlast, hn] at hlatest
      exact absurd (Option.some.inj hlatest) hbehind
  | some e =>
      have hnext : log.ids[n + 1]? = some e.eventId := by
        simp [EventLog.ids, hevent]
      refine ⟨e, List.mem_of_getElem? hevent, ?_, ?_⟩
      · simp [EventLog.getEvent, hindex, hevent]
      · rintro rfl
        exact Nat.succ_ne_self n (log.index_unique hnext hn)

omit [DecidableEq subscriber] in
theorem backlog_written {id id' : EventId} {progress : Progress subscriber}
    (hid : s.stored = some id) (hfollows : s.log.Follows id id')
    (hstage : stage c progress ≤ c.subscribers.length + 4) :
    backlog c ((s.write id').become progress) < backlog c s := by
  rcases hfollows with ⟨n, hn, hn'⟩
  rcases List.getElem?_eq_some_iff.mp hn with ⟨_, rfl⟩
  rcases List.getElem?_eq_some_iff.mp hn' with ⟨hlt, rfl⟩
  have hunique : s.log.ids.Nodup := s.log.ids_unique
  have hleft : s.log.ids.length - n = s.log.ids.length - (n + 1) + 1 := by omega
  simp only [backlog, Poller.become, Poller.write, hid, Option.getD_some]
  rw [hunique.idxOf_getElem, hunique.idxOf_getElem, hleft, Nat.succ_mul]
  omega

theorem Sound.catches_up (hs : Sound c s) {id : EventId}
    (hstored : s.stored = some id) (hbehind : id ≠ s.log.latest)
    (hsome : c.subscribers ≠ [])
    (hall : forall e, e ∈ s.log.events ->
      (e.isRefresh || c.deserializes e) = true) :
    exists e s', (healthy c).step s e s' ∧ s'.log = s.log ∧
      s'.stored ≠ none ∧ backlog c s' < backlog c s := by
  have htrack := hs.onTrack id hstored
  cases hprogress : s.progress with
  | idle =>
      refine ⟨PollEvent.load true, s.become (Progress.looping id 0 true),
        ⟨by simp, by simp [Poller.next, hprogress, hstored, hsome]⟩, rfl,
        by simp [Poller.become, hstored], ?_⟩
      simp [backlog, stage, Poller.become, hprogress]
  | looping previousEventId count hasMore =>
      rw [hprogress] at htrack
      cases htrack
      cases hopen : decide (count < c.maxEvents) || hasMore with
      | false =>
          refine ⟨PollEvent.iterate true, s.become Progress.idle,
            ⟨by simp, by simp [Poller.next, hprogress, hopen]⟩, rfl,
            by simp [Poller.become, hstored], ?_⟩
          simp [backlog, stage, Poller.become, hprogress, hopen]
      | true =>
          rcases hs.stored_last _ hstored with ⟨n, hn, _⟩
          rcases getEvent_behind hn hbehind with ⟨e, he, hget, hnew⟩
          refine ⟨PollEvent.iterate true,
            s.become (Progress.notifying e count c.subscribers 0),
            ⟨by simp, ?_⟩, rfl, by simp [Poller.become, hstored], ?_⟩
          · simp [Poller.next, hprogress, hopen, hget, Poller.receive, hnew,
              hall e he]
          · simp [backlog, stage, Poller.become, hprogress, hopen]
  | notifying e count waiting numAttempts =>
      rw [hprogress] at htrack
      cases waiting with
      | nil =>
          refine ⟨PollEvent.store StoreResult.ok, (s.write e.eventId).become
            (Progress.looping e.eventId (count + 1) e.hasMore),
            ⟨by simp, by simp [Poller.next, hprogress]⟩, rfl,
            by simp [Poller.become, Poller.write], ?_⟩
          refine backlog_written hstored htrack.left ?_
          show c.subscribers.length + (if _ then 2 else 4) ≤ _
          split <;> omega
      | cons sub rest =>
          refine ⟨PollEvent.notify SubscriberResult.ok, { s with
              progress := Progress.notifying e count rest 0
              handled := s.handled ++ [(sub, e.eventId)] },
            ⟨by simp, by simp [Poller.next, hprogress]⟩, rfl,
            by simp [hstored], ?_⟩
          simp [backlog, stage, hprogress]

/--
Without further failures, and whatever happened before, polls lead to the
latest event of the log, and no subscriber has missed any event up to it.
-/
theorem polls_catch_up (hreach : (pollSystem c).Reachable s)
    (hstored : s.stored ≠ none) (hsome : c.subscribers ≠ [])
    (hall : forall e, e ∈ s.log.events ->
      (e.isRefresh || c.deserializes e) = true) :
    exists s', (healthy c).Runs s s' ∧ s'.log = s.log ∧
      s'.stored = some s.log.latest ∧
      forall sub, sub ∈ c.subscribers ->
        s'.InOrder sub ∧ s'.CaughtUp s.log.latest sub := by
  have hs : Sound c s := TransitionSystem.invariant (Sound c)
    (fun _ hinit => Sound.of_fresh hinit)
    (fun _ _ _ _ hinv hstep => hinv.next hstep) hreach
  have hmore : forall t, (Sound c t ∧ t.log = s.log ∧ t.stored ≠ none) ->
      ¬ t.stored = some s.log.latest -> exists e u, (healthy c).step t e u ∧
        (Sound c u ∧ u.log = s.log ∧ u.stored ≠ none) ∧
          backlog c u < backlog c t := by
    rintro t ⟨ht, hlog, hsomeId⟩ hbehind
    rcases Option.ne_none_iff_exists'.mp hsomeId with ⟨id, hid⟩
    have hne : id ≠ t.log.latest := fun heq => hbehind (by rw [hid, heq, hlog])
    rcases ht.catches_up hid hne hsome (hlog ▸ hall) with
      ⟨e, u, hstep, hlog', hstored', hlt⟩
    exact ⟨e, u, hstep, ⟨ht.next hstep.right, hlog'.trans hlog, hstored'⟩, hlt⟩
  rcases TransitionSystem.Runs.finishes hmore ⟨hs, rfl, hstored⟩ with
    ⟨s', hruns, ⟨hs', hlog, _⟩, hlatest⟩
  exact ⟨s', hruns, hlog, hlatest, fun sub hsub =>
    ⟨hs'.inOrder sub hsub, hs'.caughtUp _ hlatest sub hsub⟩⟩

theorem behind_poller_catches_up :
    exists s', (healthy oneSubscriber).Runs { beforeEvent with
        log := oneEventLog, stored := some "a", storedIds := ["a"] } s' ∧
      s'.stored = some "b" := by
  have h₀ : (pollSystem oneSubscriber).Reachable beforeEvent :=
    TransitionSystem.ReachableWhen.start ⟨rfl, rfl, rfl, rfl⟩
  have h₁ := h₀.step (l := PollEvent.initializeId true) rfl
  have h₂ := h₁.step (l := PollEvent.publish { eventId := "b" }) rfl
  rcases polls_catch_up h₂ (by decide) (by decide) (by decide) with
    ⟨s', hruns, _, hstored, _⟩
  exact ⟨s', hruns, hstored⟩

end Poller

end EventLoop
end MailClient
