import Mathlib.Data.List.Nodup
import Mathlib.Data.List.Perm.Subperm
import MailClient.TaskService.Service

/-!
# Paused means paused

Two facts about every interleaving of the controller, the tasks and the thread
of the service.  A call of `pause_and_wait` that returns `Ok` has found every
task refused, and once the service is resumed and has worked off its commands,
no refused task is left for it to wake.
-/

namespace MailClient
namespace TaskService

open Foundation

/-!
# What the service knows

`known` are the futures whose creation the thread has handled and whose end it
has not.  The commands in the queue lead from them to the living futures.
-/

def Tracks (live : FutureRef -> Prop) :
    List FutureRef -> List Command -> Prop
  | known, [] => forall f, live f ↔ f ∈ known
  | known, Command.futureCreated f :: rest =>
      (forall g, g ∈ known -> g.id ≠ f.id) ∧ Tracks live (f :: known) rest
  | known, Command.futureDropped f :: rest =>
      f ∈ known ∧ ¬ live f ∧ Tracks live (known.erase f) rest
  | known, Command.futurePaused f :: rest =>
      f ∈ known ∧ Tracks live known rest
  | known, Command.pause _ :: rest => Tracks live known rest
  | known, Command.resume :: rest => Tracks live known rest

namespace Tracks

variable {live live' : FutureRef -> Prop} {known : List FutureRef}
  {queue : List Command}

theorem congr (h : Tracks live known queue)
    (hlive : forall f, live' f ↔ live f) : Tracks live' known queue := by
  have heq : live' = live := funext (fun f => propext (hlive f))
  rw [heq]
  exact h

/-- A step from the living futures to others and the command that says so. -/
theorem append {c : Command}
    (hlast : forall known : List FutureRef, known.Nodup ->
      (forall f, live f ↔ f ∈ known) -> Tracks live' known [c])
    (hdropped : forall f, Command.futureDropped f ∈ queue -> live' f -> live f)
    (hnodup : known.Nodup) (h : Tracks live known queue) :
    Tracks live' known (queue ++ [c]) := by
  induction queue generalizing known with
  | nil => exact hlast known hnodup h
  | cons d rest ih =>
      have hrest : forall f, Command.futureDropped f ∈ rest -> live' f ->
          live f :=
        fun f hf => hdropped f (List.mem_cons_of_mem d hf)
      cases d with
      | pause sender => exact ih hrest hnodup h
      | resume => exact ih hrest hnodup h
      | futureCreated f =>
          have hnew : f ∉ known := fun hf => h.left f hf rfl
          exact ⟨h.left, ih hrest (List.nodup_cons.mpr ⟨hnew, hnodup⟩) h.right⟩
      | futurePaused f => exact ⟨h.left, ih hrest hnodup h.right⟩
      | futureDropped f =>
          refine ⟨h.left, ?_, ih hrest (hnodup.erase f) h.right.right⟩
          intro hf
          exact h.right.left (hdropped f List.mem_cons_self hf)

theorem known_or_created (h : Tracks live known queue) {f : FutureRef}
    (hf : live f) : f ∈ known ∨ Command.futureCreated f ∈ queue := by
  induction queue generalizing known with
  | nil => exact Or.inl ((h f).mp hf)
  | cons d rest ih =>
      have hlater : Command.futureCreated f ∈ rest ->
          Command.futureCreated f ∈ d :: rest := List.mem_cons_of_mem d
      cases d with
      | pause sender => exact (ih h).imp_right hlater
      | resume => exact (ih h).imp_right hlater
      | futurePaused g => exact (ih h.right).imp_right hlater
      | futureDropped g =>
          rcases ih h.right.right with hknown | hcreated
          · exact Or.inl (List.mem_of_mem_erase hknown)
          · exact Or.inr (hlater hcreated)
      | futureCreated g =>
          rcases ih h.right with hknown | hcreated
          · rcases List.mem_cons.mp hknown with heq | hold
            · subst heq
              exact Or.inr List.mem_cons_self
            · exact Or.inl hold
          · exact Or.inr (hlater hcreated)

end Tracks

def Command.future : Command -> Option FutureRef
  | pause _ => none
  | resume => none
  | futureCreated f => some f
  | futurePaused f => some f
  | futureDropped f => some f

def System.Live (s : System) (f : FutureRef) : Prop :=
  exists t, s.tasks f.serial = some t ∧ t.id = f.id

structure Registered (s : System) (known : List FutureRef) : Prop where
  tracks : Tracks s.Live known s.queue
  known_ids : (known.map FutureRef.id).Nodup
  count : s.service.numFutures = known.length
  wakers_known : forall f, f ∈ s.service.wakers -> f ∈ known
  wakers_nodup : s.service.wakers.Nodup
  known_serial : forall f, f ∈ known -> f.serial < s.spawned
  announced : forall c, c ∈ s.queue -> forall f, c.future = some f ->
    f.serial < s.spawned
  live : forall f, s.Live f -> f.serial < s.spawned

namespace Service

@[simp] theorem notifyAwaiters_wakers (s : Service) :
    s.notifyAwaiters.1.wakers = s.wakers := by
  unfold notifyAwaiters
  split <;> rfl

@[simp] theorem notifyAwaiters_paused (s : Service) :
    s.notifyAwaiters.1.paused = s.paused := by
  unfold notifyAwaiters
  split <;> rfl

@[simp] theorem notifyAwaiters_numFutures (s : Service) :
    s.notifyAwaiters.1.numFutures = s.numFutures := by
  unfold notifyAwaiters
  split <;> rfl

@[simp] theorem notifyAwaiters_woken (s : Service) :
    s.notifyAwaiters.2.woken = [] := by
  unfold notifyAwaiters
  split <;> rfl

theorem handle_futurePaused {s : Service} (h : s.paused = true)
    (f : FutureRef) :
    s.handle (Command.futurePaused f) =
      notifyAwaiters { s with wakers := insertWaker f s.wakers } :=
  if_pos h

theorem handle_futurePaused_running {s : Service} (h : s.paused = false)
    (f : FutureRef) :
    s.handle (Command.futurePaused f) = (s, { woken := [f] }) :=
  if_neg (by rw [h]; decide)

end Service

variable {c : Command} {s : System} {n : Nat} {t : Task} {rest : List Command}
  {a : Awaiter}

theorem System.wake_some {woken : List FutureRef}
    (h : (s.wake woken).tasks n = some t) :
    exists old, s.tasks n = some old ∧ t.id = old.id ∧
      t.phase = old.phase ∧ t.lastPoll = old.lastPoll ∧
      (t.fired = false ->
        old.fired = false ∧ { id := t.id, serial := n } ∉ woken) := by
  rcases Option.map_eq_some_iff.mp h with ⟨old, hold, heq⟩
  refine ⟨old, hold, ?_⟩
  split at heq
  · rw [<- heq]
    exact ⟨rfl, rfl, rfl, fun hfired => nomatch hfired⟩
  · rename_i hnot
    subst heq
    exact ⟨rfl, rfl, rfl, fun hfired => ⟨hfired, hnot⟩⟩

theorem System.wake_live {woken : List FutureRef} {f : FutureRef} :
    (s.wake woken).Live f ↔ s.Live f := by
  constructor
  · intro h
    rcases h with ⟨t, ht, hid⟩
    rcases System.wake_some ht with ⟨old, hold, heq, _⟩
    exact ⟨old, hold, heq.symm.trans hid⟩
  · intro h
    rcases h with ⟨t, ht, hid⟩
    have hwoken : (s.wake woken).tasks f.serial = some _ :=
      Option.map_eq_some_iff.mpr ⟨t, ht, rfl⟩
    refine ⟨_, hwoken, ?_⟩
    split <;> exact hid

namespace Registered

variable {s s' : System} {known : List FutureRef}

theorem eq_of_id (h : Registered s known) {f g : FutureRef} (hf : f ∈ known)
    (hg : g ∈ known) (hid : f.id = g.id) : f = g :=
  List.inj_on_of_nodup_map h.known_ids hf hg hid

/-- The registry looks at the futures, the queue and two variables only. -/
theorem of_eq (h : Registered s known)
    (hlive : forall f, s'.Live f ↔ s.Live f) (hqueue : s'.queue = s.queue)
    (hservice : s'.service = s.service) (hspawned : s'.spawned = s.spawned) :
    Registered s' known where
  tracks := by
    rw [hqueue]
    exact h.tracks.congr hlive
  known_ids := h.known_ids
  count := by
    rw [hservice]
    exact h.count
  wakers_known := by
    rw [hservice]
    exact h.wakers_known
  wakers_nodup := by
    rw [hservice]
    exact h.wakers_nodup
  known_serial := by
    rw [hspawned]
    exact h.known_serial
  announced := by
    rw [hqueue, hspawned]
    exact h.announced
  live := by
    intro f hf
    rw [hspawned]
    exact h.live f ((hlive f).mp hf)

theorem push (h : Registered s known) {c : Command}
    (hqueue : s'.queue = s.queue ++ [c]) (hservice : s'.service = s.service)
    (hspawned : s.spawned ≤ s'.spawned)
    (hannounced : forall f, c.future = some f -> f.serial < s'.spawned)
    (hlive : forall f, s'.Live f -> f.serial < s'.spawned)
    (hdropped : forall f, f.serial < s.spawned -> s'.Live f -> s.Live f)
    (hlast : forall known : List FutureRef, known.Nodup ->
      (forall f, s.Live f ↔ f ∈ known) -> Tracks s'.Live known [c]) :
    Registered s' known where
  tracks := by
    rw [hqueue]
    refine Tracks.append hlast ?_ (List.Nodup.of_map _ h.known_ids) h.tracks
    intro f hf
    exact hdropped f (h.announced _ hf f rfl)
  known_ids := h.known_ids
  count := by
    rw [hservice]
    exact h.count
  wakers_known := by
    rw [hservice]
    exact h.wakers_known
  wakers_nodup := by
    rw [hservice]
    exact h.wakers_nodup
  known_serial := fun f hf =>
    Nat.lt_of_lt_of_le (h.known_serial f hf) hspawned
  announced := by
    intro d hd f hf
    rw [hqueue] at hd
    rcases List.mem_append.mp hd with hold | hnew
    · exact Nat.lt_of_lt_of_le (h.announced d hold f hf) hspawned
    · rw [List.mem_singleton] at hnew
      exact hannounced f (hnew ▸ hf)
  live := hlive

theorem handled (h : Registered s known) {c : Command} {rest : List Command}
    (hqueue : s.queue = c :: rest) :
    exists known', Registered (s.handled c rest) known' := by
  have htracks := h.tracks
  rw [hqueue] at htracks
  have hrest : forall d, d ∈ rest -> forall f, d.future = some f ->
      f.serial < s.spawned := by
    intro d hd
    apply h.announced
    rw [hqueue]
    exact List.mem_cons_of_mem c hd
  have hlive : forall f, (s.handled c rest).Live f ↔ s.Live f :=
    fun f => System.wake_live
  have hserial : forall f, (s.handled c rest).Live f -> f.serial < s.spawned :=
    fun f hf => h.live f ((hlive f).mp hf)
  cases c with
  | pause sender =>
      refine ⟨known, Tracks.congr htracks hlive, h.known_ids, ?_, ?_, ?_,
        h.known_serial, hrest, hserial⟩
      · simpa [System.handled, Service.handle] using h.count
      · simpa [System.handled, Service.handle] using h.wakers_known
      · simpa [System.handled, Service.handle] using h.wakers_nodup
  | resume =>
      refine ⟨known, Tracks.congr htracks hlive, h.known_ids, h.count, ?_,
        List.nodup_nil, h.known_serial, hrest, hserial⟩
      intro f hf
      cases hf
  | futureCreated f =>
      refine ⟨f :: known, Tracks.congr htracks.right hlive, ?_, ?_, ?_,
        h.wakers_nodup, ?_, hrest, hserial⟩
      · rw [List.map_cons, List.nodup_cons]
        refine ⟨?_, h.known_ids⟩
        intro hid
        rcases List.mem_map.mp hid with ⟨g, hg, heq⟩
        exact htracks.left g hg heq
      · show s.service.numFutures + 1 = known.length + 1
        rw [h.count]
      · intro g hg
        exact List.mem_cons_of_mem f (h.wakers_known g hg)
      · intro g hg
        rcases List.mem_cons.mp hg with heq | hold
        · rw [heq]
          exact h.announced _ (hqueue ▸ List.mem_cons_self) f rfl
        · exact h.known_serial g hold
  | futurePaused f =>
      refine ⟨known, Tracks.congr htracks.right hlive, h.known_ids, ?_, ?_, ?_,
        h.known_serial, hrest, hserial⟩
      · have hcount := h.count
        simp only [System.handled, Service.handle]
        split <;> simpa using hcount
      · have hknown := h.wakers_known
        simp only [System.handled, Service.handle]
        split
        · intro g hg
          simp only [Service.notifyAwaiters_wakers] at hg
          rcases List.mem_cons.mp hg with heq | hold
          · rw [heq]
            exact htracks.left
          · exact hknown g (List.mem_of_mem_filter hold)
        · exact hknown
      · have hnodup := h.wakers_nodup
        simp only [System.handled, Service.handle]
        split
        · simp only [Service.notifyAwaiters_wakers]
          unfold Service.insertWaker Service.removeWaker
          rw [List.nodup_cons]
          refine ⟨?_, hnodup.filter _⟩
          intro hf
          simp at hf
        · exact hnodup
  | futureDropped f =>
      refine ⟨known.erase f, Tracks.congr htracks.right.right hlive,
        h.known_ids.sublist (List.erase_sublist.map _), ?_, ?_, ?_,
        fun g hg => h.known_serial g (List.mem_of_mem_erase hg), hrest,
        hserial⟩
      · simp only [System.handled, Service.handle,
          Service.notifyAwaiters_numFutures, h.count]
        exact (List.length_erase_of_mem htracks.left).symm
      · intro g hg
        simp only [System.handled, Service.handle,
          Service.notifyAwaiters_wakers] at hg
        rcases List.mem_filter.mp hg with ⟨hold, hne⟩
        have hother : g ≠ f := by
          intro heq
          rw [heq] at hne
          simp at hne
        exact (List.mem_erase_of_ne hother).mpr (h.wakers_known g hold)
      · simp only [System.handled, Service.handle,
          Service.notifyAwaiters_wakers]
        exact h.wakers_nodup.filter _

/-- If as many futures wait as are known, all known ones wait. -/
theorem full (h : Registered s known)
    (hcount : s.service.wakers.length = s.service.numFutures)
    {f : FutureRef} (hf : f ∈ known) : f ∈ s.service.wakers := by
  have hsub : s.service.wakers.Subperm known :=
    List.subperm_of_subset h.wakers_nodup h.wakers_known
  have hle : known.length ≤ s.service.wakers.length :=
    Nat.le_of_eq (hcount.trans h.count).symm
  exact (hsub.perm_of_length_le hle).symm.subset hf

end Registered

/-!
# The flag and the commands

Both channels agree once the controller has sent what goes with the flag it has
stored and the thread has handled all commands.
-/

def Command.pausedNext (paused : Bool) : Command -> Bool
  | pause _ => true
  | resume => false
  | _ => paused

def pausedAfter (paused : Bool) (queue : List Command) : Bool :=
  queue.foldl Command.pausedNext paused

theorem pausedAfter_append (paused : Bool) (queue : List Command)
    (c : Command) :
    pausedAfter paused (queue ++ [c]) =
      Command.pausedNext (pausedAfter paused queue) c :=
  List.foldl_append

theorem resume_mem_of_pausedAfter {queue : List Command}
    (h : pausedAfter true queue = false) : Command.resume ∈ queue := by
  induction queue with
  | nil => cases h
  | cons c rest ih =>
      cases c with
      | resume => exact List.mem_cons_self
      | pause sender => exact List.mem_cons_of_mem _ (ih h)
      | futureCreated f => exact List.mem_cons_of_mem _ (ih h)
      | futurePaused f => exact List.mem_cons_of_mem _ (ih h)
      | futureDropped f => exact List.mem_cons_of_mem _ (ih h)

theorem Service.handle_paused (s : Service) (c : Command) :
    (s.handle c).1.paused = Command.pausedNext s.paused c := by
  cases c with
  | futurePaused f =>
      cases hpaused : s.paused with
      | true =>
          rw [handle_futurePaused hpaused, notifyAwaiters_paused]
          exact hpaused
      | false =>
          rw [handle_futurePaused_running hpaused]
          exact hpaused
  | pause sender => exact notifyAwaiters_paused _
  | resume => rfl
  | futureCreated f => rfl
  | futureDropped f => exact notifyAwaiters_paused _

/-- What the controller sends after it has stored the flag. -/
def Announces (active : Bool) : Command -> Prop
  | Command.pause _ => active = false
  | Command.resume => active = true
  | _ => False

structure Flagged (s : System) : Prop where
  sending : forall c, s.sending = some c -> Announces s.active c
  settled : s.active = true -> s.sending = none ->
    pausedAfter s.service.paused s.queue = false
  drained : s.service.paused = false -> s.service.wakers = []

namespace Flagged

variable {s s' : System}

theorem of_eq (h : Flagged s) (hactive : s'.active = s.active)
    (hsending : s'.sending = s.sending) (hservice : s'.service = s.service)
    (hqueue : s'.queue = s.queue) : Flagged s' where
  sending := by
    rw [hactive, hsending]
    exact h.sending
  settled := by
    rw [hactive, hsending, hservice, hqueue]
    exact h.settled
  drained := by
    rw [hservice]
    exact h.drained

variable {c : Command}

theorem push (h : Flagged s)
    (hc : forall paused, Command.pausedNext paused c = paused)
    (hactive : s'.active = s.active) (hsending : s'.sending = s.sending)
    (hservice : s'.service = s.service) (hqueue : s'.queue = s.queue ++ [c]) :
    Flagged s' where
  sending := by
    rw [hactive, hsending]
    exact h.sending
  settled := by
    rw [hactive, hsending, hservice, hqueue, pausedAfter_append, hc]
    exact h.settled
  drained := by
    rw [hservice]
    exact h.drained

theorem store (h : Flagged s) (active : Bool) (hc : Announces active c) :
    Flagged (s.store active c) where
  sending := by
    intro d hd
    cases hd
    exact hc
  settled := by
    intro _ hsending
    cases hsending
  drained := h.drained

theorem send (h : Flagged s) (hc : s.sending = some c) :
    Flagged { s.enqueue c with sending := none } where
  sending := by
    intro d hd
    cases hd
  settled := by
    intro hactive _
    have hannounces := h.sending c hc
    show pausedAfter s.service.paused (s.queue ++ [c]) = false
    rw [pausedAfter_append]
    cases c with
    | resume => rfl
    | pause sender => exact absurd (hactive.symm.trans hannounces) (by decide)
    | futureCreated f => cases hannounces
    | futurePaused f => cases hannounces
    | futureDropped f => cases hannounces
  drained := h.drained

theorem handled (h : Flagged s) {rest : List Command}
    (hqueue : s.queue = c :: rest) : Flagged (s.handled c rest) where
  sending := h.sending
  settled := by
    intro hactive hsending
    have hsettled := h.settled hactive hsending
    rw [hqueue] at hsettled
    show pausedAfter (s.service.handle c).1.paused rest = false
    rw [Service.handle_paused]
    exact hsettled
  drained := by
    intro hpaused
    change (s.service.handle c).1.paused = false at hpaused
    rw [Service.handle_paused] at hpaused
    show (s.service.handle c).1.wakers = []
    cases c with
    | pause sender => cases hpaused
    | resume => rfl
    | futureCreated f => exact h.drained hpaused
    | futurePaused f =>
        rw [Service.handle_futurePaused_running hpaused]
        exact h.drained hpaused
    | futureDropped f =>
        rw [Service.handle, Service.notifyAwaiters_wakers]
        show Service.removeWaker f.id s.service.wakers = []
        rw [h.drained hpaused]
        rfl

end Flagged

/-!
# Reports of refused tasks

A task whose last poll was accepted may still be among the wakers, or have an
old report in the queue, but only if a resume command is to come that removes
it from there.
-/

def Withdrawn (f : FutureRef) (later : Prop) : Bool -> List Command -> Prop
  | _, [] => True
  | paused, c :: rest =>
      (c = Command.futurePaused f ->
        paused = false ∨ Command.resume ∈ rest ∨ later) ∧
        Withdrawn f later (Command.pausedNext paused c) rest

namespace Withdrawn

variable {f : FutureRef} {later later' : Prop} {paused : Bool}
  {queue : List Command}

theorem mono (h : Withdrawn f later paused queue) (himp : later -> later') :
    Withdrawn f later' paused queue := by
  induction queue generalizing paused with
  | nil => trivial
  | cons c rest ih =>
      refine ⟨?_, ih h.right⟩
      intro hc
      rcases h.left hc with hpaused | hresume | hlater
      · exact Or.inl hpaused
      · exact Or.inr (Or.inl hresume)
      · exact Or.inr (Or.inr (himp hlater))

theorem push (h : Withdrawn f later paused queue) {c : Command}
    (hc : c ≠ Command.futurePaused f)
    (hlater : later -> later' ∨ c = Command.resume) :
    Withdrawn f later' paused (queue ++ [c]) := by
  induction queue generalizing paused with
  | nil => exact ⟨fun heq => absurd heq hc, trivial⟩
  | cons d rest ih =>
      refine ⟨?_, ih h.right⟩
      intro hd
      rcases h.left hd with hpaused | hresume | hlast
      · exact Or.inl hpaused
      · exact Or.inr (Or.inl (List.mem_append_left _ hresume))
      · rcases hlater hlast with hlast' | heq
        · exact Or.inr (Or.inr hlast')
        · rw [heq]
          exact Or.inr (Or.inl (List.mem_append_right _ List.mem_cons_self))

theorem of_settled (h : pausedAfter paused queue = false ∨ later) :
    Withdrawn f later paused queue := by
  induction queue generalizing paused with
  | nil => trivial
  | cons c rest ih =>
      refine ⟨?_, ih h⟩
      intro hc
      rcases h with hsettled | hlater
      · subst hc
        cases paused with
        | false => exact Or.inl rfl
        | true => exact Or.inr (Or.inl (resume_mem_of_pausedAfter hsettled))
      · exact Or.inr (Or.inr hlater)

end Withdrawn

/-- What is known about the task with number `n`. -/
structure Accounted (s : System) (n : Nat) (t : Task) : Prop where
  stale_waker : t.lastPoll = LastPoll.accepted ->
    { id := t.id, serial := n } ∈ s.service.wakers ->
      Command.resume ∈ s.queue ∨ s.sending = some Command.resume
  stale_report : t.lastPoll = LastPoll.accepted ->
    Withdrawn { id := t.id, serial := n } (s.sending = some Command.resume)
      s.service.paused s.queue
  polled : { id := t.id, serial := n } ∈ s.service.wakers ∨
      Command.futurePaused { id := t.id, serial := n } ∈ s.queue ->
    t.lastPoll ≠ LastPoll.never
  waiting : t.phase = Phase.idle -> t.lastPoll = LastPoll.refused ->
    t.fired = false ->
      { id := t.id, serial := n } ∈ s.service.wakers ∨
        Command.futurePaused { id := t.id, serial := n } ∈ s.queue
  polling : t.phase = Phase.polling -> t.lastPoll = LastPoll.accepted
  refusing : t.phase = Phase.refusing -> t.lastPoll = LastPoll.refused

def Reported (s : System) : Prop :=
  forall n t, s.tasks n = some t -> Accounted s n t

namespace Accounted

variable {s s' : System} {n : Nat} {t : Task}

theorem of_eq (h : Accounted s n t) (hqueue : s'.queue = s.queue)
    (hservice : s'.service = s.service)
    (hsending : s.sending = some Command.resume ->
      s'.sending = some Command.resume) : Accounted s' n t where
  stale_waker := by
    rw [hqueue, hservice]
    intro haccepted hwaker
    exact (h.stale_waker haccepted hwaker).imp_right hsending
  stale_report := by
    rw [hqueue, hservice]
    intro haccepted
    exact (h.stale_report haccepted).mono hsending
  polled := by
    rw [hqueue, hservice]
    exact h.polled
  waiting := by
    rw [hqueue, hservice]
    exact h.waiting
  polling := h.polling
  refusing := h.refusing

/-- A command at the end of the queue that is no report of this task. -/
theorem push (h : Accounted s n t) {c : Command}
    (hc : c ≠ Command.futurePaused { id := t.id, serial := n })
    (hqueue : s'.queue = s.queue ++ [c]) (hservice : s'.service = s.service)
    (hsending : s.sending = some Command.resume ->
      s'.sending = some Command.resume ∨ c = Command.resume) :
    Accounted s' n t where
  stale_waker := by
    rw [hqueue, hservice]
    intro haccepted hwaker
    rcases h.stale_waker haccepted hwaker with hmem | hlater
    · exact Or.inl (List.mem_append_left _ hmem)
    · rcases hsending hlater with hlater' | heq
      · exact Or.inr hlater'
      · rw [heq]
        exact Or.inl (List.mem_append_right _ List.mem_cons_self)
  stale_report := by
    rw [hqueue, hservice]
    intro haccepted
    exact (h.stale_report haccepted).push hc hsending
  polled := by
    rw [hqueue, hservice]
    intro hknown
    apply h.polled
    rcases hknown with hwaker | hreport
    · exact Or.inl hwaker
    · rcases List.mem_append.mp hreport with hold | hnew
      · exact Or.inr hold
      · exact absurd (List.mem_singleton.mp hnew).symm hc
  waiting := by
    rw [hqueue, hservice]
    intro hidle hrefused hfired
    exact (h.waiting hidle hrefused hfired).imp_right
      (List.mem_append_left _)
  polling := h.polling
  refusing := h.refusing

end Accounted

/-!
# What the thread does to wakers
-/

theorem Service.mem_handle_wakers {s : Service} {f : FutureRef}
    (h : f ∈ (s.handle c).1.wakers) :
    (f ∈ s.wakers ∧ c ≠ Command.resume) ∨
      (c = Command.futurePaused f ∧ s.paused = true) := by
  cases c with
  | pause sender =>
      rw [handle, notifyAwaiters_wakers] at h
      exact Or.inl ⟨h, fun heq => nomatch heq⟩
  | resume => cases h
  | futureCreated g => exact Or.inl ⟨h, fun heq => nomatch heq⟩
  | futurePaused g =>
      cases hpaused : s.paused with
      | true =>
          rw [handle_futurePaused hpaused, notifyAwaiters_wakers] at h
          rcases List.mem_cons.mp h with heq | hold
          · rw [heq]
            exact Or.inr ⟨rfl, rfl⟩
          · exact Or.inl ⟨List.mem_of_mem_filter hold, fun heq => nomatch heq⟩
      | false =>
          rw [handle_futurePaused_running hpaused] at h
          exact Or.inl ⟨h, fun heq => nomatch heq⟩
  | futureDropped g =>
      rw [handle, notifyAwaiters_wakers] at h
      exact Or.inl ⟨List.mem_of_mem_filter h, fun heq => nomatch heq⟩

theorem Service.handle_report (s : Service) (f : FutureRef) :
    f ∈ (s.handle (Command.futurePaused f)).1.wakers ∨
      f ∈ (s.handle (Command.futurePaused f)).2.woken := by
  cases hpaused : s.paused with
  | true =>
      rw [handle_futurePaused hpaused, notifyAwaiters_wakers]
      exact Or.inl List.mem_cons_self
  | false =>
      rw [handle_futurePaused_running hpaused]
      exact Or.inr List.mem_cons_self

/-- A living future stays among the wakers until its waker is called. -/
theorem Registered.handle_waker {known : List FutureRef}
    (h : Registered s known) (hqueue : s.queue = c :: rest) {f : FutureRef}
    (hlive : s.Live f) (hf : f ∈ s.service.wakers) :
    f ∈ (s.service.handle c).1.wakers ∨ f ∈ (s.service.handle c).2.woken := by
  have htracks := h.tracks
  rw [hqueue] at htracks
  have hknown := h.wakers_known f hf
  cases c with
  | pause sender =>
      rw [Service.handle, Service.notifyAwaiters_wakers]
      exact Or.inl hf
  | resume => exact Or.inr hf
  | futureCreated g => exact Or.inl hf
  | futurePaused g =>
      by_cases hid : f.id = g.id
      · rw [h.eq_of_id hknown htracks.left hid]
        exact s.service.handle_report g
      · cases hpaused : s.service.paused with
        | true =>
            rw [Service.handle_futurePaused hpaused,
              Service.notifyAwaiters_wakers]
            exact Or.inl (List.mem_cons_of_mem g
              (List.mem_filter.mpr ⟨hf, decide_eq_true hid⟩))
        | false =>
            rw [Service.handle_futurePaused_running hpaused]
            exact Or.inl hf
  | futureDropped g =>
      rw [Service.handle, Service.notifyAwaiters_wakers]
      refine Or.inl (List.mem_filter.mpr ⟨hf, decide_eq_true ?_⟩)
      intro hid
      have heq := h.eq_of_id hknown htracks.left hid
      exact htracks.right.left (heq ▸ hlive)

theorem System.handled_some (h : (s.handled c rest).tasks n = some t) :
    exists old, s.tasks n = some old ∧ t.id = old.id ∧
      t.phase = old.phase ∧ t.lastPoll = old.lastPoll ∧
      (t.fired = false -> old.fired = false ∧
        { id := t.id, serial := n } ∉ (s.service.handle c).2.woken) :=
  System.wake_some h

theorem Reported.handled {known : List FutureRef} (h : Reported s)
    (hreg : Registered s known) (hqueue : s.queue = c :: rest) :
    Reported (s.handled c rest) := by
  intro n t ht
  rcases System.handled_some ht with ⟨old, hold, hid, hphase, hlast, hfired⟩
  have hacc := h n old hold
  have hlive : s.Live { id := t.id, serial := n } := ⟨old, hold, hid.symm⟩
  constructor
  · intro haccepted hwaker
    rw [hlast] at haccepted
    rcases Service.mem_handle_wakers hwaker with ⟨hwas, hc⟩ | ⟨hc, hpaused⟩
    · rw [hid] at hwas
      rcases hacc.stale_waker haccepted hwas with hresume | hlater
      · rw [hqueue] at hresume
        exact Or.inl ((List.mem_cons.mp hresume).resolve_left hc.symm)
      · exact Or.inr hlater
    · have hreport := hacc.stale_report haccepted
      rw [hqueue, <- hid] at hreport
      rcases hreport.left hc with hrunning | hresume
      · rw [hpaused] at hrunning
        cases hrunning
      · exact hresume
  · intro haccepted
    rw [hlast] at haccepted
    have hreport := hacc.stale_report haccepted
    rw [hqueue, <- hid] at hreport
    show Withdrawn _ _ (s.service.handle c).1.paused rest
    rw [Service.handle_paused]
    exact hreport.right
  · intro hknown
    rw [hlast]
    apply hacc.polled
    rw [hqueue, <- hid]
    rcases hknown with hwaker | hreport
    · rcases Service.mem_handle_wakers hwaker with ⟨hwas, _⟩ | ⟨hc, _⟩
      · exact Or.inl hwas
      · rw [hc]
        exact Or.inr List.mem_cons_self
    · exact Or.inr (List.mem_cons_of_mem c hreport)
  · intro hidle hrefused hnot
    rcases hfired hnot with ⟨hold_fired, hwoken⟩
    rw [hphase] at hidle
    rw [hlast] at hrefused
    have hwaits := hacc.waiting hidle hrefused hold_fired
    rw [hqueue, <- hid] at hwaits
    rcases hwaits with hwaker | hreport
    · exact Or.inl ((hreg.handle_waker hqueue hlive hwaker).resolve_right hwoken)
    · rcases List.mem_cons.mp hreport with hc | hrest
      · subst hc
        exact Or.inl ((s.service.handle_report _).resolve_right hwoken)
      · exact Or.inr hrest
  · intro hpolling
    rw [hphase] at hpolling
    rw [hlast]
    exact hacc.polling hpolling
  · intro hrefusing
    rw [hphase] at hrefusing
    rw [hlast]
    exact hacc.refusing hrefusing

/-!
# Calls that wait

A call of `pause_and_wait` is current as long as no resume has been called since
it started.  The flag stays off for that time, and behind its command there is
neither a resume nor the creation of a future that is older than the call.
-/

def Behind (a : Awaiter) (queue : List Command) : Prop :=
  Command.resume ∉ queue ∧
    forall f, Command.futureCreated f ∈ queue -> a.spawned ≤ f.serial

def BehindPause (a : Awaiter) : List Command -> Prop
  | [] => True
  | c :: rest =>
      (c = Command.pause (some a) -> Behind a rest) ∧ BehindPause a rest

theorem BehindPause.not_mem {queue : List Command}
    (h : Command.pause (some a) ∉ queue) : BehindPause a queue := by
  induction queue with
  | nil => trivial
  | cons c rest ih =>
      rw [List.mem_cons, not_or] at h
      exact ⟨fun hc => absurd hc.symm h.left, ih h.right⟩

/-- Commands that may follow the one of the call. -/
def Follows (a : Awaiter) (more : List Command) : Prop :=
  forall c, c ∈ more -> c ≠ Command.resume ∧
    forall f, c = Command.futureCreated f -> a.spawned ≤ f.serial

theorem Behind.append {queue more : List Command} (h : Behind a queue)
    (hmore : Follows a more) :
    Behind a (queue ++ more) := by
  constructor
  · intro hresume
    rcases List.mem_append.mp hresume with hold | hnew
    · exact h.left hold
    · exact (hmore _ hnew).left rfl
  · intro f hf
    rcases List.mem_append.mp hf with hold | hnew
    · exact h.right f hold
    · exact (hmore _ hnew).right f rfl

theorem Follows.behind {more : List Command} (h : Follows a more) :
    Behind a more :=
  ⟨fun hresume => (h _ hresume).left rfl, fun f hf => (h _ hf).right f rfl⟩

theorem Follows.nil (a : Awaiter) : Follows a [] :=
  fun _ hc => nomatch hc

theorem Follows.one (hresume : c ≠ Command.resume)
    (hcreated : forall f, c = Command.futureCreated f ->
      a.spawned ≤ f.serial) : Follows a [c] := by
  intro d hd
  rw [List.mem_singleton.mp hd]
  exact ⟨hresume, hcreated⟩

theorem BehindPause.append {queue more : List Command} (h : BehindPause a queue)
    (hmore : Follows a more) :
    BehindPause a (queue ++ more) := by
  induction queue with
  | nil =>
      induction more with
      | nil => trivial
      | cons c rest ih =>
          have hrest : Follows a rest :=
            fun d hd => hmore d (List.mem_cons_of_mem c hd)
          exact ⟨fun _ => hrest.behind, ih hrest⟩
  | cons c rest ih =>
      exact ⟨fun hc => (h.left hc).append hmore, ih h.right⟩

def System.Placed (s : System) (a : Awaiter) : Prop :=
  s.sending = some (Command.pause (some a)) ∨
    Command.pause (some a) ∈ s.queue ∨ a ∈ s.service.pauseAwaiters ∨
    a ∈ s.notified

/-- No task runs, and those that the call has found are refused. -/
def System.AllRefused (s : System) (a : Awaiter) : Prop :=
  forall n t, s.tasks n = some t ->
    t.lastPoll ≠ LastPoll.accepted ∧
      (n < a.spawned -> t.lastPoll = LastPoll.refused)

structure Awaited (s : System) (a : Awaiter) : Prop where
  inactive : s.active = false
  older : forall n t, s.tasks n = some t ->
    t.lastPoll = LastPoll.accepted -> n < a.spawned
  spawned : a.spawned ≤ s.spawned
  queued : BehindPause a s.queue
  handled : a ∈ s.service.pauseAwaiters ∨ a ∈ s.notified -> Behind a s.queue
  confirmed : a ∈ s.notified -> s.AllRefused a

/-- The polls of the step from `s` to `s'` are refused. -/
def NoPollAccepted (s s' : System) : Prop :=
  forall n t, s'.tasks n = some t ->
    (exists old, s.tasks n = some old ∧
      (t.lastPoll = old.lastPoll ∨ t.lastPoll = LastPoll.refused)) ∨
    (t.lastPoll = LastPoll.never ∧ s.spawned ≤ n)

theorem NoPollAccepted.of_eq {s' : System} (h : s'.tasks = s.tasks) :
    NoPollAccepted s s' := by
  intro n t ht
  rw [h] at ht
  exact Or.inl ⟨t, ht, Or.inl rfl⟩

namespace Awaited

variable {s s' : System} {a : Awaiter}

theorem step (h : Awaited s a) (more : List Command)
    (hinactive : s'.active = false) (hspawned : s.spawned ≤ s'.spawned)
    (hqueue : s'.queue = s.queue ++ more) (hmore : Follows a more)
    (hservice : s'.service = s.service) (hnotified : s'.notified = s.notified)
    (htasks : NoPollAccepted s s') : Awaited s' a where
  inactive := hinactive
  older := by
    intro n t ht haccepted
    rcases htasks n t ht with ⟨old, hold, hsame | hrefused⟩ | ⟨hnever, _⟩
    · exact h.older n old hold (hsame ▸ haccepted)
    · rw [hrefused] at haccepted
      cases haccepted
    · rw [hnever] at haccepted
      cases haccepted
  spawned := Nat.le_trans h.spawned hspawned
  queued := by
    rw [hqueue]
    exact h.queued.append hmore
  handled := by
    rw [hqueue, hservice, hnotified]
    intro hplace
    exact (h.handled hplace).append hmore
  confirmed := by
    intro hplace n t ht
    rw [hnotified] at hplace
    rcases htasks n t ht with ⟨old, hold, hsame | hrefused⟩ | ⟨hnever, hnew⟩
    · rw [hsame]
      exact h.confirmed hplace n old hold
    · rw [hrefused]
      exact ⟨(fun heq => nomatch heq), fun _ => rfl⟩
    · rw [hnever]
      refine ⟨(fun heq => nomatch heq), ?_⟩
      intro hlt
      have hle := Nat.le_trans h.spawned hnew
      exact absurd hlt (Nat.not_lt_of_le hle)

end Awaited

theorem Service.mem_handle_awaiters {s : Service}
    (h : a ∈ (s.handle c).1.pauseAwaiters ∨ a ∈ (s.handle c).2.notified) :
    a ∈ s.pauseAwaiters ∨ c = Command.pause (some a) := by
  have hnotify : forall s : Service,
      a ∈ s.notifyAwaiters.1.pauseAwaiters ∨ a ∈ s.notifyAwaiters.2.notified ->
        a ∈ s.pauseAwaiters := by
    intro s hs
    unfold notifyAwaiters at hs
    split at hs
    · rcases hs with hs | hs
      · cases hs
      · exact hs
    · rcases hs with hs | hs
      · exact hs
      · cases hs
  cases c with
  | pause sender =>
      rcases List.mem_append.mp (hnotify _ h) with hold | hnew
      · exact Or.inl hold
      · rw [Option.mem_toList] at hnew
        rw [hnew]
        exact Or.inr rfl
  | resume =>
      rcases h with h | h
      · cases h
      · exact Or.inl h
  | futureCreated f =>
      rcases h with h | h
      · exact Or.inl h
      · cases h
  | futurePaused f =>
      cases hpaused : s.paused with
      | true =>
          rw [handle_futurePaused hpaused] at h
          have hold := hnotify _ h
          exact Or.inl hold
      | false =>
          rw [handle_futurePaused_running hpaused] at h
          rcases h with h | h
          · exact Or.inl h
          · cases h
  | futureDropped f =>
      have hold := hnotify _ h
      exact Or.inl hold

/-- Awaiters are notified by a resume or because all futures wait. -/
theorem Service.notified_full {s : Service} (h : a ∈ (s.handle c).2.notified)
    (hc : c ≠ Command.resume) :
    (s.handle c).1.wakers.length = (s.handle c).1.numFutures := by
  have hnotify : forall s : Service, a ∈ s.notifyAwaiters.2.notified ->
      s.notifyAwaiters.1.wakers.length = s.notifyAwaiters.1.numFutures := by
    intro s hs
    rw [notifyAwaiters_wakers, notifyAwaiters_numFutures]
    unfold notifyAwaiters at hs
    split at hs
    · rename_i hfull
      exact hfull
    · cases hs
  cases c with
  | pause sender => exact hnotify _ h
  | resume => exact absurd rfl hc
  | futureCreated f => cases h
  | futurePaused f =>
      cases hpaused : s.paused with
      | true =>
          rw [handle_futurePaused hpaused] at h ⊢
          exact hnotify _ h
      | false =>
          rw [handle_futurePaused_running hpaused] at h
          cases h
  | futureDropped f => exact hnotify _ h

/-- When all known futures wait, a current call is right to return. -/
theorem Awaited.confirm {known : List FutureRef} (hreg : Registered s known)
    (hreported : Reported s)
    (hfull : s.service.wakers.length = s.service.numFutures)
    (hbehind : Behind a s.queue) (hsending : s.sending ≠ some Command.resume)
    (holder : forall n t, s.tasks n = some t ->
      t.lastPoll = LastPoll.accepted -> n < a.spawned) : s.AllRefused a := by
  have hwaker : forall n t, s.tasks n = some t -> n < a.spawned ->
      { id := t.id, serial := n } ∈ s.service.wakers := by
    intro n t ht hlt
    have hlive : s.Live { id := t.id, serial := n } := ⟨t, ht, rfl⟩
    rcases hreg.tracks.known_or_created hlive with hknown | hcreated
    · exact hreg.full hfull hknown
    · exact absurd hlt (Nat.not_lt_of_le (hbehind.right _ hcreated))
  have hnot : forall n t, s.tasks n = some t ->
      t.lastPoll ≠ LastPoll.accepted := by
    intro n t ht haccepted
    have hmem := hwaker n t ht (holder n t ht haccepted)
    rcases (hreported n t ht).stale_waker haccepted hmem with hresume | hlater
    · exact hbehind.left hresume
    · exact hsending hlater
  intro n t ht
  refine ⟨hnot n t ht, ?_⟩
  intro hlt
  have hpolled := (hreported n t ht).polled (Or.inl (hwaker n t ht hlt))
  have haccepted := hnot n t ht
  cases hlast : t.lastPoll with
  | never => exact absurd hlast hpolled
  | accepted => exact absurd hlast haccepted
  | refused => rfl

theorem Awaited.of_handled {known' : List FutureRef} (h : Awaited s a)
    (hflag : Flagged s) (hqueue : s.queue = c :: rest)
    (hreg : Registered (s.handled c rest) known')
    (hreported : Reported (s.handled c rest)) :
    Awaited (s.handled c rest) a := by
  have hsending : s.sending ≠ some Command.resume := by
    intro heq
    have hactive : s.active = true := hflag.sending _ heq
    rw [h.inactive] at hactive
    cases hactive
  have hqueued := h.queued
  rw [hqueue] at hqueued
  have htail : Behind a (c :: rest) -> Behind a rest := by
    intro hbehind
    exact ⟨fun hresume => hbehind.left (List.mem_cons_of_mem c hresume),
      fun f hf => hbehind.right f (List.mem_cons_of_mem c hf)⟩
  have hbehind : a ∈ (s.service.handle c).1.pauseAwaiters ∨
      a ∈ s.notified ∨ a ∈ (s.service.handle c).2.notified ->
        Behind a rest := by
    intro hplace
    have hwas : (a ∈ s.service.pauseAwaiters ∨ a ∈ s.notified) ∨
        c = Command.pause (some a) := by
      rcases hplace with hservice | hnotified | hnew
      · rcases Service.mem_handle_awaiters (Or.inl hservice) with hold | hc
        · exact Or.inl (Or.inl hold)
        · exact Or.inr hc
      · exact Or.inl (Or.inr hnotified)
      · rcases Service.mem_handle_awaiters (Or.inr hnew) with hold | hc
        · exact Or.inl (Or.inl hold)
        · exact Or.inr hc
    rcases hwas with hold | hc
    · exact htail (hqueue ▸ h.handled hold)
    · exact hqueued.left hc
  have holder : forall n t, (s.handled c rest).tasks n = some t ->
      t.lastPoll = LastPoll.accepted -> n < a.spawned := by
    intro n t ht haccepted
    rcases System.handled_some ht with ⟨old, hold, _, _, hlast, _⟩
    exact h.older n old hold (hlast ▸ haccepted)
  refine ⟨h.inactive, holder, h.spawned, hqueued.right, ?_, ?_⟩
  · intro hplace
    apply hbehind
    rcases hplace with hservice | hnotified
    · exact Or.inl hservice
    · exact Or.inr (List.mem_append.mp hnotified)
  · intro hplace
    rcases List.mem_append.mp hplace with hold | hnew
    · intro n t ht
      rcases System.handled_some ht with ⟨old, hwas, _, _, hlast, _⟩
      rw [hlast]
      exact h.confirmed hold n old hwas
    · change a ∈ (s.service.handle c).2.notified at hnew
      have hc : c ≠ Command.resume := by
        intro heq
        -- A resume would have to stand behind the command of the call.
        rcases Service.mem_handle_awaiters (Or.inr hnew) with hwas | hpause
        · have hbefore := h.handled (Or.inl hwas)
          rw [hqueue, heq] at hbefore
          exact hbefore.left List.mem_cons_self
        · rw [heq] at hpause
          cases hpause
      exact Awaited.confirm hreg hreported (Service.notified_full hnew hc)
        (hbehind (Or.inr (Or.inr hnew))) hsending holder

/-!
# The invariant of every run
-/

structure PauseInv (s : System) : Prop where
  registered : exists known, Registered s known
  flagged : Flagged s
  reported : Reported s
  started : forall a, s.Placed a -> a.resumes ≤ s.resumes
  awaited : forall a, s.Placed a -> a.resumes = s.resumes -> Awaited s a
  returned : forall a, a ∈ s.returned -> a ∈ s.notified

theorem pauseInv_init : PauseInv {} where
  registered := by
    refine ⟨[], ?_, List.nodup_nil, rfl, ?_, List.nodup_nil, ?_, ?_, ?_⟩
    · intro f
      constructor
      · intro hlive
        rcases hlive with ⟨t, ht, _⟩
        cases ht
      · intro hf
        cases hf
    · intro f hf
      cases hf
    · intro f hf
      cases hf
    · intro c hc
      cases hc
    · intro f hlive
      rcases hlive with ⟨t, ht, _⟩
      cases ht
  flagged := by
    refine ⟨?_, fun _ _ => rfl, fun _ => rfl⟩
    intro c hc
    cases hc
  reported := by
    intro n t ht
    cases ht
  started := by
    intro a ha
    rcases ha with ha | ha | ha | ha <;> cases ha
  awaited := by
    intro a ha
    rcases ha with ha | ha | ha | ha <;> cases ha
  returned := by
    intro a ha
    cases ha

namespace PauseInv

variable {s s' : System}

/-- A step of a task, which may append a command of its own. -/
theorem task_step (h : PauseInv s) {more : List Command}
    (hregistered : exists known, Registered s' known)
    (hflagged : Flagged s') (hreported : Reported s')
    (hactive : s'.active = s.active) (hsending : s'.sending = s.sending)
    (hservice : s'.service = s.service) (hnotified : s'.notified = s.notified)
    (hreturned : s'.returned = s.returned)
    (hresumes : s'.resumes = s.resumes) (hspawned : s.spawned ≤ s'.spawned)
    (hqueue : s'.queue = s.queue ++ more)
    (hmore : forall c, c ∈ more -> c.future ≠ none)
    (hfollows : forall a : Awaiter, a.spawned ≤ s.spawned -> Follows a more)
    (htasks : s.active = false -> NoPollAccepted s s') : PauseInv s' := by
  have hplaced : forall a, s'.Placed a -> s.Placed a := by
    intro a ha
    unfold System.Placed at ha
    rw [hsending, hqueue, hservice, hnotified, List.mem_append] at ha
    rcases ha with ha | (ha | ha) | ha
    · exact Or.inl ha
    · exact Or.inr (Or.inl ha)
    · exact absurd rfl (hmore _ ha)
    · exact Or.inr (Or.inr ha)
  refine ⟨hregistered, hflagged, hreported, ?_, ?_, ?_⟩
  · intro a ha
    rw [hresumes]
    exact h.started a (hplaced a ha)
  · intro a ha hcurrent
    rw [hresumes] at hcurrent
    have hold := h.awaited a (hplaced a ha) hcurrent
    exact hold.step more (hactive.trans hold.inactive) hspawned hqueue
      (hfollows a hold.spawned) hservice hnotified (htasks hold.inactive)
  · rw [hreturned, hnotified]
    exact h.returned

theorem control_step (h : PauseInv s) (hflagged : Flagged s')
    (htasks : s'.tasks = s.tasks) (hqueue : s'.queue = s.queue)
    (hservice : s'.service = s.service)
    (hspawned : s'.spawned = s.spawned)
    (hlater : s.sending = some Command.resume ->
      s'.sending = some Command.resume)
    (hstarted : forall a, s'.Placed a -> a.resumes ≤ s'.resumes)
    (hawaited : forall a, s'.Placed a -> a.resumes = s'.resumes ->
      Awaited s' a)
    (hreturned : forall a, a ∈ s'.returned -> a ∈ s'.notified) :
    PauseInv s' := by
  have hlive : forall f, s'.Live f ↔ s.Live f := by
    intro f
    unfold System.Live
    rw [htasks]
  rcases h.registered with ⟨known, hreg⟩
  refine ⟨⟨known, hreg.of_eq hlive hqueue hservice hspawned⟩, hflagged, ?_,
    hstarted, hawaited, hreturned⟩
  intro n t ht
  rw [htasks] at ht
  exact (h.reported n t ht).of_eq hqueue hservice hlater

theorem pause (h : PauseInv s) (hsending : s.sending = none) :
    PauseInv (s.store false (Command.pause none)) := by
  have hplaced : forall a, (s.store false (Command.pause none)).Placed a ->
      s.Placed a := by
    intro a ha
    rcases ha with ha | ha
    · cases ha
    · exact Or.inr ha
  apply h.control_step
    (h.flagged.store false (c := Command.pause none) rfl) rfl rfl rfl rfl
  · intro hresume
    rw [hsending] at hresume
    cases hresume
  · intro a ha
    exact h.started a (hplaced a ha)
  · intro a ha hcurrent
    have hold := h.awaited a (hplaced a ha) hcurrent
    exact hold.step [] rfl (Nat.le_refl _) (List.append_nil _).symm
      (Follows.nil a) rfl rfl (NoPollAccepted.of_eq rfl)
  · exact h.returned

theorem startWait (h : PauseInv s) (hsending : s.sending = none) :
    PauseInv s.startWait := by
  have hplaced : forall a, s.startWait.Placed a ->
      a = s.awaiter ∨ s.Placed a := by
    intro a ha
    rcases ha with ha | ha
    · cases ha
      exact Or.inl rfl
    · exact Or.inr (Or.inr ha)
  have hflagged : Flagged s.startWait :=
    (h.flagged.store false (c := Command.pause (some s.awaiter)) rfl).of_eq
      rfl rfl rfl rfl
  have hstep : forall a, Awaited s a -> Awaited s.startWait a :=
    fun a hold => hold.step [] rfl (Nat.le_refl _) (List.append_nil _).symm
      (Follows.nil a) rfl rfl (NoPollAccepted.of_eq rfl)
  apply h.control_step hflagged rfl rfl rfl rfl
  · intro hresume
    rw [hsending] at hresume
    cases hresume
  · intro a ha
    rcases hplaced a ha with heq | hold
    · rw [heq]
      exact Nat.le_refl _
    · exact h.started a hold
  · intro a ha hcurrent
    by_cases hold : s.Placed a
    · exact hstep a (h.awaited a hold hcurrent)
    · have heq := (hplaced a ha).resolve_right hold
      subst heq
      rcases h.registered with ⟨known, hreg⟩
      refine ⟨rfl, ?_, Nat.le_refl _, ?_, ?_, ?_⟩
      · intro n t ht _
        exact hreg.live { id := t.id, serial := n } ⟨t, ht, rfl⟩
      · exact BehindPause.not_mem (fun hmem => hold (Or.inr (Or.inl hmem)))
      · intro hplace
        exact absurd (Or.inr (Or.inr hplace)) hold
      · intro hplace
        exact absurd (Or.inr (Or.inr (Or.inr hplace))) hold
  · exact h.returned

theorem startResume (h : PauseInv s) : PauseInv s.startResume := by
  have hplaced : forall a, s.startResume.Placed a -> s.Placed a := by
    intro a ha
    rcases ha with ha | ha
    · cases ha
    · exact Or.inr ha
  have hflagged : Flagged s.startResume :=
    (h.flagged.store true (c := Command.resume) rfl).of_eq
      rfl rfl rfl rfl
  apply h.control_step hflagged rfl rfl rfl rfl
  · intro _
    rfl
  · intro a ha
    exact Nat.le_succ_of_le (h.started a (hplaced a ha))
  · intro a ha hcurrent
    have hle := h.started a (hplaced a ha)
    rw [hcurrent] at hle
    exact absurd hle (Nat.not_succ_le_self _)
  · exact h.returned

theorem send (h : PauseInv s) (hc : s.sending = some c) :
    PauseInv { s.enqueue c with sending := none } := by
  have hannounces := h.flagged.sending c hc
  have hfuture : c.future = none := by
    cases c with
    | pause sender => rfl
    | resume => rfl
    | futureCreated f => cases hannounces
    | futurePaused f => cases hannounces
    | futureDropped f => cases hannounces
  rcases h.registered with ⟨known, hreg⟩
  have hplaced : forall a,
      System.Placed { s.enqueue c with sending := none } a -> s.Placed a := by
    intro a ha
    rcases ha with ha | ha | ha
    · cases ha
    · rcases List.mem_append.mp ha with hold | hnew
      · exact Or.inr (Or.inl hold)
      · rw [List.mem_singleton] at hnew
        exact Or.inl (hnew ▸ hc)
    · exact Or.inr (Or.inr ha)
  refine ⟨⟨known, ?_⟩, h.flagged.send hc, ?_, ?_, ?_, h.returned⟩
  · refine hreg.push (c := c) rfl rfl (Nat.le_refl _) ?_ hreg.live
      (fun f _ hf => hf) ?_
    · intro f hf
      rw [hfuture] at hf
      cases hf
    · intro known' _ hlive
      cases c with
      | pause sender => exact hlive
      | resume => exact hlive
      | futureCreated f => cases hfuture
      | futurePaused f => cases hfuture
      | futureDropped f => cases hfuture
  · intro n t ht
    refine (h.reported n t ht).push (c := c) ?_ rfl rfl ?_
    · intro heq
      rw [heq] at hfuture
      cases hfuture
    · intro hresume
      rw [hc] at hresume
      exact Or.inr (Option.some.inj hresume)
  · intro a ha
    exact h.started a (hplaced a ha)
  · intro a ha hcurrent
    have hold := h.awaited a (hplaced a ha) hcurrent
    refine hold.step [c] hold.inactive (Nat.le_refl _) rfl ?_ rfl rfl
      (NoPollAccepted.of_eq rfl)
    apply Follows.one
    · intro heq
      subst heq
      have hactive : s.active = true := hannounces
      rw [hold.inactive] at hactive
      cases hactive
    · intro f heq
      rw [heq] at hfuture
      cases hfuture

theorem handled (h : PauseInv s) (hqueue : s.queue = c :: rest) :
    PauseInv (s.handled c rest) := by
  rcases h.registered with ⟨known, hreg⟩
  rcases hreg.handled hqueue with ⟨known', hreg'⟩
  have hreported := h.reported.handled hreg hqueue
  have hplaced : forall a, (s.handled c rest).Placed a -> s.Placed a := by
    intro a ha
    have hservice : a ∈ (s.service.handle c).1.pauseAwaiters ∨
        a ∈ (s.service.handle c).2.notified -> s.Placed a := by
      intro hnew
      rcases Service.mem_handle_awaiters hnew with hold | hc
      · exact Or.inr (Or.inr (Or.inl hold))
      · refine Or.inr (Or.inl ?_)
        rw [hqueue, hc]
        exact List.mem_cons_self
    rcases ha with ha | ha | ha | ha
    · exact Or.inl ha
    · refine Or.inr (Or.inl ?_)
      rw [hqueue]
      exact List.mem_cons_of_mem c ha
    · exact hservice (Or.inl ha)
    · rcases List.mem_append.mp ha with hold | hnew
      · exact Or.inr (Or.inr (Or.inr hold))
      · exact hservice (Or.inr hnew)
  refine ⟨⟨known', hreg'⟩, h.flagged.handled hqueue, hreported, ?_, ?_, ?_⟩
  · intro a ha
    exact h.started a (hplaced a ha)
  · intro a ha hcurrent
    exact (h.awaited a (hplaced a ha) hcurrent).of_handled h.flagged hqueue
      hreg' hreported
  · intro a ha
    exact List.mem_append_left _ (h.returned a ha)

/-!
# Steps of tasks
-/

theorem setTask_some {m : Nat} {u : Task} (h : (s.setTask n t).tasks m = some u) :
    (m = n ∧ u = t) ∨ (m ≠ n ∧ s.tasks m = some u) := by
  change Function.update s.tasks n (some t) m = some u at h
  by_cases heq : m = n
  · subst heq
    rw [Function.update_self] at h
    exact Or.inl ⟨rfl, (Option.some.inj h).symm⟩
  · rw [Function.update_of_ne heq] at h
    exact Or.inr ⟨heq, h⟩

theorem setTask_live {u : Task} (ht : s.tasks n = some t) (hid : u.id = t.id)
    (f : FutureRef) :
    (s.setTask n u).Live f ↔ s.Live f := by
  unfold System.Live
  constructor
  · intro h
    rcases h with ⟨v, hv, hf⟩
    rcases setTask_some hv with ⟨hn, heq⟩ | ⟨_, hold⟩
    · rw [heq, hid] at hf
      rw [hn]
      exact ⟨t, ht, hf⟩
    · exact ⟨v, hold, hf⟩
  · intro h
    rcases h with ⟨v, hv, hf⟩
    by_cases heq : f.serial = n
    · rw [heq, ht] at hv
      cases hv
      refine ⟨u, ?_, hid.trans hf⟩
      rw [heq]
      exact Function.update_self ..
    · refine ⟨v, ?_, hf⟩
      exact (Function.update_of_ne heq ..).trans hv

theorem poll_step (h : PauseInv s) {u : Task} (ht : s.tasks n = some t)
    (hid : u.id = t.id) (hlast : s.active = false ->
      u.lastPoll = t.lastPoll ∨ u.lastPoll = LastPoll.refused)
    (haccounted : Accounted (s.setTask n u) n u) :
    PauseInv (s.setTask n u) := by
  rcases h.registered with ⟨known, hreg⟩
  refine h.task_step
    ⟨known, hreg.of_eq (setTask_live ht hid) rfl rfl rfl⟩
    (h.flagged.of_eq rfl rfl rfl rfl) ?_ rfl rfl rfl rfl rfl rfl (Nat.le_refl _)
    (List.append_nil _).symm (fun c hc => nomatch hc)
    (fun a _ => Follows.nil a) ?_
  · intro m v hv
    rcases setTask_some hv with ⟨hm, hvu⟩ | ⟨_, hold⟩
    · subst hm
      subst hvu
      exact haccounted
    · exact (h.reported m v hold).of_eq rfl rfl id
  · intro hactive m v hv
    rcases setTask_some hv with ⟨hm, hvu⟩ | ⟨_, hold⟩
    · subst hm
      subst hvu
      exact Or.inl ⟨t, ht, hlast hactive⟩
    · exact Or.inl ⟨v, hold, Or.inl rfl⟩

/-- With the flag on, whatever still names the task is on its way out. -/
theorem accepted_accounted (h : PauseInv s) (hactive : s.active = true)
    {u : Task} (hphase : u.phase = Phase.polling)
    (hlast : u.lastPoll = LastPoll.accepted) :
    Accounted (s.setTask n u) n u := by
  have hcoming : pausedAfter s.service.paused s.queue = false ∨
      s.sending = some Command.resume := by
    cases hsending : s.sending with
    | none => exact Or.inl (h.flagged.settled hactive hsending)
    | some c =>
        have hannounces := h.flagged.sending c hsending
        cases c with
        | resume => exact Or.inr rfl
        | pause sender =>
            have hinactive : s.active = false := hannounces
            rw [hactive] at hinactive
            cases hinactive
        | futureCreated f => cases hannounces
        | futurePaused f => cases hannounces
        | futureDropped f => cases hannounces
  constructor
  · intro _ hwaker
    rcases hcoming with hsettled | hlater
    · refine Or.inl (resume_mem_of_pausedAfter ?_)
      cases hpaused : s.service.paused with
      | true =>
          rw [hpaused] at hsettled
          exact hsettled
      | false =>
          have hnone : s.service.wakers = [] := h.flagged.drained hpaused
          change _ ∈ s.service.wakers at hwaker
          rw [hnone] at hwaker
          cases hwaker
    · exact Or.inr hlater
  · intro _
    exact Withdrawn.of_settled hcoming
  · intro _
    rw [hlast]
    exact fun heq => nomatch heq
  · intro hidle
    rw [hphase] at hidle
    cases hidle
  · intro _
    exact hlast
  · intro hrefusing
    rw [hphase] at hrefusing
    cases hrefusing

theorem startPoll (h : PauseInv s) (ht : s.tasks n = some t) :
    PauseInv (s.startPoll n t) := by
  unfold System.startPoll
  split
  · rename_i hactive
    refine h.poll_step ht rfl ?_ (h.accepted_accounted hactive rfl rfl)
    intro hinactive
    rw [hactive] at hinactive
    cases hinactive
  · refine h.poll_step ht rfl (fun _ => Or.inr rfl) ?_
    constructor
    · intro haccepted
      cases haccepted
    · intro haccepted
      cases haccepted
    · intro _ hnever
      cases hnever
    · intro hidle
      cases hidle
    · intro hpolling
      cases hpolling
    · intro _
      rfl

theorem finishPoll (h : PauseInv s) (ht : s.tasks n = some t)
    (hphase : t.phase = Phase.polling) :
    PauseInv (s.setTask n { t with phase := Phase.idle }) := by
  have hold := h.reported n t ht
  have haccepted := hold.polling hphase
  refine h.poll_step ht rfl (fun _ => Or.inl rfl)
    ⟨hold.stale_waker, hold.stale_report, hold.polled, ?_, ?_, ?_⟩
  · intro _ hrefused
    have hboth := haccepted.symm.trans hrefused
    cases hboth
  · intro hpolling
    cases hpolling
  · intro hrefusing
    cases hrefusing

theorem sendPaused (h : PauseInv s) (ht : s.tasks n = some t)
    (hphase : t.phase = Phase.refusing) :
    PauseInv (s.sendPaused n t) := by
  rcases h.registered with ⟨known, hreg⟩
  have hlive : forall f, (s.sendPaused n t).Live f ↔ s.Live f :=
    setTask_live (s := s.enqueue _) ht rfl
  have hrefused := (h.reported n t ht).refusing hphase
  refine h.task_step ⟨known, ?_⟩
    (h.flagged.push (c := Command.futurePaused { id := t.id, serial := n })
      (fun _ => rfl) rfl rfl rfl rfl) ?_ rfl rfl rfl rfl rfl rfl
    (Nat.le_refl _) rfl ?_ ?_ ?_
  · refine hreg.push (c := Command.futurePaused { id := t.id, serial := n })
      rfl rfl (Nat.le_refl _) ?_ ?_ ?_ ?_
    · intro f hf
      cases hf
      exact hreg.live _ ⟨t, ht, rfl⟩
    · intro f hf
      exact hreg.live f ((hlive f).mp hf)
    · intro f _ hf
      exact (hlive f).mp hf
    · intro known' _ hknown
      exact ⟨(hknown _).mp ⟨t, ht, rfl⟩,
        fun f => (hlive f).trans (hknown f)⟩
  · intro m v hv
    rcases setTask_some (s := s.enqueue _) hv with ⟨hm, hvu⟩ | ⟨hne, hold⟩
    · subst hm
      subst hvu
      constructor
      · intro haccepted
        have hboth := hrefused.symm.trans haccepted
        cases hboth
      · intro haccepted
        have hboth := hrefused.symm.trans haccepted
        cases hboth
      · intro _ hnever
        have hboth := hrefused.symm.trans hnever
        cases hboth
      · intro _ _ _
        exact Or.inr (List.mem_append_right _ List.mem_cons_self)
      · intro hpolling
        cases hpolling
      · intro hrefusing
        cases hrefusing
    · refine (h.reported m v hold).push
        (c := Command.futurePaused { id := t.id, serial := n }) ?_ rfl rfl
        Or.inl
      intro heq
      have hserial := congrArg FutureRef.serial (Command.futurePaused.inj heq)
      exact hne hserial.symm
  · intro c hc
    rw [List.mem_singleton.mp hc]
    exact fun heq => nomatch heq
  · intro a _
    exact Follows.one (fun heq => nomatch heq) (fun f heq => nomatch heq)
  · intro _ m v hv
    rcases setTask_some (s := s.enqueue _) hv with ⟨hm, hvu⟩ | ⟨_, hold⟩
    · subst hm
      subst hvu
      exact Or.inl ⟨t, ht, Or.inl rfl⟩
    · exact Or.inl ⟨v, hold, Or.inl rfl⟩

theorem spawn (h : PauseInv s) {id : Nat} (hfree : s.freeAddress id) :
    PauseInv (s.spawn id) := by
  rcases h.registered with ⟨known, hreg⟩
  have hunused : forall f, s.Live f -> f.id ≠ id := by
    intro f hf
    have hlt := hreg.live f hf
    rcases hf with ⟨t, ht, hid⟩
    rw [<- hid]
    exact hfree f.serial hlt t ht
  have htask : forall m v, (s.spawn id).tasks m = some v ->
      (m = s.spawned ∧ v = { id := id }) ∨
        (m ≠ s.spawned ∧ s.tasks m = some v) :=
    fun m v hv => setTask_some (s := s.enqueue _) hv
  have hlive : forall f, (s.spawn id).Live f ↔
      s.Live f ∨ f = { id := id, serial := s.spawned } := by
    intro f
    constructor
    · intro hf
      rcases hf with ⟨v, hv, hid⟩
      rcases htask f.serial v hv with ⟨hserial, heq⟩ | ⟨_, hold⟩
      · subst heq
        cases f
        cases hserial
        cases hid
        exact Or.inr rfl
      · exact Or.inl ⟨v, hold, hid⟩
    · intro hf
      rcases hf with hf | heq
      · have hne : f.serial ≠ s.spawned := Nat.ne_of_lt (hreg.live f hf)
        rcases hf with ⟨v, hv, hid⟩
        exact ⟨v, (Function.update_of_ne hne ..).trans hv, hid⟩
      · subst heq
        exact ⟨{ id := id }, Function.update_self .., rfl⟩
  refine h.task_step ⟨known, ?_⟩
    (h.flagged.push
      (c := Command.futureCreated { id := id, serial := s.spawned })
      (fun _ => rfl) rfl rfl rfl rfl) ?_ rfl rfl rfl rfl rfl rfl
    (Nat.le_succ _) rfl ?_ ?_ ?_
  · refine hreg.push
      (c := Command.futureCreated { id := id, serial := s.spawned }) rfl rfl
      (Nat.le_succ _) ?_ ?_ ?_ ?_
    · intro f hf
      cases hf
      exact Nat.lt_succ_self _
    · intro f hf
      rcases (hlive f).mp hf with hold | heq
      · exact Nat.lt_succ_of_lt (hreg.live f hold)
      · subst heq
        exact Nat.lt_succ_self _
    · intro f hlt hf
      rcases (hlive f).mp hf with hold | heq
      · exact hold
      · subst heq
        exact absurd hlt (Nat.lt_irrefl _)
    · intro known' _ hknown
      refine ⟨fun g hg => hunused g ((hknown g).mpr hg), ?_⟩
      intro f
      rw [hlive, hknown, List.mem_cons]
      exact Or.comm
  · intro m v hv
    rcases htask m v hv with ⟨hm, heq⟩ | ⟨_, hold⟩
    · subst hm
      subst heq
      constructor
      · intro haccepted
        cases haccepted
      · intro haccepted
        cases haccepted
      · -- The serial number is new, so nobody can have reported it.
        intro hnamed
        rcases hnamed with hwaker | hreport
        · have hlt := hreg.known_serial _ (hreg.wakers_known _ hwaker)
          exact absurd hlt (Nat.lt_irrefl _)
        · rcases List.mem_append.mp hreport with hold | hnew
          · have hlt := hreg.announced _ hold _ rfl
            exact absurd hlt (Nat.lt_irrefl _)
          · cases List.mem_singleton.mp hnew
      · intro _ hrefused
        cases hrefused
      · intro hpolling
        cases hpolling
      · intro hrefusing
        cases hrefusing
    · exact (h.reported m v hold).push
        (c := Command.futureCreated { id := id, serial := s.spawned })
        (fun heq => nomatch heq) rfl rfl Or.inl
  · intro c hc
    rw [List.mem_singleton.mp hc]
    exact fun heq => nomatch heq
  · intro a ha
    refine Follows.one (fun heq => nomatch heq) ?_
    intro f heq
    cases heq
    exact ha
  · intro _ m v hv
    rcases htask m v hv with ⟨hm, heq⟩ | ⟨_, hold⟩
    · subst hm
      subst heq
      exact Or.inr ⟨rfl, Nat.le_refl _⟩
    · exact Or.inl ⟨v, hold, Or.inl rfl⟩

theorem dropTask (h : PauseInv s) (ht : s.tasks n = some t) :
    PauseInv (s.dropTask n t) := by
  rcases h.registered with ⟨known, hreg⟩
  have htask : forall m v, (s.dropTask n t).tasks m = some v ->
      m ≠ n ∧ s.tasks m = some v := by
    intro m v hv
    change Function.update s.tasks n none m = some v at hv
    by_cases heq : m = n
    · subst heq
      rw [Function.update_self] at hv
      cases hv
    · rw [Function.update_of_ne heq] at hv
      exact ⟨heq, hv⟩
  have hlive : forall f, (s.dropTask n t).Live f ↔
      s.Live f ∧ f ≠ { id := t.id, serial := n } := by
    intro f
    constructor
    · intro hf
      rcases hf with ⟨v, hv, hid⟩
      rcases htask f.serial v hv with ⟨hne, hold⟩
      exact ⟨⟨v, hold, hid⟩, fun heq => hne (congrArg FutureRef.serial heq)⟩
    · intro hf
      rcases hf with ⟨⟨v, hv, hid⟩, hne⟩
      have hserial : f.serial ≠ n := by
        intro heq
        rw [heq, ht] at hv
        cases hv
        apply hne
        cases f
        cases heq
        cases hid
        rfl
      exact ⟨v, (Function.update_of_ne hserial ..).trans hv, hid⟩
  refine h.task_step ⟨known, ?_⟩
    (h.flagged.push (c := Command.futureDropped { id := t.id, serial := n })
      (fun _ => rfl) rfl rfl rfl rfl) ?_ rfl rfl rfl rfl rfl rfl
    (Nat.le_refl _) rfl ?_ ?_ ?_
  · refine hreg.push (c := Command.futureDropped { id := t.id, serial := n })
      rfl rfl (Nat.le_refl _) ?_ ?_ ?_ ?_
    · intro f hf
      cases hf
      exact hreg.live _ ⟨t, ht, rfl⟩
    · intro f hf
      exact hreg.live f ((hlive f).mp hf).left
    · intro f _ hf
      exact ((hlive f).mp hf).left
    · intro known' hnodup hknown
      refine ⟨(hknown _).mp ⟨t, ht, rfl⟩, ?_, ?_⟩
      · intro hf
        exact ((hlive _).mp hf).right rfl
      · intro f
        rw [hlive, hknown, hnodup.mem_erase_iff]
        exact And.comm
  · intro m v hv
    exact (h.reported m v (htask m v hv).right).push
      (c := Command.futureDropped { id := t.id, serial := n })
      (fun heq => nomatch heq) rfl rfl Or.inl
  · intro c hc
    rw [List.mem_singleton.mp hc]
    exact fun heq => nomatch heq
  · intro a _
    exact Follows.one (fun heq => nomatch heq) (fun f heq => nomatch heq)
  · intro _ m v hv
    exact Or.inl ⟨v, (htask m v hv).right, Or.inl rfl⟩

end PauseInv

theorem System.inPhase_some {p : Phase} (h : s.inPhase n p = some t) :
    s.tasks n = some t ∧ t.phase = p := by
  rcases Option.filter_eq_some_iff.mp h with ⟨ht, hphase⟩
  exact ⟨ht, of_decide_eq_true hphase⟩

theorem PauseInv.next {s' : System} (h : PauseInv s) {e : Event}
    (hstep : s.next e = some s') : PauseInv s' := by
  cases e with
  | pause =>
      simp only [System.next] at hstep
      split at hstep
      · rename_i hsending
        cases hstep
        exact h.pause hsending
      · cases hstep
  | pauseAndWait =>
      simp only [System.next] at hstep
      split at hstep
      · rename_i hsending
        cases hstep
        exact h.startWait hsending
      · cases hstep
  | resume =>
      simp only [System.next] at hstep
      split at hstep
      · cases hstep
        exact h.startResume
      · cases hstep
  | send =>
      cases hsending : s.sending with
      | none =>
          simp only [System.next, hsending] at hstep
          cases hstep
      | some c =>
          simp only [System.next, hsending] at hstep
          cases hstep
          exact h.send hsending
  | returnOk a =>
      simp only [System.next] at hstep
      split at hstep
      · rename_i hready
        cases hstep
        refine h.control_step (h.flagged.of_eq rfl rfl rfl rfl) rfl rfl rfl rfl
          id h.started ?_ ?_
        · intro b hb hcurrent
          exact (h.awaited b hb hcurrent).step []
            (h.awaited b hb hcurrent).inactive (Nat.le_refl _)
            (List.append_nil _).symm (Follows.nil b) rfl rfl
            (NoPollAccepted.of_eq rfl)
        · intro b hb
          rcases List.mem_append.mp hb with hold | hnew
          · exact h.returned b hold
          · rw [List.mem_singleton.mp hnew]
            exact hready.right
      · cases hstep
  | timeout a =>
      cases hstep
      refine h.control_step (h.flagged.of_eq rfl rfl rfl rfl) rfl rfl rfl rfl
        id h.started ?_ h.returned
      intro b hb hcurrent
      exact (h.awaited b hb hcurrent).step []
        (h.awaited b hb hcurrent).inactive (Nat.le_refl _)
        (List.append_nil _).symm (Follows.nil b) rfl rfl
        (NoPollAccepted.of_eq rfl)
  | handle =>
      cases hqueue : s.queue with
      | nil =>
          simp only [System.next, hqueue] at hstep
          cases hstep
      | cons c rest =>
          simp only [System.next, hqueue] at hstep
          cases hstep
          exact h.handled hqueue
  | spawn id =>
      simp only [System.next] at hstep
      split at hstep
      · rename_i hfree
        cases hstep
        exact h.spawn hfree
      · cases hstep
  | poll n =>
      rcases Option.map_eq_some_iff.mp hstep with ⟨t, ht, heq⟩
      rw [<- heq]
      exact h.startPoll (System.inPhase_some ht).left
  | finishPoll n =>
      rcases Option.map_eq_some_iff.mp hstep with ⟨t, ht, heq⟩
      rcases System.inPhase_some ht with ⟨htask, hphase⟩
      rw [<- heq]
      exact h.finishPoll htask hphase
  | report n =>
      rcases Option.map_eq_some_iff.mp hstep with ⟨t, ht, heq⟩
      rcases System.inPhase_some ht with ⟨htask, hphase⟩
      rw [<- heq]
      exact h.sendPaused htask hphase
  | drop n =>
      rcases Option.map_eq_some_iff.mp hstep with ⟨t, ht, heq⟩
      rw [<- heq]
      exact h.dropTask (System.inPhase_some ht).left

theorem reachable_pauseInv (h : TaskRuns.Reachable s) :
    PauseInv s := by
  refine TransitionSystem.invariant PauseInv ?_ ?_ h
  · intro s hinit
    rw [show s = {} from hinit]
    exact pauseInv_init
  · intro s e s' _ hinv hstep
    exact hinv.next hstep

/-!
# Main result
-/

/-- The task was refused, and the service has not called its waker since. -/
def Task.AwaitsService (t : Task) : Prop :=
  t.phase = Phase.idle ∧ t.lastPoll = LastPoll.refused ∧ t.fired = false

/-- The controller has called `resume` last, and the call has returned. -/
def System.Resumed (s : System) : Prop :=
  s.active = true ∧ s.sending = none

theorem paused_means_paused {s : System} (h : TaskRuns.Reachable s) :
    (forall a, a ∈ s.returned -> a.resumes = s.resumes ->
      forall n t, s.tasks n = some t ->
        t.phase ≠ Phase.polling ∧ t.lastPoll ≠ LastPoll.accepted ∧
          (n < a.spawned -> t.lastPoll = LastPoll.refused)) ∧
    (s.Resumed -> s.queue = [] ->
      (forall n t, s.tasks n = some t -> t.fired = false) ->
      forall n t, s.tasks n = some t -> ¬ t.AwaitsService) := by
  have hinv := reachable_pauseInv h
  constructor
  · intro a ha hcurrent n t ht
    have hnotified := hinv.returned a ha
    have hawaited := hinv.awaited a (Or.inr (Or.inr (Or.inr hnotified))) hcurrent
    have hrefused := hawaited.confirmed hnotified n t ht
    refine ⟨?_, hrefused⟩
    intro hpolling
    exact hrefused.left ((hinv.reported n t ht).polling hpolling)
  · intro hresumed hqueue _ n t ht hawaits
    have hsettled := hinv.flagged.settled hresumed.left hresumed.right
    rw [hqueue] at hsettled
    have hnone : s.service.wakers = [] := hinv.flagged.drained hsettled
    have hplace := (hinv.reported n t ht).waiting hawaits.left
      hawaits.right.left hawaits.right.right
    rw [hnone, hqueue] at hplace
    rcases hplace with hwaker | hreport
    · cases hwaker
    · cases hreport

/-- A task is polled once, the service is paused, and its next poll refused. -/
def pausedRun : List Event :=
  [Event.spawn 64, Event.handle, Event.poll 0, Event.finishPoll 0,
    Event.pauseAndWait, Event.send, Event.handle, Event.poll 0,
    Event.report 0, Event.handle,
    Event.returnOk { call := 0, resumes := 0, spawned := 1 }]

theorem pausedRun_refused :
    exists s, List.foldlM System.next {} pausedRun = some s ∧
      s.returned = [{ call := 0, resumes := 0, spawned := 1 }] ∧
      s.resumes = 0 ∧
      exists t, s.tasks 0 = some t ∧ t.phase ≠ Phase.polling ∧
        t.lastPoll = LastPoll.refused := by
  have hrun : exists s, List.foldlM System.next {} pausedRun = some s ∧
      s.returned = [{ call := 0, resumes := 0, spawned := 1 }] ∧
      s.resumes = 0 ∧ exists t, s.tasks 0 = some t :=
    ⟨_, rfl, rfl, rfl, _, rfl⟩
  rcases hrun with ⟨s, hs, hreturned, hresumes, t, ht⟩
  have hreach : TaskRuns.Reachable s :=
    TransitionSystem.Reachable.replay (fun _ _ _ h => h)
      (TransitionSystem.ReachableWhen.start rfl) hs
  have hpaused := (paused_means_paused hreach).left
    { call := 0, resumes := 0, spawned := 1 }
    (by rw [hreturned]; exact List.mem_cons_self) hresumes.symm 0 t ht
  exact ⟨s, hs, hreturned, hresumes, t, ht, hpaused.left,
    hpaused.right.right Nat.zero_lt_one⟩

end TaskService
end MailClient
