import MailClient.Foundation.Transition
import MailClient.ActionQueue.Store

/-!
# Queueing saves and uploads

An attachment can be uploaded only after the draft has been created on the
server.  The composer remembers the id of its last save and makes an upload depend
on it.  A dependency that is no longer in the queue is not stored.
-/

namespace MailClient
namespace Drafts

open Foundation
open ActionQueue (ActionId ActionDependency DependencyType)

inductive AttachmentUploadMode where
  | create
  | retry
  deriving DecidableEq, Repr

inductive ComposerAction where
  | save
  | upload (attachment : Nat) (mode : AttachmentUploadMode)
  | send
  deriving DecidableEq, Repr

def ComposerAction.createsAttachment : ComposerAction -> Bool
  | upload _ AttachmentUploadMode.create => true
  | _ => false

structure QueueEntry where
  id : ActionId
  action : ComposerAction
  dependencies : List ActionDependency
  executing : Bool := false
  deriving DecidableEq, Repr

/-- What is done once the save of a call is queued. -/
inductive Purpose where
  | save
  | send
  | add (attachment : Nat)
  deriving DecidableEq, Repr

/-- Where a call of the composer is between two transactions. -/
inductive ComposerPhase where
  | idle
  | queueSave (purpose : Purpose) (pending : List Nat)
  | queueUploads (purpose : Purpose) (save : ActionId) (pending : List Nat)
  | queueSend (save : ActionId)
  | queueUpload (attachment : Nat) (mode : AttachmentUploadMode)
  deriving DecidableEq, Repr

structure Composer where
  queue : List QueueEntry := []
  nextAction : ActionId := 0
  lastDraftSaveActionId : Option ActionId := none
  message : Bool := false
  /-- The message has a remote id. -/
  remoteMessage : Bool := false
  /-- Attachments in the states `Pending` and `Error`. -/
  pendingAttachments : List Nat := []
  failedAttachments : List Nat := []
  phase : ComposerPhase := ComposerPhase.idle
  deriving DecidableEq, Repr

namespace Composer

def queueIds (s : Composer) : List ActionId :=
  s.queue.map QueueEntry.id

/-- Saves, uploads and sends all record the key of the draft's attachments. -/
def anyDraftAttachments (s : Composer) : List ActionDependency :=
  s.queueIds.map ActionDependency.required

def queueAction (s : Composer) (action : ComposerAction)
    (dependencies : List ActionDependency) : Composer :=
  { s with
    queue := s.queue ++ [{
      id := s.nextAction
      action := action
      dependencies := dependencies.filter (fun d =>
        d.dependencyId ∈ s.queueIds) }]
    nextAction := s.nextAction + 1 }

/-- The save is there and nobody executes it. -/
def replaceable (s : Composer) (id : ActionId) : Bool :=
  s.queue.any (fun x =>
    x.id = id && x.action = ComposerAction.save && !x.executing)

/-- A save that replaces `id` depends on all other actions of the draft. -/
def cyclic (s : Composer) (id : ActionId) : Bool :=
  s.queue.any (fun x =>
    x.id ≠ id && x.dependencies.any (fun d => d.dependencyId = id))

def replaceSave (s : Composer) (id : ActionId) : Composer :=
  { s with
    queue := s.queue.map (fun x =>
      if x.id = id then
        { x with
          dependencies := x.dependencies ++
            s.anyDraftAttachments.filter (fun d => d.dependencyId ≠ id) }
      else x) }

def queueOrReplaceDraftSave (s : Composer) (last : Option ActionId) :
    ActionId × Composer :=
  let queued := (s.nextAction,
    { s.queueAction ComposerAction.save
        ((last.map ActionDependency.required).toList ++ s.anyDraftAttachments)
      with message := true })
  match last with
  | none => queued
  | some id =>
      if s.replaceable id && !s.cyclic id then (id, s.replaceSave id) else queued

/-- What the caller of `DraftSaveActionQueuer::queue` does with its result. -/
def saved (s : Composer) (save : ActionId) : Purpose -> Composer
  | Purpose.save =>
      { s with
        lastDraftSaveActionId := some save
        phase := ComposerPhase.idle }
  | Purpose.send =>
      { s with
        lastDraftSaveActionId := some save
        phase := ComposerPhase.queueSend save }
  | Purpose.add attachment =>
      { s with
        lastDraftSaveActionId := some save
        phase := ComposerPhase.queueUpload attachment
          AttachmentUploadMode.create }

def queueUpload (s : Composer) (attachment : Nat) (mode : AttachmentUploadMode)
    (save : Option ActionId) : Composer :=
  { s.queueAction (ComposerAction.upload attachment mode)
      (save.map ActionDependency.required).toList with
    pendingAttachments := s.pendingAttachments.filter (fun a => a ≠ attachment)
    failedAttachments := s.failedAttachments.filter (fun a => a ≠ attachment) }

/-- The next transaction of the call. -/
def advance (s : Composer) : Option Composer :=
  match s.phase with
  | ComposerPhase.idle => none
  | ComposerPhase.queueSave purpose pending =>
      let (id, s') := s.queueOrReplaceDraftSave s.lastDraftSaveActionId
      if pending = [] then some (s'.saved id purpose)
      else
        some { s' with
          phase := ComposerPhase.queueUploads purpose id pending }
  | ComposerPhase.queueUploads purpose save [] =>
      -- Another save includes the attachments that have just been queued.
      let (id, s') := s.queueOrReplaceDraftSave (some save)
      some (s'.saved id purpose)
  | ComposerPhase.queueUploads purpose save (attachment :: rest) =>
      some { s.queueUpload attachment AttachmentUploadMode.create (some save)
        with phase := ComposerPhase.queueUploads purpose save rest }
  | ComposerPhase.queueSend save =>
      some { s.queueAction ComposerAction.send
          (ActionDependency.required save :: s.anyDraftAttachments) with
        phase := ComposerPhase.idle }
  | ComposerPhase.queueUpload attachment mode =>
      if s.message then
        some { s.queueUpload attachment mode s.lastDraftSaveActionId with
          phase := ComposerPhase.idle }
      else none

def dequeue (s : Composer) (x : QueueEntry) : Composer :=
  { s with queue := s.queue.filter (fun y => y ≠ x) }

def setExecuting (s : Composer) (x : QueueEntry) (executing : Bool) :
    Composer :=
  { s with
    queue := s.queue.map (fun y =>
      if y = x then { y with executing := executing } else y) }

end Composer

inductive ComposerEvent where
  | save
  | send
  | addAttachment (attachment : Nat)
  | retryUpload (attachment : Nat)
  | addPending (attachment : Nat)
  | advance
  /-- A call returns an error. -/
  | abort
  | start (x : QueueEntry)
  | succeed (x : QueueEntry)
  | requeue (x : QueueEntry)
  /-- With the actions that require `x` or one another. -/
  | fail (x : QueueEntry) (cancelled : List ActionId)
  deriving DecidableEq, Repr

namespace Composer

def next (s : Composer) : ComposerEvent -> Option Composer
  | ComposerEvent.save =>
      if s.phase = ComposerPhase.idle then
        some { s with
          phase := ComposerPhase.queueSave Purpose.save s.pendingAttachments }
      else none
  | ComposerEvent.send =>
      if s.phase = ComposerPhase.idle ∧ s.failedAttachments = [] then
        some { s with
          phase := ComposerPhase.queueSave Purpose.send s.pendingAttachments }
      else none
  | ComposerEvent.addAttachment attachment =>
      if s.phase = ComposerPhase.idle then
        if s.remoteMessage = true ∨ s.lastDraftSaveActionId.isSome = true then
          some { s with
            phase := ComposerPhase.queueUpload attachment
              AttachmentUploadMode.create }
        else
          some { s with
            phase := ComposerPhase.queueSave (Purpose.add attachment)
              s.pendingAttachments }
      else none
  | ComposerEvent.retryUpload attachment =>
      if s.phase = ComposerPhase.idle ∧ attachment ∈ s.failedAttachments then
        some { s with
          phase := ComposerPhase.queueUpload attachment
            AttachmentUploadMode.retry }
      else none
  | ComposerEvent.addPending attachment =>
      some { s with
        pendingAttachments := s.pendingAttachments ++ [attachment] }
  | ComposerEvent.advance => s.advance
  | ComposerEvent.abort => some { s with phase := ComposerPhase.idle }
  | ComposerEvent.start x =>
      if x ∈ s.queue ∧ x.executing = false ∧
          forall d, d ∈ x.dependencies -> d.dependencyId ∉ s.queueIds then
        some (s.setExecuting x true)
      else none
  | ComposerEvent.succeed x =>
      if x ∈ s.queue ∧ x.executing = true then
        some { s.dequeue x with
          remoteMessage := s.remoteMessage || x.action = ComposerAction.save }
      else none
  | ComposerEvent.requeue x =>
      if x ∈ s.queue ∧ x.executing = true then some (s.setExecuting x false)
      else none
  | ComposerEvent.fail x cancelled =>
      if x ∈ s.queue ∧ x.executing = true ∧
          forall y, y ∈ s.queue ->
            (y.id ∈ cancelled ↔ exists d, d ∈ y.dependencies ∧
              d.dependencyType = DependencyType.required ∧
              (d.dependencyId = x.id ∨ d.dependencyId ∈ cancelled)) then
        some { s with
          queue := s.queue.filter (fun y => y ≠ x && y.id ∉ cancelled)
          failedAttachments :=
            match x.action with
            | ComposerAction.upload attachment _ =>
                attachment :: s.failedAttachments
            | _ => s.failedAttachments }
      else none

end Composer

/-- A composer that has just been opened, maybe while a save is still queued. -/
structure ComposerOpened (s : Composer) : Prop where
  idle : s.phase = ComposerPhase.idle
  queue : forall x, x ∈ s.queue -> x.action = ComposerAction.save
  last : forall id, s.lastDraftSaveActionId = some id ->
    exists x, x ∈ s.queue ∧ x.id = id

def ComposerRuns : TransitionSystem Composer ComposerEvent where
  init := ComposerOpened
  step := fun s e s' => s.next e = some s'

/-- Saves end with success until the draft has been created on the server. -/
def Creating (s : Composer) : ComposerEvent -> Prop
  | ComposerEvent.fail x cancelled =>
      s.remoteMessage = true ∨
        forall y, y ∈ s.queue -> y.action = ComposerAction.save ->
          y ≠ x ∧ y.id ∉ cancelled
  | _ => True

instance (s : Composer) (e : ComposerEvent) : Decidable (Creating s e) :=
  match e with
  | ComposerEvent.fail x cancelled =>
      inferInstanceAs (Decidable (s.remoteMessage = true ∨
        forall y, y ∈ s.queue -> y.action = ComposerAction.save ->
          y ≠ x ∧ y.id ∉ cancelled))
  | ComposerEvent.save | ComposerEvent.send | ComposerEvent.addAttachment _
  | ComposerEvent.retryUpload _ | ComposerEvent.addPending _
  | ComposerEvent.advance | ComposerEvent.abort | ComposerEvent.start _
  | ComposerEvent.succeed _ | ComposerEvent.requeue _ =>
      inferInstanceAs (Decidable True)

/-!
# The invariant
-/

namespace Composer

/-- The draft has been created, or the save with this id will do it. -/
def Created (s : Composer) (id : ActionId) : Prop :=
  s.remoteMessage = true ∨
    exists y, y ∈ s.queue ∧ y.id = id ∧ y.action = ComposerAction.save

/-- An upload that the draft is created for. -/
def Awaited (s : Composer) (dependencies : List ActionDependency) : Prop :=
  s.remoteMessage = true ∨
    exists id, ActionDependency.required id ∈ dependencies ∧ s.Created id

end Composer

/-- The save that a call has queued before its next transaction. -/
def ComposerPhase.queuedSave : ComposerPhase -> Option ActionId
  | queueUploads _ save _ => some save
  | queueSend save => some save
  | _ => none

structure Remembered (s : Composer) : Prop where
  last : forall id, s.lastDraftSaveActionId = some id -> s.Created id
  queued : forall id, s.phase.queuedSave = some id -> s.Created id
  decided : forall attachment,
    s.phase = ComposerPhase.queueUpload attachment AttachmentUploadMode.create ->
    s.remoteMessage = true ∨ s.lastDraftSaveActionId.isSome = true
  upload : forall x, x ∈ s.queue -> x.action.createsAttachment = true ->
    s.Awaited x.dependencies

/-- What the draft's creation rests on is still there. -/
structure Continues (s s' : Composer) : Prop where
  created : forall id, s.Created id -> s'.Created id
  remote : s.remoteMessage = true -> s'.remoteMessage = true
  upload : forall x', x' ∈ s'.queue -> x'.action.createsAttachment = true ->
    exists x, x ∈ s.queue ∧ x.action = x'.action ∧
      forall d, d ∈ x.dependencies -> d ∈ x'.dependencies

namespace Continues

variable {s s' s'' : Composer}

theorem of_queue (hqueue : s'.queue = s.queue)
    (hremote : s'.remoteMessage = s.remoteMessage) : Continues s s' where
  created := by
    unfold Composer.Created
    rw [hqueue, hremote]
    exact fun _ h => h
  remote := by
    rw [hremote]
    exact fun h => h
  upload := by
    rw [hqueue]
    exact fun x hx _ => ⟨x, hx, rfl, fun _ hd => hd⟩

theorem awaited (h : Continues s s') {dependencies : List ActionDependency}
    (hawaited : s.Awaited dependencies) : s'.Awaited dependencies := by
  rcases hawaited with hremote | ⟨id, hid, hcreated⟩
  · exact Or.inl (h.remote hremote)
  · exact Or.inr ⟨id, hid, h.created id hcreated⟩

theorem uploads (h : Continues s s') (hs : Remembered s) :
    forall x, x ∈ s'.queue -> x.action.createsAttachment = true ->
      s'.Awaited x.dependencies := by
  intro x' hx' hcreates
  rcases h.upload x' hx' hcreates with ⟨x, hx, haction, hdependencies⟩
  rcases h.awaited (hs.upload x hx (by rw [haction, hcreates])) with
    hremote | ⟨id, hid, hcreated⟩
  · exact Or.inl hremote
  · exact Or.inr ⟨id, hdependencies _ hid, hcreated⟩

theorem map {f : QueueEntry -> QueueEntry}
    (hremote : s'.remoteMessage = s.remoteMessage)
    (hqueue : s'.queue = s.queue.map f)
    (hentry : forall x, (f x).id = x.id ∧ (f x).action = x.action ∧
      forall d, d ∈ x.dependencies -> d ∈ (f x).dependencies) :
    Continues s s' where
  created := by
    intro id hcreated
    rcases hcreated with hbefore | ⟨y, hy, hid, hsave⟩
    · exact Or.inl (hremote.trans hbefore)
    · rcases hentry y with ⟨hid', haction, _⟩
      refine Or.inr ⟨f y, ?_, hid'.trans hid, haction.trans hsave⟩
      rw [hqueue]
      exact List.mem_map_of_mem hy
  remote := fun h => hremote.trans h
  upload := by
    intro x' hx' _
    rw [hqueue] at hx'
    rcases List.mem_map.mp hx' with ⟨y, hy, rfl⟩
    rcases hentry y with ⟨_, haction, hdependencies⟩
    exact ⟨y, hy, haction.symm, hdependencies⟩

theorem setExecuting (s : Composer) (x : QueueEntry) (executing : Bool) :
    Continues s (s.setExecuting x executing) := by
  refine map (s := s) rfl rfl ?_
  intro y
  split
  · exact ⟨rfl, rfl, fun _ hd => hd⟩
  · exact ⟨rfl, rfl, fun _ hd => hd⟩

theorem filter {p : QueueEntry -> Bool}
    (hremote : s.remoteMessage = true -> s'.remoteMessage = true)
    (hqueue : s'.queue = s.queue.filter p)
    (hsaves : s'.remoteMessage = true ∨ forall y, y ∈ s.queue ->
      y.action = ComposerAction.save -> p y = true) : Continues s s' where
  created := by
    intro id hcreated
    rcases hcreated with hbefore | ⟨y, hy, hid, hsave⟩
    · exact Or.inl (hremote hbefore)
    · rcases hsaves with hafter | hkept
      · exact Or.inl hafter
      · refine Or.inr ⟨y, ?_, hid, hsave⟩
        rw [hqueue]
        exact List.mem_filter.mpr ⟨hy, hkept y hy hsave⟩
  remote := hremote
  upload := by
    rw [hqueue]
    exact fun x hx _ => ⟨x, List.mem_of_mem_filter hx, rfl, fun _ hd => hd⟩

theorem replaceSave (s : Composer) (id : ActionId) :
    Continues s (s.replaceSave id) := by
  refine map (s := s) rfl rfl ?_
  intro y
  split
  · exact ⟨rfl, rfl, fun _ hd => List.mem_append_left _ hd⟩
  · exact ⟨rfl, rfl, fun _ hd => hd⟩

theorem created_of_queueAction {action : ComposerAction}
    {dependencies : List ActionDependency} {id : ActionId}
    (h : s.Created id) : (s.queueAction action dependencies).Created id := by
  rcases h with hremote | ⟨y, hy, hid, hsave⟩
  · exact Or.inl hremote
  · exact Or.inr ⟨y, List.mem_append_left _ hy, hid, hsave⟩

theorem queueAction (s : Composer) {action : ComposerAction}
    (haction : action.createsAttachment = false)
    (dependencies : List ActionDependency) :
    Continues s (s.queueAction action dependencies) where
  created := fun _ h => created_of_queueAction h
  remote := fun h => h
  upload := by
    intro x hx hcreates
    rcases List.mem_append.mp hx with hold | hnew
    · exact ⟨x, hold, rfl, fun _ hd => hd⟩
    · rw [List.mem_singleton.mp hnew] at hcreates
      exact absurd (haction.symm.trans hcreates) Bool.false_ne_true

end Continues

namespace Composer

variable {s s' : Composer}

theorem created_of_replaceable {id : ActionId}
    (h : s.replaceable id = true) : s.Created id := by
  unfold replaceable at h
  rcases List.any_eq_true.mp h with ⟨x, hx, hsave⟩
  simp only [Bool.and_eq_true, decide_eq_true_eq] at hsave
  exact Or.inr ⟨x, hx, hsave.left.left, hsave.left.right⟩

theorem queueOrReplaceDraftSave_last (s : Composer) (last : Option ActionId) :
    (s.queueOrReplaceDraftSave last).2.lastDraftSaveActionId =
      s.lastDraftSaveActionId := by
  unfold queueOrReplaceDraftSave
  cases last with
  | none => rfl
  | some id =>
      simp only
      split
      · rfl
      · rfl

theorem queueOrReplaceDraftSave_spec (s : Composer) (last : Option ActionId) :
    Continues s (s.queueOrReplaceDraftSave last).2 ∧
      (s.queueOrReplaceDraftSave last).2.Created
        (s.queueOrReplaceDraftSave last).1 := by
  have hqueued : forall dependencies,
      Continues s { s.queueAction ComposerAction.save dependencies with
        message := true } ∧
      ({ s.queueAction ComposerAction.save dependencies with
        message := true } : Composer).Created s.nextAction := by
    intro dependencies
    have hcontinues : Continues s
        (s.queueAction ComposerAction.save dependencies) :=
      Continues.queueAction s rfl dependencies
    exact ⟨⟨hcontinues.created, hcontinues.remote, hcontinues.upload⟩,
      Or.inr ⟨_, List.mem_append_right _ (List.mem_singleton.mpr rfl), rfl,
        rfl⟩⟩
  unfold queueOrReplaceDraftSave
  cases last with
  | none => exact hqueued _
  | some id =>
      simp only
      split
      · rename_i hreplace
        simp only [Bool.and_eq_true] at hreplace
        have hcontinues := Continues.replaceSave s id
        exact ⟨hcontinues,
          hcontinues.created id (created_of_replaceable hreplace.left)⟩
      · exact hqueued _

end Composer

namespace Remembered

variable {s s' : Composer}

theorem of_continues (h : Remembered s) (hcontinues : Continues s s')
    (hlast : s'.lastDraftSaveActionId = s.lastDraftSaveActionId)
    (hphase : s'.phase = s.phase) : Remembered s' where
  last := by
    rw [hlast]
    exact fun id hid => hcontinues.created id (h.last id hid)
  queued := by
    rw [hphase]
    exact fun id hid => hcontinues.created id (h.queued id hid)
  decided := by
    rw [hphase, hlast]
    intro attachment hattachment
    exact (h.decided attachment hattachment).imp hcontinues.remote
      (fun hsome => hsome)
  upload := hcontinues.uploads h

theorem enter (h : Remembered s) {phase : ComposerPhase}
    (hqueued : phase.queuedSave = none)
    (hdecided : forall attachment,
      phase = ComposerPhase.queueUpload attachment AttachmentUploadMode.create ->
      s.remoteMessage = true ∨ s.lastDraftSaveActionId.isSome = true) :
    Remembered { s with phase := phase } where
  last := h.last
  queued := by
    intro id hid
    rw [show phase.queuedSave = some id from hid] at hqueued
    cases hqueued
  decided := hdecided
  upload := h.upload

theorem saved {t : Composer} (h : Remembered s) (hcontinues : Continues s t)
    {id : ActionId} (hcreated : t.Created id) (purpose : Purpose) :
    Remembered (t.saved id purpose) := by
  have hid : forall id', some id = some id' -> t.Created id' := by
    intro id' heq
    cases heq
    exact hcreated
  cases purpose with
  | save =>
      exact ⟨hid, (fun _ heq => nomatch heq), (fun _ heq => nomatch heq),
        hcontinues.uploads h⟩
  | send =>
      exact ⟨hid, hid, (fun _ heq => nomatch heq), hcontinues.uploads h⟩
  | add attachment =>
      exact ⟨hid, (fun _ heq => nomatch heq), fun _ _ => Or.inr rfl,
        hcontinues.uploads h⟩

theorem queueUpload (h : Remembered s) (attachment : Nat)
    {mode : AttachmentUploadMode} {save : Option ActionId}
    {phase : ComposerPhase}
    (hcreate : mode = AttachmentUploadMode.create -> s.remoteMessage = true ∨
      exists id, save = some id ∧ s.Created id)
    (hqueued : forall id, phase.queuedSave = some id -> s.Created id)
    (hdecided : forall attachment, phase ≠
      ComposerPhase.queueUpload attachment AttachmentUploadMode.create) :
    Remembered { s.queueUpload attachment mode save with phase := phase } where
  last := fun id hid => Continues.created_of_queueAction (h.last id hid)
  queued := fun id hid => Continues.created_of_queueAction (hqueued id hid)
  decided := fun attachment hphase => absurd hphase (hdecided attachment)
  upload := by
    intro x hx hcreates
    rcases List.mem_append.mp hx with hold | hnew
    · rcases h.upload x hold hcreates with hremote | ⟨id, hid, hcreated⟩
      · exact Or.inl hremote
      · exact Or.inr ⟨id, hid, Continues.created_of_queueAction hcreated⟩
    · rw [List.mem_singleton.mp hnew] at hcreates ⊢
      cases mode with
      | retry => cases hcreates
      | create =>
          rcases hcreate rfl with hremote | ⟨id, rfl, hcreated⟩
          · exact Or.inl hremote
          · rcases hcreated with hremote | ⟨y, hy, hid, hsave⟩
            · exact Or.inl hremote
            · refine Or.inr ⟨id, ?_, Continues.created_of_queueAction
                (Or.inr ⟨y, hy, hid, hsave⟩)⟩
              refine List.mem_filter.mpr ⟨List.mem_singleton.mpr rfl, ?_⟩
              exact decide_eq_true (hid ▸ List.mem_map_of_mem hy)

theorem advance (h : Remembered s) (hstep : s.advance = some s') :
    Remembered s' := by
  unfold Composer.advance at hstep
  split at hstep
  · cases hstep
  · rename_i purpose pending hphase
    rcases s.queueOrReplaceDraftSave_spec s.lastDraftSaveActionId with
      ⟨hcontinues, hcreated⟩
    simp only at hstep
    split at hstep
    · cases hstep
      exact h.saved hcontinues hcreated purpose
    · cases hstep
      -- The pending attachments wait for the save that has just been queued.
      refine ⟨?_, ?_, (fun _ heq => nomatch heq), hcontinues.uploads h⟩
      · intro id hid
        refine hcontinues.created id (h.last id ?_)
        rw [<- s.queueOrReplaceDraftSave_last s.lastDraftSaveActionId]
        exact hid
      · intro id hid
        cases hid
        exact hcreated
  · rename_i purpose save hphase
    rcases s.queueOrReplaceDraftSave_spec (some save) with
      ⟨hcontinues, hcreated⟩
    cases hstep
    exact h.saved hcontinues hcreated purpose
  · rename_i purpose save attachment rest hphase
    cases hstep
    have hcreated : s.Created save := by
      apply h.queued
      rw [hphase]
      rfl
    refine h.queueUpload attachment (fun _ => Or.inr ⟨save, rfl, hcreated⟩) ?_
      (fun _ heq => nomatch heq)
    intro id hid
    cases hid
    exact hcreated
  · rename_i save hphase
    cases hstep
    have hcontinues := Continues.queueAction s
      (show ComposerAction.send.createsAttachment = false from rfl)
      (ActionDependency.required save :: s.anyDraftAttachments)
    exact (h.of_continues hcontinues rfl rfl).enter rfl
      (fun _ heq => nomatch heq)
  · rename_i attachment mode hphase
    split at hstep
    · cases hstep
      refine h.queueUpload attachment ?_ (fun _ heq => nomatch heq)
        (fun _ heq => nomatch heq)
      intro hmode
      rw [hmode] at hphase
      rcases h.decided attachment hphase with hremote | hsome
      · exact Or.inl hremote
      · rcases Option.isSome_iff_exists.mp hsome with ⟨id, hid⟩
        exact Or.inr ⟨id, hid, h.last id hid⟩
    · cases hstep

theorem next (h : Remembered s) {e : ComposerEvent} (hcreating : Creating s e)
    (hstep : s.next e = some s') : Remembered s' := by
  cases e with
  | save =>
      simp only [Composer.next] at hstep
      split at hstep
      · cases hstep
        exact h.enter rfl (fun _ heq => nomatch heq)
      · cases hstep
  | send =>
      simp only [Composer.next] at hstep
      split at hstep
      · cases hstep
        exact h.enter rfl (fun _ heq => nomatch heq)
      · cases hstep
  | addAttachment attachment =>
      simp only [Composer.next] at hstep
      split at hstep
      · split at hstep
        · rename_i hdecided
          cases hstep
          exact h.enter rfl (fun _ _ => hdecided)
        · cases hstep
          exact h.enter rfl (fun _ heq => nomatch heq)
      · cases hstep
  | retryUpload attachment =>
      simp only [Composer.next] at hstep
      split at hstep
      · cases hstep
        exact h.enter rfl (fun _ heq => nomatch heq)
      · cases hstep
  | addPending attachment =>
      cases hstep
      exact h.of_continues (Continues.of_queue rfl rfl) rfl rfl
  | advance => exact h.advance hstep
  | abort =>
      cases hstep
      exact h.enter rfl (fun _ heq => nomatch heq)
  | start x =>
      simp only [Composer.next] at hstep
      split at hstep
      · cases hstep
        exact h.of_continues (Continues.setExecuting s x true) rfl rfl
      · cases hstep
  | requeue x =>
      simp only [Composer.next] at hstep
      split at hstep
      · cases hstep
        exact h.of_continues (Continues.setExecuting s x false) rfl rfl
      · cases hstep
  | succeed x =>
      simp only [Composer.next] at hstep
      split at hstep
      · cases hstep
        refine h.of_continues (Continues.filter ?_ rfl ?_) rfl rfl
        · intro hremote
          simp [hremote]
        · by_cases hsave : x.action = ComposerAction.save
          · exact Or.inl (by simp [hsave])
          · refine Or.inr ?_
            intro y _ hy
            have hne : y ≠ x := fun heq => hsave (heq ▸ hy)
            simpa using hne
      · cases hstep
  | fail x cancelled =>
      simp only [Composer.next] at hstep
      split at hstep
      · cases hstep
        refine h.of_continues (Continues.filter (fun hremote => hremote) rfl ?_)
          rfl rfl
        rcases hcreating with hremote | hsaves
        · exact Or.inl hremote
        · refine Or.inr ?_
          intro y hy hsave
          simpa using hsaves y hy hsave
      · cases hstep

theorem of_reachable (h : ComposerRuns.ReachableWhen Creating s) :
    Remembered s := by
  refine TransitionSystem.invariant_when Remembered ?_ ?_ h
  · intro s hopened
    refine ⟨?_, ?_, ?_, ?_⟩
    · intro id hid
      rcases hopened.last id hid with ⟨x, hx, hxid⟩
      exact Or.inr ⟨x, hx, hxid, hopened.queue x hx⟩
    · rw [hopened.idle]
      exact fun _ heq => nomatch heq
    · rw [hopened.idle]
      exact fun _ heq => nomatch heq
    · intro x hx hcreates
      rw [hopened.queue x hx] at hcreates
      cases hcreates
  · intro s e s' _ hremembered hcreating hstep
    exact hremembered.next hcreating hstep

end Remembered

/-!
# Main result
-/

theorem uploads_follow_save {s : Composer}
    (h : ComposerRuns.ReachableWhen Creating s) :
    (forall x, x ∈ s.queue -> x.action.createsAttachment = true ->
      s.remoteMessage = true ∨
        exists y, y ∈ s.queue ∧ y.action = ComposerAction.save ∧
          ActionDependency.required y.id ∈ x.dependencies) ∧
      forall x s', s.next (ComposerEvent.start x) = some s' ->
        x.action.createsAttachment = true -> s.remoteMessage = true := by
  have hremembered := Remembered.of_reachable h
  have hqueued : forall x, x ∈ s.queue -> x.action.createsAttachment = true ->
      s.remoteMessage = true ∨
        exists y, y ∈ s.queue ∧ y.action = ComposerAction.save ∧
          ActionDependency.required y.id ∈ x.dependencies := by
    intro x hx hcreates
    rcases hremembered.upload x hx hcreates with
      hremote | ⟨id, hid, hremote | ⟨y, hy, hyid, hsave⟩⟩
    · exact Or.inl hremote
    · exact Or.inl hremote
    · rw [<- hyid] at hid
      exact Or.inr ⟨y, hy, hsave, hid⟩
  refine ⟨hqueued, ?_⟩
  intro x s' hstep hcreates
  simp only [Composer.next] at hstep
  split at hstep
  · rename_i hguard
    rcases hqueued x hguard.left hcreates with hremote | ⟨y, hy, _, hrequired⟩
    · exact hremote
    · exact absurd (List.mem_map_of_mem hy) (hguard.right.right _ hrequired)
  · cases hstep

theorem newComposer_opened : ComposerOpened {} where
  idle := rfl
  queue := fun _ hx => nomatch hx
  last := fun _ heq => nomatch heq

def firstSave : QueueEntry where
  id := 0
  action := ComposerAction.save
  dependencies := []

/-- The upload of an attachment, with the dependencies that were stored. -/
def uploadAfter (dependencies : List ActionDependency) : QueueEntry where
  id := 1
  action := ComposerAction.upload 7 AttachmentUploadMode.create
  dependencies := dependencies

/-- The first save of a draft succeeds, and then the attachment is uploaded. -/
def uploadToNewDraft : List ComposerEvent :=
  [ComposerEvent.addAttachment 7, ComposerEvent.advance, ComposerEvent.advance,
    ComposerEvent.start firstSave,
    ComposerEvent.succeed { firstSave with executing := true }]

theorem uploadToNewDraft_remote :
    exists s : Composer, ComposerRuns.ReachableWhen Creating s ∧
      uploadAfter [ActionDependency.required 0] ∈ s.queue ∧
      s.remoteMessage = true := by
  have hrun : exists s s' : Composer,
      List.foldlM (fun s e => if Creating s e then s.next e else none) {}
        uploadToNewDraft = some s ∧
      uploadAfter [ActionDependency.required 0] ∈ s.queue ∧
      s.next (ComposerEvent.start
        (uploadAfter [ActionDependency.required 0])) = some s' :=
    ⟨_, _, rfl, List.mem_cons_self, rfl⟩
  rcases hrun with ⟨s, s', hs, hupload, hstart⟩
  have hreach : ComposerRuns.ReachableWhen Creating s :=
    TransitionSystem.ReachableWhen.replay (fun _ _ _ h => h)
      (TransitionSystem.ReachableWhen.start newComposer_opened) hs
  exact ⟨s, hreach, hupload,
    (uploads_follow_save hreach).right _ s' hstart rfl⟩

/-- The first save fails for good, and then an attachment is added. -/
def uploadAfterFailedSave : List ComposerEvent :=
  [ComposerEvent.save, ComposerEvent.advance, ComposerEvent.start firstSave,
    ComposerEvent.fail { firstSave with executing := true } [],
    ComposerEvent.addAttachment 7, ComposerEvent.advance]

theorem uploadAfterFailedSave_local :
    exists s s' : Composer, ComposerRuns.Reachable s ∧
      List.foldlM Composer.next {} uploadAfterFailedSave = some s ∧
      s.queue = [uploadAfter []] ∧ s.remoteMessage = false ∧
      s.next (ComposerEvent.start (uploadAfter [])) = some s' := by
  have hrun : exists s s' : Composer,
      List.foldlM Composer.next {} uploadAfterFailedSave = some s ∧
      s.queue = [uploadAfter []] ∧ s.remoteMessage = false ∧
      s.next (ComposerEvent.start (uploadAfter [])) = some s' :=
    ⟨_, _, rfl, rfl, rfl, rfl⟩
  rcases hrun with ⟨s, s', hs, hrest⟩
  refine ⟨s, s', ?_, hs, hrest⟩
  exact TransitionSystem.Reachable.replay (fun _ _ _ h => h)
    (TransitionSystem.ReachableWhen.start newComposer_opened) hs

end Drafts
end MailClient
