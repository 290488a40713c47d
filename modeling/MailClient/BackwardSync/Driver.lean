import Mathlib.Data.List.Basic
import Mathlib.Data.Prod.Lex
import MailClient.Foundation.Transition

/-!
# The backward sync

The loop walks the mailbox from the newest message to the oldest.  It asks for
the page that starts at the end of the last batch, stores what is new in it as
one or more batches, and goes on from the last of them until a page has nothing
new.  A restart goes on from a batch with the smallest end time.
-/

namespace MailClient
namespace BackwardSync

open Foundation

structure MessageMetadata (id : Type) where
  id : id
  time : Nat
  deriving DecidableEq, Repr

structure SyncBatch (id : Type) where
  beginId : id
  beginTime : Nat
  endId : id
  endTime : Nat
  deriving DecidableEq, Repr

structure BackwardSyncParams where
  pageSize : Nat
  chunkSplit : Option Nat
  deriving DecidableEq, Repr

def BackwardSyncParams.chunkSize (params : BackwardSyncParams) : Nat :=
  params.chunkSplit.getD params.pageSize

section Positions

variable {id : Type} [LinearOrder id]

/-- Messages are ordered by time and then by id. -/
def MessageMetadata.position (m : MessageMetadata id) : Nat ×ₗ id :=
  toLex (m.time, m.id)

def SyncBatch.endPosition (b : SyncBatch id) : Nat ×ₗ id :=
  toLex (b.endTime, b.endId)

end Positions

/-- What the server has, newest first. -/
structure Mailbox (id : Type) [LinearOrder id] where
  messages : List (MessageMetadata id)
  sorted : messages.Pairwise (fun a b => b.position < a.position)
  ids_unique : forall a, a ∈ messages -> forall b, b ∈ messages ->
    a.id = b.id -> a = b

namespace Mailbox

variable {id : Type} [LinearOrder id]

/-- The messages at or after the end of the batch. -/
def fromAnchor (box : Mailbox id) :
    Option (SyncBatch id) -> List (MessageMetadata id)
  | none => box.messages
  | some batch =>
      box.messages.filter (fun m => decide (m.position <= batch.endPosition))

def getMessages (box : Mailbox id) (anchor : Option (SyncBatch id))
    (pageSize : Nat) : List (MessageMetadata id) :=
  (box.fromAnchor anchor).take pageSize

end Mailbox

/-!
# One page
-/

section Pages

variable {id : Type} [DecidableEq id]

/-- The first message is dropped if it is the anchor. -/
def dropAnchor (anchor : Option (SyncBatch id)) :
    List (MessageMetadata id) -> List (MessageMetadata id)
  | [] => []
  | m :: rest =>
      match anchor with
      | some batch => if m.id = batch.endId then rest else m :: rest
      | none => m :: rest

/-- Successive parts of the given size, the last one with what is left. -/
def chunks {α : Type} (chunkSize : Nat) (xs : List α) : List (List α) :=
  (List.toChunksAux (chunkSize - 1) xs 0).2

def SyncBatch.ofChunk : List (MessageMetadata id) -> Option (SyncBatch id)
  | [] => none
  | first :: rest =>
      let last := (first :: rest).getLast (List.cons_ne_nil first rest)
      some { beginId := first.id, beginTime := first.time,
             endId := last.id, endTime := last.time }

def pageBatches (params : BackwardSyncParams)
    (page : List (MessageMetadata id)) : List (SyncBatch id) :=
  (chunks params.chunkSize page).filterMap SyncBatch.ofChunk

/-- `SELECT * FROM mail_sync_batch ORDER BY end_time ASC LIMIT 1`. -/
def isOldestBatch (batches : List (SyncBatch id)) :
    Option (SyncBatch id) -> Bool
  | none => batches.isEmpty
  | some batch =>
      batches.contains batch &&
        batches.all (fun other => batch.endTime <= other.endTime)

end Pages

/-!
# The loop
-/

/-- `fetched` has a page in memory that is not stored yet. -/
inductive LoopState (id : Type) where
  | stopped
  | ready (previousBatch : Option (SyncBatch id))
  | fetched (previousBatch : Option (SyncBatch id))
      (page : List (MessageMetadata id))
  | completed

/-- `stored` records the messages of all pages that were stored. -/
structure SyncRun (id : Type) [LinearOrder id] where
  server : Mailbox id
  batches : List (SyncBatch id)
  stored : List (MessageMetadata id)
  loop : LoopState id

inductive SyncResult where
  | ok
  | networkFailure
  | failure
  deriving DecidableEq, Repr

inductive RunEvent (id : Type) [LinearOrder id] where
  | serverChanges (server : Mailbox id)
  | start (oldest : Option (SyncBatch id))
  | fetch (result : SyncResult)
  | store (result : SyncResult)
  /-- A stop, or a crash of the process. -/
  | stop

namespace SyncRun

variable {id : Type} [LinearOrder id]

def fetchPage (params : BackwardSyncParams) (s : SyncRun id)
    (previous : Option (SyncBatch id)) : LoopState id :=
  match dropAnchor previous (s.server.getMessages previous params.pageSize) with
  | [] => LoopState.completed
  | m :: rest => LoopState.fetched previous (m :: rest)

def storePage (params : BackwardSyncParams) (s : SyncRun id)
    (page : List (MessageMetadata id)) : SyncRun id :=
  { s with
    batches := s.batches ++ pageBatches params page
    stored := s.stored ++ page
    loop := LoopState.ready (pageBatches params page).getLast? }

/-- A network failure makes the loop try again from the same batch. -/
def next (params : BackwardSyncParams) (s : SyncRun id) :
    RunEvent id -> Option (SyncRun id)
  | RunEvent.serverChanges server => some { s with server := server }
  | RunEvent.start oldest =>
      match s.loop with
      | LoopState.stopped =>
          if isOldestBatch s.batches oldest then
            some { s with loop := LoopState.ready oldest }
          else none
      | _ => none
  | RunEvent.fetch result =>
      match s.loop, result with
      | LoopState.ready previous, SyncResult.ok =>
          some { s with loop := s.fetchPage params previous }
      | LoopState.ready _, SyncResult.networkFailure => some s
      | LoopState.ready _, SyncResult.failure =>
          some { s with loop := LoopState.stopped }
      | _, _ => none
  | RunEvent.store result =>
      match s.loop, result with
      | LoopState.fetched _ page, SyncResult.ok => some (s.storePage params page)
      | LoopState.fetched previous _, SyncResult.networkFailure =>
          some { s with loop := LoopState.ready previous }
      | LoopState.fetched _ _, SyncResult.failure =>
          some { s with loop := LoopState.stopped }
      | _, _ => none
  | RunEvent.stop => some { s with loop := LoopState.stopped }

end SyncRun

/-- A run begins before its first page is fetched. -/
def syncRunSystem (id : Type) [LinearOrder id] (params : BackwardSyncParams) :
    TransitionSystem (SyncRun id) (RunEvent id) where
  init := fun s => s.batches = [] ∧ s.stored = [] ∧
    (s.loop = LoopState.stopped ∨ s.loop = LoopState.ready none)
  step := fun s e s' => s.next params e = some s'

/-!
# Chunks
-/

section Chunks

theorem toChunksAux_flatten {α : Type} (n : Nat) (xs : List α) (i : Nat) :
    (List.toChunksAux n xs i).1 ++ (List.toChunksAux n xs i).2.flatten = xs := by
  induction xs generalizing i with
  | nil => rfl
  | cons x xs ih =>
      cases i with
      | zero => exact congrArg (List.cons x) (ih n)
      | succ i => exact congrArg (List.cons x) (ih i)

variable {id : Type}

theorem SyncBatch.ofChunk_end {chunk : List (MessageMetadata id)}
    {batch : SyncBatch id} (h : SyncBatch.ofChunk chunk = some batch) :
    exists m, m ∈ chunk ∧ batch.endId = m.id ∧ batch.endTime = m.time := by
  cases chunk with
  | nil => cases h
  | cons first rest =>
      cases h
      exact ⟨_, List.getLast_mem (List.cons_ne_nil first rest), rfl, rfl⟩

theorem mem_pageBatches {params : BackwardSyncParams}
    {page : List (MessageMetadata id)} {batch : SyncBatch id}
    (h : batch ∈ pageBatches params page) :
    exists m, m ∈ page ∧ batch.endId = m.id ∧ batch.endTime = m.time := by
  rcases List.mem_filterMap.mp h with ⟨chunk, hchunk, hbatch⟩
  rcases SyncBatch.ofChunk_end hbatch with ⟨m, hm, hend⟩
  refine ⟨m, ?_, hend⟩
  rw [<- toChunksAux_flatten (params.chunkSize - 1) page 0]
  exact List.mem_append_right _ (List.mem_flatten.mpr ⟨chunk, hchunk, hm⟩)

theorem SyncBatch.endPosition_eq {batch : SyncBatch id} {m : MessageMetadata id}
    (h : batch.endId = m.id ∧ batch.endTime = m.time) :
    batch.endPosition = m.position := by
  unfold endPosition MessageMetadata.position
  rw [h.left, h.right]

theorem pageBatches_ne_nil (params : BackwardSyncParams) (m : MessageMetadata id)
    (rest : List (MessageMetadata id)) :
    pageBatches params (m :: rest) ≠ [] := by
  simp [pageBatches, chunks, List.toChunksAux, SyncBatch.ofChunk]

/-- The batches of a page end one below the other. -/
theorem pageBatches_sorted [LinearOrder id] (params : BackwardSyncParams)
    {page : List (MessageMetadata id)}
    (h : page.Pairwise (fun a b => b.position < a.position)) :
    (pageBatches params page).Pairwise
      (fun a b => b.endPosition < a.endPosition) := by
  rw [<- toChunksAux_flatten (params.chunkSize - 1) page 0] at h
  have hchunks := (List.pairwise_flatten.mp
    (List.pairwise_append.mp h).right.left).right
  refine List.Pairwise.filterMap _ ?_ hchunks
  intro chunk chunk' hbelow batch hbatch batch' hbatch'
  rcases SyncBatch.ofChunk_end hbatch with ⟨m, hm, hend⟩
  rcases SyncBatch.ofChunk_end hbatch' with ⟨m', hm', hend'⟩
  rw [SyncBatch.endPosition_eq hend, SyncBatch.endPosition_eq hend']
  exact hbelow m hm m' hm'

end Chunks

/-!
# What a page has
-/

section Fetching

variable {id : Type} [LinearOrder id]

variable {m : MessageMetadata id} {anchor : Option (SyncBatch id)}

theorem mem_fromAnchor {box : Mailbox id} :
    m ∈ box.fromAnchor anchor <-> m ∈ box.messages ∧
      forall batch, anchor = some batch -> m.position <= batch.endPosition := by
  cases anchor with
  | none => simp [Mailbox.fromAnchor]
  | some batch => simp [Mailbox.fromAnchor]

theorem fromAnchor_sorted (box : Mailbox id) (anchor : Option (SyncBatch id)) :
    (box.fromAnchor anchor).Pairwise (fun a b => b.position < a.position) := by
  cases anchor with
  | none => exact box.sorted
  | some batch => exact box.sorted.filter _

theorem mem_getMessages_of_le {box : Mailbox id} {pageSize : Nat}
    {x : MessageMetadata id} (hm : m ∈ box.fromAnchor anchor)
    (hx : x ∈ box.getMessages anchor pageSize) (hle : x.position <= m.position) :
    m ∈ box.getMessages anchor pageSize := by
  have hsplit := List.take_append_drop pageSize (box.fromAnchor anchor)
  have hsorted := fromAnchor_sorted box anchor
  rw [<- hsplit] at hm hsorted
  rcases List.mem_append.mp hm with hpage | hbehind
  · exact hpage
  · have hlt := (List.pairwise_append.mp hsorted).right.right x hx m hbehind
    exact absurd hle (not_le_of_gt hlt)

theorem dropAnchor_sublist (anchor : Option (SyncBatch id))
    (page : List (MessageMetadata id)) :
    (dropAnchor anchor page).Sublist page := by
  cases page with
  | nil => exact List.Sublist.refl _
  | cons first rest =>
      cases anchor with
      | none => exact List.Sublist.refl _
      | some batch =>
          simp only [dropAnchor]
          split
          · exact List.sublist_cons_self first rest
          · exact List.Sublist.refl _

theorem mem_dropAnchor {page : List (MessageMetadata id)} (h : m ∈ page) :
    m ∈ dropAnchor anchor page ∨
      exists batch, anchor = some batch ∧ m.id = batch.endId := by
  cases page with
  | nil => exact Or.inl h
  | cons first rest =>
      cases anchor with
      | none => exact Or.inl h
      | some batch =>
          simp only [dropAnchor]
          split
          · rename_i hfirst
            rcases List.mem_cons.mp h with heq | hrest
            · exact Or.inr ⟨batch, rfl, by rw [heq]; exact hfirst⟩
            · exact Or.inl hrest
          · exact Or.inl h

theorem dropAnchor_eq_nil {page : List (MessageMetadata id)}
    (h : dropAnchor anchor page = []) :
    page.length <= 1 := by
  cases page with
  | nil => exact Nat.zero_le 1
  | cons first rest =>
      cases anchor with
      | none => cases h
      | some batch =>
          simp only [dropAnchor] at h
          split at h
          · rw [h]
            exact Nat.le_refl 1
          · cases h

theorem getMessages_of_length_le_one {box : Mailbox id} {pageSize : Nat}
    (hsize : 2 <= pageSize) (h : (box.getMessages anchor pageSize).length <= 1) :
    box.getMessages anchor pageSize = box.fromAnchor anchor := by
  apply List.take_of_length_le
  have hlength := List.length_take (i := pageSize) (l := box.fromAnchor anchor)
  unfold Mailbox.getMessages at h
  omega

end Fetching

/-!
# Nothing is left out

The invariant is about one message: every batch that ends at or below it was
stored after the message itself.
-/

namespace SyncRun

variable {id : Type} [LinearOrder id]

/-- The batch goes down to the message, or further. -/
def Reaches (batch : SyncBatch id) (m : MessageMetadata id) : Prop :=
  batch.endPosition <= m.position

/-- The message has the time with which the batch remembers it. -/
def Agrees (batch : SyncBatch id) (m : MessageMetadata id) : Prop :=
  batch.endId = m.id -> batch.endTime = m.time

structure BatchesCover (s : SyncRun id) (m : MessageMetadata id) : Prop where
  reached : forall batch, batch ∈ s.batches -> Reaches batch m -> m ∈ s.stored
  agrees : forall batch, batch ∈ s.batches -> Agrees batch m

def LoopCovers (s : SyncRun id) (m : MessageMetadata id) : Prop :=
  match s.loop with
  | LoopState.stopped => True
  | LoopState.ready previous =>
      forall batch, previous = some batch -> batch ∈ s.batches
  | LoopState.fetched previous page =>
      (forall batch, previous = some batch -> batch ∈ s.batches) ∧
      forall x, x ∈ page ->
        (x.id = m.id -> x = m) ∧
        (x.position <= m.position -> m ∈ page ∨
          exists batch, previous = some batch ∧ Reaches batch m)
  | LoopState.completed => m ∈ s.stored

structure Covers (s : SyncRun id) (m : MessageMetadata id) : Prop where
  batches : BatchesCover s m
  loop : LoopCovers s m

variable {params : BackwardSyncParams} {m : MessageMetadata id} {s : SyncRun id}
  {previous : Option (SyncBatch id)}

theorem reaches_of_same_id {batch : SyncBatch id} (hagrees : Agrees batch m)
    (hid : m.id = batch.endId) : Reaches batch m := by
  unfold Reaches SyncBatch.endPosition MessageMetadata.position
  rw [hagrees hid.symm, hid]

theorem fetchPage_covers (hsize : 2 <= params.pageSize)
    (hm : m ∈ s.server.messages) (hs : BatchesCover s m)
    (hprevious : forall batch, previous = some batch -> batch ∈ s.batches) :
    LoopCovers { s with loop := s.fetchPage params previous } m := by
  -- The message is at or after the anchor, or the anchor is behind it.
  have hplace : m ∈ s.server.fromAnchor previous ∨
      exists batch, previous = some batch ∧ Reaches batch m := by
    by_cases hbehind : exists batch, previous = some batch ∧ Reaches batch m
    · exact Or.inr hbehind
    · refine Or.inl (mem_fromAnchor.mpr ⟨hm, ?_⟩)
      intro batch hbatch
      have hnot : ¬ Reaches batch m := fun h => hbehind ⟨batch, hbatch, h⟩
      exact le_of_lt (not_le.mp hnot)
  have hdropped : m ∈ s.server.getMessages previous params.pageSize ->
      m ∈ dropAnchor previous (s.server.getMessages previous params.pageSize) ∨
        exists batch, previous = some batch ∧ Reaches batch m := by
    intro hpage
    refine (mem_dropAnchor hpage).imp_right ?_
    rintro ⟨batch, hbatch, hid⟩
    exact ⟨batch, hbatch,
      reaches_of_same_id (hs.agrees batch (hprevious batch hbatch)) hid⟩
  unfold LoopCovers fetchPage
  split
  · rename_i hloop
    split at hloop <;> cases hloop
  · rename_i hloop
    split at hloop <;> cases hloop
  · rename_i page hloop
    split at hloop
    · cases hloop
    · rename_i first rest hpage
      cases hloop
      refine ⟨hprevious, ?_⟩
      intro x hx
      rw [<- hpage] at hx ⊢
      have hxpage := (dropAnchor_sublist _ _).subset hx
      have hxserver := (mem_fromAnchor.mp (List.mem_of_mem_take hxpage)).left
      refine ⟨fun hid => s.server.ids_unique x hxserver m hm hid, ?_⟩
      intro hle
      rcases hplace with hasked | hbehind
      · exact hdropped (mem_getMessages_of_le hasked hxpage hle)
      · exact Or.inr hbehind
  · rename_i hloop
    split at hloop
    · rename_i hempty
      have hall := getMessages_of_length_le_one hsize (dropAnchor_eq_nil hempty)
      have hreached : exists batch, previous = some batch ∧ Reaches batch m := by
        rcases hplace with hasked | hbehind
        · rw [<- hall] at hasked
          rcases hdropped hasked with hkept | hbehind
          · rw [hempty] at hkept
            cases hkept
          · exact hbehind
        · exact hbehind
      rcases hreached with ⟨batch, hbatch, hreaches⟩
      exact hs.reached batch (hprevious batch hbatch) hreaches
    · cases hloop

theorem storePage_covers {page : List (MessageMetadata id)} (hs : Covers s m)
    (hloop : s.loop = LoopState.fetched previous page) :
    Covers (s.storePage params page) m := by
  have hfetched := hs.loop
  unfold LoopCovers at hfetched
  rw [hloop] at hfetched
  rcases hfetched with ⟨hprevious, hpage⟩
  refine ⟨⟨?_, ?_⟩, ?_⟩
  · intro batch hbatch hreaches
    rcases List.mem_append.mp hbatch with hold | hnew
    · exact List.mem_append_left page (hs.batches.reached batch hold hreaches)
    · rcases mem_pageBatches hnew with ⟨x, hx, hend⟩
      have hle : x.position <= m.position :=
        SyncBatch.endPosition_eq hend ▸ hreaches
      rcases (hpage x hx).right hle with hm | ⟨anchor, hanchor, hbehind⟩
      · exact List.mem_append_right s.stored hm
      · exact List.mem_append_left page
          (hs.batches.reached anchor (hprevious anchor hanchor) hbehind)
  · intro batch hbatch
    rcases List.mem_append.mp hbatch with hold | hnew
    · exact hs.batches.agrees batch hold
    · rcases mem_pageBatches hnew with ⟨x, hx, hid, htime⟩
      intro hsame
      rw [htime, (hpage x hx).left (hid.symm.trans hsame)]
  · intro batch hbatch
    exact List.mem_append_right s.batches (List.mem_of_getLast? hbatch)

theorem isOldestBatch_mem {batches : List (SyncBatch id)} {batch : SyncBatch id}
    (h : isOldestBatch batches (some batch) = true) : batch ∈ batches := by
  unfold isOldestBatch at h
  have hcontains := (Bool.and_eq_true_iff.mp h).left
  exact List.contains_iff_mem.mp hcontains

theorem Covers.next {s' : SyncRun id} {e : RunEvent id} (hs : Covers s m)
    (hsize : 2 <= params.pageSize) (hm : m ∈ s.server.messages)
    (h : s.next params e = some s') : Covers s' m := by
  rcases hs with ⟨hbatches, hloop⟩
  have hstop : Covers { s with loop := LoopState.stopped } m :=
    ⟨⟨hbatches.reached, hbatches.agrees⟩, True.intro⟩
  cases e with
  | serverChanges server =>
      cases h
      exact ⟨⟨hbatches.reached, hbatches.agrees⟩, hloop⟩
  | start oldest =>
      simp only [SyncRun.next] at h
      split at h
      · split at h
        · rename_i holdest
          cases h
          refine ⟨⟨hbatches.reached, hbatches.agrees⟩, ?_⟩
          intro batch hbatch
          rw [hbatch] at holdest
          exact isOldestBatch_mem holdest
        · cases h
      · cases h
  | fetch result =>
      simp only [SyncRun.next] at h
      split at h
      · rename_i previous hready
        cases h
        unfold LoopCovers at hloop
        rw [hready] at hloop
        exact ⟨⟨hbatches.reached, hbatches.agrees⟩,
          fetchPage_covers hsize hm hbatches hloop⟩
      · cases h
        exact ⟨hbatches, hloop⟩
      · cases h
        exact hstop
      · cases h
  | store result =>
      simp only [SyncRun.next] at h
      split at h
      · rename_i previous page hfetched
        cases h
        exact storePage_covers ⟨hbatches, hloop⟩ hfetched
      · rename_i previous page hfetched
        cases h
        unfold LoopCovers at hloop
        rw [hfetched] at hloop
        exact ⟨⟨hbatches.reached, hbatches.agrees⟩, hloop.left⟩
      · cases h
        exact hstop
      · cases h
  | stop =>
      cases h
      exact hstop

/-!
# Older messages

Only messages that are older than the last batch are left to do, and every page
that is stored leaves fewer of them.
-/

def isOlder (anchor : Option (SyncBatch id)) (m : MessageMetadata id) : Bool :=
  match anchor with
  | none => true
  | some batch => decide (m.position < batch.endPosition)

def remaining (box : Mailbox id) (anchor : Option (SyncBatch id)) : Nat :=
  box.messages.countP (isOlder anchor)

theorem isOlder_of_mem_dropAnchor {box : Mailbox id}
    {anchor : Option (SyncBatch id)} {pageSize : Nat}
    (h : m ∈ dropAnchor anchor (box.getMessages anchor pageSize)) :
    isOlder anchor m = true := by
  cases anchor with
  | none => rfl
  | some batch =>
      have hle := (mem_fromAnchor.mp (List.mem_of_mem_take
        ((dropAnchor_sublist _ _).subset h))).right batch rfl
      have hsorted := (fromAnchor_sorted box (some batch)).take (i := pageSize)
      have hbound : forall x, x ∈ box.getMessages (some batch) pageSize ->
          x.position <= batch.endPosition :=
        fun x hx => (mem_fromAnchor.mp (List.mem_of_mem_take hx)).right batch rfl
      apply decide_eq_true
      apply lt_of_le_of_ne hle
      intro heq
      -- A message at the position of the anchor is the first of the page.
      have hid : m.id = batch.endId := congrArg (fun p => (ofLex p).2) heq
      unfold Mailbox.getMessages at h hbound
      cases hpage : (box.fromAnchor (some batch)).take pageSize with
      | nil =>
          rw [hpage] at h
          cases h
      | cons first rest =>
          rw [hpage] at h hsorted hbound
          have hfirst : m ∉ rest := by
            intro hbehind
            have hlt := (List.pairwise_cons.mp hsorted).left m hbehind
            rw [heq] at hlt
            exact not_le_of_gt hlt (hbound first List.mem_cons_self)
          simp only [dropAnchor] at h
          split at h
          · exact hfirst h
          · rename_i hother
            rcases List.mem_cons.mp h with rfl | hbehind
            · exact hother hid
            · exact hfirst hbehind

theorem countP_lt_of_mem {α : Type} {p q : α -> Bool} {l : List α} {x : α}
    (himp : forall y, p y = true -> q y = true) (hx : x ∈ l) (hq : q x = true)
    (hp : p x = false) : l.countP p < l.countP q := by
  rcases List.append_of_mem hx with ⟨before, behind, rfl⟩
  have hbefore : before.countP p <= before.countP q :=
    List.countP_mono_left (fun y _ => himp y)
  have hbehind : behind.countP p <= behind.countP q :=
    List.countP_mono_left (fun y _ => himp y)
  simp only [List.countP_append, List.countP_cons, hq, hp]
  simp only [Bool.false_eq_true, if_false, if_true]
  omega

theorem remaining_lt {box : Mailbox id} {anchor : Option (SyncBatch id)}
    {first : MessageMetadata id} {rest : List (MessageMetadata id)}
    (h : dropAnchor anchor (box.getMessages anchor params.pageSize) =
      first :: rest) :
    remaining box (pageBatches params (first :: rest)).getLast? <
      remaining box anchor := by
  rcases Option.isSome_iff_exists.mp
    (List.getLast?_isSome.mpr (pageBatches_ne_nil params first rest)) with
    ⟨batch, hbatch⟩
  rw [hbatch]
  rcases mem_pageBatches (List.mem_of_getLast? hbatch) with ⟨x, hx, hend⟩
  have hposition := SyncBatch.endPosition_eq hend
  rw [<- h] at hx
  have holder := isOlder_of_mem_dropAnchor hx
  have hserver := (mem_fromAnchor.mp
    (List.mem_of_mem_take ((dropAnchor_sublist _ _).subset hx))).left
  apply countP_lt_of_mem _ hserver holder
  · simp [isOlder, hposition]
  · intro y hy
    have hlt : y.position < x.position := by
      simpa [isOlder, hposition] using hy
    cases anchor with
    | none => rfl
    | some previous =>
        have hbelow : x.position < previous.endPosition := by
          simpa [isOlder] using holder
        exact decide_eq_true (lt_trans hlt hbelow)

/-!
# Restarts come to an end
-/

/-- The loop goes on, and messages do not come to the server. -/
def Uninterrupted (s : SyncRun id) : RunEvent id -> Prop
  | RunEvent.serverChanges server =>
      server.messages.Sublist s.server.messages
  | RunEvent.fetch SyncResult.ok => True
  | RunEvent.fetch SyncResult.networkFailure => True
  | RunEvent.store SyncResult.ok => True
  | RunEvent.store SyncResult.networkFailure => True
  | _ => False

def isStore : RunEvent id -> Bool
  | RunEvent.store SyncResult.ok => true
  | _ => false

/-- A bound on the pages that are stored until the loop returns. -/
def pagesLeft (params : BackwardSyncParams) (s : SyncRun id) : Nat :=
  match s.loop with
  | LoopState.ready previous => remaining s.server previous
  | LoopState.fetched previous page =>
      max (remaining s.server previous)
        (remaining s.server (pageBatches params page).getLast? + 1)
  | _ => 0

/-- What is left to fetch and store if the network does not fail. -/
def workLeft (params : BackwardSyncParams) (s : SyncRun id) : Nat :=
  match s.loop with
  | LoopState.ready previous => 2 * remaining s.server previous + 1
  | LoopState.fetched _ page =>
      2 * remaining s.server (pageBatches params page).getLast? + 2
  | _ => 0

theorem pagesLeft_next {s' : SyncRun id} {e : RunEvent id}
    (hrun : s.Uninterrupted e) (h : s.next params e = some s') :
    (if isStore e then 1 else 0) + pagesLeft params s' <= pagesLeft params s := by
  cases e with
  | serverChanges server =>
      cases h
      have hle : forall anchor, remaining server anchor <= remaining s.server anchor :=
        fun anchor => hrun.countP_le
      unfold pagesLeft
      simp only [isStore, Bool.false_eq_true, if_false]
      cases s.loop with
      | ready previous =>
          have hprevious := hle previous
          simp only
          omega
      | fetched previous page =>
          have hprevious := hle previous
          have hlast := hle (pageBatches params page).getLast?
          simp only
          omega
      | stopped => exact Nat.le_refl 0
      | completed => exact Nat.le_refl 0
  | start oldest => cases hrun
  | fetch result =>
      simp only [isStore, Bool.false_eq_true, if_false, SyncRun.next] at h ⊢
      split at h
      · rename_i previous hready
        cases h
        simp only [pagesLeft, hready, fetchPage]
        cases hpage : dropAnchor previous
            (s.server.getMessages previous params.pageSize) with
        | nil => simp
        | cons first rest =>
            have hlt := remaining_lt hpage
            simp only
            omega
      · cases h
        omega
      · cases hrun
      · cases h
  | store result =>
      simp only [SyncRun.next] at h
      split at h
      · rename_i previous page hfetched
        cases h
        simp only [isStore, if_true, pagesLeft, hfetched, storePage]
        omega
      · rename_i previous page hfetched
        cases h
        simp only [isStore, Bool.false_eq_true, if_false, pagesLeft, hfetched]
        omega
      · cases hrun
      · cases h
  | stop => cases hrun

/-- Uninterrupted runs, with the number of pages that they store. -/
inductive Resumes (params : BackwardSyncParams) (s : SyncRun id) :
    Nat -> SyncRun id -> Prop where
  | refl : Resumes params s 0 s
  | next {n : Nat} {t u : SyncRun id} {e : RunEvent id} :
      Resumes params s n t ->
      t.Uninterrupted e ->
      t.next params e = some u ->
      Resumes params s (n + if isStore e then 1 else 0) u

theorem Resumes.pagesLeft_le {t : SyncRun id} {n : Nat}
    (h : Resumes params s n t) :
    n + pagesLeft params t <= pagesLeft params s := by
  induction h with
  | refl => exact Nat.le_of_eq (Nat.zero_add _)
  | next _ hrun hstep ih =>
      have hleft := pagesLeft_next hrun hstep
      omega

theorem Uninterrupted.goes_on {s' : SyncRun id} {e : RunEvent id}
    (hrun : s.Uninterrupted e) (h : s.next params e = some s')
    (hs : s.loop ≠ LoopState.stopped) :
    s'.loop ≠ LoopState.stopped := by
  cases e with
  | serverChanges server =>
      cases h
      exact hs
  | start oldest => cases hrun
  | fetch result =>
      simp only [SyncRun.next] at h
      split at h
      · cases h
        unfold fetchPage
        split <;> exact fun hstopped => (nomatch hstopped)
      · cases h
        exact hs
      · cases hrun
      · cases h
  | store result =>
      simp only [SyncRun.next] at h
      split at h
      · cases h
        exact fun hstopped => (nomatch hstopped)
      · cases h
        exact fun hstopped => (nomatch hstopped)
      · cases hrun
      · cases h
  | stop => cases hrun

theorem Resumes.goes_on {t : SyncRun id} {n : Nat} (h : Resumes params s n t)
    (hs : s.loop ≠ LoopState.stopped) :
    t.loop ≠ LoopState.stopped := by
  induction h with
  | refl => exact hs
  | next _ hrun hstep ih => exact hrun.goes_on hstep ih

/-- The loop from a restart on, as long as nothing interrupts it. -/
def resuming (params : BackwardSyncParams) :
    TransitionSystem (SyncRun id) (RunEvent id) where
  init := fun s => s.loop ≠ LoopState.stopped
  step := fun s e s' => s.Uninterrupted e ∧ s.next params e = some s'

theorem exists_completed (params : BackwardSyncParams) {t : SyncRun id}
    (ht : t.loop ≠ LoopState.stopped) :
    exists u, (resuming params).Runs t u ∧ u.loop = LoopState.completed := by
  have hmore : forall s : SyncRun id, s.loop ≠ LoopState.stopped ->
      ¬ s.loop = LoopState.completed -> exists e u,
        (resuming params).step s e u ∧ u.loop ≠ LoopState.stopped ∧
          workLeft params u < workLeft params s := by
    intro s hs hcompleted
    cases hloop : s.loop with
    | stopped => exact absurd hloop hs
    | completed => exact absurd hloop hcompleted
    | ready previous =>
        have hstep : (resuming params).step s (RunEvent.fetch SyncResult.ok)
            { s with loop := s.fetchPage params previous } :=
          ⟨True.intro, by simp only [SyncRun.next, hloop]⟩
        refine ⟨_, _, hstep, hstep.left.goes_on hstep.right hs, ?_⟩
        simp only [workLeft, hloop, fetchPage]
        cases hpage : dropAnchor previous
            (s.server.getMessages previous params.pageSize) with
        | nil => simp
        | cons first rest =>
            have hlt := remaining_lt hpage
            simp only
            omega
    | fetched previous page =>
        have hstep : (resuming params).step s (RunEvent.store SyncResult.ok)
            (s.storePage params page) :=
          ⟨True.intro, by simp only [SyncRun.next, hloop]⟩
        refine ⟨_, _, hstep, hstep.left.goes_on hstep.right hs, ?_⟩
        simp only [workLeft, hloop, storePage]
        omega
  rcases TransitionSystem.Runs.finishes hmore ht with ⟨u, hruns, _, hu⟩
  exact ⟨u, hruns, hu⟩

theorem start_loop {s' : SyncRun id} {oldest : Option (SyncBatch id)}
    (h : s.next params (RunEvent.start oldest) = some s') :
    s' = { s with loop := LoopState.ready oldest } ∧
      isOldestBatch s.batches oldest = true := by
  simp only [SyncRun.next] at h
  split at h
  · split at h
    · rename_i holdest
      cases h
      exact ⟨rfl, holdest⟩
    · cases h
  · cases h

/-!
# Every page goes further

A restart goes on from a batch with the smallest end time.  If several batches
end at this time, it need not be the one that reaches furthest.
-/

/-- No stored batch reaches further than the one that a restart goes on from. -/
def Untied (s : SyncRun id) : RunEvent id -> Prop
  | RunEvent.start (some batch) => forall other, other ∈ s.batches ->
      batch.endPosition <= other.endPosition
  | _ => True

def Furthest (batches : List (SyncBatch id)) : Option (SyncBatch id) -> Prop
  | none => batches = []
  | some batch => forall other, other ∈ batches ->
      batch.endPosition <= other.endPosition

def Descends (s : SyncRun id) : Prop :=
  match s.loop with
  | LoopState.stopped => True
  | LoopState.ready previous => Furthest s.batches previous
  | LoopState.fetched previous page =>
      Furthest s.batches previous ∧
        page.Pairwise (fun a b => b.position < a.position) ∧
        page ≠ [] ∧ forall m, m ∈ page -> isOlder previous m = true
  | LoopState.completed => True

theorem fetchPage_descends (h : Furthest s.batches previous) :
    Descends { s with loop := s.fetchPage params previous } := by
  unfold Descends fetchPage
  cases hpage : dropAnchor previous
      (s.server.getMessages previous params.pageSize) with
  | nil => exact True.intro
  | cons first rest =>
      refine ⟨h, ?_, List.cons_ne_nil first rest, ?_⟩
      · rw [<- hpage]
        exact ((fromAnchor_sorted s.server previous).take).sublist
          (dropAnchor_sublist previous _)
      · intro m hm
        rw [<- hpage] at hm
        exact isOlder_of_mem_dropAnchor hm

/-- The last batch of the page ends below all that were stored. -/
theorem stored_below (params : BackwardSyncParams)
    {page : List (MessageMetadata id)} (hs : Descends s)
    (hloop : s.loop = LoopState.fetched previous page) :
    exists last, (pageBatches params page).getLast? = some last ∧
      (forall batch, batch ∈ s.batches ->
        last.endPosition < batch.endPosition) ∧
      forall batch, batch ∈ pageBatches params page ->
        last.endPosition <= batch.endPosition := by
  unfold Descends at hs
  rw [hloop] at hs
  rcases hs with ⟨hfurthest, hsorted, hne, holder⟩
  rcases List.exists_cons_of_ne_nil hne with ⟨first, rest, rfl⟩
  rcases Option.isSome_iff_exists.mp
    (List.getLast?_isSome.mpr (pageBatches_ne_nil params first rest)) with
    ⟨last, hlast⟩
  refine ⟨last, hlast, ?_, ?_⟩
  · intro batch hbatch
    rcases mem_pageBatches (List.mem_of_getLast? hlast) with ⟨m, hm, hend⟩
    rw [SyncBatch.endPosition_eq hend]
    cases previous with
    | none =>
        rw [hfurthest] at hbatch
        cases hbatch
    | some anchor =>
        exact lt_of_lt_of_le (of_decide_eq_true (holder m hm))
          (hfurthest batch hbatch)
  · intro batch hbatch
    have hbatches := pageBatches_sorted params hsorted
    rcases List.getLast?_eq_some_iff.mp hlast with ⟨before, hsplit⟩
    rw [hsplit] at hbatch hbatches
    rcases List.mem_append.mp hbatch with hbefore | hself
    · exact le_of_lt ((List.pairwise_append.mp hbatches).right.right batch
        hbefore last (List.mem_singleton_self last))
    · exact le_of_eq (congrArg _ (List.mem_singleton.mp hself).symm)

theorem Descends.next {s' : SyncRun id} {e : RunEvent id} (hs : Descends s)
    (huntied : Untied s e) (h : s.next params e = some s') : Descends s' := by
  cases e with
  | serverChanges server =>
      cases h
      exact hs
  | start oldest =>
      rcases start_loop h with ⟨rfl, holdest⟩
      cases oldest with
      | none => exact List.isEmpty_iff.mp holdest
      | some batch => exact huntied
  | fetch result =>
      simp only [SyncRun.next] at h
      split at h
      · rename_i previous hready
        cases h
        unfold Descends at hs
        rw [hready] at hs
        exact fetchPage_descends hs
      · cases h
        exact hs
      · cases h
        exact True.intro
      · cases h
  | store result =>
      simp only [SyncRun.next] at h
      split at h
      · rename_i previous page hfetched
        cases h
        rcases stored_below params hs hfetched with
          ⟨last, hlast, hbelow, hpage⟩
        unfold Descends storePage
        rw [hlast]
        intro batch hbatch
        rcases List.mem_append.mp hbatch with hold | hnew
        · exact le_of_lt (hbelow batch hold)
        · exact hpage batch hnew
      · rename_i previous page hfetched
        cases h
        unfold Descends at hs
        rw [hfetched] at hs
        exact hs.left
      · cases h
        exact True.intro
      · cases h
  | stop =>
      cases h
      exact True.intro

theorem descends_of_reachable
    (h : (syncRunSystem id params).ReachableWhen Untied s) : Descends s := by
  refine TransitionSystem.invariant_when Descends ?_ ?_ h
  · rintro s ⟨hbatches, _, hloop⟩
    unfold Descends
    rcases hloop with hstopped | hready
    · rw [hstopped]
      exact True.intro
    · rw [hready]
      exact hbatches
  · intro s e s' _ hs huntied hstep
    exact hs.next huntied hstep

/--
With pages of two or more messages: when the loop returns `Ok`, every message
that was on the server throughout the run is in a stored page.  A restart that
nothing but the network interrupts stores no more pages than there are messages
older than its batch, and can always be brought to its end.  And if no restart
goes on from a batch that another one reaches beyond, every page that is stored,
in a run with any stops, crashes and failures, ends below all stored batches.
-/
theorem completed_sync_is_complete {params : BackwardSyncParams}
    (hsize : 2 <= params.pageSize) :
    (forall (m : MessageMetadata id) (s : SyncRun id),
      (syncRunSystem id params).ReachableWhen
        (fun s _ => m ∈ s.server.messages) s ->
      s.loop = LoopState.completed -> m ∈ s.stored) ∧
    (forall (s s' : SyncRun id) (oldest : Option (SyncBatch id)),
      s.next params (RunEvent.start oldest) = some s' ->
      forall n t, Resumes params s' n t ->
        n <= remaining s.server oldest ∧
        exists u, (resuming params).Runs t u ∧ u.loop = LoopState.completed) ∧
    (forall (s s' : SyncRun id),
      (syncRunSystem id params).ReachableWhen Untied s ->
      s.next params (RunEvent.store SyncResult.ok) = some s' ->
        exists last, s'.batches.getLast? = some last ∧
          forall batch, batch ∈ s.batches ->
            last.endPosition < batch.endPosition) := by
  refine ⟨?_, ?_, ?_⟩
  · intro m s hreach hcompleted
    have hcovers : Covers s m := by
      refine TransitionSystem.invariant_when (fun s => Covers s m) ?_ ?_ hreach
      · rintro s ⟨hbatches, hstored, hloop⟩
        refine ⟨⟨?_, ?_⟩, ?_⟩
        · intro batch hbatch
          rw [hbatches] at hbatch
          cases hbatch
        · intro batch hbatch
          rw [hbatches] at hbatch
          cases hbatch
        · unfold LoopCovers
          rcases hloop with hstopped | hready
          · rw [hstopped]
            exact True.intro
          · rw [hready]
            exact fun batch hbatch => (nomatch hbatch)
      · intro s e s' _ hs hm hstep
        exact hs.next hsize hm hstep
    have hloop := hcovers.loop
    unfold LoopCovers at hloop
    rw [hcompleted] at hloop
    exact hloop
  · intro s s' oldest hstart n t hresumes
    have hs' := (start_loop hstart).left
    have hbound := hresumes.pagesLeft_le
    have hready : s'.loop ≠ LoopState.stopped := by
      rw [hs']
      exact fun hstopped => (nomatch hstopped)
    refine ⟨?_, exists_completed params (hresumes.goes_on hready)⟩
    rw [hs'] at hbound
    have hleft : pagesLeft params { s with loop := LoopState.ready oldest } =
        remaining s.server oldest := rfl
    omega
  · intro s s' hreach hstore
    simp only [SyncRun.next] at hstore
    split at hstore
    · rename_i previous page hfetched _
      cases hstore
      rcases stored_below params (descends_of_reachable hreach)
        hfetched with ⟨last, hlast, hbelow, _⟩
      refine ⟨last, ?_, hbelow⟩
      unfold storePage
      rw [List.getLast?_append, hlast]
      rfl
    · rename_i hresult
      cases hresult
    · rename_i hresult
      cases hresult
    · cases hstore

/-- Five messages of one time. -/
def sameTime : Mailbox Nat where
  messages := [⟨5, 5⟩, ⟨4, 5⟩, ⟨3, 5⟩, ⟨2, 5⟩, ⟨1, 5⟩]
  sorted := by decide
  ids_unique := by decide

/-- The loop is stopped after its first page and resumes from there. -/
def resumedRun : List (RunEvent Nat) :=
  [RunEvent.start none, RunEvent.fetch SyncResult.ok, RunEvent.store SyncResult.ok,
    RunEvent.stop, RunEvent.start (some ⟨5, 5, 4, 5⟩),
    RunEvent.fetch SyncResult.networkFailure, RunEvent.fetch SyncResult.ok,
    RunEvent.store SyncResult.ok, RunEvent.fetch SyncResult.ok,
    RunEvent.store SyncResult.ok, RunEvent.fetch SyncResult.ok,
    RunEvent.store SyncResult.ok, RunEvent.fetch SyncResult.ok]

theorem resumed_run_complete :
    exists s : SyncRun Nat,
      resumedRun.foldlM (next ⟨2, none⟩)
        ⟨sameTime, [], [], LoopState.stopped⟩ = some s ∧
      s.loop = LoopState.completed ∧ ⟨1, 5⟩ ∈ s.stored := by
  refine ⟨_, rfl, rfl, ?_⟩
  have hsize : 2 <= (BackwardSyncParams.mk 2 none).pageSize := Nat.le_refl 2
  have hrun : resumedRun.foldlM
      (fun s e => if ⟨1, 5⟩ ∈ s.server.messages then next ⟨2, none⟩ s e else none)
      ⟨sameTime, [], [], LoopState.stopped⟩ = some _ := rfl
  exact (completed_sync_is_complete hsize).left ⟨1, 5⟩ _
    (TransitionSystem.ReachableWhen.replay (fun _ _ _ h => h)
      (TransitionSystem.ReachableWhen.start ⟨rfl, rfl, Or.inl rfl⟩) hrun) rfl

/-- One page from the first of two batches that end at the same time. -/
def tiedRestart : List (RunEvent Nat) :=
  [RunEvent.start (some ⟨5, 5, 4, 5⟩), RunEvent.fetch SyncResult.ok,
    RunEvent.store SyncResult.ok, RunEvent.stop]

/-- The second page has been stored `n` times. -/
def tiedState (n : Nat) : SyncRun Nat where
  server := sameTime
  batches := ⟨5, 5, 4, 5⟩ :: List.replicate n ⟨3, 5, 3, 5⟩
  stored := ⟨5, 5⟩ :: ⟨4, 5⟩ :: List.replicate n ⟨3, 5⟩
  loop := LoopState.stopped

theorem tiedState_next (n : Nat) :
    tiedRestart.foldlM (next ⟨2, none⟩) (tiedState n) =
      some (tiedState (n + 1)) := by
  have holdest : isOldestBatch (tiedState n).batches (some ⟨5, 5, 4, 5⟩) =
      true := by
    simp [isOldestBatch, tiedState]
  have hstart : (tiedState n).next ⟨2, none⟩
      (RunEvent.start (some ⟨5, 5, 4, 5⟩)) =
        some { tiedState n with loop := LoopState.ready (some ⟨5, 5, 4, 5⟩) } :=
    if_pos holdest
  unfold tiedRestart
  rw [List.foldlM_cons, hstart]
  change some (SyncRun.mk sameTime ((tiedState n).batches ++ [⟨3, 5, 3, 5⟩])
    ((tiedState n).stored ++ [⟨3, 5⟩]) LoopState.stopped) = _
  simp [tiedState, List.replicate_succ']

/--
Stopped after every page, the loop stores the second page again and again, and
does not come to the last two messages.
-/
theorem tied_restarts_repeat :
    ⟨2, 5⟩ ∈ sameTime.messages ∧ ⟨1, 5⟩ ∈ sameTime.messages ∧
    forall n : Nat, exists s : SyncRun Nat,
      (syncRunSystem Nat ⟨2, none⟩).Reachable s ∧
      s.server = sameTime ∧ s.loop = LoopState.stopped ∧
      s.batches = ⟨5, 5, 4, 5⟩ :: List.replicate n ⟨3, 5, 3, 5⟩ ∧
      ⟨2, 5⟩ ∉ s.stored ∧ ⟨1, 5⟩ ∉ s.stored := by
  refine ⟨by decide, by decide, fun n => ?_⟩
  refine ⟨tiedState n, ?_, rfl, rfl, rfl, by simp [tiedState],
    by simp [tiedState]⟩
  induction n with
  | zero =>
      exact TransitionSystem.Reachable.replay (fun _ _ _ h => h)
        (TransitionSystem.ReachableWhen.start
          (s := ⟨sameTime, [], [], LoopState.stopped⟩)
          ⟨rfl, rfl, Or.inl rfl⟩)
        (show [RunEvent.start none, RunEvent.fetch SyncResult.ok,
          RunEvent.store SyncResult.ok, RunEvent.stop].foldlM
            (next ⟨2, none⟩) _ = some (tiedState 0) from rfl)
  | succ n ih =>
      exact TransitionSystem.Reachable.replay (fun _ _ _ h => h) ih
        (tiedState_next n)

end SyncRun

end BackwardSync
end MailClient
