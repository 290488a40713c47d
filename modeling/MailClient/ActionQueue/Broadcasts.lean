import MailClient.ActionQueue.Acyclicity
import MailClient.ActionQueue.Guards

/-!
# Broadcasts about the life of an action

A receiver should see one announcement of an action and then at most one final
message, which is sent when the action has left the queue.  The invariant below
counts the messages that were sent together with those that tasks still have to
send.  It is kept by every event that meets `Faithful`; the events excluded
there are the ones after which a message is wrong.
-/

namespace MailClient
namespace ActionQueue

open Foundation
open TransitionSystem

/-!
# Messages sent and unsent
-/

def System.messages (σ : System) : List BroadcastMessage :=
  σ.broadcast ++ σ.outboxes.flatten

namespace BroadcastMessage

def announces (id : ActionId) (m : BroadcastMessage) : Bool :=
  m.isQueued && decide (m.id = id)

def settles (id : ActionId) (m : BroadcastMessage) : Bool :=
  !m.isQueued && decide (m.id = id)

theorem announces_iff {id : ActionId} {m : BroadcastMessage} :
    m.announces id = true ↔ m.isQueued = true ∧ m.id = id := by
  unfold announces
  rw [Bool.and_eq_true, decide_eq_true_eq]

theorem settles_iff {id : ActionId} {m : BroadcastMessage} :
    m.settles id = true ↔ m.isQueued = false ∧ m.id = id := by
  unfold settles
  rw [Bool.and_eq_true, decide_eq_true_eq, Bool.not_eq_true']

end BroadcastMessage

open BroadcastMessage

/-- The part of the invariant that does not depend on what has been sent. -/
structure MessageInv (store : Store) (succeeded : List ActionId)
    (messages : List BroadcastMessage) : Prop where
  announced_once : forall id, messages.countP (announces id) ≤ 1
  settled_once : forall id, messages.countP (settles id) ≤ 1
  known : forall m, m ∈ messages -> m.id ≤ store.sequence
  announced : forall id, id ∈ store.ids ->
    exists q, q ∈ messages ∧ q.announces id = true
  gone : forall m, m ∈ messages -> m.isQueued = false ->
    m.id ∉ store.ids ∧ exists q, q ∈ messages ∧ q.announces m.id = true
  succeeded : forall id d, BroadcastMessage.success id d ∈ messages ->
    id ∈ succeeded

/-- At most one announcement, then at most one final message. -/
def Announced (ms : List BroadcastMessage) : Prop :=
  ms = [] ∨ exists q, q.isQueued = true ∧
    (ms = [q] ∨ exists t, t.isQueued = false ∧ ms = [q, t])

structure BroadcastInv (σ : System) : Prop where
  messages : MessageInv σ.store σ.succeeded σ.messages
  order : forall id, Announced (σ.broadcast.filter (fun m => m.id = id))

/-!
# Changes of the messages
-/

namespace MessageInv

variable {s s' : Store} {done done' : List ActionId}
  {ms ms' : List BroadcastMessage}

theorem perm (h : MessageInv s done ms) (hperm : ms'.Perm ms) :
    MessageInv s done ms' where
  announced_once := by
    intro id
    rw [hperm.countP_eq]
    exact h.announced_once id
  settled_once := by
    intro id
    rw [hperm.countP_eq]
    exact h.settled_once id
  known := fun m hm => h.known m (hperm.mem_iff.mp hm)
  announced := by
    intro id hid
    rcases h.announced id hid with ⟨q, hq, hannounces⟩
    exact ⟨q, hperm.mem_iff.mpr hq, hannounces⟩
  gone := by
    intro m hm hfinal
    rcases h.gone m (hperm.mem_iff.mp hm) hfinal with ⟨hgone, q, hq, hq'⟩
    exact ⟨hgone, q, hperm.mem_iff.mpr hq, hq'⟩
  succeeded := fun id d hm => h.succeeded id d (hperm.mem_iff.mp hm)

theorem shrink (h : MessageInv s done ms) (hsequence : s.sequence ≤ s'.sequence)
    (hids : forall x, x ∈ s'.ids -> x ∈ s.ids)
    (hdone : forall x, x ∈ done -> x ∈ done') :
    MessageInv s' done' ms where
  announced_once := h.announced_once
  settled_once := h.settled_once
  known := fun m hm => Nat.le_trans (h.known m hm) hsequence
  announced := fun id hid => h.announced id (hids id hid)
  gone := by
    intro m hm hfinal
    rcases h.gone m hm hfinal with ⟨hgone, hq⟩
    exact ⟨fun hid => hgone (hids _ hid), hq⟩
  succeeded := fun id d hm => hdone id (h.succeeded id d hm)

theorem lose (h : MessageInv s done ms) (hsub : ms'.Sublist ms)
    (hqueued : forall q, q ∈ ms -> q.isQueued = true -> q ∈ ms') :
    MessageInv s done ms' where
  announced_once := by
    intro id
    exact Nat.le_trans hsub.countP_le (h.announced_once id)
  settled_once := by
    intro id
    exact Nat.le_trans hsub.countP_le (h.settled_once id)
  known := fun m hm => h.known m (hsub.subset hm)
  announced := by
    intro id hid
    rcases h.announced id hid with ⟨q, hq, hannounces⟩
    exact ⟨q, hqueued q hq (announces_iff.mp hannounces).left, hannounces⟩
  gone := by
    intro m hm hfinal
    rcases h.gone m (hsub.subset hm) hfinal with ⟨hgone, q, hq, hannounces⟩
    exact ⟨hgone, q, hqueued q hq (announces_iff.mp hannounces).left,
      hannounces⟩
  succeeded := fun id d hm => h.succeeded id d (hsub.subset hm)

theorem announce {q : BroadcastMessage} (h : MessageInv s done ms)
    (hqueued : q.isQueued = true) (hfresh : q.id = s.sequence + 1)
    (hsequence : s'.sequence = s.sequence + 1)
    (hids : forall x, x ∈ s'.ids ↔ x ∈ s.ids ∨ x = q.id) :
    MessageInv s' done (ms ++ [q]) where
  announced_once := by
    intro id
    rw [List.countP_append, List.countP_singleton]
    by_cases hid : q.id = id
    · -- No earlier message can be about a fresh id.
      have hzero : ms.countP (announces id) = 0 := by
        rw [List.countP_eq_zero]
        intro m hm hannounces
        have hle := h.known m hm
        rw [(announces_iff.mp hannounces).right, <- hid, hfresh] at hle
        exact Nat.not_succ_le_self _ hle
      rw [hzero, Nat.zero_add]
      split
      · exact Nat.le_refl _
      · exact Nat.zero_le _
    · have hnot : q.announces id = false := by
        cases hann : q.announces id with
        | false => rfl
        | true => exact absurd (announces_iff.mp hann).right hid
      rw [hnot]
      exact h.announced_once id
  settled_once := by
    intro id
    have hnot : q.settles id = false := by
      unfold settles
      rw [hqueued]
      rfl
    rw [List.countP_append, List.countP_singleton, hnot]
    exact h.settled_once id
  known := by
    intro m hm
    rcases List.mem_append.mp hm with hm | hm
    · rw [hsequence]
      exact Nat.le_succ_of_le (h.known m hm)
    · rw [List.mem_singleton.mp hm, hfresh, hsequence]
  announced := by
    intro id hid
    rcases (hids id).mp hid with hold | hnew
    · rcases h.announced id hold with ⟨q', hq', hannounces⟩
      exact ⟨q', List.mem_append_left _ hq', hannounces⟩
    · exact ⟨q, List.mem_append_right _ (List.mem_singleton.mpr rfl),
        announces_iff.mpr ⟨hqueued, hnew.symm⟩⟩
  gone := by
    intro m hm hfinal
    rcases List.mem_append.mp hm with hm | hm
    · rcases h.gone m hm hfinal with ⟨hgone, q', hq', hannounces⟩
      refine ⟨?_, q', List.mem_append_left _ hq', hannounces⟩
      intro hid
      rcases (hids m.id).mp hid with hold | hnew
      · exact hgone hold
      · have hle := h.known m hm
        rw [hnew, hfresh] at hle
        exact Nat.not_succ_le_self _ hle
    · rw [List.mem_singleton.mp hm, hqueued] at hfinal
      cases hfinal
  succeeded := by
    intro id d hm
    rcases List.mem_append.mp hm with hm | hm
    · exact h.succeeded id d hm
    · rw [<- List.mem_singleton.mp hm] at hqueued
      cases hqueued

theorem settle {new : List BroadcastMessage} (h : MessageInv s done ms)
    (hsequence : s'.sequence = s.sequence)
    (hids : forall x, x ∈ s'.ids -> x ∈ s.ids)
    (hdone : forall x, x ∈ done -> x ∈ done')
    (hnodup : (new.map BroadcastMessage.id).Nodup)
    (hnew : forall m, m ∈ new ->
      m.isQueued = false ∧ m.id ∈ s.ids ∧ m.id ∉ s'.ids)
    (hsuccess : forall id d, BroadcastMessage.success id d ∈ new ->
      id ∈ done') :
    MessageInv s' done' (ms ++ new) where
  announced_once := by
    intro id
    have hzero : new.countP (announces id) = 0 := by
      rw [List.countP_eq_zero]
      intro m hm hannounces
      have hqueued := (announces_iff.mp hannounces).left
      rw [(hnew m hm).left] at hqueued
      cases hqueued
    rw [List.countP_append, hzero]
    exact h.announced_once id
  settled_once := by
    intro id
    rw [List.countP_append]
    by_cases hold : exists m, m ∈ ms ∧ m.settles id = true
    · rcases hold with ⟨m, hm, hsettles⟩
      have hsettles' := settles_iff.mp hsettles
      have hzero : new.countP (settles id) = 0 := by
        rw [List.countP_eq_zero]
        intro m' hm' hsettles''
        have hid := (settles_iff.mp hsettles'').right
        have hstored := (hnew m' hm').right.left
        rw [hid, <- hsettles'.right] at hstored
        exact (h.gone m hm hsettles'.left).left hstored
      rw [hzero]
      exact h.settled_once id
    · have hzero : ms.countP (settles id) = 0 := by
        rw [List.countP_eq_zero]
        intro m hm hsettles
        exact hold ⟨m, hm, hsettles⟩
      rw [hzero, Nat.zero_add]
      have hle : new.countP (settles id) ≤
          (new.map BroadcastMessage.id).count id := by
        rw [List.count, List.countP_map]
        apply List.countP_mono_left
        intro m _ hsettles
        exact beq_iff_eq.mpr (settles_iff.mp hsettles).right
      exact Nat.le_trans hle (List.nodup_iff_count_le_one.mp hnodup id)
  known := by
    intro m hm
    rw [hsequence]
    rcases List.mem_append.mp hm with hm | hm
    · exact h.known m hm
    · exact Store.ids_le_sequence (hnew m hm).right.left
  announced := by
    intro id hid
    rcases h.announced id (hids id hid) with ⟨q, hq, hannounces⟩
    exact ⟨q, List.mem_append_left _ hq, hannounces⟩
  gone := by
    intro m hm hfinal
    rcases List.mem_append.mp hm with hm | hm
    · rcases h.gone m hm hfinal with ⟨hgone, q, hq, hannounces⟩
      exact ⟨fun hid => hgone (hids _ hid), q, List.mem_append_left _ hq,
        hannounces⟩
    · rcases h.announced m.id (hnew m hm).right.left with ⟨q, hq, hannounces⟩
      exact ⟨(hnew m hm).right.right, q, List.mem_append_left _ hq,
        hannounces⟩
  succeeded := by
    intro id d hm
    rcases List.mem_append.mp hm with hm | hm
    · exact hdone id (h.succeeded id d hm)
    · exact hsuccess id d hm

end MessageInv

/-!
# Sending

A message may be sent when it extends what receivers have seen so far.
-/

theorem filter_append_same (ms : List BroadcastMessage)
    (m : BroadcastMessage) (id : ActionId) :
    (ms ++ [m]).filter (fun m => m.id = id) =
      ms.filter (fun m => m.id = id) ++ if m.id = id then [m] else [] := by
  rw [List.filter_append]
  by_cases hid : m.id = id
  · simp [hid]
  · simp [hid]

variable {id : ActionId} {m : BroadcastMessage} {σ : System} {s' : Store}
  {order : PopOrder ActionId}

theorem announced_append {ms : List BroadcastMessage}
    (horder : forall id, Announced (ms.filter (fun m => m.id = id)))
    (hnext : (m.isQueued = true ∧
        ms.filter (fun m' => m'.id = m.id) = []) ∨
      (m.isQueued = false ∧ exists q, q.isQueued = true ∧
        ms.filter (fun m' => m'.id = m.id) = [q])) (id : ActionId) :
    Announced ((ms ++ [m]).filter (fun m => m.id = id)) := by
  rw [filter_append_same]
  by_cases hid : m.id = id
  · rw [if_pos hid, <- hid]
    rcases hnext with ⟨hqueued, hnil⟩ | ⟨hfinal, q, hq, hone⟩
    · rw [hnil]
      exact Or.inr ⟨m, hqueued, Or.inl rfl⟩
    · rw [hone]
      exact Or.inr ⟨q, hq, Or.inr ⟨m, hfinal, rfl⟩⟩
  · rw [if_neg hid, List.append_nil]
    exact horder id

theorem two_le_countP {α : Type} {p : α -> Bool} {xs ys : List α} {x y : α}
    (hx : x ∈ xs) (hy : y ∈ ys) (hpx : p x = true) (hpy : p y = true) :
    2 ≤ (xs ++ ys).countP p := by
  rw [List.countP_append]
  have hxs : 0 < xs.countP p := List.countP_pos_iff.mpr ⟨x, hx, hpx⟩
  have hys : 0 < ys.countP p := List.countP_pos_iff.mpr ⟨y, hy, hpy⟩
  omega

/-- The next message of a task, under the side condition on sending. -/
theorem BroadcastInv.next_message (h : BroadcastInv σ)
    (hm : m ∈ σ.outboxes.flatten)
    (hwait : m.isQueued = false -> forall q, q ∈ σ.outboxes.flatten ->
      q.announces m.id = false) :
    (m.isQueued = true ∧
        σ.broadcast.filter (fun m' => m'.id = m.id) = []) ∨
      (m.isQueued = false ∧ exists q, q.isQueued = true ∧
        σ.broadcast.filter (fun m' => m'.id = m.id) = [q]) := by
  have hunique := h.messages.announced_once m.id
  have hunique' := h.messages.settled_once m.id
  have hmem : forall m', m' ∈ σ.broadcast.filter (fun m' => m'.id = m.id) ->
      m' ∈ σ.broadcast ∧ m'.id = m.id := by
    intro m' hm'
    rcases List.mem_filter.mp hm' with ⟨hin, hid⟩
    exact ⟨hin, of_decide_eq_true hid⟩
  cases hqueued : m.isQueued with
  | true =>
      left
      refine ⟨rfl, ?_⟩
      rcases h.order m.id with hnil | ⟨q, hq, hshape⟩
      · exact hnil
      · -- A second announcement of the same action was already counted.
        have hin : q ∈ σ.broadcast.filter (fun m' => m'.id = m.id) := by
          rcases hshape with hshape | ⟨t, _, hshape⟩
          · rw [hshape]
            exact List.mem_cons_self
          · rw [hshape]
            exact List.mem_cons_self
        have htwo := two_le_countP (p := announces m.id) (hmem q hin).left hm
          (announces_iff.mpr ⟨hq, (hmem q hin).right⟩)
          (announces_iff.mpr ⟨hqueued, rfl⟩)
        exact absurd (Nat.le_trans htwo hunique) (by decide)
  | false =>
      right
      refine ⟨rfl, ?_⟩
      have hin : m ∈ σ.messages := List.mem_append_right _ hm
      rcases (h.messages.gone m hin hqueued).right with ⟨q, hq, hannounces⟩
      have hsent : q ∈ σ.broadcast := by
        rcases List.mem_append.mp hq with hq | hq
        · exact hq
        · rw [hwait hqueued q hq] at hannounces
          cases hannounces
      have hfound : q ∈ σ.broadcast.filter (fun m' => m'.id = m.id) :=
        List.mem_filter.mpr
          ⟨hsent, decide_eq_true (announces_iff.mp hannounces).right⟩
      rcases h.order m.id with hnil | ⟨q', hq', hone | ⟨t, ht, htwo⟩⟩
      · rw [hnil] at hfound
        cases hfound
      · exact ⟨q', hq', hone⟩
      · have htin : t ∈ σ.broadcast.filter (fun m' => m'.id = m.id) := by
          rw [htwo]
          exact List.mem_cons_of_mem _ List.mem_cons_self
        have hcount := two_le_countP (p := settles m.id) (hmem t htin).left hm
          (settles_iff.mpr ⟨ht, (hmem t htin).right⟩)
          (settles_iff.mpr ⟨hqueued, rfl⟩)
        exact absurd (Nat.le_trans hcount hunique') (by decide)

theorem flatten_set_perm {outboxes : List (List BroadcastMessage)} {task : Nat}
    {rest : List BroadcastMessage} (h : outboxes[task]? = some (m :: rest)) :
    outboxes.flatten.Perm (m :: (outboxes.set task rest).flatten) := by
  induction outboxes generalizing task with
  | nil =>
      cases h
  | cons o os ih =>
      cases task with
      | zero =>
          cases h
          exact List.Perm.refl _
      | succ task =>
          rw [List.getElem?_cons_succ] at h
          rw [List.set_cons_succ, List.flatten_cons, List.flatten_cons]
          exact ((ih h).append_left o).trans List.perm_middle

theorem BroadcastInv.send (h : BroadcastInv σ) {task : Nat}
    {rest : List BroadcastMessage} (hbox : σ.outboxes[task]? = some (m :: rest))
    (hwait : m.isQueued = false -> forall q, q ∈ σ.outboxes.flatten ->
      q.announces m.id = false) :
    BroadcastInv
      { σ with
        outboxes := σ.outboxes.set task rest
        broadcast := σ.broadcast ++ [m] } where
  messages := by
    refine h.messages.perm ?_
    show ((σ.broadcast ++ [m]) ++ (σ.outboxes.set task rest).flatten).Perm
      (σ.broadcast ++ σ.outboxes.flatten)
    rw [List.append_assoc]
    exact (flatten_set_perm hbox).symm.append_left _
  order := by
    have hm : m ∈ σ.outboxes.flatten := by
      rw [List.mem_flatten]
      exact ⟨m :: rest, List.mem_of_getElem? hbox, List.mem_cons_self⟩
    exact announced_append h.order (h.next_message hm hwait)

theorem flatten_set_nil (outboxes : List (List BroadcastMessage))
    (task : Nat) :
    (outboxes.set task []).flatten.Sublist outboxes.flatten ∧
      forall m, m ∈ outboxes.flatten ->
        m ∈ (outboxes.set task []).flatten ∨
          exists o, outboxes[task]? = some o ∧ m ∈ o := by
  induction outboxes generalizing task with
  | nil =>
      exact ⟨List.Sublist.refl _, fun m hm => Or.inl hm⟩
  | cons o os ih =>
      cases task with
      | zero =>
          constructor
          · exact List.sublist_append_right o os.flatten
          · intro m hm
            rcases List.mem_append.mp hm with hm | hm
            · exact Or.inr ⟨o, rfl, hm⟩
            · exact Or.inl hm
      | succ task =>
          rcases ih task with ⟨hsub, hmem⟩
          constructor
          · exact hsub.append_left o
          · intro m hm
            rcases List.mem_append.mp hm with hm | hm
            · exact Or.inl (List.mem_append_left _ hm)
            · rcases hmem m hm with hm | hm
              · exact Or.inl (List.mem_append_right _ hm)
              · exact Or.inr hm

theorem BroadcastInv.discard (h : BroadcastInv σ) {task : Nat}
    (hbox : forall o, σ.outboxes[task]? = some o ->
      forall m, m ∈ o -> m.isQueued = false) :
    BroadcastInv { σ with outboxes := σ.outboxes.set task [] } where
  messages := by
    rcases flatten_set_nil σ.outboxes task with ⟨hsub, hmem⟩
    refine h.messages.lose (hsub.append_left σ.broadcast) ?_
    intro q hq hqueued
    rcases List.mem_append.mp hq with hq | hq
    · exact List.mem_append_left _ hq
    · rcases hmem q hq with hq | ⟨o, ho, hqo⟩
      · exact List.mem_append_right _ hq
      · rw [hbox o ho q hqo] at hqueued
        cases hqueued
  order := h.order

/-!
# Events without a message, and events with a new task
-/

theorem System.messages_append (broadcast : List BroadcastMessage)
    (outboxes : List (List BroadcastMessage)) (new : List BroadcastMessage) :
    broadcast ++ (outboxes ++ [new]).flatten =
      (broadcast ++ outboxes.flatten) ++ new := by
  simp

theorem BroadcastInv.silent {σ' : System} (h : BroadcastInv σ)
    (hbroadcast : σ'.broadcast = σ.broadcast)
    (houtboxes : σ'.outboxes = σ.outboxes) (hdone : σ'.succeeded = σ.succeeded)
    (hsequence : σ.store.sequence ≤ σ'.store.sequence)
    (hids : forall x, x ∈ σ'.store.ids -> x ∈ σ.store.ids) :
    BroadcastInv σ' where
  messages := by
    unfold System.messages
    rw [hbroadcast, houtboxes, hdone]
    exact h.messages.shrink hsequence hids (fun _ hx => hx)
  order := by
    rw [hbroadcast]
    exact h.order

theorem BroadcastInv.settle {σ' : System} (h : BroadcastInv σ)
    {new : List BroadcastMessage} (hbroadcast : σ'.broadcast = σ.broadcast)
    (houtboxes : σ'.outboxes = σ.outboxes ++ [new])
    (hdone : forall x, x ∈ σ.succeeded -> x ∈ σ'.succeeded)
    (hshrunk : Shrunk σ.store σ'.store)
    (hnodup : (new.map BroadcastMessage.id).Nodup)
    (hnew : forall m, m ∈ new -> m.isQueued = false ∧
      m.id ∈ σ.store.ids ∧ m.id ∉ σ'.store.ids)
    (hsuccess : forall id d, BroadcastMessage.success id d ∈ new ->
      id ∈ σ'.succeeded) : BroadcastInv σ' where
  messages := by
    unfold System.messages
    rw [hbroadcast, houtboxes, System.messages_append]
    exact h.messages.settle hshrunk.sequence (fun _ hx => hshrunk.ids hx)
      hdone hnodup hnew hsuccess
  order := by
    rw [hbroadcast]
    exact h.order

/-!
# Submissions
-/

theorem Submitted.sequence {sub : Submission} {existing : Option ActionId}
    {s mid : Store} (h : Submitted sub existing s id mid s') :
    s'.sequence = mid.sequence :=
  h.shrunk.sequence

theorem Submitted.mem_ids {sub : Submission} {existing : Option ActionId}
    {s mid : Store} (h : Submitted sub existing s id mid s') {x : ActionId} :
    x ∈ s'.ids ↔ x ∈ s.ids ∨ x = id := by
  rw [h.ids]
  exact h.placed.slot.mem_ids

theorem queueAction_fresh {sub : Submission} {s : Store} {stored : StoredAction}
    (h : queueAction sub s = Except.ok (id, stored, s')) :
    id = s.sequence + 1 ∧ s'.sequence = s.sequence + 1 ∧
      forall x, x ∈ s'.ids ↔ x ∈ s.ids ∨ x = id := by
  unfold queueAction at h
  split at h
  · rcases executeActionLocal_submitted h with ⟨mid, hsubmitted⟩
    have hmem := fun x => hsubmitted.mem_ids (x := x)
    cases hsubmitted.placed.slot with
    | fresh hnone hid hseq hacts =>
        exact ⟨hid, hsubmitted.sequence.trans hseq, hmem⟩
    | replaced hsome =>
        cases hsome
  · cases h

theorem BroadcastInv.announce (h : BroadcastInv σ) {q : BroadcastMessage}
    (hqueued : q.isQueued = true) (hfresh : q.id = σ.store.sequence + 1)
    (hsequence : s'.sequence = σ.store.sequence + 1)
    (hids : forall x, x ∈ s'.ids ↔ x ∈ σ.store.ids ∨ x = q.id) :
    BroadcastInv
      { σ with store := s', broadcast := σ.broadcast ++ [q] } where
  messages := by
    have hnew := h.messages.announce hqueued hfresh hsequence hids
    refine hnew.perm ?_
    show ((σ.broadcast ++ [q]) ++ σ.outboxes.flatten).Perm
      ((σ.broadcast ++ σ.outboxes.flatten) ++ [q])
    rw [List.append_assoc, List.append_assoc]
    exact List.perm_append_comm.append_left _
  order := by
    apply announced_append h.order
    left
    refine ⟨hqueued, ?_⟩
    rw [List.filter_eq_nil_iff]
    intro m hm hid
    have hle := h.messages.known m (List.mem_append_left _ hm)
    rw [of_decide_eq_true hid, hfresh] at hle
    exact Nat.not_succ_le_self _ hle

theorem BroadcastInv.queueAll {subs : List Submission} (h : BroadcastInv σ)
    (hok : (queueAll subs σ.store).2 = Except.ok s') :
    BroadcastInv
      { σ with
        store := s'
        broadcast := σ.broadcast ++ (queueAll subs σ.store).1 } := by
  induction subs generalizing σ with
  | nil =>
      cases hok
      refine h.silent ?_ rfl rfl (Nat.le_refl _) (fun _ hx => hx)
      exact List.append_nil _
  | cons sub rest ih =>
      unfold ActionQueue.queueAll at hok ⊢
      split at hok
      · cases hok
      · rename_i id stored mid hqueue
        rcases queueAction_fresh hqueue with ⟨hid, hsequence, hids⟩
        have hfirst := h.announce (q := BroadcastMessage.queued id
          (QueuedMetadata.ofStored id stored)) rfl hid hsequence hids
        have hrest := ih hfirst hok
        dsimp only at hrest ⊢
        rw [List.append_assoc] at hrest
        exact hrest

theorem queueAll_nil {subs : List Submission} {s : Store}
    (hnil : (queueAll subs s).1 = []) (hok : (queueAll subs s).2 = Except.ok s') :
    s' = s := by
  cases subs with
  | nil =>
      cases hok
      rfl
  | cons sub rest =>
      unfold queueAll at hnil hok
      split at hok
      · cases hok
      · rename_i hqueue
        rw [hqueue] at hnil
        cases hnil

theorem BroadcastInv.replace (h : BroadcastInv σ) {existing : ActionId}
    {sub : Submission} (hold : existing ≠ σ.store.sequence + 1) :
    BroadcastInv (σ.replace existing sub) := by
  unfold System.replace
  split
  · exact h
  · rename_i id stored s' hreplace
    unfold replaceOrQueueAction at hreplace
    split at hreplace
    · rcases executeActionLocal_submitted hreplace with ⟨mid, hsubmitted⟩
      have hmem := fun x => hsubmitted.mem_ids (x := x)
      cases hsubmitted.placed.slot with
      | fresh hnone hid hseq hacts =>
          have hne : id ≠ existing := by
            intro heq
            exact hold (heq.symm.trans hid)
          rw [if_neg hne]
          refine ⟨?_, h.order⟩
          show MessageInv s' σ.succeeded
            (σ.broadcast ++ (σ.outboxes ++ [_]).flatten)
          rw [System.messages_append]
          exact h.messages.announce rfl hid
            (hsubmitted.sequence.trans hseq) hmem
      | replaced hsome hstored hfree hseq hacts =>
          have heq : id = existing := by
            have hfilter := Option.filter_eq_some_iff.mp hsome
            exact (Option.some.inj hfilter.left).symm
          rw [if_pos heq]
          refine ⟨?_, h.order⟩
          show MessageInv s' σ.succeeded
            (σ.broadcast ++ (σ.outboxes ++ [[]]).flatten)
          rw [System.messages_append, List.append_nil]
          refine h.messages.shrink ?_ ?_ (fun _ hx => hx)
          · exact Nat.le_of_eq (hsubmitted.sequence.trans hseq).symm
          · intro x hx
            rcases (hmem x).mp hx with hx | hx
            · exact hx
            · rw [hx]
              exact hstored
    · cases hreplace

/-!
# Executions that settle their action
-/

/-- Everything that has to be cancelled with `id` can be decoded. -/
def Cancellable (factory : Factory) (s : Store) (id : ActionId) : Prop :=
  forall a, a ∈ s.actions -> CancelTarget s id a.id -> Decodable factory a

/-- The result of `apply_remote` does not put the action back in the queue. -/
def Settles (factory : Factory) (s : Store) (maxRetries : Option Nat)
    (id : ActionId) : RemoteResult -> Prop
  | RemoteResult.ok => True
  | RemoteResult.err none => Cancellable factory s id
  | RemoteResult.err (some _) =>
      (exists max retries, maxRetries = some max ∧
        s.getRetries id = some retries ∧ max ≤ retries) ∧
      Cancellable factory s id

theorem cancelFailed_settled {factory : Factory} {faults : CancelFaults}
    {fuel : Nat} {s : Store} {c : Completion} (hfaults : faults.Absent)
    (hacyclic : Acyclic s.Depends) (hmem : id ∈ s.ids)
    (hcancellable : Cancellable factory s id)
    (h : cancelFailed factory faults order fuel id s = some (c, s')) :
    id ∉ s'.ids ∧ exists e, c.result = Except.error e := by
  have hresult := (cancelFailed_confined h).right.right
  refine ⟨?_, _, hresult⟩
  unfold cancelFailed at h
  split at h
  · cases h
  · rename_i ms mid hcancel
    cases h
    exact (cancelActionWithDependees_ok hfaults hacyclic hmem hcancellable
      hcancel).right
  · rename_i e mid hcancel
    rcases (cancelActionWithDependees_ok hfaults hacyclic hmem hcancellable
      hcancel).left with ⟨ms, hms⟩
    cases hms

theorem completeClosure_settled {factory : Factory} {faults : ExecutionFaults}
    {fuel : Nat} {maxRetries : Option Nat} {result : RemoteResult} {s : Store}
    {c : Completion} (hstatement : faults.statement = false)
    (hcancel : faults.cancel.Absent) (hacyclic : Acyclic s.Depends)
    (hmem : id ∈ s.ids) (hsettles : Settles factory s maxRetries id result)
    (h : completeClosure factory faults order fuel maxRetries id result s =
      some (c, s')) :
    id ∉ s'.ids ∧
      (result = RemoteResult.ok ∨ exists e, c.result = Except.error e) := by
  unfold completeClosure at h
  rw [hstatement] at h
  dsimp only at h
  cases result with
  | ok =>
      cases h
      refine ⟨?_, Or.inl rfl⟩
      intro hin
      exact (Store.mem_delete_ids.mp hin).right rfl
  | err canRequeue =>
      cases canRequeue with
      | none =>
          have hspec := cancelFailed_settled hcancel hacyclic hmem hsettles h
          exact ⟨hspec.left, Or.inr hspec.right⟩
      | some reason =>
          rcases hsettles with ⟨⟨max, retries, hmax, hretries, hle⟩, hdecode⟩
          dsimp only at h
          rw [if_neg Bool.false_ne_true, hretries, hmax] at h
          dsimp only at h
          rw [Option.any_some, if_pos (decide_eq_true hle)] at h
          have hspec := cancelFailed_settled hcancel hacyclic hmem hdecode h
          exact ⟨hspec.left, Or.inr hspec.right⟩

theorem completeExecution_settled {factory : Factory} {faults : ExecutionFaults}
    {fuel : Nat} {maxRetries : Option Nat} {guard : ExecutionGuard}
    {now : Timestamp} {result : RemoteResult} {s : Store}
    {r : Except ExecutionGuardError Completion}
    (hstatement : faults.statement = false) (hcancel : faults.cancel.Absent)
    (hacyclic : Acyclic s.Depends) (hvalid : guard.valid s = true)
    (hmem : guard.actionId ∈ s.ids)
    (hsettles : Settles factory s maxRetries guard.actionId result)
    (h : completeExecution factory faults order fuel maxRetries guard now
      result s = some (r, s')) :
    exists c, r = Except.ok c ∧ guard.actionId ∉ s'.ids ∧
      (result = RemoteResult.ok ∨ exists e, c.result = Except.error e) := by
  unfold completeExecution ExecutionGuard.txAndRelease at h
  rw [if_pos hvalid] at h
  split at h
  · cases h
  · rename_i c mid hclosure
    cases h
    rcases Option.map_eq_some_iff.mp hclosure with ⟨⟨c', t⟩, hc, heq⟩
    cases heq
    -- Touching the lock changes nothing the closure looks at.
    have hspec := completeClosure_settled
      (s := s.touchLock guard.actionId guard.permitId now)
      hstatement hcancel hacyclic hmem hsettles hc
    exact ⟨c, rfl, hspec⟩
  · rename_i e hclosure
    rcases Option.map_eq_some_iff.mp hclosure with ⟨c', hc, heq⟩
    cases heq

/-!
# The side condition
-/

/--
The events after which the messages still tell the truth.  Excluded are: a
transaction that announced an action and is then rolled back; replacing the id
that is going to be handed out next; executions that end with the action still
in the queue, because the guard expired, the database failed, the remote task
died, the action is requeued or a dependee cannot be decoded; a final message
that overtakes the announcement; and a task aborted before its announcement.
-/
def Faithful (σ : System) : Event -> Prop
  | Event.queue subs commits =>
      (commits = true ∧ exists s', (queueAll subs σ.store).2 = Except.ok s') ∨
        (queueAll subs σ.store).1 = []
  | Event.replace existing _ => existing ≠ σ.store.sequence + 1
  | Event.keepAlive serial _ fault =>
      fault = false ∧ forall x, σ.find serial = some x ->
        x.guard.valid σ.store = true
  | Event.remoteTaskLost _ => False
  | Event.complete serial factory faults _ _ _ result commitFault =>
      commitFault = false ∧ faults.statement = false ∧
        faults.cancel.Absent ∧
        forall x d, σ.find serial = some x ->
          factory.decode x.action = Except.ok d ->
          x.guard.valid σ.store = true ∧
            Settles factory σ.store d.maxRetries x.guard.actionId result
  | Event.send task =>
      forall m rest, σ.outboxes[task]? = some (m :: rest) ->
        m.isQueued = false -> forall q, q ∈ σ.outboxes.flatten ->
          q.announces m.id = false
  | Event.discard task =>
      forall o, σ.outboxes[task]? = some o ->
        forall m, m ∈ o -> m.isQueued = false
  | _ => True

theorem System.queue_inv {subs : List Submission} {commits : Bool}
    (h : BroadcastInv σ) (hfaithful : Faithful σ (Event.queue subs commits)) :
    BroadcastInv (σ.queue subs commits) := by
  unfold System.queue
  dsimp only
  rcases hfaithful with ⟨hcommits, s', hok⟩ | hnil
  · rw [hok, hcommits]
    exact h.queueAll hok
  · refine h.silent ?_ rfl rfl ?_ ?_
    · show σ.broadcast ++ (queueAll subs σ.store).1 = σ.broadcast
      rw [hnil, List.append_nil]
    · split
      · rename_i s' hok
        rw [queueAll_nil hnil hok]
        split <;> exact Nat.le_refl _
      · exact Nat.le_refl _
    · intro x hx
      dsimp only at hx
      split at hx
      · rename_i s' hok
        rw [queueAll_nil hnil hok] at hx
        split at hx <;> exact hx
      · exact hx

theorem System.cancel_inv {σ' : System} {factory : Factory}
    {faults : CancelFaults} {fuel : Nat} (h : BroadcastInv σ)
    (hrun : σ.cancel factory faults order fuel id = some σ') :
    BroadcastInv σ' := by
  unfold System.cancel at hrun
  split at hrun
  · cases hrun
  · rename_i e s' hcancel
    cases hrun
    have hshrunk := (cancel_confined hcancel).left.shrunk
    exact h.silent rfl rfl rfl (Nat.le_of_eq hshrunk.sequence.symm)
      (fun _ hx => hshrunk.ids hx)
  · rename_i ms s' hcancel
    cases hrun
    have hspec := cancel_confined hcancel
    rcases hspec.right ms rfl with ⟨hnodup, hreported⟩
    refine h.settle rfl rfl (fun _ hx => hx) hspec.left.shrunk ?_ ?_ ?_
    · rw [List.map_map]
      exact hnodup
    · intro m hm
      rcases List.mem_map.mp hm with ⟨m', hm', heq⟩
      rw [<- heq]
      exact ⟨rfl, hreported m' hm'⟩
    · intro id' d hm
      rcases List.mem_map.mp hm with ⟨m', _, heq⟩
      cases heq

theorem System.deleteAction_inv (h : BroadcastInv σ) :
    BroadcastInv (σ.deleteAction id) := by
  have hshrunk : Shrunk σ.store (ActionQueue.deleteAction id σ.store).2 :=
    (deleteAction_confined rfl).shrunk
  unfold System.deleteAction
  split
  · rename_i actionType s' hdelete
    rw [hdelete] at hshrunk
    unfold ActionQueue.deleteAction at hdelete
    split at hdelete
    · cases hdelete
    · cases hfind : σ.store.find id with
      | none =>
          rw [hfind] at hdelete
          cases hdelete
      | some row =>
          have hid : row.id = id := by
            simpa using List.find?_some hfind
          have hmem : id ∈ σ.store.ids := by
            rw [<- hid]
            exact List.mem_map_of_mem (List.mem_of_find?_eq_some hfind)
          refine h.settle rfl rfl (fun _ hx => hx) hshrunk
            (List.nodup_singleton _) ?_ ?_
          · intro m hm
            rw [List.mem_singleton.mp hm]
            refine ⟨rfl, hmem, ?_⟩
            intro hin
            have hs' : σ.store.delete id = s' := congrArg Prod.snd hdelete
            rw [<- hs'] at hin
            exact (Store.mem_delete_ids.mp hin).right rfl
          · intro id' d hm
            cases List.mem_singleton.mp hm
  · rename_i r s' _ hdelete
    rw [hdelete] at hshrunk
    exact h.silent rfl rfl rfl (Nat.le_of_eq hshrunk.sequence.symm)
      (fun _ hx => hshrunk.ids hx)

theorem System.pop_inv {σ' : System} {executor : ExecutorId} {group : String}
    {now : Timestamp} {picked : Option ActionId} (h : BroadcastInv σ)
    (hrun : σ.pop executor group now picked = some σ') :
    BroadcastInv σ' := by
  unfold System.pop at hrun
  split at hrun
  · rename_i hpicks
    split at hrun
    · cases hrun
      exact h
    · rename_i s' hpop
      cases hrun
      have hpopped := pop_popped hpicks hpop
      refine h.silent rfl rfl rfl (Nat.le_of_eq hpopped.sequence.symm) ?_
      intro x hx
      unfold Store.ids at hx
      rw [hpopped.actions] at hx
      exact hx
    · rename_i guard s' hpop
      have hpopped := pop_popped hpicks hpop
      split at hrun
      · cases hrun
      · cases hrun
        refine h.silent rfl rfl rfl (Nat.le_of_eq hpopped.sequence.symm) ?_
        intro x hx
        unfold Store.ids at hx
        rw [hpopped.actions] at hx
        exact hx
  · cases hrun

theorem System.keepAlive_inv {x : Execution} {now : Timestamp}
    (h : BroadcastInv σ) (hvalid : x.guard.valid σ.store = true) :
    BroadcastInv (σ.keepAlive x now false) := by
  unfold System.keepAlive ExecutionGuard.tx
  rw [if_neg Bool.false_ne_true, if_pos hvalid]
  exact h.silent rfl rfl rfl (Nat.le_refl _) (fun _ hx => hx)

/-- The messages of a completed execution that settled its action. -/
theorem completion_messages {s : Store} {outcome : BroadcastMessage}
    {c : Completion} (hreported : Reported s s' c.cancelled)
    (hid : outcome.id = id) (hfinal : outcome.isQueued = false)
    (hmem : id ∈ s.ids) (hgone : id ∉ s'.ids) :
    ((dependeeBroadcasts id (Except.ok c) ++ [outcome]).map
        BroadcastMessage.id).Nodup ∧
      forall m, m ∈ dependeeBroadcasts id (Except.ok c) ++ [outcome] ->
        m.isQueued = false ∧ m.id ∈ s.ids ∧ m.id ∉ s'.ids := by
  rcases hreported with ⟨hnodup, hcancelled⟩
  have hdependees : (dependeeBroadcasts id (Except.ok c)).map
      BroadcastMessage.id =
        (c.cancelled.filter (fun m => m.id ≠ id)).map QueuedMetadata.id := by
    unfold dependeeBroadcasts
    rw [List.map_map]
    rfl
  constructor
  · rw [List.map_append, hdependees, List.nodup_append]
    refine ⟨hnodup.sublist (List.filter_sublist.map _),
      List.nodup_singleton _, ?_⟩
    intro x hx y hy heq
    rcases List.mem_map.mp hx with ⟨m, hm, hmx⟩
    have hne := of_decide_eq_true (List.mem_filter.mp hm).right
    rw [List.map_singleton, List.mem_singleton, hid] at hy
    exact hne (hmx.trans (heq.trans hy))
  · intro m hm
    rcases List.mem_append.mp hm with hm | hm
    · rcases List.mem_map.mp hm with ⟨m', hm', heq⟩
      rw [<- heq]
      exact ⟨rfl, hcancelled m' (List.mem_of_mem_filter hm')⟩
    · rw [List.mem_singleton.mp hm, hid]
      exact ⟨hfinal, hmem, hgone⟩

theorem System.complete_inv {σ' : System} {x : Execution} {factory : Factory}
    {faults : ExecutionFaults} {fuel : Nat} {now : Timestamp}
    {result : RemoteResult} (h : BroadcastInv σ)
    (hacyclic : Acyclic σ.store.Depends) (hstatement : faults.statement = false)
    (hcancel : faults.cancel.Absent)
    (hsettles : forall d, factory.decode x.action = Except.ok d ->
      x.guard.valid σ.store = true ∧
        Settles factory σ.store d.maxRetries x.guard.actionId result)
    (hrun : σ.complete x factory faults order fuel now result false =
      some σ') : BroadcastInv σ' := by
  unfold System.complete at hrun
  split at hrun
  · cases hrun
  · rename_i d hdecode
    rcases hsettles d hdecode with ⟨hvalid, hsettled⟩
    dsimp only at hrun
    rw [if_neg Bool.false_ne_true] at hrun
    split at hrun
    · cases hrun
    · rename_i r s' hcomplete
      have hmem : x.guard.actionId ∈ σ.store.ids := by
        rcases Store.valid_iff.mp hvalid with ⟨l, hl, hid, _⟩
        rw [<- hid]
        exact σ.store.lock_action l hl
      have hspec := completeExecution_confined hcomplete
      rcases completeExecution_settled hstatement hcancel hacyclic hvalid hmem
        hsettled hcomplete with ⟨c, hr, hgone, houtcome⟩
      subst hr
      have hid : (outcomeBroadcast x.metadata c.result).id =
          x.guard.actionId := by
        cases c.result with
        | ok out => rfl
        | error e => rfl
      have hfinal : (outcomeBroadcast x.metadata c.result).isQueued =
          false := by
        cases c.result with
        | ok out => rfl
        | error e => rfl
      have hmessages := completion_messages (hspec.right c rfl) hid hfinal
        hmem hgone
      cases hrun
      refine h.settle ?_ ?_ ?_ hspec.left.shrunk hmessages.left
        hmessages.right ?_
      · split <;> rfl
      · split <;> rfl
      · intro y hy
        split
        · exact List.mem_cons_of_mem _ hy
        · exact hy
      · intro id d' hm
        rcases List.mem_append.mp hm with hm | hm
        · rcases List.mem_map.mp hm with ⟨m, _, heq⟩
          cases heq
        · have hmsg := List.mem_singleton.mp hm
          rcases houtcome with hok | ⟨e, he⟩
          · have hid' : id = x.guard.actionId := by
              rw [<- hid]
              exact congrArg BroadcastMessage.id hmsg
            rw [if_pos hok, hid']
            exact List.mem_cons_self
          · have hmsg' : BroadcastMessage.success id d' =
                outcomeBroadcast x.metadata c.result := hmsg
            rw [he] at hmsg'
            cases hmsg'

theorem event_broadcastInv {σ' : System} {e : Event} (h : BroadcastInv σ)
    (hacyclic : Acyclic σ.store.Depends) (hfaithful : Faithful σ e)
    (hrun : e.run σ = some σ') : BroadcastInv σ' := by
  cases e with
  | queue subs commits =>
      cases hrun
      exact System.queue_inv h hfaithful
  | replace existing sub =>
      cases hrun
      exact h.replace hfaithful
  | cancel factory faults order fuel id =>
      exact System.cancel_inv h hrun
  | deleteAction id =>
      cases hrun
      exact System.deleteAction_inv h
  | deleteAllInGroup group =>
      cases hrun
      exact h.silent rfl rfl rfl (Nat.le_refl _)
        (fun _ hx => Store.mem_ids_deleteWhere hx)
  | deleteAllByType type =>
      cases hrun
      exact h.silent rfl rfl rfl (Nat.le_refl _)
        (fun _ hx => Store.mem_ids_deleteWhere hx)
  | rebase factory rebased group =>
      simp only [Event.run] at hrun
      split at hrun
      · rename_i s' hrebase
        cases hrun
        have hshrunk := rebaseActions_shrunk hrebase
        exact h.silent rfl rfl rfl (Nat.le_of_eq hshrunk.sequence.symm)
          (fun _ hx => hshrunk.ids hx)
      · cases hrun
        exact h
  | pop executor group now picked =>
      exact System.pop_inv h hrun
  | undecodable serial factory fault =>
      simp only [Event.run] at hrun
      split at hrun
      · cases hrun
      · split at hrun
        · cases hrun
        · cases hrun
          cases fault with
          | true =>
              exact h.silent rfl rfl rfl (Nat.le_refl _) (fun _ hx => hx)
          | false =>
              exact h.silent rfl rfl rfl (Nat.le_refl _) (fun _ hx => hx)
  | keepAlive serial now fault =>
      rcases hfaithful with ⟨hfault, hvalid⟩
      subst hfault
      rcases Option.map_eq_some_iff.mp hrun with ⟨x, hfind, heq⟩
      cases heq
      exact System.keepAlive_inv h (hvalid x hfind)
  | remoteTaskLost serial =>
      exact False.elim hfaithful
  | complete serial factory faults order fuel now result commitFault =>
      rcases hfaithful with ⟨hcommit, hstatement, hcancel, hsettles⟩
      subst hcommit
      rcases Option.bind_eq_some_iff.mp hrun with ⟨x, hfind, hcomplete⟩
      exact System.complete_inv h hacyclic hstatement hcancel
        (fun d hd => hsettles x d hfind hd) hcomplete
  | abort serial =>
      cases hrun
      exact h.silent rfl rfl rfl (Nat.le_refl _) (fun _ hx => hx)
  | send task =>
      simp only [Event.run, System.send] at hrun
      split at hrun
      · rename_i m rest hbox
        cases hrun
        exact h.send hbox (hfaithful m rest hbox)
      · cases hrun
  | discard task =>
      cases hrun
      exact h.discard hfaithful

theorem reachable_broadcastInv (h : SystemRuns.ReachableWhen Faithful σ) :
    BroadcastInv σ := by
  refine invariant_when BroadcastInv ?_ ?_ h
  · intro τ hτ
    rw [hτ]
    refine ⟨⟨?_, ?_, ?_, ?_, ?_, ?_⟩, fun id => Or.inl rfl⟩
    · intro id
      exact Nat.zero_le _
    · intro id
      exact Nat.zero_le _
    · intro m hm
      cases hm
    · intro id hid
      cases hid
    · intro m hm
      cases hm
    · intro id d hm
      cases hm
  · intro τ e τ' hreach hinv hfaithful hstep
    have hacyclic := reachable_acyclic
      (system_store_reachable hreach.reachable)
    exact event_broadcastInv hinv hacyclic hfaithful hstep

/-!
# What receivers see
-/

/-- The messages tell the truth about every action. -/
structure Truthful (σ : System) : Prop where
  announced : forall id, id ∈ σ.store.ids ->
    exists q, q.announces id = true ∧
      (q ∈ σ.broadcast ∨ q ∈ σ.outboxes.flatten)
  order : forall id, Announced (σ.broadcast.filter (fun m => m.id = id))
  success : forall id d, BroadcastMessage.success id d ∈ σ.broadcast ->
    id ∈ σ.succeeded ∧ id ∉ σ.store.ids
  awaited : forall received id m, received.Sublist σ.broadcast ->
    ActionAwaiter.wait received id = some m -> id ∉ σ.store.ids

theorem broadcasts_tell_the_truth {σ : System}
    (h : SystemRuns.ReachableWhen Faithful σ) : Truthful σ := by
  have hinv := reachable_broadcastInv h
  have hsent : forall m, m ∈ σ.broadcast -> m ∈ σ.messages :=
    fun m hm => List.mem_append_left _ hm
  refine ⟨?_, hinv.order, ?_, ?_⟩
  · intro id hid
    rcases hinv.messages.announced id hid with ⟨q, hq, hannounces⟩
    exact ⟨q, hannounces, List.mem_append.mp hq⟩
  · intro id d hm
    have hm' := hsent _ hm
    exact ⟨hinv.messages.succeeded id d hm',
      (hinv.messages.gone _ hm' rfl).left⟩
  · intro received id m hsub hwait
    have hmem := hsub.subset (List.mem_of_find?_eq_some hwait)
    have hsettles : m.settles id = true := List.find?_some hwait
    rcases settles_iff.mp hsettles with ⟨hfinal, hid⟩
    rw [<- hid]
    exact (hinv.messages.gone m (hsent m hmem) hfinal).left

/-- One action is executed; `result` is what its `apply_remote` answers. -/
def oneExecution (result : RemoteResult) : List Event :=
  [Event.queue [plainSubmission 1 [] {}] true,
    Event.pop "x" "DEFAULT_GROUP" 10 (some 1),
    Event.complete 0 anyFactory {} (PopOrder.first _) 10 20 result false,
    Event.send 0]

theorem successful_execution_truthful :
    exists σ d d', runEvents System.empty (oneExecution RemoteResult.ok) =
        some σ ∧
      σ.broadcast = [BroadcastMessage.queued 1 d,
        BroadcastMessage.success 1 d'] ∧ Truthful σ := by
  have hallowed : AllowedEvents Faithful System.empty
      (oneExecution RemoteResult.ok) := by
    refine ⟨Or.inl ⟨rfl, _, rfl⟩, ?_⟩
    intro σ₁ h₁
    cases h₁
    refine ⟨True.intro, ?_⟩
    intro σ₂ h₂
    cases h₂
    refine ⟨⟨rfl, rfl, ⟨fun _ => rfl, fun _ => rfl, fun _ => rfl, fun _ => rfl⟩, ?_⟩, ?_⟩
    · intro x d hx _
      cases hx
      exact ⟨rfl, True.intro⟩
    · intro σ₃ h₃
      cases h₃
      refine ⟨?_, fun _ _ => True.intro⟩
      intro m rest _ _ q hq
      rw [List.mem_singleton.mp hq]
      rfl
  have hrun : runEvents System.empty (oneExecution RemoteResult.ok) =
    some _ := rfl
  have hreach := runEvents_reachableWhen (ReachableWhen.start rfl) hallowed
    hrun
  exact ⟨_, _, _, hrun, rfl, broadcasts_tell_the_truth hreach⟩

/--
The network fails, so the action stays in the queue.  The executor reports
success all the same and a waiting task is woken.
-/
theorem requeued_execution_reported_as_success :
    exists σ m, SystemRuns.Reachable σ ∧ 1 ∈ σ.store.ids ∧
      σ.succeeded = [] ∧
      ActionAwaiter.wait σ.broadcast 1 = some m ∧ ¬ Truthful σ := by
  have hrun : runEvents System.empty (oneExecution
    (RemoteResult.err (some ActionRequeueReason.networkFailed))) = some _ :=
    rfl
  refine ⟨_, _, runEvents_reachable hrun, List.mem_cons_self, rfl, rfl, ?_⟩
  intro htruthful
  exact htruthful.awaited _ 1 _ (List.Sublist.refl _) rfl List.mem_cons_self

end ActionQueue
end MailClient
