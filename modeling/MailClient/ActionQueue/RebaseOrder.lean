import MailClient.ActionQueue.Acyclicity

/-!
# The rebase order

`rebase_action_order` sorts the actions of a group by their creation time.  The
creation time is chosen by the caller before its transaction starts, while the
dependencies are resolved inside the transaction and a replaced action keeps
the actions that wait for it.  So the order only respects the dependencies of a
run in which every submission fits between the actions it is linked to.
-/

namespace MailClient
namespace ActionQueue

open Foundation

namespace Store

/-- `a` comes strictly before `b` in the order of creation and row id. -/
def RebaseLt (a b : ActionRow) : Prop :=
  a.created < b.created ∨ (a.created = b.created ∧ a.id < b.id)

instance : DecidableRel RebaseLt :=
  fun _ _ => inferInstanceAs (Decidable (_ ∨ _))

instance : Std.Total RebaseLe where
  total := by
    intro a b
    unfold RebaseLe
    grind

instance : IsTrans ActionRow RebaseLe where
  trans := by
    intro a b c hab hbc
    unfold RebaseLe at *
    grind

theorem RebaseLt.not_le {a b : ActionRow} (h : RebaseLt a b) :
    ¬ RebaseLe b a := by
  unfold RebaseLt at h
  unfold RebaseLe
  grind

end Store

/-!
# From rows to the list
-/

/-- Every dependency inside a group agrees with the rebase order. -/
def RowsInOrder (s : Store) : Prop :=
  forall a b, a ∈ s.actions -> b ∈ s.actions -> s.Depends a.id b.id ->
    a.actionGroup = b.actionGroup -> Store.RebaseLt b a

def RebaseRespects (s : Store) (group : String) : Prop :=
  forall a b, a ∈ s.actions -> b ∈ s.actions -> a.actionGroup = group ->
    b.actionGroup = group -> s.Depends a.id b.id ->
    [b.id, a.id].Sublist (s.rebaseActionOrder group)

theorem RowsInOrder.respects {s : Store} (h : RowsInOrder s)
    (group : String) : RebaseRespects s group := by
  intro a b ha hb hagroup hbgroup hdep
  have hlt := h a b ha hb hdep (hagroup.trans hbgroup.symm)
  have hmem : forall c, c ∈ s.actions -> c.actionGroup = group ->
      c ∈ (s.actions.filter (fun a => a.actionGroup = group)).insertionSort
        Store.RebaseLe := by
    intro c hc hgroup
    rw [List.mem_insertionSort, List.mem_filter]
    exact ⟨hc, decide_eq_true hgroup⟩
  have hne : b ≠ a := by
    intro heq
    rw [heq] at hlt
    unfold Store.RebaseLt at hlt
    grind
  rcases pair_sublist_or (hmem b hb hbgroup) (hmem a ha hagroup) hne with
    hpair | hpair
  · exact hpair.map ActionRow.id
  · have hsorted := (List.pairwise_insertionSort Store.RebaseLe _).sublist hpair
    exact absurd (List.pairwise_pair.mp hsorted) hlt.not_le

/-!
# Submissions that keep the order
-/

def Submission.slotId (sub : Submission) (existing : Option ActionId)
    (s : Store) : ActionId :=
  (sub.replacing existing s).getD (s.sequence + 1)

/--
The creation time of the submission lies after that of every action of its
group that it will wait for, and, if it replaces an action, before that of
every action of its group that waits for it.
-/
def Submission.InOrder (sub : Submission) (existing : Option ActionId)
    (s : Store) : Prop :=
  let id := sub.slotId existing s
  let row := sub.stored.toRow id
  (forall b, b ∈ s.actions -> b.id ≠ id -> b.actionGroup = row.actionGroup ->
    sub.Targets existing s b.id ∨ s.Depends id b.id ->
      Store.RebaseLt b row) ∧
  (forall a, a ∈ s.actions -> a.id ≠ id -> a.actionGroup = row.actionGroup ->
    s.Depends a.id id -> Store.RebaseLt row a)

def SubmitsInOrder (s : Store) (t : Transaction) : Prop :=
  forall sub existing, t.submission = some (sub, existing) ->
    sub.InOrder existing s

theorem Submission.Slot.slotId_eq {sub : Submission}
    {existing : Option ActionId} {s mid : Store} {id : ActionId}
    (h : sub.Slot existing s id mid) : sub.slotId existing s = id := by
  unfold Submission.slotId
  cases h with
  | fresh hnone hid hseq hacts =>
      rw [hnone, hid]
      rfl
  | replaced hsome hmem hfree hseq hacts =>
      rw [hsome]
      rfl

theorem Submission.Slot.mem_actions {sub : Submission}
    {existing : Option ActionId} {s mid : Store} {id : ActionId}
    (h : sub.Slot existing s id mid) {a : ActionRow}
    (ha : a ∈ mid.actions) :
    a = sub.stored.toRow id ∨ (a ∈ s.actions ∧ a.id ≠ id) := by
  cases h with
  | fresh hnone hid hseq hacts =>
      rw [hacts] at ha
      rcases List.mem_append.mp ha with ha | ha
      · refine Or.inr ⟨ha, ?_⟩
        intro heq
        have hmem : a.id ∈ s.ids := List.mem_map_of_mem ha
        rw [heq, hid] at hmem
        exact s.sequence_succ_not_mem hmem
      · exact Or.inl (List.mem_singleton.mp ha)
  | replaced hsome hmem hfree hseq hacts =>
      rw [hacts] at ha
      rcases List.mem_map.mp ha with ⟨a₀, ha₀, heq⟩
      by_cases hid : a₀.id = id
      · left
        rw [<- heq]
        unfold Store.setRow
        rw [if_pos hid, hid]
        rfl
      · right
        unfold Store.setRow at heq
        rw [if_neg hid] at heq
        rw [<- heq]
        exact ⟨ha₀, hid⟩

theorem Submission.Placed.rowsInOrder {sub : Submission}
    {existing : Option ActionId} {s mid : Store} {id : ActionId}
    (h : sub.Placed existing s id mid) (hacyclic : Acyclic mid.Depends)
    (hrows : RowsInOrder s) (horder : sub.InOrder existing s) :
    RowsInOrder mid := by
  intro a b ha hb hdep hgroup
  unfold Submission.InOrder at horder
  rw [h.slot.slotId_eq] at horder
  rcases h.slot.mem_actions ha with ha | ⟨ha, hane⟩
  · rcases h.slot.mem_actions hb with hb | ⟨hb, hbne⟩
    · -- An edge from the new row to itself would be a cycle.
      rw [ha, hb] at hdep
      exact absurd (Relation.TransGen.single hdep) (hacyclic _)
    · rw [ha] at hdep hgroup
      rw [ha]
      apply horder.left b hb hbne hgroup.symm
      rcases (h.depends _ _).mp hdep with hold | ⟨_, _, htarget⟩
      · exact Or.inr hold
      · exact Or.inl htarget
  · have hold : s.Depends a.id b.id := by
      rcases (h.depends _ _).mp hdep with hold | ⟨hid, _⟩
      · exact hold
      · exact absurd hid hane
    rcases h.slot.mem_actions hb with hb | ⟨hb, hbne⟩
    · rw [hb] at hold hgroup
      rw [hb]
      exact horder.right a ha hane hgroup hold
    · exact hrows a b ha hb hold hgroup

theorem Shrunk.rowsInOrder {s s' : Store} (h : Shrunk s s')
    (hrows : RowsInOrder s) : RowsInOrder s' := by
  intro a b ha hb hdep hgroup
  rcases h.rows a ha with ⟨a₀, ha₀, haid, hacreated, hagroup⟩
  rcases h.rows b hb with ⟨b₀, hb₀, hbid, hbcreated, hbgroup⟩
  have hold := ((h.depends _ _).mp hdep).left
  rw [<- haid, <- hbid] at hold
  have hlt := hrows a₀ b₀ ha₀ hb₀ hold
    (hagroup.trans (hgroup.trans hbgroup.symm))
  unfold Store.RebaseLt at hlt ⊢
  rw [haid, hbid, hacreated, hbcreated] at hlt
  exact hlt

theorem run_rowsInOrder {s s' : Store} {t : Transaction}
    (hacyclic : Acyclic s.Depends) (hrows : RowsInOrder s)
    (horder : SubmitsInOrder s t) (h : t.run s = some s') :
    RowsInOrder s' := by
  cases run_change h with
  | shrunk hshrunk =>
      exact hshrunk.rowsInOrder hrows
  | submitted ht hsubmitted =>
      apply hsubmitted.shrunk.rowsInOrder
      have hmid := hsubmitted.placed.acyclic hacyclic hsubmitted.validated
      exact hsubmitted.placed.rowsInOrder hmid hrows (horder _ _ ht)
  | popped _ hpopped =>
      intro a b ha hb hdep hgroup
      rw [hpopped.actions] at ha hb
      unfold Store.Depends at hdep
      rw [hpopped.dependencies] at hdep
      exact hrows a b ha hb hdep hgroup

/--
In every run whose submissions are in order, the rebase order of every group
is a linear extension of the dependencies inside the group.
-/
theorem rebase_order_respects_dependencies {s : Store}
    (h : QueueRuns.ReachableWhen SubmitsInOrder s) (group : String) :
    RebaseRespects s group := by
  apply RowsInOrder.respects
  refine TransitionSystem.invariant_when RowsInOrder ?_ ?_ h
  · intro t ht a b ha
    rw [ht] at ha
    cases ha
  · intro t l t' hreach hrows horder hstep
    have hacyclic := reachable_acyclic hreach.reachable
    exact run_rowsInOrder hacyclic hrows horder hstep

theorem chain_rebase_order :
    exists s, runAll Store.empty chain = some s ∧
      s.rebaseActionOrder "DEFAULT_GROUP" = [1, 2] ∧
      RebaseRespects s "DEFAULT_GROUP" := by
  have hfirst : SubmitsInOrder Store.empty
      (Transaction.queueAction (plainSubmission 1 [] {})) := by
    intro sub existing hsub
    constructor
    · intro b hb
      cases hb
    · intro a ha
      cases ha
  have hsecond : SubmitsInOrder
      (committed Store.empty (queueAction (plainSubmission 1 [] {})
        Store.empty))
      (Transaction.queueAction
        (plainSubmission 2 [ActionDependency.required 1] {})) := by
    intro sub existing hsub
    cases hsub
    constructor
    · intro b hb _ _ _
      rw [List.mem_singleton.mp hb]
      decide
    · intro a ha _ _ hdep
      cases hdep
  have hreach : QueueRuns.ReachableWhen SubmitsInOrder
      ((runAll Store.empty chain).getD Store.empty) :=
    TransitionSystem.ReachableWhen.next
      (TransitionSystem.ReachableWhen.next
        (TransitionSystem.ReachableWhen.start rfl) hfirst rfl) hsecond rfl
  exact ⟨_, rfl, by decide, rebase_order_respects_dependencies hreach _⟩

/--
Two clients build their metadata at the times 1 and 2.  The later one stores
its action first and records a key; the earlier one then resolves that key.
-/
def overtaken : List Transaction :=
  [Transaction.queueAction (plainSubmission 2 [] { record := ["key"] }),
    Transaction.queueAction (plainSubmission 1 [] { optional := ["key"] })]

theorem overtaken_rebase_order :
    exists s, QueueRuns.Reachable s ∧ s.Depends 2 1 ∧
      s.rebaseActionOrder "DEFAULT_GROUP" = [2, 1] ∧
      ¬ RebaseRespects s "DEFAULT_GROUP" := by
  have hrun : runAll Store.empty overtaken = some _ := rfl
  have hdep : Store.Depends
      ((runAll Store.empty overtaken).getD Store.empty) 2 1 := by
    unfold Store.Depends
    decide
  refine ⟨_, runAll_reachable hrun, hdep, by decide, ?_⟩
  intro hrespects
  have hpair := hrespects _ _ (List.mem_cons_of_mem _ List.mem_cons_self)
    List.mem_cons_self rfl rfl hdep
  revert hpair
  decide

end ActionQueue
end MailClient
