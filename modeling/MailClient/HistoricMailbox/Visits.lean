import Mathlib.Data.List.Chain
import Mathlib.Data.Prod.Lex
import Mathlib.Order.WithBot
import MailClient.Foundation.Keyset
import MailClient.HistoricMailbox.Walker

/-!
# What a historic walk visits

Messages are read from new to old, so that the position of a message grows with
its age.  A batch is what comes next after the anchor when it is fetched, with
the anchor still there or not.
-/

namespace MailClient
namespace HistoricMailbox

open Foundation

variable {id : Type} [LinearOrder id]

/-- Between the start and the end of a mailbox, newest first. -/
abbrev Position (id : Type) := WithBot (WithTop (Nat ×ₗ id)ᵒᵈ)

def positionAt (time : Nat) (messageId : id) : Position id :=
  ((OrderDual.toDual (toLex (time, messageId)) : (Nat ×ₗ id)ᵒᵈ) :
    WithTop (Nat ×ₗ id)ᵒᵈ)

def position (m : MessageMetadata id) : Position id :=
  positionAt m.time m.messageId

def anchorPosition : Option (HistoricFetchContinuation id) -> Position id
  | none => ⊥
  | some c => positionAt c.anchorTime c.anchorMessageId

/-- The page that the server answers with. -/
def serverPage (mailbox : List (MessageMetadata id))
    (options : GetMessagesOptions id) : List (MessageMetadata id) :=
  match options.anchor, options.anchorId with
  | some time, some messageId =>
      (mailbox.filter (fun m => positionAt time messageId ≤ position m)).take
        options.pageSize
  | _, _ => mailbox.take options.pageSize

/--
The mailbox at the time of each request.  Between two of them messages are
deleted and newer ones arrive.
-/
structure History (from? : Option (HistoricFetchContinuation id)) where
  mailbox : Nat -> List (MessageMetadata id)
  sorted : forall i, Ascending position (mailbox i)
  unique : forall i, ((mailbox i).map MessageMetadata.messageId).Nodup
  newer : forall i m, m ∈ mailbox (i + 1) -> m ∈ mailbox i ∨
    ((forall j, j ≤ i -> forall m', m' ∈ mailbox j -> position m < position m') ∧
      forall c, c ∈ from? -> position m < anchorPosition (some c))

/-- Every request is answered, and nothing is cancelled. -/
structure Serves {from? : Option (HistoricFetchContinuation id)}
    (history : History from?) (env : Environment id) : Prop where
  getMessages : forall i options, exists total,
    env.getMessages i options = Reply.response
      { messages := serverPage (history.mailbox i) options
        total := total }
  cancelled : forall i, env.cancelled i = false

/-- The next batch after an anchor. -/
def batchAfter (batchSize : Nat) (anchor : Option (HistoricFetchContinuation id))
    (mailbox : List (MessageMetadata id)) : List (MessageMetadata id) :=
  (remaining position ⊤ (anchorPosition anchor) mailbox).take batchSize

/-!
# One page
-/

variable {m : MessageMetadata id} {batchSize : Nat}
  {anchor : Option (HistoricFetchContinuation id)}

theorem mem_remaining {mailbox : List (MessageMetadata id)} {e c : Position id} :
    m ∈ remaining position e c mailbox ↔
      m ∈ mailbox ∧ c < position m ∧ position m ≤ e := by
  unfold remaining
  rw [List.mem_filter, decide_eq_true_iff]

theorem remaining_top (mailbox : List (MessageMetadata id)) (c : Position id) :
    remaining position ⊤ c mailbox =
      mailbox.filter (fun m => c < position m) := by
  unfold remaining
  refine List.filter_congr ?_
  intro m _
  exact decide_eq_decide.mpr (and_iff_left le_top)

theorem remaining_bot (mailbox : List (MessageMetadata id)) :
    remaining position ⊤ ⊥ mailbox = mailbox := by
  rw [remaining_top]
  refine List.filter_eq_self.mpr ?_
  intro m _
  exact decide_eq_true (WithBot.bot_lt_coe _)

theorem dropAnchor_first {messageId : id} {rest : List (MessageMetadata id)}
    (hid : m.messageId = messageId) :
    (FetchState.dropAnchor batchSize messageId
      ((m :: rest).take (batchSize + 1))).take batchSize =
        rest.take batchSize := by
  rw [List.take_succ_cons]
  unfold FetchState.dropAnchor
  dsimp only
  rw [if_pos hid, List.take_take, Nat.min_self]

theorem dropAnchor_gone {messageId : id} {rest : List (MessageMetadata id)}
    (hid : m.messageId ≠ messageId) :
    (FetchState.dropAnchor batchSize messageId
      ((m :: rest).take (batchSize + 1))).take batchSize =
        (m :: rest).take batchSize := by
  have hdrop : FetchState.dropAnchor batchSize messageId
      ((m :: rest).take (batchSize + 1)) =
        if batchSize < ((m :: rest).take (batchSize + 1)).length then
          ((m :: rest).take (batchSize + 1)).dropLast
        else (m :: rest).take (batchSize + 1) := by
    rw [List.take_succ_cons]
    unfold FetchState.dropAnchor
    exact if_neg hid
  rw [hdrop]
  split
  · rename_i hlength
    have hfull : ((m :: rest).take (batchSize + 1)).length = batchSize + 1 := by
      have hle := List.length_take_le (batchSize + 1) (m :: rest)
      omega
    rw [List.dropLast_eq_take, hfull, Nat.add_sub_cancel, List.take_take,
      List.take_take, Nat.min_self, Nat.min_eq_left (Nat.le_succ _)]
  · rw [List.take_take, Nat.min_eq_left (Nat.le_succ _)]

omit [LinearOrder id] in
theorem messageId_of_position {time : Nat} {messageId : id}
    (h : position m = positionAt time messageId) :
    m.messageId = messageId := by
  unfold position positionAt at h
  have hpair : (m.time, m.messageId) = (time, messageId) :=
    toLex.injective (OrderDual.toDual.injective
      (WithTop.coe_injective (WithBot.coe_injective h)))
  exact congrArg Prod.snd hpair

theorem dropAnchor_page {mailbox : List (MessageMetadata id)}
    (hsorted : Ascending position mailbox) {time : Nat} {messageId : id}
    (hanchor : forall m, m ∈ mailbox -> m.messageId = messageId ->
      ¬ positionAt time messageId < position m) :
    (FetchState.dropAnchor batchSize messageId
        ((mailbox.filter (fun m => positionAt time messageId ≤ position m)).take
          (batchSize + 1))).take batchSize =
      (mailbox.filter (fun m => positionAt time messageId < position m)).take
        batchSize := by
  induction mailbox with
  | nil => rfl
  | cons m rest ih =>
      rcases List.pairwise_cons.mp hsorted with ⟨hlater, hrest⟩
      have hall : positionAt time messageId ≤ position m ->
          rest.filter (fun m => positionAt time messageId ≤ position m) = rest ∧
            rest.filter (fun m => positionAt time messageId < position m) =
              rest := by
        intro hle
        constructor
        · refine List.filter_eq_self.mpr ?_
          intro m' hm'
          exact decide_eq_true (le_of_lt (lt_of_le_of_lt hle (hlater m' hm')))
        · refine List.filter_eq_self.mpr ?_
          intro m' hm'
          exact decide_eq_true (lt_of_le_of_lt hle (hlater m' hm'))
      rcases lt_trichotomy (position m) (positionAt time messageId) with
        hbefore | hequal | hafter
      · rw [List.filter_cons_of_neg (by simpa using hbefore),
          List.filter_cons_of_neg (by simpa using hbefore.le)]
        exact ih hrest (fun m' hm' => hanchor m' (List.mem_cons_of_mem _ hm'))
      · rw [List.filter_cons_of_pos (by simpa using hequal.ge),
          List.filter_cons_of_neg (by simpa using hequal.le),
          (hall hequal.ge).left, (hall hequal.ge).right]
        exact dropAnchor_first (messageId_of_position hequal)
      · rw [List.filter_cons_of_pos (by simpa using hafter.le),
          List.filter_cons_of_pos (by simpa using hafter),
          (hall hafter.le).left, (hall hafter.le).right]
        exact dropAnchor_gone
          (fun hid => hanchor m List.mem_cons_self hid hafter)

/-!
# One round of the loops
-/

/-- Messages with the id of an anchor do not come after it. -/
def AnchorAt (anchor : Option (HistoricFetchContinuation id))
    (mailbox : List (MessageMetadata id)) : Prop :=
  forall c, c ∈ anchor -> forall m, m ∈ mailbox ->
    m.messageId = c.anchorMessageId ->
    ¬ positionAt c.anchorTime c.anchorMessageId < position m

/-- The options of the request that is made from an anchor. -/
def optionsFrom (batchSize : Nat)
    (anchor : Option (HistoricFetchContinuation id)) : GetMessagesOptions id :=
  match anchor with
  | none => { pageSize := batchSize, anchor := none, anchorId := none }
  | some c =>
      { pageSize := batchSize + 1
        anchor := some c.anchorTime
        anchorId := some c.anchorMessageId }

omit [LinearOrder id] in
theorem request_start (hbatch : 0 < batchSize)
    (anchor : Option (HistoricFetchContinuation id)) :
    (FetchState.start anchor).request batchSize =
      Except.ok (some (optionsFrom batchSize anchor)) := by
  have hnone : ¬ batchSize ≤ 0 := Nat.not_le_of_lt hbatch
  unfold FetchState.request FetchState.start
  cases anchor with
  | none =>
      dsimp only
      rw [if_neg hnone]
      rfl
  | some c =>
      dsimp only
      rw [if_neg hnone]
      rfl

theorem receive_start {total : Nat} (hbatch : 0 < batchSize)
    {mailbox : List (MessageMetadata id)} (hsorted : Ascending position mailbox)
    (hanchor : AnchorAt anchor mailbox) :
    exists f : FetchState id,
      (FetchState.start anchor).receive batchSize
          ⟨serverPage mailbox (optionsFrom batchSize anchor), total⟩ =
        (f, decide (batchSize ≤ f.accumulated.length)) ∧
      f.accumulated = batchAfter batchSize anchor mailbox ∧
      f.totalFetched = f.accumulated.length := by
  have htrim : forall f : FetchState id,
      f.totalPages = (FetchState.start anchor).totalPages ->
      f.lastMessageId = (FetchState.start anchor).lastMessageId ->
      (FetchState.trim batchSize f
        (serverPage mailbox (optionsFrom batchSize anchor))).take
          (batchSize - 0) = batchAfter batchSize anchor mailbox := by
    intro f hpages hid
    unfold FetchState.trim batchAfter
    rw [hpages, hid, Nat.sub_zero]
    cases anchor with
    | none =>
        unfold anchorPosition
        rw [remaining_bot]
        change (mailbox.take batchSize).take batchSize = _
        rw [List.take_take, Nat.min_self]
    | some c =>
        rw [remaining_top]
        exact dropAnchor_page hsorted (hanchor c rfl)
  unfold FetchState.receive
  dsimp only [FetchState.start] at htrim ⊢
  rw [htrim _ rfl rfl]
  cases hlast : (batchAfter batchSize anchor mailbox).getLast? with
  | none =>
      refine ⟨_, congrArg (Prod.mk _) ?_,
        (List.getLast?_eq_none_iff.mp hlast).symm, rfl⟩
      exact (decide_eq_false (Nat.not_le_of_lt hbatch)).symm
  | some m =>
      refine ⟨_, rfl, rfl, ?_⟩
      exact Nat.zero_add _

namespace WalkState

variable {config : WalkerConfig} {env : Environment id}
  {from? : Option (HistoricFetchContinuation id)} {history : History from?}
  {s : WalkState id}

/-- The state when a request has been answered. -/
def fetched (f : FetchState id) (s : WalkState id) : WalkState id :=
  { s with
    fetch := f
    rounds := s.rounds + 1
    requests := s.requests + 1 }

theorem step_start (hbatch : 0 < config.batchSize)
    (hserves : Serves history env)
    (hstart : s.fetch = FetchState.start s.currentAnchor)
    (hanchor : AnchorAt s.currentAnchor (history.mailbox s.requests)) :
    exists f : FetchState id,
      f.accumulated = batchAfter config.batchSize s.currentAnchor
        (history.mailbox s.requests) ∧
      f.totalFetched = f.accumulated.length ∧
      s.step config env =
        if config.batchSize ≤ f.accumulated.length then
          Step.next (s.fetched f)
        else
          (s.fetched f).deliver config env := by
  rcases hserves.getMessages s.requests
    (optionsFrom config.batchSize s.currentAnchor) with ⟨total, hreply⟩
  rcases receive_start hbatch
    (history.sorted s.requests) hanchor with ⟨f, hreceive, hmessages, htotal⟩
  refine ⟨f, hmessages, htotal, ?_⟩
  unfold step
  rw [hserves.cancelled]
  dsimp only
  rw [hstart, request_start hbatch]
  dsimp only
  rw [hreply]
  dsimp only
  rw [hreceive]
  by_cases hfull : config.batchSize ≤ f.accumulated.length
  · rw [if_pos hfull, decide_eq_true hfull]
    rfl
  · rw [if_neg hfull, decide_eq_false hfull]
    rfl

theorem step_full (hserves : Serves history env)
    (hfull : config.batchSize ≤ s.fetch.totalFetched) :
    s.step config env =
      ({ s with rounds := s.rounds + 1 } : WalkState id).deliver config env := by
  unfold step
  rw [hserves.cancelled]
  unfold FetchState.request
  dsimp only
  rw [if_pos hfull]
  rfl

end WalkState

/-!
# Anchors
-/

section Anchors

variable {from? : Option (HistoricFetchContinuation id)}
  {history : History from?}

/--
From request `i` on, no message comes after the anchor that was not there
before, and none that has its id.
-/
structure Anchored (history : History from?)
    (anchor : Option (HistoricFetchContinuation id)) (i : Nat) : Prop where
  shrinks : forall j, i ≤ j -> forall m, m ∈ history.mailbox (j + 1) ->
    anchorPosition anchor < position m -> m ∈ history.mailbox j
  first : AnchorAt anchor (history.mailbox i)

theorem Anchored.later {i j : Nat} (h : Anchored history anchor i) (hij : i ≤ j) :
    forall m, m ∈ history.mailbox j -> anchorPosition anchor < position m ->
      m ∈ history.mailbox i := by
  induction hij with
  | refl => exact fun m hm _ => hm
  | step hle ih =>
      intro m hm hafter
      exact ih m (h.shrinks _ hle m hm hafter) hafter

theorem Anchored.anchorAt {i j : Nat} (h : Anchored history anchor i)
    (hij : i ≤ j) :
    AnchorAt anchor (history.mailbox j) := by
  intro c hc m hm hid hafter
  have hposition : anchorPosition anchor < position m := by
    rw [Option.mem_def.mp hc]
    exact hafter
  exact h.first c hc m (h.later hij m hm hposition) hid hafter

theorem Anchored.mono {i j : Nat} (h : Anchored history anchor i) (hij : i ≤ j) :
    Anchored history anchor j :=
  ⟨fun k hk => h.shrinks k (hij.trans hk), h.anchorAt hij⟩

theorem anchored_from {c : HistoricFetchContinuation id} (hc : from? = some c)
    (hfirst : AnchorAt from? (history.mailbox 0)) :
    Anchored history from? 0 := by
  constructor
  · intro j _ m hm hafter
    rcases history.newer j m hm with hold | ⟨_, hnewer⟩
    · exact hold
    · rw [hc] at hafter
      exact absurd hafter (lt_asymm (hnewer c hc))
  · exact hfirst

theorem anchored_message {i : Nat} (hm : m ∈ history.mailbox i) :
    Anchored history (some ⟨m.time, m.messageId⟩) i := by
  constructor
  · intro j hij m' hm' hafter
    rcases history.newer j m' hm' with hold | ⟨hnewer, _⟩
    · exact hold
    · exact absurd hafter (lt_asymm (hnewer i hij m hm))
  · intro c hc m' hm' hid hafter
    cases hc
    have heq := List.inj_on_of_nodup_map (history.unique i) hm' hm hid
    rw [heq] at hafter
    exact lt_irrefl _ hafter

end Anchors

/-!
# Batches one after another
-/

/-- A page: what was in a mailbox after one position, up to another. -/
structure Page (id : Type) where
  mailbox : List (MessageMetadata id)
  after : Position id
  upTo : Position id

namespace Page

def Covers (page : Page id) (p : Position id) : Prop :=
  page.after < p ∧ p ≤ page.upTo

def messages (page : Page id) : List (MessageMetadata id) :=
  remaining position page.upTo page.after page.mailbox

end Page

/--
Pages from a position to the end, of the mailboxes from request `i` on.  No page
ends where it starts.
-/
inductive Walked (mailbox : Nat -> List (MessageMetadata id)) :
    Position id -> Nat -> List (Page id) -> Prop where
  | last (p : Position id) (i : Nat) (hp : p < ⊤) :
      Walked mailbox p i [⟨mailbox i, p, ⊤⟩]
  | next {p e : Position id} {i : Nat} {pages : List (Page id)} (hp : p < e)
      (he : e < ⊤) (hrest : Walked mailbox e (i + 1) pages) :
      Walked mailbox p i (⟨mailbox i, p, e⟩ :: pages)

/-- What a walk is to visit. -/
structure Visits (mailbox : Nat -> List (MessageMetadata id)) (p : Position id)
    (pages : List (Page id)) (visited : List (MessageMetadata id)) : Prop where
  messages : visited = pages.flatMap Page.messages
  ordered : Ascending position visited
  covered : forall q, p < q ->
    exists page, page ∈ pages ∧ page.Covers q ∧
      forall page', page' ∈ pages -> page'.Covers q -> page' = page
  mailboxes : pages.map Page.mailbox =
    (List.range pages.length).map mailbox

theorem Walked.after {mailbox : Nat -> List (MessageMetadata id)}
    {p : Position id} {i : Nat} {pages : List (Page id)}
    (h : Walked mailbox p i pages) :
    forall page, page ∈ pages -> p ≤ page.after := by
  induction h with
  | last p i hp =>
      intro page hpage
      rw [List.mem_singleton.mp hpage]
  | next hp he hrest ih =>
      intro page hpage
      rcases List.mem_cons.mp hpage with heq | hmem
      · rw [heq]
      · exact hp.le.trans (ih page hmem)

theorem Walked.ordered {mailbox : Nat -> List (MessageMetadata id)}
    (hsorted : forall i, Ascending position (mailbox i))
    {p : Position id} {i : Nat} {pages : List (Page id)}
    (h : Walked mailbox p i pages) :
    Ascending position (pages.flatMap Page.messages) := by
  induction h with
  | last p i hp =>
      rw [List.flatMap_cons, List.flatMap_nil, List.append_nil]
      exact (hsorted i).filter _
  | next hp he hrest ih =>
      rename_i e i pages
      rw [List.flatMap_cons]
      refine List.pairwise_append.mpr ⟨(hsorted i).filter _, ih, ?_⟩
      intro m hm m' hm'
      rcases List.mem_flatMap.mp hm' with ⟨page, hpage, hmem⟩
      have hbefore := (mem_remaining.mp hm).right.right
      have hafter := (mem_remaining.mp hmem).right.left
      exact lt_of_le_of_lt (hbefore.trans (hrest.after page hpage)) hafter

theorem Walked.covered {mailbox : Nat -> List (MessageMetadata id)}
    {p : Position id} {i : Nat} {pages : List (Page id)}
    (h : Walked mailbox p i pages) {q : Position id} (hq : p < q) :
    exists page, page ∈ pages ∧ page.Covers q ∧
      forall page', page' ∈ pages -> page'.Covers q -> page' = page := by
  induction h with
  | last p i hp =>
      refine ⟨_, List.mem_cons_self, ⟨hq, le_top⟩, ?_⟩
      intro page' hpage' _
      exact List.mem_singleton.mp hpage'
  | next hp he hrest ih =>
      rename_i e i pages
      by_cases hle : q ≤ e
      · refine ⟨_, List.mem_cons_self, ⟨hq, hle⟩, ?_⟩
        intro page' hpage' hcovers
        rcases List.mem_cons.mp hpage' with heq | hmem
        · exact heq
        · exact absurd (lt_of_le_of_lt (hrest.after page' hmem) hcovers.left)
            (not_lt.mpr hle)
      · rcases ih (not_le.mp hle) with ⟨page, hpage, hcovers, honly⟩
        refine ⟨page, List.mem_cons_of_mem _ hpage, hcovers, ?_⟩
        intro page' hpage' hcovers'
        rcases List.mem_cons.mp hpage' with heq | hmem
        · rw [heq] at hcovers'
          exact absurd hcovers'.right hle
        · exact honly page' hmem hcovers'

theorem Walked.mailboxes {mailbox : Nat -> List (MessageMetadata id)}
    {p : Position id} {i : Nat} {pages : List (Page id)}
    (h : Walked mailbox p i pages) :
    pages.map Page.mailbox =
      (List.range pages.length).map (fun j => mailbox (i + j)) := by
  induction h with
  | last p i hp => rfl
  | next hp he hrest ih =>
      rename_i e i pages
      rw [List.map_cons, List.length_cons, List.range_succ_eq_map,
        List.map_cons, ih, List.map_map]
      refine congrArg (List.cons (mailbox i)) (List.map_congr_left ?_)
      intro j _
      change mailbox (i + 1 + j) = mailbox (i + (j + 1))
      rw [Nat.add_right_comm, Nat.add_assoc]

theorem Walked.visits {mailbox : Nat -> List (MessageMetadata id)}
    (hsorted : forall i, Ascending position (mailbox i))
    {p : Position id} {pages : List (Page id)}
    (h : Walked mailbox p 0 pages) :
    Visits mailbox p pages (pages.flatMap Page.messages) := by
  constructor
  · rfl
  · exact h.ordered hsorted
  · exact fun q hq => h.covered hq
  · rw [h.mailboxes]
    simp

namespace WalkState

variable {config : WalkerConfig} {env : Environment id}
  {from? : Option (HistoricFetchContinuation id)} {history : History from?}
  {s : WalkState id}

/-!
# Walks that go on
-/

def Continues (env : Environment id) : Prop :=
  forall i batch, env.onBatch i batch =
    Except.ok HistoricBatchOutcome.continue

theorem run_next {s' : WalkState id} (h : s.step config env = Step.next s')
    (n : Nat) : run config env (n + 1) s = run config env n s' := by
  rw [run, h]

theorem run_stop {s' : WalkState id} {outcome : WalkOutcome}
    (h : s.step config env = Step.stop s' outcome) (n : Nat) :
    run config env (n + 1) s = (s', some outcome) := by
  rw [run, h]

/-- The batches that have been delivered. -/
def observed (s : WalkState id) : List (List (MessageMetadata id)) :=
  s.deliveries.map (fun delivery => delivery.batch.messages)

omit [LinearOrder id] in
theorem deliver_last (hcontinues : Continues env)
    (hshort : s.fetch.accumulated.length < config.batchSize) :
    exists s', s.deliver config env = Step.stop s' WalkOutcome.completed ∧
      s'.observed = s.observed ++
        [s.fetch.accumulated].filter (fun batch => batch ≠ []) := by
  unfold deliver
  by_cases hnil : s.fetch.accumulated = []
  · refine ⟨s, if_pos hnil, ?_⟩
    rw [hnil]
    simp
  · have hanswer : (s.delivery config env).answer =
        Except.ok HistoricBatchOutcome.continue := hcontinues _ _
    have hlast : (s.delivery config env).batch.isLastBatch = true :=
      decide_eq_true hshort
    dsimp only
    rw [if_neg hnil, hanswer, hlast]
    refine ⟨_, rfl, ?_⟩
    unfold observed
    simp [hnil, delivery, batch]

omit [LinearOrder id] in
theorem deliver_full (hcontinues : Continues env)
    (hbatch : 0 < config.batchSize)
    (hfull : config.batchSize ≤ s.fetch.accumulated.length) :
    exists s', s.deliver config env = Step.next s' ∧
      s'.currentAnchor = nextAnchor s.fetch.accumulated ∧
      s'.fetch = FetchState.start s'.currentAnchor ∧
      s'.requests = s.requests ∧
      s'.observed = s.observed ++ [s.fetch.accumulated] := by
  have hne : s.fetch.accumulated ≠ [] := by
    intro hnil
    rw [hnil, List.length_nil] at hfull
    omega
  have hanswer : (s.delivery config env).answer =
      Except.ok HistoricBatchOutcome.continue := hcontinues _ _
  have hlast : (s.delivery config env).batch.isLastBatch = false :=
    decide_eq_false (Nat.not_lt_of_le hfull)
  unfold deliver
  dsimp only
  rw [if_neg hne, hanswer, hlast]
  refine ⟨_, rfl, rfl, rfl, rfl, ?_⟩
  unfold observed
  exact List.map_append

theorem run_batch (hbatch : 0 < config.batchSize)
    (hserves : Serves history env) (hcontinues : Continues env)
    (hstart : s.fetch = FetchState.start s.currentAnchor)
    (hanchor : AnchorAt s.currentAnchor (history.mailbox s.requests)) :
    let batch := batchAfter config.batchSize s.currentAnchor
      (history.mailbox s.requests)
    (batch.length < config.batchSize ∧ exists s',
        run config env 1 s = (s', some WalkOutcome.completed) ∧
          s'.observed = s.observed ++
            [batch].filter (fun batch => batch ≠ [])) ∨
      (config.batchSize ≤ batch.length ∧ exists s',
        (forall n, run config env (n + 2) s = run config env n s') ∧
          s'.currentAnchor = nextAnchor batch ∧
          s'.fetch = FetchState.start s'.currentAnchor ∧
          s'.requests = s.requests + 1 ∧
          s'.observed = s.observed ++ [batch]) := by
  dsimp only
  rcases step_start hbatch hserves hstart hanchor with
    ⟨f, hmessages, htotal, hstep⟩
  rw [<- hmessages]
  by_cases hfull : config.batchSize ≤ f.accumulated.length
  · rw [if_pos hfull] at hstep
    have hsecond := step_full (s := s.fetched f) hserves
      (hfull.trans (Nat.le_of_eq htotal.symm))
    rcases deliver_full
      (s := { s.fetched f with rounds := (s.fetched f).rounds + 1 })
      hcontinues hbatch hfull with ⟨s', hdeliver, hnext, hfresh, hrequests, hseen⟩
    refine Or.inr ⟨hfull, s', ?_, hnext, hfresh, hrequests, hseen⟩
    intro n
    rw [run_next hstep, run_next (hsecond.trans hdeliver)]
  · rw [if_neg hfull] at hstep
    have hshort := Nat.lt_of_not_le hfull
    rcases deliver_last (s := s.fetched f) hcontinues hshort with
      ⟨s', hdeliver, hseen⟩
    exact Or.inl ⟨hshort, s', run_stop (hstep.trans hdeliver) 0, hseen⟩

/-- The next fetch after a page, and what is left for it. -/
structure Advanced (history : History from?) (batchSize : Nat)
    (s s' : WalkState id) (e : Position id) : Prop where
  after : anchorPosition s.currentAnchor < e
  inside : e < ⊤
  anchor : anchorPosition s'.currentAnchor = e
  fetch : s'.fetch = FetchState.start s'.currentAnchor
  requests : s'.requests = s.requests + 1
  anchored : Anchored history s'.currentAnchor s.requests
  observed : s'.observed = s.observed ++ [remaining position e
    (anchorPosition s.currentAnchor) (history.mailbox s.requests)]
  nonempty : remaining position e
    (anchorPosition s.currentAnchor) (history.mailbox s.requests) ≠ []
  left : (remaining position ⊤ e (history.mailbox s.requests)).length +
      batchSize =
    (remaining position ⊤ (anchorPosition s.currentAnchor)
      (history.mailbox s.requests)).length

theorem run_page (hbatch : 0 < config.batchSize)
    (hserves : Serves history env) (hcontinues : Continues env)
    (hstart : s.fetch = FetchState.start s.currentAnchor)
    (hanchor : AnchorAt s.currentAnchor (history.mailbox s.requests)) :
    (exists s', run config env 1 s = (s', some WalkOutcome.completed) ∧
        s'.observed = s.observed ++ [remaining position ⊤
          (anchorPosition s.currentAnchor)
          (history.mailbox s.requests)].filter (fun batch => batch ≠ [])) ∨
      exists s' e, (forall n, run config env (n + 2) s = run config env n s') ∧
        Advanced history config.batchSize s s' e := by
  have hsorted := history.sorted s.requests
  rcases run_batch hbatch hserves hcontinues hstart hanchor with
    ⟨hshort, s', hrun, hobserved⟩ | ⟨hfull, s', hrun, hnext, hfetch, hrequests,
      hobserved⟩
  · refine Or.inl ⟨s', hrun, ?_⟩
    have hall : batchAfter config.batchSize s.currentAnchor
        (history.mailbox s.requests) = remaining position ⊤
          (anchorPosition s.currentAnchor) (history.mailbox s.requests) := by
      unfold batchAfter at hshort ⊢
      rw [List.length_take] at hshort
      exact List.take_of_length_le (by omega)
    rw [hobserved, hall]
  · have hne : batchAfter config.batchSize s.currentAnchor
        (history.mailbox s.requests) ≠ [] := by
      intro hnil
      rw [hnil, List.length_nil] at hfull
      omega
    have hupTo := remaining_upTo hsorted hne
    have hadvance := remaining_advance hsorted hne
    rcases List.eq_nil_or_concat (batchAfter config.batchSize s.currentAnchor
      (history.mailbox s.requests)) with hnil | ⟨before, m, hlast⟩
    · exact absurd hnil hne
    · rw [List.concat_eq_append] at hlast
      have hm : m ∈ batchAfter config.batchSize s.currentAnchor
          (history.mailbox s.requests) := by
        rw [hlast]
        exact List.mem_append_right _ List.mem_cons_self
      have hmem := mem_remaining.mp (List.mem_of_mem_take hm)
      have he : advance (k := position) ⊤ (batchAfter config.batchSize
          s.currentAnchor (history.mailbox s.requests)) = position m := by
        unfold advance
        rw [hlast, List.getLast?_concat]
        rfl
      have hcurrent : s'.currentAnchor = some ⟨m.time, m.messageId⟩ := by
        rw [hnext, hlast]
        unfold nextAnchor
        rw [List.getLast?_concat]
        rfl
      unfold batchAfter at he hfull hobserved hne
      rw [he] at hupTo hadvance
      refine Or.inr ⟨s', position m, hrun, ?_⟩
      constructor
      · exact hmem.right.left
      · exact WithBot.coe_lt_coe.mpr (WithTop.coe_lt_top _)
      · rw [hcurrent]
        rfl
      · exact hfetch
      · exact hrequests
      · rw [hcurrent]
        exact anchored_message hmem.left
      · rw [hupTo]
        exact hobserved
      · rw [hupTo]
        exact hne
      · rw [hadvance, List.length_drop]
        rw [List.length_take] at hfull
        omega

/-- The pages of a walk, and how it ends. -/
def Walks (config : WalkerConfig) (env : Environment id)
    (history : History from?) (s : WalkState id) : Prop :=
  exists fuel s' pages,
    run config env fuel s = (s', some WalkOutcome.completed) ∧
      Walked history.mailbox (anchorPosition s.currentAnchor) s.requests
        pages ∧
      s'.observed = s.observed ++
        (pages.map Page.messages).filter (fun batch => batch ≠ [])

theorem walks_last {s' : WalkState id}
    (hrun : run config env 1 s = (s', some WalkOutcome.completed))
    (hobserved : s'.observed = s.observed ++ [remaining position ⊤
      (anchorPosition s.currentAnchor)
      (history.mailbox s.requests)].filter (fun batch => batch ≠ []))
    (hp : anchorPosition s.currentAnchor < ⊤) :
    Walks config env history s :=
  ⟨1, s', _, hrun, Walked.last _ _ hp, hobserved⟩

theorem walks_next {s' : WalkState id} {e : Position id}
    (hrun : forall n, run config env (n + 2) s = run config env n s')
    (hadvanced : Advanced history config.batchSize s s' e)
    (hwalks : Walks config env history s') : Walks config env history s := by
  rcases hwalks with ⟨fuel, s'', pages, hrest, hwalked, hobserved⟩
  rw [hadvanced.anchor, hadvanced.requests] at hwalked
  refine ⟨fuel + 2, s'', _, (hrun fuel).trans hrest,
    Walked.next hadvanced.after hadvanced.inside hwalked, ?_⟩
  have hpage : Page.messages ⟨history.mailbox s.requests,
      anchorPosition s.currentAnchor, e⟩ ≠ [] := hadvanced.nonempty
  rw [hobserved, hadvanced.observed, List.map_cons,
    List.filter_cons_of_pos (by simpa using hpage), List.append_assoc]
  rfl

theorem anchorPosition_lt_top
    (anchor : Option (HistoricFetchContinuation id)) :
    anchorPosition anchor < ⊤ := by
  cases anchor with
  | none => exact bot_lt_top
  | some c => exact WithBot.coe_lt_coe.mpr (WithTop.coe_lt_top _)

theorem walks_anchored (hbatch : 0 < config.batchSize)
    (hserves : Serves history env) (hcontinues : Continues env) {n : Nat}
    (hstart : s.fetch = FetchState.start s.currentAnchor)
    (hanchored : Anchored history s.currentAnchor s.requests)
    (hn : (remaining position ⊤ (anchorPosition s.currentAnchor)
      (history.mailbox s.requests)).length ≤ n) :
    Walks config env history s := by
  induction n using Nat.strong_induction_on generalizing s with
  | _ n ih =>
      rcases run_page hbatch hserves hcontinues hstart hanchored.first with
        ⟨s', hrun, hobserved⟩ | ⟨s', e, hrun, hadvanced⟩
      · exact walks_last hrun hobserved (anchorPosition_lt_top _)
      · have hlater := hadvanced.anchored.mono
          (Nat.le_of_eq hadvanced.requests.symm |>.trans' (Nat.le_succ _))
        have hsublist : (remaining position ⊤ e
            (history.mailbox s'.requests)).length ≤
              (remaining position ⊤ e (history.mailbox s.requests)).length := by
          have hnodup : (remaining position ⊤ e
              (history.mailbox s'.requests)).Nodup :=
            ((history.sorted _).filter _).nodup
          refine (hnodup.subperm ?_).length_le
          intro m hm
          have hmem := mem_remaining.mp hm
          have hle : s.requests ≤ s'.requests := by
            rw [hadvanced.requests]
            exact Nat.le_succ _
          refine mem_remaining.mpr ⟨?_, hmem.right⟩
          exact hadvanced.anchored.later hle m hmem.left
            (by rw [hadvanced.anchor]; exact hmem.right.left)
        have hleft := hadvanced.left
        refine walks_next hrun hadvanced (ih (n - 1) (by omega)
          hadvanced.fetch hlater ?_)
        rw [hadvanced.anchor]
        omega

theorem walks_start (hbatch : 0 < config.batchSize)
    (hserves : Serves history env) (hcontinues : Continues env)
    (hfrom : AnchorAt from? (history.mailbox 0)) :
    Walks config env history (start from?) := by
  rcases Option.eq_none_or_eq_some from? with hnone | ⟨c, hc⟩
  · rcases run_page (s := start from?) hbatch hserves hcontinues rfl hfrom with
      ⟨s', hrun, hobserved⟩ | ⟨s', e, hrun, hadvanced⟩
    · exact walks_last hrun hobserved (anchorPosition_lt_top _)
    · refine walks_next hrun hadvanced (walks_anchored (n := _) hbatch hserves
        hcontinues hadvanced.fetch (hadvanced.anchored.mono ?_) le_rfl)
      rw [hadvanced.requests]
      exact Nat.le_succ _
  · exact walks_anchored (n := _) hbatch hserves hcontinues rfl
      (anchored_from hc hfrom) le_rfl

/-!
# Batches that the observer failed on
-/

/-- The mailbox in which a batch was completed. -/
def mailboxOf (history : History from?) (d : Delivery id) :
    List (MessageMetadata id) :=
  history.mailbox (d.requests - 1)

/--
A batch is delivered again: what comes next after the same anchor now, with all
messages that are still there.  Without an anchor, newer ones may come before.
-/
structure Redelivers (history : History from?) (batchSize : Nat)
    (d d' : Delivery id) : Prop where
  anchor : d'.anchor = d.anchor
  messages : d'.batch.messages =
    batchAfter batchSize d.anchor (mailboxOf history d')
  kept : (d.anchor = none -> mailboxOf history d' ⊆ mailboxOf history d) ->
    forall m, m ∈ d.batch.messages -> m ∈ mailboxOf history d' ->
      m ∈ d'.batch.messages

/-- A batch came after its anchor. -/
structure Fetched (history : History from?) (batchSize : Nat)
    (d : Delivery id) : Prop where
  messages : d.batch.messages =
    batchAfter batchSize d.anchor (mailboxOf history d)
  anchored : d.anchor = none ∨ Anchored history d.anchor (d.requests - 1)

theorem Fetched.redelivers {d d' : Delivery id}
    (h : Fetched history batchSize d) (h' : Fetched history batchSize d')
    (hanchor : d'.anchor = d.anchor) (hle : d.requests ≤ d'.requests) :
    Redelivers history batchSize d d' := by
  have hmessages := h'.messages
  rw [hanchor] at hmessages
  refine ⟨hanchor, hmessages, ?_⟩
  intro hsame m hm hm'
  have hsubset : remaining position ⊤ (anchorPosition d.anchor)
      (mailboxOf history d') ⊆ remaining position ⊤ (anchorPosition d.anchor)
        (mailboxOf history d) := by
    intro x hx
    have hmem := mem_remaining.mp hx
    refine mem_remaining.mpr ⟨?_, hmem.right⟩
    rcases h.anchored with hnone | hanchored
    · exact hsame hnone hmem.left
    · exact hanchored.later (Nat.sub_le_sub_right hle 1) x hmem.left
        hmem.right.left
  rw [h.messages] at hm
  rw [hmessages]
  have hafter := mem_remaining.mp (List.mem_of_mem_take hm)
  exact Ascending.take_subset ((history.sorted _).filter _)
    ((history.sorted _).filter _) hsubset hm
    (mem_remaining.mpr ⟨hm', hafter.right⟩)

/-- A batch that follows one the observer failed on is a redelivery. -/
def Retried (history : History from?) (batchSize : Nat)
    (d d' : Delivery id) : Prop :=
  (exists e, d.answer = Except.error e) -> Redelivers history batchSize d d'

/-- Where the walk is between two rounds. -/
inductive Fetching (history : History from?) (batchSize : Nat)
    (s : WalkState id) : Prop where
  | start (hfetch : s.fetch = FetchState.start s.currentAnchor)
      (hanchored : s.currentAnchor = none ∨
        Anchored history s.currentAnchor s.requests) :
      Fetching history batchSize s
  | full (hfull : batchSize ≤ s.fetch.totalFetched)
      (hmessages : s.fetch.accumulated = batchAfter batchSize s.currentAnchor
        (history.mailbox (s.requests - 1)))
      (hanchored : s.currentAnchor = none ∨
        Anchored history s.currentAnchor (s.requests - 1)) :
      Fetching history batchSize s

structure Delivered (history : History from?) (batchSize : Nat)
    (s : WalkState id) : Prop where
  chain : List.IsChain (Retried history batchSize) s.deliveries
  fetched : forall d, d ∈ s.deliveries ->
    Fetched history batchSize d ∧ d.requests ≤ s.requests
  last : forall d, d ∈ s.deliveries.getLast? ->
    (exists e, d.answer = Except.error e) -> s.currentAnchor = d.anchor

theorem Delivered.congr {s' : WalkState id} (h : Delivered history batchSize s)
    (hdeliveries : s'.deliveries = s.deliveries)
    (hanchor : s'.currentAnchor = s.currentAnchor)
    (hrequests : s.requests ≤ s'.requests) :
    Delivered history batchSize s' := by
  constructor
  · rw [hdeliveries]
    exact h.chain
  · rw [hdeliveries]
    exact fun d hd => ⟨(h.fetched d hd).left,
      (h.fetched d hd).right.trans hrequests⟩
  · rw [hdeliveries, hanchor]
    exact h.last

theorem Delivered.append {d : Delivery id} (h : Delivered history batchSize s)
    (hfetched : Fetched history batchSize d)
    (hanchor : d.anchor = s.currentAnchor) (hrequests : d.requests = s.requests) :
    List.IsChain (Retried history batchSize) (s.deliveries ++ [d]) := by
  refine List.isChain_append.mpr
    ⟨h.chain, List.isChain_singleton d, ?_⟩
  intro before hbefore after hafter hfailed
  cases hafter
  have hmem := List.mem_of_getLast? hbefore
  refine (h.fetched before hmem).left.redelivers hfetched ?_ ?_
  · rw [hanchor]
    exact h.last before hbefore hfailed
  · rw [hrequests]
    exact (h.fetched before hmem).right

omit [LinearOrder id] in
theorem deliver_cases :
    s.deliver config env = Step.stop s WalkOutcome.completed ∨
      exists s', ((exists outcome, s.deliver config env = Step.stop s' outcome) ∨
          (s.deliver config env = Step.next s' ∧
            s'.fetch = FetchState.start s'.currentAnchor ∧
            (s'.currentAnchor = s.currentAnchor ∨
              ((s.delivery config env).answer =
                  Except.ok HistoricBatchOutcome.continue ∧
                s'.currentAnchor = nextAnchor s.fetch.accumulated)))) ∧
        s'.deliveries = s.deliveries ++ [s.delivery config env] ∧
        s'.requests = s.requests := by
  unfold deliver
  split
  · exact Or.inl rfl
  · right
    dsimp only
    split
    · rename_i hanswer
      split
      · exact ⟨_, Or.inl ⟨_, rfl⟩, rfl, rfl⟩
      · exact ⟨_, Or.inr ⟨rfl, rfl, Or.inr ⟨hanswer, rfl⟩⟩, rfl, rfl⟩
    · exact ⟨_, Or.inl ⟨_, rfl⟩, rfl, rfl⟩
    · exact ⟨_, Or.inl ⟨_, rfl⟩, rfl, rfl⟩
    · exact ⟨_, Or.inl ⟨_, rfl⟩, rfl, rfl⟩
    · exact ⟨_, Or.inr ⟨rfl, rfl, Or.inl rfl⟩, rfl, rfl⟩
    · split
      · exact ⟨_, Or.inl ⟨_, rfl⟩, rfl, rfl⟩
      · exact ⟨_, Or.inr ⟨rfl, rfl, Or.inl rfl⟩, rfl, rfl⟩

/-- What holds after a step, whether the walk goes on or not. -/
def After (history : History from?) (batchSize : Nat) : Step id -> Prop
  | Step.stop s _ => List.IsChain (Retried history batchSize) s.deliveries
  | Step.next s =>
      Delivered history batchSize s ∧ Fetching history batchSize s

theorem anchored_nextAnchor {messages : List (MessageMetadata id)} {i : Nat}
    (hmessages : forall m, m ∈ messages -> m ∈ history.mailbox i) :
    nextAnchor messages = none ∨ Anchored history (nextAnchor messages) i := by
  unfold nextAnchor
  cases hlast : messages.getLast? with
  | none => exact Or.inl rfl
  | some m =>
      exact Or.inr (anchored_message (hmessages m (List.mem_of_getLast? hlast)))

theorem after_deliver (hdelivered : Delivered history batchSize s)
    (hfetched : Fetched history batchSize (s.delivery config env)) :
    After history batchSize (s.deliver config env) := by
  have hchain := hdelivered.append hfetched rfl rfl
  rcases deliver_cases (s := s) with
    hstop | ⟨s', ⟨outcome, hstop⟩ | ⟨hnext, hfetch, hanchor⟩, hdeliveries,
      hrequests⟩
  · rw [hstop]
    exact hdelivered.chain
  · rw [hstop]
    unfold After
    dsimp only
    rw [hdeliveries]
    exact hchain
  · rw [hnext]
    constructor
    · constructor
      · rw [hdeliveries]
        exact hchain
      · intro d hd
        rw [hdeliveries] at hd
        rw [hrequests]
        rcases List.mem_append.mp hd with hold | hlast
        · exact hdelivered.fetched d hold
        · rw [List.mem_singleton.mp hlast]
          exact ⟨hfetched, le_rfl⟩
      · intro d hd hfailed
        rw [hdeliveries, List.getLast?_concat] at hd
        cases hd
        rcases hanchor with hsame | ⟨hcontinue, _⟩
        · exact hsame
        · rcases hfailed with ⟨e, he⟩
          rw [hcontinue] at he
          cases he
    · have hle : s.requests - 1 ≤ s'.requests := by
        rw [hrequests]
        exact Nat.sub_le _ _
      refine Fetching.start hfetch ?_
      rcases hanchor with hsame | ⟨_, hanchor⟩
      · rw [hsame]
        exact hfetched.anchored.imp (fun h => h) (fun h => h.mono hle)
      · rw [hanchor]
        refine (anchored_nextAnchor ?_).imp (fun h => h) (fun h => h.mono hle)
        intro m hm
        have hmessages : s.fetch.accumulated = batchAfter batchSize
            s.currentAnchor (history.mailbox (s.requests - 1)) :=
          hfetched.messages
        rw [hmessages] at hm
        exact (mem_remaining.mp (List.mem_of_mem_take hm)).left

theorem after_step (hbatch : 0 < config.batchSize)
    (hserves : Serves history env)
    (hdelivered : Delivered history config.batchSize s)
    (hfetching : Fetching history config.batchSize s) :
    After history config.batchSize (s.step config env) := by
  cases hfetching with
  | start hfetch hanchored =>
      have hanchor : AnchorAt s.currentAnchor (history.mailbox s.requests) := by
        rcases hanchored with hnone | hanchored
        · rw [hnone]
          exact fun c hc => nomatch hc
        · exact hanchored.first
      rcases step_start hbatch hserves hfetch hanchor with
        ⟨f, hmessages, htotal, hstep⟩
      have hafter : Delivered history config.batchSize (s.fetched f) :=
        hdelivered.congr rfl rfl (Nat.le_succ _)
      rw [hstep]
      split
      · rename_i hfull
        exact ⟨hafter, Fetching.full
          (hfull.trans (Nat.le_of_eq htotal.symm)) hmessages hanchored⟩
      · exact after_deliver hafter ⟨hmessages, hanchored⟩
  | full hfull hmessages hanchored =>
      rw [step_full hserves hfull]
      exact after_deliver (hdelivered.congr rfl rfl le_rfl)
        ⟨hmessages, hanchored⟩

theorem retried_run (hbatch : 0 < config.batchSize)
    (hserves : Serves history env) (n : Nat)
    (hdelivered : Delivered history config.batchSize s)
    (hfetching : Fetching history config.batchSize s) :
    List.IsChain (Retried history config.batchSize)
      (run config env n s).1.deliveries := by
  induction n generalizing s with
  | zero => exact hdelivered.chain
  | succ n ih =>
      have hafter := after_step hbatch hserves hdelivered hfetching
      cases hstep : s.step config env with
      | stop s' outcome =>
          rw [hstep] at hafter
          rw [run_stop hstep]
          exact hafter
      | next s' =>
          rw [hstep] at hafter
          rw [run_next hstep]
          exact ih hafter.left hafter.right

/-!
# The walk as a whole
-/

/--
A walk on which the observer always continues is completed, and visits the
messages after its anchor, page by page, as they are when the page is fetched.
Whatever the observer answers, a batch it failed on is delivered again.
-/
theorem visits_once (hbatch : 0 < config.batchSize)
    (hserves : Serves history env)
    (hfrom : AnchorAt from? (history.mailbox 0)) :
    (Continues env -> exists fuel s' pages,
        run config env fuel (start from?) = (s', some WalkOutcome.completed) ∧
        Visits history.mailbox (anchorPosition from?) pages
          s'.observed.flatten) ∧
      forall fuel, List.IsChain (Retried history config.batchSize)
        (run config env fuel (start from?)).1.deliveries := by
  constructor
  · intro hcontinues
    rcases walks_start hbatch hserves hcontinues hfrom with
      ⟨fuel, s', pages, hrun, hwalked, hobserved⟩
    refine ⟨fuel, s', pages, hrun, ?_⟩
    have hflatten : s'.observed.flatten = pages.flatMap Page.messages := by
      rw [hobserved]
      change ([] ++ _ : List (List (MessageMetadata id))).flatten = _
      rw [List.nil_append, List.flatMap_def]
      exact List.flatten_filter_ne_nil
    rw [hflatten]
    exact hwalked.visits history.sorted
  · intro fuel
    refine retried_run hbatch hserves fuel ?_ ?_
    · exact ⟨List.IsChain.nil, fun d hd => absurd hd List.not_mem_nil,
        fun d hd => nomatch hd⟩
    · refine Fetching.start rfl ?_
      rcases Option.eq_none_or_eq_some from? with hnone | ⟨c, hc⟩
      · exact Or.inl hnone
      · exact Or.inr (anchored_from hc hfrom)

theorem position_lt_of_time {m m' : MessageMetadata Nat}
    (h : m'.time < m.time) : position m < position m' :=
  WithBot.coe_lt_coe.mpr (WithTop.coe_lt_coe.mpr
    (Prod.Lex.toLex_lt_toLex.mpr (Or.inl h)))

theorem ascending_pair {m m' : MessageMetadata Nat} (h : m'.time < m.time) :
    Ascending position [m, m'] :=
  List.pairwise_pair.mpr (position_lt_of_time h)

/-- Two messages are deleted and one arrives after the first request. -/
def changing : History (some (⟨10, 4⟩ : HistoricFetchContinuation Nat)) where
  mailbox := fun i =>
    if i = 0 then [⟨10, 4⟩, ⟨9, 2⟩, ⟨5, 1⟩] else [⟨11, 3⟩, ⟨5, 1⟩]
  sorted := by
    intro i
    split
    · refine List.pairwise_cons.mpr ⟨?_, ascending_pair (by decide)⟩
      intro m hm
      refine position_lt_of_time ?_
      revert m
      decide
    · exact ascending_pair (by decide)
  unique := by
    intro i
    split
    · decide
    · decide
  newer := by
    intro i m hm
    rw [if_neg (Nat.succ_ne_zero i)] at hm
    by_cases hi : i = 0
    · rw [if_pos hi]
      rcases List.mem_cons.mp hm with heq | hm
      · rw [heq]
        refine Or.inr ⟨?_, ?_⟩
        · intro j hj m' hm'
          rw [if_pos (Nat.le_zero.mp (hi ▸ hj))] at hm'
          refine position_lt_of_time ?_
          revert m'
          decide
        · intro c hc
          cases hc
          have holder : (⟨10, 4⟩ : MessageMetadata Nat).time <
              (⟨11, 3⟩ : MessageMetadata Nat).time := by
            decide
          exact position_lt_of_time holder
      · exact Or.inl (List.mem_cons_of_mem _ (List.mem_cons_of_mem _ hm))
    · rw [if_neg hi]
      exact Or.inl hm

/-- A server that answers every request, and an observer that continues. -/
def serving {from? : Option (HistoricFetchContinuation Nat)}
    (history : History from?) : Environment Nat where
  getMessages := fun i options => Reply.response
    { messages := serverPage (history.mailbox i) options
      total := (history.mailbox i).length }
  onBatch := fun _ _ => Except.ok HistoricBatchOutcome.continue
  cancelled := fun _ => false

theorem serves_serving {from? : Option (HistoricFetchContinuation Nat)}
    (history : History from?) : Serves history (serving history) :=
  ⟨fun _ _ => ⟨_, rfl⟩, fun _ => rfl⟩

theorem changing_anchorAt :
    AnchorAt (some ⟨10, 4⟩) (changing.mailbox 0) := by
  intro c hc m hm hid hlt
  cases hc
  have hmessage : m = ⟨10, 4⟩ := by
    revert m
    decide
  rw [hmessage] at hlt
  exact lt_irrefl _ hlt

theorem changing_visited : exists fuel s' pages,
    run { batchSize := 1, maxRetryAttempts := 3 } (serving changing) fuel
        (start (some ⟨10, 4⟩)) = (s', some WalkOutcome.completed) ∧
      Visits changing.mailbox (anchorPosition (some ⟨10, 4⟩)) pages
        s'.observed.flatten :=
  (visits_once (by decide) (serves_serving changing)
    changing_anchorAt).left (fun _ _ => rfl)

/-- The message of the anchor is older than the anchor says. -/
def moved : History (some (⟨10, 7⟩ : HistoricFetchContinuation Nat)) where
  mailbox := fun _ => [⟨5, 7⟩, ⟨4, 8⟩]
  sorted := fun _ => ascending_pair (by decide)
  unique := fun _ => by decide
  newer := fun _ _ hm => Or.inl hm

/-- A message with the id of the anchor is taken for the anchor. -/
theorem moved_not_visited : ¬ forall (config : WalkerConfig)
    (env : Environment Nat) (from? : Option (HistoricFetchContinuation Nat))
    (history : History from?), 0 < config.batchSize -> Serves history env ->
    Continues env -> exists fuel s' pages,
      run config env fuel (start from?) = (s', some WalkOutcome.completed) ∧
        Visits history.mailbox (anchorPosition from?) pages
          s'.observed.flatten := by
  intro h
  rcases h { batchSize := 2, maxRetryAttempts := 3 } (serving moved) _ moved
    (by decide) (serves_serving moved) (fun _ _ => rfl) with
    ⟨fuel, s', pages, hrun, hvisits⟩
  have hobserved : s'.observed = [[⟨4, 8⟩]] := by
    cases fuel with
    | zero => cases hrun
    | succ n =>
        have hstep : exists s'', (start (some ⟨10, 7⟩)).step
            { batchSize := 2, maxRetryAttempts := 3 } (serving moved) =
              Step.stop s'' WalkOutcome.completed ∧
            s''.observed = [[⟨4, 8⟩]] := ⟨_, rfl, rfl⟩
        rcases hstep with ⟨s'', hstep, hobserved⟩
        rw [run_stop hstep] at hrun
        cases hrun
        exact hobserved
  have hafter : anchorPosition (some ⟨10, 7⟩) <
      position (⟨5, 7⟩ : MessageMetadata Nat) :=
    position_lt_of_time (m := ⟨10, 7⟩) (by decide)
  rcases hvisits.covered _ hafter with ⟨page, hpage, hcovers, _⟩
  have hmailbox : page.mailbox = [⟨5, 7⟩, ⟨4, 8⟩] := by
    have hmem := List.mem_map_of_mem (f := Page.mailbox) hpage
    rw [hvisits.mailboxes] at hmem
    rcases List.mem_map.mp hmem with ⟨i, _, heq⟩
    exact heq.symm
  have hvisited : (⟨5, 7⟩ : MessageMetadata Nat) ∈ s'.observed.flatten := by
    rw [hvisits.messages]
    refine List.mem_flatMap.mpr ⟨page, hpage, mem_remaining.mpr ⟨?_, hcovers⟩⟩
    rw [hmailbox]
    exact List.mem_cons_self
  rw [hobserved] at hvisited
  revert hvisited
  decide

end WalkState

end HistoricMailbox
end MailClient
