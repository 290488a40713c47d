import MailClient.Conversations.Balance
import MailClient.Conversations.SoftDeleteSpec

/-!
# The rows and counters of one conversation

What deleting takes off a counter and what undeleting puts back, label by label.
A row that keeps messages gets back what it lost.  A row that lost its last
message stays deleted, and is counted twice if the conversation was emptied.
-/

namespace MailClient
namespace Conversations

open Foundation

/-!
# Amounts
-/

namespace Counter

instance : Zero Counter := ⟨⟨0, 0⟩⟩

instance : LE Counter :=
  ⟨fun a b => a.total ≤ b.total ∧ a.unread ≤ b.unread⟩

instance (a b : Counter) : Decidable (a ≤ b) :=
  inferInstanceAs (Decidable (_ ∧ _))

def less (k amount : Counter) : Counter where
  total := k.total - amount.total
  unread := k.unread - amount.unread

def more (k amount : Counter) : Counter where
  total := k.total + amount.total
  unread := k.unread + amount.unread

/-- The amounts of several conversations together. -/
def sum (amount : LocalConversationId -> Counter)
    (cs : List LocalConversationId) : Counter where
  total := (cs.map (fun c => (amount c).total)).sum
  unread := (cs.map (fun c => (amount c).unread)).sum

variable {k a b : Counter} {f g : LocalConversationId -> Counter}
  {cs : List LocalConversationId}

theorem more_more : (k.more a).more b = k.more (a.more b) := by
  ext
  · exact Nat.add_assoc _ _ _
  · exact Nat.add_assoc _ _ _

theorem zero_more : (0 : Counter).more a = a := by
  ext
  · exact Nat.zero_add _
  · exact Nat.zero_add _

theorem foldl_less :
    cs.foldl (fun k c => k.less (f c)) k = k.less (sum f cs) := by
  induction cs generalizing k with
  | nil => rfl
  | cons c rest ih =>
      rw [List.foldl_cons, ih]
      ext
      · exact Nat.sub_sub _ _ _
      · exact Nat.sub_sub _ _ _

theorem foldl_more :
    cs.foldl (fun k c => k.more (f c)) k = k.more (sum f cs) := by
  induction cs generalizing k with
  | nil => rfl
  | cons c rest ih =>
      rw [List.foldl_cons, ih, more_more]
      rfl

theorem less_more_eq_self (h : a ≤ k) : (k.less a).more b = k ↔ a = b := by
  have htotal : a.total ≤ k.total := h.left
  have hunread : a.unread ≤ k.unread := h.right
  rw [Counter.ext_iff, Counter.ext_iff]
  change k.total - a.total + b.total = k.total ∧
    k.unread - a.unread + b.unread = k.unread ↔ _
  omega

theorem sum_eq_sum_iff (h : forall c, c ∈ cs -> f c ≤ g c) :
    sum f cs = sum g cs ↔ forall c, c ∈ cs -> f c = g c := by
  rw [Counter.ext_iff]
  change (cs.map _).sum = (cs.map _).sum ∧ (cs.map _).sum = (cs.map _).sum ↔ _
  rw [sum_map_eq_iff (fun c hc => (h c hc).left),
    sum_map_eq_iff (fun c hc => (h c hc).right)]
  simp only [Counter.ext_iff]
  exact ⟨fun hboth c hc => ⟨hboth.left c hc, hboth.right c hc⟩,
    fun hall => ⟨fun c hc => (hall c hc).left, fun c hc => (hall c hc).right⟩⟩

/-- What a row takes from the counter when its last message goes. -/
def emptied (old new : ConversationLabel) : Counter where
  total := if old.contextNumMessages ≠ 0 ∧ new.contextNumMessages = 0 then 1
    else 0
  unread := if old.contextNumUnread ≠ 0 ∧ new.contextNumUnread = 0 then 1
    else 0

theorem afterDelete_eq (old new : ConversationLabel) :
    k.afterDelete old new = k.less (emptied old new) := by
  unfold afterDelete less emptied
  ext
  · dsimp only
    split
    · rfl
    · rfl
  · dsimp only
    split
    · rfl
    · rfl

theorem afterUndelete_eq (old new : ConversationLabel) :
    k.afterUndelete old new = k.more (emptied new old) := by
  unfold afterUndelete more emptied
  ext
  · dsimp only
    by_cases h : old.contextNumMessages = 0 ∧ new.contextNumMessages ≠ 0
    · rw [if_pos h, if_pos h.symm]
    · rw [if_neg h, if_neg (fun h' => h h'.symm)]
      rfl
  · dsimp only
    by_cases h : old.contextNumUnread = 0 ∧ new.contextNumUnread ≠ 0
    · rw [if_pos h, if_pos h.symm]
    · rw [if_neg h, if_neg (fun h' => h h'.symm)]
      rfl

end Counter

/-!
# Statistics that are part of a row
-/

namespace MessageLabelStats

instance : LE MessageLabelStats :=
  ⟨fun a b => a.unreadCount ≤ b.unreadCount ∧ a.count ≤ b.count ∧
    a.attachmentCount ≤ b.attachmentCount ∧ a.size ≤ b.size⟩

instance (a b : MessageLabelStats) : Decidable (a ≤ b) :=
  inferInstanceAs (Decidable (_ ∧ _))

def ofMessages (messages : List Message) : MessageLabelStats where
  unreadCount := messages.countP (fun m => m.unread)
  count := messages.length
  attachmentCount := (messages.map Message.numAttachments).sum
  size := (messages.map Message.size).sum

theorem le_trans {a b c : MessageLabelStats} (h : a ≤ b) (h' : b ≤ c) :
    a ≤ c :=
  ⟨h.1.trans h'.1, h.2.1.trans h'.2.1, h.2.2.1.trans h'.2.2.1,
    h.2.2.2.trans h'.2.2.2⟩

theorem ofMessages_le {s t : List Message} (h : s.Sublist t) :
    ofMessages s ≤ ofMessages t :=
  ⟨h.countP_le, h.length_le, (h.map _).sum_le_sum (fun _ _ => Nat.zero_le _),
    (h.map _).sum_le_sum (fun _ _ => Nat.zero_le _)⟩

end MessageLabelStats

namespace ConversationLabel

def counted (row : ConversationLabel) : MessageLabelStats where
  unreadCount := row.contextNumUnread
  count := row.contextNumMessages
  attachmentCount := row.contextNumAttachments
  size := row.contextSize

variable {row : ConversationLabel} {stats : MessageLabelStats}

theorem markUndelete_markDelete (h : stats ≤ row.counted)
    (hlive : row.deleted = false) (hpos : 0 < stats.count) (deleted : Bool) :
    ({ row.markDelete stats with deleted := deleted } :
      ConversationLabel).markUndelete stats = row := by
  have hcount : stats.count ≤ row.contextNumMessages := h.2.1
  ext1
  · rfl
  · exact Nat.sub_add_cancel h.2.2.2
  · exact Nat.sub_add_cancel hcount
  · exact Nat.sub_add_cancel h.1
  · exact Nat.sub_add_cancel h.2.2.1
  · rfl
  · rfl
  · change decide (row.contextNumMessages - stats.count + stats.count = 0) = _
    rw [Nat.sub_add_cancel hcount, hlive]
    exact decide_eq_false (by omega)

theorem markDelete_deleted (h : stats ≤ row.counted) :
    (row.markDelete stats).deleted =
      decide (row.contextNumMessages = stats.count) := by
  have hcount : stats.count ≤ row.contextNumMessages := h.2.1
  change decide (row.contextNumMessages - stats.count = 0) = _
  exact decide_eq_decide.mpr (by omega)

theorem markUndelete_ne (hpos : 0 < stats.count) :
    row.markUndelete stats ≠ row := by
  intro h
  have hcount := congrArg ConversationLabel.contextNumMessages h
  change row.contextNumMessages + stats.count = row.contextNumMessages at hcount
  omega

end ConversationLabel

namespace Conversation

def counted (conv : Conversation) : MessageLabelStats where
  unreadCount := conv.numUnread
  count := conv.numMessages
  attachmentCount := conv.numAttachments
  size := conv.size

variable {conv : Conversation} {stats : Option MessageLabelStats}

theorem markUndelete_markDelete (hlive : conv.deleted = false)
    (hfits : forall s, stats = some s -> s ≤ conv.counted) (remaining : Bool) :
    (conv.markDelete remaining stats).markUndelete stats = conv ↔
      remaining = true ∨ stats.isSome = true := by
  cases stats with
  | none =>
      cases remaining with
      | true => simp [markDelete, markUndelete]
      | false =>
          simp only [Option.isSome_none, Bool.false_eq_true, or_self, iff_false]
          intro h
          have hdeleted := congrArg Conversation.deleted h
          rw [hlive] at hdeleted
          exact Bool.noConfusion hdeleted
  | some s =>
      have hle := hfits s rfl
      have hcount : conv.numMessages - s.count + s.count = conv.numMessages :=
        Nat.sub_add_cancel hle.2.1
      have hunread : conv.numUnread - s.unreadCount + s.unreadCount =
          conv.numUnread := Nat.sub_add_cancel hle.1
      have hattachments : conv.numAttachments - s.attachmentCount +
          s.attachmentCount = conv.numAttachments :=
        Nat.sub_add_cancel hle.2.2.1
      have hsize : conv.size - s.size + s.size = conv.size :=
        Nat.sub_add_cancel hle.2.2.2
      have hback : (conv.markDelete remaining (some s)).markUndelete (some s) =
          { conv with
            numMessages := conv.numMessages - s.count + s.count
            numUnread := conv.numUnread - s.unreadCount + s.unreadCount
            numAttachments := conv.numAttachments - s.attachmentCount +
              s.attachmentCount
            size := conv.size - s.size + s.size
            deleted := false } := by
        cases remaining with
        | true => rfl
        | false => rfl
      rw [hback, hcount, hunread, hattachments, hsize, <- hlive]
      simp

theorem markUndelete_eq_self
    (hpos : forall s, stats = some s -> 0 < s.count) :
    conv.markUndelete stats = conv ↔ stats = none := by
  cases stats with
  | none => exact ⟨fun _ => rfl, fun _ => rfl⟩
  | some s =>
      have hcount := hpos s rfl
      simp only [reduceCtorEq, iff_false]
      intro h
      have hmessages := congrArg Conversation.numMessages h
      change conv.numMessages + s.count = conv.numMessages at hmessages
      omega

end Conversation

/-!
# Labels of a group of messages
-/

namespace Message

variable {stats : AllStats} {rows : LocalLabelId -> Option ConversationLabel}
  {l : LocalLabelId} {row : ConversationLabel} {s : MessageLabelStats}
  {emptied full : Bool}

def deletedRows (stats : AllStats)
    (rows : LocalLabelId -> Option ConversationLabel) :
    LocalLabelId -> Option ConversationLabel :=
  updatedRow stats ConversationLabel.markDelete (loadedRow stats rows) rows

/-- The conversation is saved with its rows if `full`. -/
def undeletedRows (stats : AllStats) (emptied full : Bool)
    (rows : LocalLabelId -> Option ConversationLabel) :
    LocalLabelId -> Option ConversationLabel :=
  updatedRow stats ConversationLabel.markUndelete
    (loadedRow stats (readdedRow stats emptied rows))
    (if full then rows else readdedRow stats emptied rows)

/-- What deleting takes from the counter of conversations. -/
def taken (stats : AllStats)
    (rows : LocalLabelId -> Option ConversationLabel) (l : LocalLabelId) :
    Counter :=
  match loadedRow stats rows l, stats l with
  | some row, some s => Counter.emptied row (row.markDelete s)
  | _, _ => 0

def readded (stats : AllStats) (emptied : Bool)
    (rows : LocalLabelId -> Option ConversationLabel) (l : LocalLabelId) :
    Counter :=
  if isReadded stats emptied rows l then
    ⟨1, ((stats l).any (fun s => 0 < s.unreadCount)).toNat⟩
  else 0

def refilled (stats : AllStats)
    (rows : LocalLabelId -> Option ConversationLabel) (l : LocalLabelId) :
    Counter :=
  match loadedRow stats rows l, stats l with
  | some row, some s => Counter.emptied (row.markUndelete s) row
  | _, _ => 0

/-- What undeleting gives to the counter of conversations. -/
def givenBack (stats : AllStats) (emptied : Bool)
    (rows : LocalLabelId -> Option ConversationLabel) (l : LocalLabelId) :
    Counter :=
  (readded stats emptied rows l).more
    (refilled stats (readdedRow stats emptied rows) l)

/-- What deleting takes from the counter of messages. -/
def takenMessages (stats : AllStats) (l : LocalLabelId) : Counter :=
  match stats l with
  | some s => ⟨s.count, s.unreadCount⟩
  | none => 0

theorem messageCounter_less (k : Counter) :
    messageCounter stats Counter.afterSoftDelete l k =
      k.less (takenMessages stats l) := by
  unfold messageCounter takenMessages
  cases stats l with
  | none => rfl
  | some s => rfl

theorem messageCounter_more (k : Counter) :
    messageCounter stats Counter.afterSoftUndelete l k =
      k.more (takenMessages stats l) := by
  unfold messageCounter takenMessages
  cases stats l with
  | none => rfl
  | some s => rfl

theorem updatedCounter_less (k : Counter) :
    updatedCounter stats ConversationLabel.markDelete Counter.afterDelete
      (loadedRow stats rows) l k = k.less (taken stats rows l) := by
  unfold updatedCounter taken
  cases loadedRow stats rows l with
  | none => rfl
  | some row =>
      cases stats l with
      | none => rfl
      | some s => exact Counter.afterDelete_eq _ _

theorem updatedCounter_more (k : Counter) :
    updatedCounter stats ConversationLabel.markUndelete Counter.afterUndelete
      (loadedRow stats (readdedRow stats emptied rows)) l
      (readdedCounter stats emptied rows l k) =
        k.more (givenBack stats emptied rows l) := by
  have hreadded : readdedCounter stats emptied rows l k =
      k.more (readded stats emptied rows l) := by
    unfold readdedCounter readded
    split
    · rfl
    · rfl
  unfold givenBack
  rw [hreadded, <- Counter.more_more]
  unfold updatedCounter refilled
  cases loadedRow stats (readdedRow stats emptied rows) l with
  | none => rfl
  | some row =>
      cases stats l with
      | none => rfl
      | some s => exact Counter.afterUndelete_eq _ _

theorem loadedRow_live (hrow : rows l = some row) (hlive : row.deleted = false)
    (hs : stats l = some s) : loadedRow stats rows l = some row := by
  unfold loadedRow
  rw [hrow, hs]
  simp [hlive]

theorem loadedRow_gone (hrow : rows l = some row) (hgone : row.deleted = true) :
    loadedRow stats rows l = none := by
  unfold loadedRow
  rw [hrow]
  simp [hgone]

theorem loadedRow_missing (h : stats l = none ∨ rows l = none) :
    loadedRow stats rows l = none := by
  unfold loadedRow
  cases h with
  | inl hs =>
      rw [hs]
      simp
  | inr hrow =>
      rw [hrow]
      rfl

theorem readdedRow_same (h : isReadded stats emptied rows l = false) :
    readdedRow stats emptied rows l = rows l := by
  unfold readdedRow
  rw [h]
  rfl

theorem isReadded_missing (h : stats l = none ∨ rows l = none) :
    isReadded stats emptied rows l = false := by
  unfold isReadded
  cases h with
  | inl hs =>
      rw [hs]
      simp
  | inr hrow =>
      rw [hrow]
      simp

theorem isReadded_live (hrow : rows l = some row)
    (hlive : row.deleted = false) : isReadded stats emptied rows l = false := by
  unfold isReadded
  rw [hrow, Option.any_some, hlive]
  simp

theorem isReadded_gone (hrow : rows l = some row) (hgone : row.deleted = true)
    (hs : stats l = some s) : isReadded stats emptied rows l = emptied := by
  unfold isReadded
  rw [hrow, hs, Option.any_some, hgone]
  simp

/-!
# A label without a row, or without messages
-/

theorem deletedRows_missing (h : stats l = none ∨ rows l = none) :
    deletedRows stats rows l = rows l ∧ taken stats rows l = 0 := by
  unfold deletedRows taken updatedRow
  rw [loadedRow_missing h]
  exact ⟨rfl, rfl⟩

theorem undeletedRows_missing (emptied full : Bool)
    (h : stats l = none ∨ rows l = none) :
    undeletedRows stats emptied full rows l = rows l ∧
      givenBack stats emptied rows l = 0 := by
  have hread : isReadded stats emptied rows l = false := isReadded_missing h
  have hsame := readdedRow_same hread
  have hloaded : loadedRow stats (readdedRow stats emptied rows) l = none := by
    refine loadedRow_missing ?_
    rw [hsame]
    exact h
  unfold undeletedRows givenBack updatedRow readded refilled
  rw [hloaded, hread]
  refine ⟨?_, rfl⟩
  change (if full = true then rows else readdedRow stats emptied rows) l = _
  split
  · rfl
  · exact hsame

/-!
# A row of the messages
-/

theorem deletedRows_live (hrow : rows l = some row)
    (hlive : row.deleted = false) (hs : stats l = some s) :
    deletedRows stats rows l = some (row.markDelete s) ∧
      taken stats rows l = Counter.emptied row (row.markDelete s) := by
  unfold deletedRows taken updatedRow
  rw [loadedRow_live hrow hlive hs, hs]
  exact ⟨rfl, rfl⟩

theorem undeletedRows_live (emptied full : Bool) (hrow : rows l = some row)
    (hlive : row.deleted = false) (hs : stats l = some s) :
    undeletedRows stats emptied full rows l = some (row.markUndelete s) ∧
      givenBack stats emptied rows l =
        Counter.emptied (row.markUndelete s) row := by
  have hread : isReadded stats emptied rows l = false :=
    isReadded_live hrow hlive
  have hloaded : loadedRow stats (readdedRow stats emptied rows) l =
      some row := by
    refine loadedRow_live ?_ hlive hs
    rw [readdedRow_same hread]
    exact hrow
  unfold undeletedRows givenBack updatedRow readded refilled
  rw [hloaded, hs, hread]
  exact ⟨rfl, Counter.zero_more⟩

theorem undeletedRows_gone (full : Bool) (hrow : rows l = some row)
    (hgone : row.deleted = true) (hs : stats l = some s) :
    undeletedRows stats false full rows l = some row := by
  have hread : isReadded stats false rows l = false :=
    isReadded_gone hrow hgone hs
  have hsame := readdedRow_same hread
  have hloaded : loadedRow stats (readdedRow stats false rows) l = none := by
    refine loadedRow_gone ?_ hgone
    rw [hsame]
    exact hrow
  unfold undeletedRows updatedRow
  rw [hloaded]
  change (if full = true then rows else readdedRow stats false rows) l = _
  split
  · exact hrow
  · rw [hsame]
    exact hrow

theorem undeletedRows_readded (full : Bool) (hrow : rows l = some row)
    (hgone : row.deleted = true) (hs : stats l = some s) :
    undeletedRows stats true full rows l =
        some (({ row with deleted := false } :
          ConversationLabel).markUndelete s) ∧
      givenBack stats true rows l =
        Counter.more ⟨1, (decide (0 < s.unreadCount)).toNat⟩
          (Counter.emptied (row.markUndelete s) row) := by
  have hread : isReadded stats true rows l = true :=
    isReadded_gone hrow hgone hs
  have hloaded : loadedRow stats (readdedRow stats true rows) l =
      some { row with deleted := false } := by
    refine loadedRow_live ?_ rfl hs
    unfold readdedRow
    rw [hread, hrow]
    rfl
  unfold undeletedRows givenBack updatedRow readded refilled
  rw [hloaded, hs, hread]
  exact ⟨rfl, rfl⟩

/-!
# Deleting and undeleting
-/

/-- The statistics are part of what the rows count. -/
structure Fits (stats : AllStats)
    (rows : LocalLabelId -> Option ConversationLabel) : Prop where
  counted : forall l s, stats l = some s -> 0 < s.count
  row : forall l row s, rows l = some row -> stats l = some s ->
    row.deleted = false ∧ s ≤ row.counted

/-- The row of a label keeps messages. -/
def Keeps (stats : AllStats)
    (rows : LocalLabelId -> Option ConversationLabel) (l : LocalLabelId) :
    Prop :=
  forall row s, rows l = some row -> stats l = some s ->
    row.contextNumMessages ≠ s.count

variable (h : Fits stats rows)

include h in
theorem undeleted_of_keeps (emptied full : Bool)
    (hkeeps : Keeps stats rows l) :
    undeletedRows stats emptied full (deletedRows stats rows) l = rows l ∧
      givenBack stats emptied (deletedRows stats rows) l =
        taken stats rows l := by
  cases hs : stats l with
  | none =>
      have hmissing : stats l = none ∨ rows l = none := Or.inl hs
      rcases deletedRows_missing hmissing with ⟨hdeleted, htaken⟩
      rw [<- hdeleted] at hmissing
      rcases undeletedRows_missing emptied full hmissing with
        ⟨hundeleted, hgiven⟩
      rw [hundeleted, hgiven, hdeleted, htaken]
      exact ⟨rfl, rfl⟩
  | some s =>
      cases hrow : rows l with
      | none =>
          have hmissing : stats l = none ∨ rows l = none := Or.inr hrow
          rcases deletedRows_missing hmissing with ⟨hdeleted, htaken⟩
          rw [<- hdeleted] at hmissing
          rcases undeletedRows_missing emptied full hmissing with
            ⟨hundeleted, hgiven⟩
          rw [hundeleted, hgiven, hdeleted, htaken, hrow]
          exact ⟨rfl, rfl⟩
      | some row =>
          rcases h.row l row s hrow hs with ⟨hlive, hle⟩
          have hne := hkeeps row s hrow hs
          rcases deletedRows_live hrow hlive hs with ⟨hdeleted, htaken⟩
          have hgone : (row.markDelete s).deleted = false := by
            rw [ConversationLabel.markDelete_deleted hle]
            exact decide_eq_false hne
          have hback : (row.markDelete s).markUndelete s = row :=
            ConversationLabel.markUndelete_markDelete hle hlive
              (h.counted l s hs) (row.markDelete s).deleted
          rcases undeletedRows_live emptied full hdeleted hgone hs with
            ⟨hundeleted, hgiven⟩
          rw [hundeleted, hgiven, htaken, hback]
          exact ⟨rfl, rfl⟩

include h in
theorem keeps_of_undeleted
    (hsame : undeletedRows stats emptied full (deletedRows stats rows) l =
      rows l) :
    taken stats rows l ≤ givenBack stats emptied (deletedRows stats rows) l ∧
      (taken stats rows l =
        givenBack stats emptied (deletedRows stats rows) l ->
          Keeps stats rows l) := by
  by_cases hkeeps : Keeps stats rows l
  · rw [(undeleted_of_keeps h emptied full hkeeps).right]
    exact ⟨⟨Nat.le_refl _, Nat.le_refl _⟩, fun _ => hkeeps⟩
  · unfold Keeps at hkeeps
    push Not at hkeeps
    rcases hkeeps with ⟨row, s, hrow, hs, heq⟩
    rcases h.row l row s hrow hs with ⟨hlive, hle⟩
    rcases deletedRows_live hrow hlive hs with ⟨hdeleted, htaken⟩
    have hgone : (row.markDelete s).deleted = true := by
      rw [ConversationLabel.markDelete_deleted hle]
      exact decide_eq_true heq
    cases emptied with
    | false =>
        rw [undeletedRows_gone full hdeleted hgone hs, hrow,
          Option.some.injEq] at hsame
        rw [hsame, hlive] at hgone
        cases hgone
    | true =>
        have hback := ConversationLabel.markUndelete_markDelete hle hlive
          (h.counted l s hs)
        rcases undeletedRows_readded full hdeleted hgone hs with ⟨_, hgiven⟩
        have hcounts : Counter.emptied ((row.markDelete s).markUndelete s)
            (row.markDelete s) = Counter.emptied row (row.markDelete s) := by
          have hmessages := congrArg ConversationLabel.contextNumMessages
            (hback false)
          have hunread := congrArg ConversationLabel.contextNumUnread
            (hback false)
          change ((row.markDelete s).markUndelete s).contextNumMessages = _
            at hmessages
          change ((row.markDelete s).markUndelete s).contextNumUnread = _
            at hunread
          unfold Counter.emptied
          rw [hmessages, hunread]
        rw [hgiven, htaken, hcounts]
        refine ⟨⟨Nat.le_add_left _ _, Nat.le_add_left _ _⟩, ?_⟩
        intro htwice
        have htotal := congrArg Counter.total htwice
        change _ = 1 + _ at htotal
        omega

include h in
theorem undeletedRows_unknown :
    undeletedRows stats false full rows l = rows l ↔
      stats l = none ∨ rows l = none := by
  constructor
  · intro hsame
    by_contra hboth
    push Not at hboth
    rcases Option.ne_none_iff_exists'.mp hboth.left with ⟨s, hs⟩
    rcases Option.ne_none_iff_exists'.mp hboth.right with ⟨row, hrow⟩
    have hundeleted := undeletedRows_live false full hrow
      (h.row l row s hrow hs).left hs
    rw [hundeleted.left, hrow, Option.some.injEq] at hsame
    exact ConversationLabel.markUndelete_ne (h.counted l s hs) hsame
  · intro hmissing
    exact (undeletedRows_missing false full hmissing).left

end Message

end Conversations
end MailClient
