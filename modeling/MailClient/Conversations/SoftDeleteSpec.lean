import MailClient.Conversations.LabelSpec
import MailClient.Conversations.SoftDelete

/-!
# What deleting and undeleting does

Each group of messages changes its own conversation and the rows of it, and
moves the counters of the labels it has.  What a group does is known from the
tables before the loop, because no group touches the conversation of another.
-/

namespace MailClient
namespace Conversations

open Labels (LabelRow)

variable {c : LocalConversationId} {db db' : Database}

namespace Message

/-- No row is without a counter of conversations for its label. -/
def HasCounters (db : Database) : Prop :=
  forall c l, (db.conversationLabels c l).isSome ->
    (db.conversationCounters l).isSome

/-- What a loop over groups leaves as it is. -/
structure SameStore (db db' : Database) : Prop where
  labels : db'.labels = db.labels
  messages : db'.messages = db.messages
  messageLabels : db'.messageLabels = db.messageLabels

/-!
# Loops over groups
-/

/-- What a group of messages does to its conversation, its rows and counters. -/
structure Effect where
  conversation : Conversation -> Conversation
  rows : LocalLabelId -> Option ConversationLabel
  messageCounters : LocalLabelId -> Counter -> Counter
  conversationCounters : LocalLabelId -> Counter -> Counter

/-- A loop body, and its effect in terms of the tables before it. -/
structure GroupLoop where
  body : LocalConversationId -> List Message -> Database -> Option Database
  effect : LocalConversationId -> List Message -> Database -> Effect

/-- The tables after the groups of some conversations. -/
structure Touched (effect : LocalConversationId -> Effect)
    (cs : List LocalConversationId) (db db' : Database) : Prop
    extends SameStore db db' where
  touched : db'.conversations = db.conversations.map (fun conv =>
    if conv.localId ∈ cs then (effect conv.localId).conversation conv
    else conv)
  rows : forall c l, db'.conversationLabels c l =
    if c ∈ cs then (effect c).rows l else db.conversationLabels c l
  messageCounters : forall l, db'.messageCounters l =
    (db.messageCounters l).map (fun k =>
      cs.foldl (fun k c => (effect c).messageCounters l k) k)
  conversationCounters : forall l, db'.conversationCounters l =
    (db.conversationCounters l).map (fun k =>
      cs.foldl (fun k c => (effect c).conversationCounters l k) k)

/-- A body does its effect, which only depends on its own conversation. -/
structure GroupLoop.Lawful (loop : GroupLoop) : Prop where
  localId : forall c messages db conv,
    ((loop.effect c messages db).conversation conv).localId = conv.localId
  step : forall c messages db,
    c ∈ db.conversations.map Conversation.localId -> HasCounters db ->
    exists db', loop.body c messages db = some db' ∧ HasCounters db' ∧
      Touched (fun c => loop.effect c messages db) [c] db db'
  own : forall c messages db db', SameStore db db' ->
    db'.conversation c = db.conversation c ->
    db'.conversationLabels c = db.conversationLabels c ->
    loop.effect c messages db' = loop.effect c messages db

namespace GroupLoop

variable {loop : GroupLoop}

theorem conversation_of_touched {effect : LocalConversationId -> Effect}
    (hlocal : forall c conv,
      ((effect c).conversation conv).localId = conv.localId)
    {cs : List LocalConversationId} (h : Touched effect cs db db')
    (hc : c ∉ cs) : db'.conversation c = db.conversation c := by
  unfold Database.conversation
  rw [h.touched]
  clear h
  generalize db.conversations = conversations
  induction conversations with
  | nil => rfl
  | cons conv rest ih =>
      rw [List.map_cons, List.find?_cons, List.find?_cons, ih]
      by_cases hin : conv.localId ∈ cs
      · rw [if_pos hin, hlocal]
        have hne : conv.localId ≠ c := fun heq => hc (heq ▸ hin)
        simp [hne]
      · rw [if_neg hin]

theorem run (hloop : loop.Lawful) {messages : LocalConversationId -> List Message}
    {cs : List LocalConversationId} (hnodup : cs.Nodup)
    (hknown : forall c, c ∈ cs ->
      c ∈ db.conversations.map Conversation.localId)
    (hcounters : HasCounters db) :
    exists db', (cs.map (fun c => (c, messages c))).foldlM
        (fun db g => loop.body g.1 g.2 db) db = some db' ∧
      HasCounters db' ∧
      Touched (fun c => loop.effect c (messages c) db) cs db db' := by
  induction cs generalizing db with
  | nil =>
      refine ⟨db, rfl, hcounters, ⟨⟨rfl, rfl, rfl⟩, ?_, ?_, ?_, ?_⟩⟩
      · simp
      · simp
      · intro l
        simp
      · intro l
        simp
  | cons c rest ih =>
      rw [List.nodup_cons] at hnodup
      rcases hloop.step c (messages c) db (hknown c List.mem_cons_self)
        hcounters with ⟨db₁, hbody, hcounters₁, hone⟩
      have hids : db₁.conversations.map Conversation.localId =
          db.conversations.map Conversation.localId := by
        rw [hone.touched, List.map_map]
        refine List.map_congr_left ?_
        intro conv _
        rw [Function.comp_apply]
        split
        · exact hloop.localId _ _ _ _
        · rfl
      rcases ih hnodup.right
        (fun c' hc' => by
          rw [hids]
          exact hknown c' (List.mem_cons_of_mem _ hc'))
        hcounters₁ with ⟨db₂, hrest, hcounters₂, hmore⟩
      refine ⟨db₂, ?_, hcounters₂, ?_⟩
      · rw [List.map_cons, List.foldlM_cons, hbody]
        exact hrest
      · have hsame : forall c', c' ∈ rest ->
            loop.effect c' (messages c') db₁ =
              loop.effect c' (messages c') db := by
          intro c' hc'
          have hne : c' ∉ [c] := by
            intro hmem
            rw [List.mem_singleton.mp hmem] at hc'
            exact hnodup.left hc'
          refine hloop.own c' (messages c') db db₁ hone.toSameStore
            (conversation_of_touched (fun c conv => hloop.localId _ _ _ _)
              hone hne) ?_
          funext l
          rw [hone.rows, if_neg hne]
        refine ⟨⟨hmore.labels.trans hone.labels,
          hmore.messages.trans hone.messages,
          hmore.messageLabels.trans hone.messageLabels⟩, ?_, ?_, ?_, ?_⟩
        · rw [hmore.touched, hone.touched, List.map_map]
          refine List.map_congr_left ?_
          intro conv _
          rw [Function.comp_apply]
          by_cases hc : conv.localId = c
          · have hout : ((loop.effect c (messages c) db).conversation
                conv).localId ∉ rest := by
              rw [hloop.localId, hc]
              exact hnodup.left
            rw [hc, if_pos (List.mem_singleton_self c), if_neg hout,
              if_pos List.mem_cons_self]
          · have hfirst : conv.localId ∉ [c] :=
              fun hmem => hc (List.mem_singleton.mp hmem)
            have hcons : conv.localId ∈ c :: rest ↔ conv.localId ∈ rest := by
              rw [List.mem_cons]
              exact or_iff_right hc
            simp only [if_neg hfirst, hcons]
            by_cases hin : conv.localId ∈ rest
            · rw [if_pos hin, if_pos hin, hsame _ hin]
            · rw [if_neg hin, if_neg hin]
        · intro c' l
          rw [hmore.rows, hone.rows]
          by_cases hin : c' ∈ rest
          · rw [if_pos hin, if_pos (List.mem_cons_of_mem _ hin), hsame _ hin]
          · by_cases hc : c' = c
            · rw [if_neg hin, hc, if_pos (List.mem_singleton_self c),
                if_pos List.mem_cons_self]
            · rw [if_neg hin, if_neg (by simp [hc]), if_neg (by simp [hc, hin])]
        · intro l
          rw [hmore.messageCounters, hone.messageCounters, Option.map_map]
          refine congrArg (fun f => (db.messageCounters l).map f) ?_
          funext k
          rw [Function.comp_apply, List.foldl_cons, List.foldl_cons,
            List.foldl_nil]
          refine List.foldl_ext _ _ _ ?_
          intro k' c' hc'
          rw [hsame c' hc']
        · intro l
          rw [hmore.conversationCounters, hone.conversationCounters,
            Option.map_map]
          refine congrArg (fun f => (db.conversationCounters l).map f) ?_
          funext k
          rw [Function.comp_apply, List.foldl_cons, List.foldl_cons,
            List.foldl_nil]
          refine List.foldl_ext _ _ _ ?_
          intro k' c' hc'
          rw [hsame c' hc']

end GroupLoop

/-!
# Deleting a group
-/

theorem build_congr {messages : List Message}
    (h : db'.messageLabels = db.messageLabels) :
    MessageLabelStats.build db' messages =
      MessageLabelStats.build db messages := by
  funext l
  unfold MessageLabelStats.build Database.hasLabel
  rw [h]

theorem exists_conversation
    (hc : c ∈ db.conversations.map Conversation.localId) :
    exists conv, db.conversation c = some conv := by
  rcases List.mem_map.mp hc with ⟨conv, hconv, hid⟩
  unfold Database.conversation
  cases hfind : db.conversations.find? (fun conv => conv.localId = c) with
  | none =>
      have hnone := List.find?_eq_none.mp hfind conv hconv
      simp [hid] at hnone
  | some conv => exact ⟨conv, rfl⟩

theorem lacksCounter_eq_false {rows : LocalLabelId -> Option ConversationLabel}
    (h : forall l, (rows l).isSome -> (db.conversationCounters l).isSome) :
    lacksCounter rows db = false := by
  unfold lacksCounter
  rw [List.any_eq_false]
  intro l _ hlacks
  rw [Bool.and_eq_true] at hlacks
  have hcounter := h l hlacks.left
  rw [Option.isNone_iff_eq_none.mp hlacks.right] at hcounter
  cases hcounter

theorem updatedRow_isSome {stats : AllStats}
    {update : ConversationLabel -> MessageLabelStats -> ConversationLabel}
    {loaded rows : LocalLabelId -> Option ConversationLabel} {l : LocalLabelId}
    (hloaded : (loaded l).isSome -> (rows l).isSome)
    (h : (updatedRow stats update loaded rows l).isSome) :
    (rows l).isSome := by
  unfold updatedRow at h
  split at h
  · rename_i row s hrow hs
    exact hloaded (by rw [hrow]; rfl)
  · exact h

theorem loadedRow_isSome {stats : AllStats}
    {rows : LocalLabelId -> Option ConversationLabel} {l : LocalLabelId}
    (h : (loadedRow stats rows l).isSome) : (rows l).isSome := by
  unfold loadedRow at h
  cases hrow : rows l with
  | none =>
      rw [hrow] at h
      cases h
  | some row => rfl

/-- The conversation and its rows are updated. -/
def isUpdated (c : LocalConversationId) (db : Database) : Bool :=
  (db.conversation c).any (fun conv => !(conv.deleted || !conv.isKnown))

def isRemaining (c : LocalConversationId) (db : Database) : Bool :=
  db.messages.any (fun m => m.conversationId = c ∧ ¬ m.deleted)

def deleteEffect (c : LocalConversationId) (messages : List Message)
    (db : Database) : Effect :=
  let stats := MessageLabelStats.build db messages
  let rows := db.conversationLabels c
  let loaded := loadedRow stats rows
  { conversation := fun conv =>
      if isUpdated c db then
        conv.markDelete (isRemaining c db) (db.allMail.bind stats)
      else conv
    rows := fun l =>
      if isUpdated c db then
        updatedRow stats ConversationLabel.markDelete loaded rows l
      else rows l
    messageCounters := messageCounter stats Counter.afterSoftDelete
    conversationCounters := fun l k =>
      if isUpdated c db then
        updatedCounter stats ConversationLabel.markDelete Counter.afterDelete
          loaded l k
      else k }

def deleteLoop : GroupLoop := ⟨softDelete, deleteEffect⟩

theorem hasCounters_of {rows : LocalConversationId -> LocalLabelId ->
      Option ConversationLabel} (h : HasCounters db)
    (hcounters : forall l, (db.conversationCounters l).isSome ->
      (db'.conversationCounters l).isSome)
    (hrows : forall c' l, db'.conversationLabels c' l =
      if c' ∈ [c] then rows c' l else db.conversationLabels c' l)
    (hsome : forall c' l, (rows c' l).isSome ->
      (db.conversationLabels c' l).isSome) :
    HasCounters db' := by
  intro c' l hrow
  refine hcounters l (h c' l ?_)
  rw [hrows] at hrow
  split at hrow
  · exact hsome c' l hrow
  · exact hrow

theorem deleteEffect_isSome {messages : List Message} {l : LocalLabelId}
    (h : ((deleteEffect c messages db).rows l).isSome) :
    (db.conversationLabels c l).isSome := by
  change (if isUpdated c db then _ else _ : Option ConversationLabel).isSome
    at h
  split at h
  · exact updatedRow_isSome loadedRow_isSome h
  · exact h

theorem map_touched (conversations : List Conversation)
    {g : LocalConversationId -> Conversation -> Conversation}
    {f : Conversation -> Conversation} (h : forall conv, f conv = g c conv) :
    conversations.map (fun conv => if conv.localId = c then f conv else conv) =
      conversations.map (fun conv =>
        if conv.localId ∈ [c] then g conv.localId conv else conv) := by
  refine List.map_congr_left ?_
  intro conv _
  by_cases hc : conv.localId = c
  · rw [if_pos hc, if_pos (List.mem_singleton.mpr hc), h, hc]
  · rw [if_neg hc, if_neg (fun hmem => hc (List.mem_singleton.mp hmem))]

theorem map_untouched (conversations : List Conversation)
    {g : LocalConversationId -> Conversation -> Conversation}
    (h : forall conv, g c conv = conv) :
    conversations = conversations.map (fun conv =>
      if conv.localId ∈ [c] then g conv.localId conv else conv) := by
  rw [<- map_touched conversations (f := fun conv => conv)
    (fun conv => (h conv).symm)]
  simp

theorem rows_touched {rows : LabelRows}
    {g : LocalConversationId -> LocalLabelId -> Option ConversationLabel}
    {f : LocalLabelId -> Option ConversationLabel}
    (h : forall l, f l = g c l) (c' : LocalConversationId) (l : LocalLabelId) :
    (if c' = c then f l else rows c' l) =
      if c' ∈ [c] then g c' l else rows c' l := by
  by_cases hc : c' = c
  · rw [if_pos hc, if_pos (List.mem_singleton.mpr hc), h, hc]
  · rw [if_neg hc, if_neg (fun hmem => hc (List.mem_singleton.mp hmem))]

theorem rows_untouched {rows : LabelRows}
    {g : LocalConversationId -> LocalLabelId -> Option ConversationLabel}
    (h : forall l, g c l = rows c l) (c' : LocalConversationId)
    (l : LocalLabelId) :
    rows c' l = if c' ∈ [c] then g c' l else rows c' l := by
  rw [<- rows_touched (f := rows c) (fun l => (h l).symm)]
  split
  · rename_i hc
    rw [hc]
  · rfl

theorem deleteLoop_lawful : deleteLoop.Lawful := by
  refine ⟨?_, ?_, ?_⟩
  · intro c messages db conv
    change (if isUpdated c db then _ else conv).localId = conv.localId
    split
    · exact Conversation.markDelete_localId _ _ _
    · rfl
  · intro c messages db hc hcounters
    rcases exists_conversation hc with ⟨conv, hconv⟩
    change exists db', softDelete c messages db = some db' ∧ _
    unfold softDelete
    dsimp only
    have hfound : (db.saveCounters (fun l => (db.messageCounters l).map
        (messageCounter (MessageLabelStats.build db messages)
          Counter.afterSoftDelete l)) db.conversationCounters).conversation c =
        some conv := hconv
    rw [hfound]
    dsimp only
    split
    · rename_i hout
      have hnot : isUpdated c db = false := by
        unfold isUpdated
        rw [hconv, Option.any_some, hout]
        rfl
      have hsame : forall conv,
          (deleteEffect c messages db).conversation conv = conv := by
        intro conv
        change (if isUpdated c db then _ else conv) = conv
        rw [hnot]
        rfl
      have hrows : forall l, (deleteEffect c messages db).rows l =
          db.conversationLabels c l := by
        intro l
        change (if isUpdated c db then _ else _) = db.conversationLabels c l
        rw [hnot]
        rfl
      refine ⟨_, rfl, hcounters, ⟨rfl, rfl, rfl⟩, ?_, ?_, fun _ => rfl, ?_⟩
      · exact map_untouched db.conversations
          (g := fun c => (deleteEffect c messages db).conversation) hsame
      · exact rows_untouched
          (g := fun c => (deleteEffect c messages db).rows) hrows
      · intro l
        change db.conversationCounters l =
          (db.conversationCounters l).map (fun k =>
            if isUpdated c db then _ else k)
        rw [hnot]
        simp
    · rename_i hin
      have hup : isUpdated c db = true := by
        unfold isUpdated
        rw [hconv, Option.any_some]
        simpa using hin
      have hlacks : lacksCounter (loadedRow
          (MessageLabelStats.build db messages) (db.conversationLabels c)) db =
          false :=
        lacksCounter_eq_false
          (fun l hrow => hcounters c l (loadedRow_isSome hrow))
      have hrows : forall c' l,
          (if c' = c ∧ c ∈ db.conversations.map Conversation.localId then
            updatedRow (MessageLabelStats.build db messages)
              ConversationLabel.markDelete
              (loadedRow (MessageLabelStats.build db messages)
                (db.conversationLabels c)) (db.conversationLabels c) l
            else db.conversationLabels c' l) =
          if c' ∈ [c] then (deleteEffect c' messages db).rows l
          else db.conversationLabels c' l := by
        intro c' l
        simp only [hc, and_true]
        refine rows_touched
          (g := fun c => (deleteEffect c messages db).rows) ?_ c' l
        intro l
        change _ = if isUpdated c db then _ else _
        rw [hup]
        rfl
      rw [if_neg]
      · refine ⟨_, rfl, ?_, ⟨rfl, rfl, rfl⟩, ?_, hrows, fun _ => rfl, ?_⟩
        · refine hasCounters_of hcounters ?_ hrows
            (fun c' l hrow => deleteEffect_isSome hrow)
          intro l hsome
          change (Option.map _ _).isSome
          rw [Option.isSome_map]
          exact hsome
        · refine map_touched db.conversations
            (g := fun c => (deleteEffect c messages db).conversation) ?_
          intro conv'
          change _ = if isUpdated c db then _ else conv'
          rw [hup]
          rfl
        · intro l
          change _ = (db.conversationCounters l).map (fun k =>
            if isUpdated c db then _ else k)
          rw [hup]
          rfl
      · exact Bool.eq_false_iff.mp hlacks
  · intro c messages db db' hsame hconv hrows
    change deleteEffect c messages db' = deleteEffect c messages db
    unfold deleteEffect isUpdated isRemaining Database.allMail
    rw [build_congr hsame.messageLabels, hconv, hrows, hsame.messages, hsame.labels]

/-!
# Undeleting a group
-/

/-- Deleting has emptied the conversation. -/
def isEmptied (c : LocalConversationId) (db : Database) : Bool :=
  (db.conversation c).any Conversation.deleted

def undeleteEffect (c : LocalConversationId) (messages : List Message)
    (db : Database) : Effect :=
  let stats := MessageLabelStats.build db messages
  let rows := db.conversationLabels c
  let added := readdedRow stats (isEmptied c db) rows
  let loaded := loadedRow stats added
  let saved := if (db.allMail.bind stats).isSome then rows else added
  { conversation := Conversation.markUndelete (db.allMail.bind stats)
    rows := updatedRow stats ConversationLabel.markUndelete loaded saved
    messageCounters := messageCounter stats Counter.afterSoftUndelete
    conversationCounters := fun l k =>
      updatedCounter stats ConversationLabel.markUndelete
        Counter.afterUndelete loaded l
        (readdedCounter stats (isEmptied c db) rows l k) }

def undeleteLoop : GroupLoop := ⟨softUndelete, undeleteEffect⟩

theorem readdedRow_isSome {stats : AllStats} {emptied : Bool}
    {rows : LocalLabelId -> Option ConversationLabel} {l : LocalLabelId}
    (h : (readdedRow stats emptied rows l).isSome) : (rows l).isSome := by
  unfold readdedRow at h
  split at h
  · rw [Option.isSome_map] at h
    exact h
  · exact h

theorem undeleteEffect_isSome {messages : List Message} {l : LocalLabelId}
    (h : ((undeleteEffect c messages db).rows l).isSome) :
    (db.conversationLabels c l).isSome := by
  change (updatedRow _ _ _ (if _ then _ else _) l).isSome at h
  split at h
  · exact updatedRow_isSome
      (fun hrow => readdedRow_isSome (loadedRow_isSome hrow)) h
  · exact readdedRow_isSome (updatedRow_isSome loadedRow_isSome h)

theorem undeleteLoop_lawful : undeleteLoop.Lawful := by
  refine ⟨?_, ?_, ?_⟩
  · intro c messages db conv
    exact Conversation.markUndelete_localId _ _
  · intro c messages db hc hcounters
    rcases exists_conversation hc with ⟨conv, hconv⟩
    have hemptied : conv.deleted = isEmptied c db := by
      unfold isEmptied
      rw [hconv, Option.any_some]
    have hlacks : lacksCounter (loadedRow
        (MessageLabelStats.build db messages)
        (readdedRow (MessageLabelStats.build db messages) conv.deleted
          (db.conversationLabels c))) db = false :=
      lacksCounter_eq_false (fun l hrow =>
        hcounters c l (readdedRow_isSome (loadedRow_isSome hrow)))
    change exists db', softUndelete c messages db = some db' ∧ _
    unfold softUndelete
    dsimp only
    have hfound : (db.saveCounters (fun l => (db.messageCounters l).map
        (messageCounter (MessageLabelStats.build db messages)
          Counter.afterSoftUndelete l)) db.conversationCounters).conversation
          c = some conv := hconv
    rw [hfound]
    dsimp only
    rw [if_neg]
    · have hrows : forall c' l,
          (if c' = c ∧ c ∈ db.conversations.map Conversation.localId then
            (undeleteEffect c messages db).rows l
            else db.conversationLabels c' l) =
          if c' ∈ [c] then (undeleteEffect c' messages db).rows l
          else db.conversationLabels c' l := by
        intro c' l
        simp only [hc, and_true]
        exact rows_touched
          (g := fun c => (undeleteEffect c messages db).rows)
          (fun _ => rfl) c' l
      rw [hemptied]
      refine ⟨_, rfl, ?_, ⟨rfl, rfl, rfl⟩, ?_, hrows, fun _ => rfl, ?_⟩
      · refine hasCounters_of hcounters ?_ hrows
          (fun c' l hrow => undeleteEffect_isSome hrow)
        intro l hsome
        change (Option.map _ (Option.map _ _)).isSome
        rw [Option.isSome_map, Option.isSome_map]
        exact hsome
      · exact map_touched db.conversations
          (g := fun c => (undeleteEffect c messages db).conversation)
          (fun _ => rfl)
      · intro l
        change Option.map _ (Option.map _ _) = _
        rw [Option.map_map]
        rfl
    · exact Bool.eq_false_iff.mp hlacks
  · intro c messages db db' hsame hconv hrows
    change undeleteEffect c messages db' = undeleteEffect c messages db
    unfold undeleteEffect isEmptied Database.allMail
    rw [build_congr hsame.messageLabels, hconv, hrows, hsame.labels]

end Message

end Conversations
end MailClient
