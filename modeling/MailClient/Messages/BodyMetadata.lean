import Mathlib.Data.List.Basic
import Mathlib.Logic.Function.Basic
import MailClient.Conversations.Stats
import MailClient.Messages.Ids

/-!
# The metadata of message bodies

A row of `message_bodies` with the addresses to reply to, which have tables of
their own.  Both of these tables are keyed by the message, so there is one row
for each message in them.  Attachments are stored elsewhere.
-/

namespace MailClient
namespace Messages

structure MessageReplyTo where
  name : String
  address : String
  bimiSelector : Option String := none
  displaySenderImage : Bool := false
  isProton : Bool := false
  isSimpleLogin : Bool := false
  deriving DecidableEq, Repr

structure MessageBodyMetadata where
  localMessageId : Option LocalMessageId
  remoteMessageId : Option MessageId
  header : String
  mimeType : String
  parsedHeaders : String
  replyTo : MessageReplyTo
  replyTos : List MessageReplyTo
  deriving DecidableEq, Repr

structure BodyRow where
  localMessageId : LocalMessageId
  remoteMessageId : Option MessageId
  header : String
  mimeType : String
  parsedHeaders : String
  deriving DecidableEq, Repr

/-- The ids of a row of `messages`. -/
structure MessageIds where
  localId : LocalMessageId
  remoteId : Option MessageId
  deriving DecidableEq, Repr

/-- A table with the message as its primary key. -/
abbrev ReplyToTable := LocalMessageId -> Option MessageReplyTo

structure BodyTables where
  messages : List MessageIds
  messageBodies : List BodyRow
  messageReplyTo : ReplyToTable
  messageReplyTos : ReplyToTable

/-!
# Addresses to reply to
-/

namespace MessageReplyTo

/-- `INSERT … ON CONFLICT (local_message_id) DO UPDATE`, of all columns. -/
def storeImpl (messageId : LocalMessageId) (self : MessageReplyTo)
    (table : ReplyToTable) : ReplyToTable :=
  Function.update table messageId (some self)

def loadReplyTo (messageId : LocalMessageId) (s : BodyTables) :
    Option MessageReplyTo :=
  s.messageReplyTo messageId

def loadReplyTos (messageId : LocalMessageId) (s : BodyTables) :
    List MessageReplyTo :=
  (s.messageReplyTos messageId).toList

end MessageReplyTo

open MessageReplyTo

namespace MessageBodyMetadata

/-!
# Saving and loading
-/

def beforeSave (s : BodyTables) (self : MessageBodyMetadata) :
    MessageBodyMetadata :=
  match self.localMessageId, self.remoteMessageId with
  | none, some remoteId =>
      match s.messages.find? (fun m => m.remoteId = some remoteId) with
      | some message => { self with localMessageId := some message.localId }
      | none => self
  | _, _ => self

/-- The id that SQLite gives to a row without one. -/
def nextRowId (s : BodyTables) : LocalMessageId :=
  (s.messageBodies.map BodyRow.localMessageId).foldr max 0 + 1

def row (id : LocalMessageId) (self : MessageBodyMetadata) : BodyRow where
  localMessageId := id
  remoteMessageId := self.remoteMessageId
  header := self.header
  mimeType := self.mimeType
  parsedHeaders := self.parsedHeaders

/-- A body is that of a message, and no other body has its remote id. -/
def isStorable (s : BodyTables) (row : BodyRow) : Bool :=
  s.messages.any (fun m => m.localId = row.localMessageId) &&
    s.messageBodies.all (fun other =>
      other.localMessageId = row.localMessageId ∨
        other.remoteMessageId = none ∨
        other.remoteMessageId ≠ row.remoteMessageId)

def storeRow (s : BodyTables) (row : BodyRow) : BodyTables :=
  if s.messageBodies.any (fun r => r.localMessageId = row.localMessageId) then
    { s with
      messageBodies := s.messageBodies.map (fun r =>
        if r.localMessageId = row.localMessageId then row else r) }
  else
    { s with messageBodies := s.messageBodies ++ [row] }

/-- By then the message has its local id. -/
def afterSave (id : LocalMessageId) (self : MessageBodyMetadata)
    (s : BodyTables) : BodyTables :=
  { s with
    messageReplyTo := storeImpl id self.replyTo s.messageReplyTo
    messageReplyTos := self.replyTos.foldl
      (fun table replyTo => storeImpl id replyTo table) s.messageReplyTos }

/-- `save_sync`, with the id under which the body is stored. -/
def save (self : MessageBodyMetadata) (s : BodyTables) :
    Option (LocalMessageId × BodyTables) :=
  let self := self.beforeSave s
  let id := self.localMessageId.getD (nextRowId s)
  if isStorable s (self.row id) then
    some (id, self.afterSave id (storeRow s (self.row id)))
  else
    none

/-- Loading fails without an address to reply to. -/
def afterLoad (s : BodyTables) (row : BodyRow) : Option MessageBodyMetadata :=
  (loadReplyTo row.localMessageId s).map (fun replyTo =>
    { localMessageId := some row.localMessageId
      remoteMessageId := row.remoteMessageId
      header := row.header
      mimeType := row.mimeType
      parsedHeaders := row.parsedHeaders
      replyTo := replyTo
      replyTos := loadReplyTos row.localMessageId s })

def forMessage (id : LocalMessageId) (s : BodyTables) :
    Option MessageBodyMetadata :=
  (s.messageBodies.find? (fun r => r.localMessageId = id)).bind (afterLoad s)

/-!
# What is loaded after saving
-/

variable {s s' : BodyTables} {id : LocalMessageId} {m : MessageBodyMetadata}

theorem beforeSave_replyTo : (m.beforeSave s).replyTo = m.replyTo := by
  unfold beforeSave
  split
  · split
    · rfl
    · rfl
  · rfl

theorem beforeSave_replyTos : (m.beforeSave s).replyTos = m.replyTos := by
  unfold beforeSave
  split
  · split
    · rfl
    · rfl
  · rfl

theorem find_storeRow (row : BodyRow) :
    (storeRow s row).messageBodies.find?
      (fun r => r.localMessageId = row.localMessageId) = some row := by
  unfold storeRow
  split
  · rename_i hany
    rcases List.any_eq_true.mp hany with ⟨r, hr, hid⟩
    rw [decide_eq_true_eq] at hid
    clear hany
    change (s.messageBodies.map _).find? _ = _
    revert hr
    generalize s.messageBodies = bodies
    intro hr
    induction bodies with
    | nil => cases hr
    | cons first rest ih =>
        rw [List.map_cons]
        by_cases hfirst : first.localMessageId = row.localMessageId
        · rw [if_pos hfirst]
          exact List.find?_cons_of_pos (by simp)
        · rw [if_neg hfirst, List.find?_cons_of_neg (by simpa using hfirst)]
          refine ih ?_
          rcases List.mem_cons.mp hr with heq | hrest
          · rw [heq] at hid
            exact absurd hid hfirst
          · exact hrest
  · rename_i hnone
    change (s.messageBodies ++ [row]).find? _ = _
    rw [List.find?_append, List.find?_eq_none.mpr]
    · simp
    · intro r hr hid
      exact hnone (List.any_eq_true.mpr ⟨r, hr, hid⟩)

theorem foldl_storeImpl (replyTos : List MessageReplyTo)
    (table : ReplyToTable) :
    replyTos.foldl (fun table replyTo => storeImpl id replyTo table) table id =
      replyTos.getLast?.or (table id) := by
  induction replyTos generalizing table with
  | nil => rfl
  | cons first rest ih =>
      rw [List.foldl_cons, ih]
      unfold storeImpl
      rw [Function.update_self, List.getLast?_cons]
      cases rest.getLast? with
      | none => rfl
      | some _ => rfl

theorem forMessage_save (h : m.save s = some (id, s')) :
    exists loaded, forMessage id s' = some loaded ∧
      loaded.replyTo = m.replyTo ∧
      loaded.replyTos =
        (m.replyTos.getLast?.or (s.messageReplyTos id)).toList := by
  unfold save at h
  dsimp only at h
  split at h
  · rw [Option.some.injEq, Prod.mk.injEq] at h
    rcases h with ⟨hid, hs⟩
    rw [hid] at hs
    have hfind : s'.messageBodies.find? (fun r => r.localMessageId = id) =
        some ((m.beforeSave s).row id) := by
      rw [<- hs]
      exact find_storeRow ((m.beforeSave s).row id)
    have hreplyTo : s'.messageReplyTo id = some m.replyTo := by
      rw [<- hs, <- beforeSave_replyTo (s := s) (m := m)]
      exact Function.update_self _ _ _
    have hbefore : (storeRow s ((m.beforeSave s).row id)).messageReplyTos =
        s.messageReplyTos := by
      unfold storeRow
      split
      · rfl
      · rfl
    have hreplyTos : s'.messageReplyTos id =
        m.replyTos.getLast?.or (s.messageReplyTos id) := by
      rw [<- hs, <- beforeSave_replyTos (s := s), <- hbefore]
      exact foldl_storeImpl _ _
    unfold forMessage afterLoad
    rw [hfind, Option.bind_some]
    change exists loaded, (s'.messageReplyTo id).map _ = some loaded ∧ _
    rw [hreplyTo]
    refine ⟨_, rfl, rfl, ?_⟩
    exact congrArg Option.toList hreplyTos
  · cases h

theorem toList_getLast?_eq_iff {replyTos : List MessageReplyTo}
    {left : Option MessageReplyTo} :
    (replyTos.getLast?.or left).toList = replyTos ↔
      replyTos.length = 1 ∨ (replyTos = [] ∧ left = none) := by
  cases replyTos with
  | nil =>
      cases left with
      | none => simp
      | some _ => simp
  | cons first rest =>
      cases rest with
      | nil => simp
      | cons second rest =>
          rw [List.getLast?_cons_cons, List.getLast?_cons]
          simp

theorem metadata_survives (h : m.save s = some (id, s')) :
    (exists loaded, forMessage id s' = some loaded ∧
      loaded.replyTo = m.replyTo ∧ loaded.replyTos = m.replyTos) ↔
      m.replyTos.length = 1 ∨
        (m.replyTos = [] ∧ s.messageReplyTos id = none) := by
  rcases forMessage_save h with ⟨loaded, hloaded, hreplyTo, hreplyTos⟩
  rw [<- toList_getLast?_eq_iff, <- hreplyTos]
  constructor
  · intro hsurvives
    rcases hsurvives with ⟨loaded', hloaded', _, hsame⟩
    rw [hloaded, Option.some.injEq] at hloaded'
    rw [hloaded']
    exact hsame
  · intro hsame
    exact ⟨loaded, hloaded, hreplyTo, hsame⟩

/-!
# A message with one address and with two
-/

def replyAddress (address : String) : MessageReplyTo where
  name := ""
  address := address

def oneMessage : BodyTables where
  messages := [⟨1, some "m"⟩]
  messageBodies := []
  messageReplyTo := fun _ => none
  messageReplyTos := fun _ => none

def body (replyTos : List MessageReplyTo) : MessageBodyMetadata where
  localMessageId := none
  remoteMessageId := some "m"
  header := ""
  mimeType := "text/plain"
  parsedHeaders := "{}"
  replyTo := replyAddress "a"
  replyTos := replyTos

theorem one_address_survives :
    exists id s', (body [replyAddress "a"]).save oneMessage = some (id, s') ∧
      exists loaded, forMessage id s' = some loaded ∧
        loaded.replyTo = replyAddress "a" ∧
        loaded.replyTos = [replyAddress "a"] :=
  ⟨1, _, rfl, (metadata_survives
    (m := body [replyAddress "a"]) (s := oneMessage) rfl).mpr (Or.inl rfl)⟩

/-- Of two addresses one is left, and it stays when none is saved later. -/
theorem addresses_lost :
    exists id s' s'',
      (body [replyAddress "a", replyAddress "b"]).save oneMessage =
        some (id, s') ∧
      (¬ exists loaded, forMessage id s' = some loaded ∧
        loaded.replyTos = [replyAddress "a", replyAddress "b"]) ∧
      (body []).save s' = some (id, s'') ∧
      ¬ exists loaded, forMessage id s'' = some loaded ∧
        loaded.replyTos = [] := by
  refine ⟨1, _, _, rfl, ?_, rfl, ?_⟩
  · intro h
    rcases h with ⟨loaded, hloaded, hreplyTos⟩
    cases hloaded
    revert hreplyTos
    decide
  · intro h
    rcases h with ⟨loaded, hloaded, hreplyTos⟩
    cases hloaded
    revert hreplyTos
    decide

end MessageBodyMetadata

end Messages
end MailClient
