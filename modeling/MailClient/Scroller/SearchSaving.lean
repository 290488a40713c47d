import Mathlib.Algebra.Ring.Nat
import Mathlib.Data.List.MinMax
import MailClient.Foundation.Dedup
import MailClient.Scroller.HybridSearch
import MailClient.Messages.SyncDecision

/-!
# Saving a page of search results

The messages of a page are stored first, unless they have been deleted, and the
rows of `mail_search_scroll_data` are appended after that.  A message that is
open as a draft is not stored again.
-/

namespace MailClient
namespace Scroller

open Foundation
open Drafts (DraftMetadata)
open Messages (MessageFlags MessageSyncDecision deletesBody)

namespace SearchStore

/-!
# Tables
-/

structure ApiMessageMetadata where
  id : MessageId
  addressId : AddressId
  time : Nat
  flags : MessageFlags

structure Message where
  localId : LocalMessageId
  remoteId : Option MessageId
  time : Nat
  deleted : Bool
  deriving DecidableEq

/-- `bodies` are the messages whose raw body is stored, `scroll` the rows. -/
structure Tables where
  messages : List Message
  nextLocalId : LocalMessageId
  bodies : List LocalMessageId
  deletedItems : List MessageId
  drafts : List DraftMetadata
  addresses : List AddressId
  scroll : List SearchScrollData

/-- A transaction that fails or panics is rolled back. -/
inductive Outcome where
  | saved (messages : List Message) (db : Tables)
  | failed
  | panicked

namespace Tables

variable (db : Tables)

def keys : List (LocalMessageId × Option MessageId) :=
  db.messages.map (fun m => (m.localId, m.remoteId))

/-- What the schema of the tables keeps. -/
structure Consistent : Prop where
  localIds_nodup : (db.keys.map Prod.fst).Nodup
  remoteIds_nodup : (db.keys.filterMap Prod.snd).Nodup
  lt_nextLocalId : forall l, l ∈ db.keys.map Prod.fst -> l < db.nextLocalId
  drafts_known : forall d, d ∈ db.drafts -> forall l,
    d.localMessageId = some l -> l ∈ db.keys.map Prod.fst
  scroll_known : forall r, r ∈ db.scroll ->
    r.localMessageId ∈ db.keys.map Prod.fst
  scroll_nodup : (db.scroll.map SearchScrollData.localMessageId).Nodup
  scroll_fits : forall r, r ∈ db.scroll -> r.displayOrder < 2 ^ 63

/-!
# Storing the messages
-/

def findByRemoteId (id : MessageId) : Option Message :=
  db.messages.find? (fun m => m.remoteId = some id)

def remoteIdCounterpart (id : MessageId) : Option LocalMessageId :=
  (db.findByRemoteId id).map Message.localId

/-- The draft is found through the message, so there is none without a message. -/
def findByMessageWithRemoteId (id : MessageId) : Option DraftMetadata :=
  match db.remoteIdCounterpart id with
  | none => none
  | some localId => db.drafts.find? (fun d => d.localMessageId = some localId)

/-- The decision; a stale draft loses its raw body. -/
def syncDecision (metadata : ApiMessageMetadata) :
    MessageSyncDecision × Tables :=
  let draftMetadata := db.findByMessageWithRemoteId metadata.id
  match Messages.syncDecision draftMetadata metadata.flags with
  | MessageSyncDecision.skip => (MessageSyncDecision.skip, db)
  | MessageSyncDecision.apply =>
      match db.remoteIdCounterpart metadata.id with
      | none => (MessageSyncDecision.apply, db)
      | some localId =>
          if deletesBody draftMetadata none then
            (MessageSyncDecision.apply,
              { db with bodies := db.bodies.filter (fun l => l ≠ localId) })
          else
            (MessageSyncDecision.apply, db)

/-- The message that is to be stored under a local id, if its address is known. -/
def fromApiMetadata (value : ApiMessageMetadata) :
    Option (LocalMessageId -> Message) :=
  if value.addressId ∈ db.addresses then
    some (fun localId => ⟨localId, some value.id, value.time, false⟩)
  else
    none

def insert (message : Message) : Tables :=
  { db with
    messages := db.messages ++ [message]
    nextLocalId := db.nextLocalId + 1 }

def update (message : Message) : Tables :=
  { db with
    messages := db.messages.map (fun m =>
      if m.localId = message.localId then message else m) }

/-- A message whose remote id is stored already keeps its local id. -/
def createOrGetLocal (id : MessageId) (message : LocalMessageId -> Message) :
    Message × Tables :=
  match db.remoteIdCounterpart id with
  | some localId => (message localId, db.update (message localId))
  | none => (message db.nextLocalId, db.insert (message db.nextLocalId))

/-- One message of the page; nothing if it is skipped and not stored. -/
def saveOne (apiMessage : ApiMessageMetadata) :
    Option (Option Message × Tables) :=
  match db.syncDecision apiMessage with
  | (MessageSyncDecision.skip, db) =>
      some (db.findByRemoteId apiMessage.id, db)
  | (MessageSyncDecision.apply, db) =>
      (db.fromApiMetadata apiMessage).map (fun message =>
        let (message, db) := db.createOrGetLocal apiMessage.id message
        (some message, db))

def saveEach (deletedIds : List MessageId) :
    Tables -> List ApiMessageMetadata -> Option (List Message × Tables)
  | db, [] => some ([], db)
  | db, apiMessage :: rest =>
      if apiMessage.id ∈ deletedIds then
        saveEach deletedIds db rest
      else
        match db.saveOne apiMessage with
        | none => none
        | some (message, db) =>
            (saveEach deletedIds db rest).map (fun (messages, db) =>
              (message.toList ++ messages, db))

def saveScrollerMessages (apiMessages : List ApiMessageMetadata) :
    Option (List Message × Tables) :=
  let deletedIds := db.deletedItems.filter (fun id =>
    id ∈ apiMessages.map ApiMessageMetadata.id)
  saveEach deletedIds db apiMessages

end Tables

/-!
# Appending the rows
-/

def saturatingSucc (n : Nat) : Nat := min (n + 1) (2 ^ 64 - 1)

def last (rows : List SearchScrollData) : Option SearchScrollData :=
  rows.argmax SearchScrollData.displayOrder

/-- A new row; the column holds a signed integer. -/
def save (rows : List SearchScrollData) (row : SearchScrollData) :
    Option (List SearchScrollData) :=
  if row.displayOrder < 2 ^ 63 then some (rows ++ [row]) else none

def appendRows : List SearchScrollData -> Nat -> List Message ->
    Option (List SearchScrollData)
  | rows, _, [] => some rows
  | rows, displayOrder, message :: rest =>
      if message.localId ∈ rows.map SearchScrollData.localMessageId then
        appendRows rows displayOrder rest
      else
        match save rows ⟨message.localId, displayOrder⟩ with
        | none => none
        | some rows => appendRows rows (saturatingSucc displayOrder) rest

namespace Tables

variable (db : Tables)

def saveMessages (apiMessages : List ApiMessageMetadata) : Outcome :=
  if apiMessages = [] then
    Outcome.saved [] db
  else
    let displayOrder := ((last db.scroll).map (fun s =>
      saturatingSucc s.displayOrder)).getD 0
    match db.saveScrollerMessages apiMessages with
    | none => Outcome.failed
    | some (messages, db) =>
        match appendRows db.scroll displayOrder messages with
        | none => Outcome.failed
        | some scroll =>
            match messages.getLast? with
            | none => Outcome.panicked
            | some last =>
                match last.remoteId with
                | none => Outcome.panicked
                | some _ => Outcome.saved messages { db with scroll := scroll }

end Tables

/-!
# Local ids
-/

namespace Tables

variable {db db' db'' : Tables}

theorem counterpart_eq (id : MessageId) :
    db.remoteIdCounterpart id =
      (db.keys.find? (fun k => k.2 = some id)).map Prod.fst := by
  unfold remoteIdCounterpart findByRemoteId keys
  rw [List.find?_map, Option.map_map]
  rfl

variable {id : MessageId} {message : Message} {m : ApiMessageMetadata}

theorem mem_of_counterpart {l : LocalMessageId}
    (h : db.remoteIdCounterpart id = some l) : (l, some id) ∈ db.keys := by
  rw [counterpart_eq] at h
  rcases Option.map_eq_some_iff.mp h with ⟨⟨l', remoteId⟩, hfind, rfl⟩
  have hfound := List.find?_some hfind
  have hremote : remoteId = some id := of_decide_eq_true hfound
  exact hremote ▸ List.mem_of_find?_eq_some hfind

theorem Consistent.counterpart_inj (h : db.Consistent) {id' : MessageId}
    {l : LocalMessageId} (hid : db.remoteIdCounterpart id = some l)
    (hid' : db.remoteIdCounterpart id' = some l) : id = id' := by
  have hkeys := List.inj_on_of_nodup_map h.localIds_nodup
    (mem_of_counterpart hid) (mem_of_counterpart hid') rfl
  exact Option.some.inj (congrArg Prod.snd hkeys)

/-- What storing messages leaves as it is, and which local ids it gives. -/
structure Grown (db db' : Tables) : Prop where
  deletedItems : db'.deletedItems = db.deletedItems
  drafts : db'.drafts = db.drafts
  addresses : db'.addresses = db.addresses
  scroll : db'.scroll = db.scroll
  nextLocalId_le : db.nextLocalId ≤ db'.nextLocalId
  keeps : forall id l, db.remoteIdCounterpart id = some l ->
    db'.remoteIdCounterpart id = some l
  fresh : forall id l, db'.remoteIdCounterpart id = some l ->
    db.remoteIdCounterpart id = some l ∨
      (db.remoteIdCounterpart id = none ∧ db.nextLocalId ≤ l)

theorem Grown.refl (db : Tables) : db.Grown db where
  deletedItems := rfl
  drafts := rfl
  addresses := rfl
  scroll := rfl
  nextLocalId_le := le_rfl
  keeps := fun _ _ h => h
  fresh := fun _ _ h => Or.inl h

theorem Grown.trans (h : db.Grown db') (h' : db'.Grown db'') :
    db.Grown db'' where
  deletedItems := h'.deletedItems.trans h.deletedItems
  drafts := h'.drafts.trans h.drafts
  addresses := h'.addresses.trans h.addresses
  scroll := h'.scroll.trans h.scroll
  nextLocalId_le := le_trans h.nextLocalId_le h'.nextLocalId_le
  keeps := fun id l hid => h'.keeps id l (h.keeps id l hid)
  fresh := by
    intro id l hid
    rcases h'.fresh id l hid with hold | ⟨hnone, hle⟩
    · exact h.fresh id l hold
    · right
      constructor
      · cases hdb : db.remoteIdCounterpart id with
        | none => rfl
        | some l' =>
            rw [h.keeps id l' hdb] at hnone
            cases hnone
      · exact le_trans h.nextLocalId_le hle

theorem Grown.of_bodies (bodies : List LocalMessageId) :
    db.Grown { db with bodies := bodies } where
  deletedItems := rfl
  drafts := rfl
  addresses := rfl
  scroll := rfl
  nextLocalId_le := le_rfl
  keeps := fun _ _ h => h
  fresh := fun _ _ h => Or.inl h

theorem Consistent.of_bodies (h : db.Consistent) (bodies : List LocalMessageId) :
    ({ db with bodies := bodies } : Tables).Consistent where
  localIds_nodup := h.localIds_nodup
  remoteIds_nodup := h.remoteIds_nodup
  lt_nextLocalId := h.lt_nextLocalId
  drafts_known := h.drafts_known
  scroll_known := h.scroll_known
  scroll_nodup := h.scroll_nodup
  scroll_fits := h.scroll_fits

/-!
# One message
-/

theorem keys_update (h : db.Consistent)
    (hid : db.remoteIdCounterpart id = some message.localId)
    (hremote : message.remoteId = some id) :
    (db.update message).keys = db.keys := by
  unfold update keys
  rw [List.map_map]
  apply List.map_congr_left
  intro m hm
  rw [Function.comp_apply]
  by_cases heq : m.localId = message.localId
  · rw [if_pos heq]
    have hmem : (m.localId, m.remoteId) ∈ db.keys :=
      List.mem_map.mpr ⟨m, hm, rfl⟩
    have hkeys := List.inj_on_of_nodup_map h.localIds_nodup hmem
      (mem_of_counterpart hid) heq
    rw [hkeys, hremote]
  · rw [if_neg heq]

theorem counterpart_of_keys (hkeys : db'.keys = db.keys) (id : MessageId) :
    db'.remoteIdCounterpart id = db.remoteIdCounterpart id := by
  rw [counterpart_eq, counterpart_eq, hkeys]

theorem Consistent.update (h : db.Consistent)
    (hid : db.remoteIdCounterpart id = some message.localId)
    (hremote : message.remoteId = some id) :
    (db.update message).Consistent where
  localIds_nodup := keys_update h hid hremote ▸ h.localIds_nodup
  remoteIds_nodup := keys_update h hid hremote ▸ h.remoteIds_nodup
  lt_nextLocalId := keys_update h hid hremote ▸ h.lt_nextLocalId
  drafts_known := keys_update h hid hremote ▸ h.drafts_known
  scroll_known := keys_update h hid hremote ▸ h.scroll_known
  scroll_nodup := h.scroll_nodup
  scroll_fits := h.scroll_fits

theorem Grown.update (h : db.Consistent)
    (hid : db.remoteIdCounterpart id = some message.localId)
    (hremote : message.remoteId = some id) :
    db.Grown (db.update message) where
  deletedItems := rfl
  drafts := rfl
  addresses := rfl
  scroll := rfl
  nextLocalId_le := le_rfl
  keeps := by
    intro id' l hid'
    rw [counterpart_of_keys (keys_update h hid hremote), hid']
  fresh := by
    intro id' l hid'
    rw [counterpart_of_keys (keys_update h hid hremote)] at hid'
    exact Or.inl hid'

theorem keys_insert (message : Message) :
    (db.insert message).keys =
      db.keys ++ [(message.localId, message.remoteId)] := by
  unfold insert keys
  exact List.map_append

theorem counterpart_insert (hremote : message.remoteId = some id)
    (hnone : db.remoteIdCounterpart id = none) (id' : MessageId) :
    (db.insert message).remoteIdCounterpart id' =
      if id' = id then some message.localId else db.remoteIdCounterpart id' := by
  rw [counterpart_eq, keys_insert, List.find?_append, Option.map_or,
    <- counterpart_eq, hremote]
  by_cases heq : id' = id
  · have hfound : [(message.localId, some id)].find?
        (fun k => k.2 = some id) = some (message.localId, some id) :=
      List.find?_cons_of_pos (by simp)
    rw [if_pos heq, heq, hnone, Option.none_or, hfound]
    rfl
  · have hne : ¬ some id = some id' := fun h => heq (Option.some.inj h).symm
    rw [if_neg heq, List.find?_cons_of_neg (by simpa using hne), List.find?_nil,
      Option.map_none, Option.or_none]

theorem Grown.insert (hremote : message.remoteId = some id)
    (hnone : db.remoteIdCounterpart id = none)
    (hlocal : message.localId = db.nextLocalId) :
    db.Grown (db.insert message) where
  deletedItems := rfl
  drafts := rfl
  addresses := rfl
  scroll := rfl
  nextLocalId_le := Nat.le_succ _
  keeps := by
    intro id' l hid
    rw [counterpart_insert hremote hnone]
    split
    · rename_i heq
      rw [heq, hnone] at hid
      cases hid
    · exact hid
  fresh := by
    intro id' l hid
    rw [counterpart_insert hremote hnone] at hid
    split at hid
    · rename_i heq
      right
      rw [heq, <- Option.some.inj hid, hlocal]
      exact ⟨hnone, le_rfl⟩
    · exact Or.inl hid

theorem Consistent.insert (h : db.Consistent)
    (hremote : message.remoteId = some id)
    (hnone : db.remoteIdCounterpart id = none)
    (hlocal : message.localId = db.nextLocalId) :
    (db.insert message).Consistent := by
  have hfst : (db.insert message).keys.map Prod.fst =
      db.keys.map Prod.fst ++ [db.nextLocalId] := by
    rw [keys_insert, List.map_append, hlocal]
    rfl
  have hsnd : (db.insert message).keys.filterMap Prod.snd =
      db.keys.filterMap Prod.snd ++ [id] := by
    rw [keys_insert, List.filterMap_append, hremote]
    rfl
  have hnew : db.nextLocalId ∉ db.keys.map Prod.fst :=
    fun hmem => lt_irrefl _ (h.lt_nextLocalId _ hmem)
  have hnewId : id ∉ db.keys.filterMap Prod.snd := by
    intro hmem
    rcases List.mem_filterMap.mp hmem with ⟨k, hk, hkid⟩
    rw [counterpart_eq, Option.map_eq_none_iff, List.find?_eq_none] at hnone
    exact hnone k hk (decide_eq_true hkid)
  constructor
  · rw [hfst, <- List.concat_eq_append]
    exact List.Nodup.concat hnew h.localIds_nodup
  · rw [hsnd, <- List.concat_eq_append]
    exact List.Nodup.concat hnewId h.remoteIds_nodup
  · rw [hfst]
    intro l hl
    rcases List.mem_append.mp hl with hl | hl
    · exact Nat.lt_succ_of_lt (h.lt_nextLocalId l hl)
    · cases List.mem_singleton.mp hl
      exact Nat.lt_succ_self _
  · rw [hfst]
    intro d hd l hl
    exact List.mem_append_left _ (h.drafts_known d hd l hl)
  · rw [hfst]
    intro r hr
    exact List.mem_append_left _ (h.scroll_known r hr)
  · exact h.scroll_nodup
  · exact h.scroll_fits

/-- The message is open as a draft that has not been sent. -/
def Skips (db : Tables) (m : ApiMessageMetadata) : Prop :=
  (db.syncDecision m).1 = MessageSyncDecision.skip

instance (db : Tables) (m : ApiMessageMetadata) : Decidable (db.Skips m) :=
  inferInstanceAs (Decidable (_ = _))

/-- The decision on the draft of a message, and what it does to the tables. -/
theorem syncDecision_cases (db : Tables) (m : ApiMessageMetadata) :
    (Messages.syncDecision (db.findByMessageWithRemoteId m.id) m.flags =
        MessageSyncDecision.skip ∧
      db.syncDecision m = (MessageSyncDecision.skip, db)) ∨
    (Messages.syncDecision (db.findByMessageWithRemoteId m.id) m.flags =
        MessageSyncDecision.apply ∧
      exists bodies, db.syncDecision m =
        (MessageSyncDecision.apply, { db with bodies := bodies })) := by
  unfold syncDecision
  dsimp only
  cases Messages.syncDecision (db.findByMessageWithRemoteId m.id) m.flags with
  | skip => exact Or.inl ⟨rfl, rfl⟩
  | apply =>
      refine Or.inr ⟨rfl, ?_⟩
      cases db.remoteIdCounterpart m.id with
      | none => exact ⟨db.bodies, rfl⟩
      | some localId =>
          dsimp only
          split
          · exact ⟨db.bodies.filter (fun l => l ≠ localId), rfl⟩
          · exact ⟨db.bodies, rfl⟩

theorem syncDecision_fst (db : Tables) (m : ApiMessageMetadata) :
    (db.syncDecision m).1 =
      Messages.syncDecision (db.findByMessageWithRemoteId m.id) m.flags := by
  rcases db.syncDecision_cases m with ⟨hskip, heq⟩ | ⟨happly, bodies, heq⟩
  · rw [heq, hskip]
  · rw [heq, happly]

theorem Skips.found (h : db.Skips m) :
    db.syncDecision m = (MessageSyncDecision.skip, db) ∧
      exists message, db.findByRemoteId m.id = some message := by
  unfold Skips at h
  rcases db.syncDecision_cases m with ⟨hskip, heq⟩ | ⟨_, bodies, heq⟩
  · refine ⟨heq, ?_⟩
    unfold findByMessageWithRemoteId at hskip
    cases hid : db.remoteIdCounterpart m.id with
    | none =>
        rw [hid] at hskip
        cases hskip
    | some localId =>
        rcases Option.map_eq_some_iff.mp hid with ⟨message, hfound, _⟩
        exact ⟨message, hfound⟩
  · rw [heq] at h
    cases h

theorem applies_of_not_skips (h : ¬ db.Skips m) :
    exists bodies, db.syncDecision m =
      (MessageSyncDecision.apply, { db with bodies := bodies }) := by
  rcases db.syncDecision_cases m with ⟨_, heq⟩ | ⟨_, happly⟩
  · exact absurd (congrArg Prod.fst heq) h
  · exact happly

/-- The message is stored under the local id that its remote id stands for. -/
def Stored (db : Tables) (id : MessageId) (message : Message) : Prop :=
  message.remoteId = some id ∧
    db.remoteIdCounterpart id = some message.localId

theorem createOrGetLocal_spec (h : db.Consistent)
    {message : LocalMessageId -> Message}
    (hmessage : db.fromApiMetadata m = some message) :
    (db.createOrGetLocal m.id message).2.Consistent ∧
      db.Grown (db.createOrGetLocal m.id message).2 ∧
      (db.createOrGetLocal m.id message).2.Stored m.id
        (db.createOrGetLocal m.id message).1 := by
  have hids : forall l, (message l).localId = l ∧
      (message l).remoteId = some m.id := by
    intro l
    unfold fromApiMetadata at hmessage
    split at hmessage
    · cases hmessage
      exact ⟨rfl, rfl⟩
    · cases hmessage
  unfold createOrGetLocal
  cases hid : db.remoteIdCounterpart m.id with
  | some l =>
      have hlocal : db.remoteIdCounterpart m.id = some (message l).localId := by
        rw [hid, (hids l).left]
      refine ⟨h.update hlocal (hids l).right, Grown.update h hlocal (hids l).right,
        (hids l).right, ?_⟩
      exact (Grown.update h hlocal (hids l).right).keeps _ _ hlocal
  | none =>
      have hlocal := (hids db.nextLocalId).left
      have hremote := (hids db.nextLocalId).right
      refine ⟨h.insert hremote hid hlocal, Grown.insert hremote hid hlocal,
        hremote, ?_⟩
      dsimp only
      rw [counterpart_insert hremote hid, if_pos rfl]

theorem saveOne_of_skips (h : db.Skips m) :
    exists message, db.saveOne m = some (some message, db) ∧
      db.Stored m.id message := by
  rcases h.found with ⟨hskip, message, hfound⟩
  refine ⟨message, ?_, ?_, ?_⟩
  · unfold saveOne
    rw [hskip]
    dsimp only
    rw [hfound]
  · have hremote := List.find?_some hfound
    exact of_decide_eq_true hremote
  · unfold remoteIdCounterpart
    rw [hfound]
    rfl

theorem saveOne_of_unknown (h : ¬ db.Skips m)
    (haddress : m.addressId ∉ db.addresses) : db.saveOne m = none := by
  rcases applies_of_not_skips h with ⟨bodies, happly⟩
  unfold saveOne
  rw [happly]
  dsimp only
  unfold fromApiMetadata
  rw [if_neg haddress]
  rfl

theorem saveOne_of_known (hdb : db.Consistent) (h : ¬ db.Skips m)
    (haddress : m.addressId ∈ db.addresses) :
    exists message db', db.saveOne m = some (some message, db') ∧
      db'.Consistent ∧ db.Grown db' ∧ db'.Stored m.id message := by
  rcases applies_of_not_skips h with ⟨bodies, happly⟩
  have hmessage : exists message,
      ({ db with bodies := bodies } : Tables).fromApiMetadata m = some message := by
    unfold fromApiMetadata
    rw [if_pos haddress]
    exact ⟨_, rfl⟩
  rcases hmessage with ⟨message, hmessage⟩
  rcases createOrGetLocal_spec (hdb.of_bodies bodies) hmessage with
    ⟨hconsistent, hgrown, hstored⟩
  refine ⟨_, _, ?_, hconsistent, (Grown.of_bodies bodies).trans hgrown, hstored⟩
  unfold saveOne
  rw [happly]
  dsimp only
  rw [hmessage]
  rfl

/-!
# A page of messages
-/

theorem Grown.skips_iff (h : db.Consistent) (hgrown : db.Grown db')
    (m : ApiMessageMetadata) : db'.Skips m ↔ db.Skips m := by
  have hdraft : db'.findByMessageWithRemoteId m.id =
      db.findByMessageWithRemoteId m.id := by
    unfold findByMessageWithRemoteId
    rw [hgrown.drafts]
    cases hid' : db'.remoteIdCounterpart m.id with
    | none =>
        cases hid : db.remoteIdCounterpart m.id with
        | none => rfl
        | some l =>
            rw [hgrown.keeps _ _ hid] at hid'
            cases hid'
    | some l =>
        rcases hgrown.fresh _ _ hid' with hid | ⟨hid, hle⟩
        · rw [hid]
        · rw [hid]
          apply List.find?_eq_none.mpr
          intro d hd hlocal
          have hknown := h.drafts_known d hd l (of_decide_eq_true hlocal)
          exact absurd (h.lt_nextLocalId l hknown) (not_lt_of_ge hle)
  have hdecision : (db'.syncDecision m).1 = (db.syncDecision m).1 := by
    rw [syncDecision_fst, syncDecision_fst, hdraft]
  unfold Skips
  rw [hdecision]

/-- The messages of a page that have not been deleted. -/
def kept (deletedIds : List MessageId) (page : List ApiMessageMetadata) :
    List ApiMessageMetadata :=
  page.filter (fun m => m.id ∉ deletedIds)

/-- What is stored of the message is complete. -/
def Storable (db : Tables) (m : ApiMessageMetadata) : Prop :=
  db.Skips m ∨ m.addressId ∈ db.addresses

theorem Grown.storable_iff (h : db.Consistent) (hgrown : db.Grown db')
    (m : ApiMessageMetadata) : db'.Storable m ↔ db.Storable m := by
  unfold Storable
  rw [hgrown.skips_iff h, hgrown.addresses]

theorem saveOne_of_storable (hdb : db.Consistent) (h : db.Storable m) :
    exists message db', db.saveOne m = some (some message, db') ∧
      db'.Consistent ∧ db.Grown db' ∧ db'.Stored m.id message := by
  by_cases hskips : db.Skips m
  · rcases saveOne_of_skips hskips with ⟨message, hsave, hstored⟩
    exact ⟨message, db, hsave, hdb, Grown.refl db, hstored⟩
  · exact saveOne_of_known hdb hskips (h.resolve_left hskips)

theorem Stored.grown (h : db.Stored id message) (hgrown : db.Grown db') :
    db'.Stored id message :=
  ⟨h.left, hgrown.keeps _ _ h.right⟩

theorem saveEach_of_not_storable (hdb : db.Consistent)
    {deletedIds : List MessageId} {page : List ApiMessageMetadata}
    (hm : m ∈ kept deletedIds page) (h : ¬ db.Storable m) :
    saveEach deletedIds db page = none := by
  induction page generalizing db with
  | nil => cases hm
  | cons apiMessage rest ih =>
      unfold saveEach
      unfold kept at hm
      by_cases hdeleted : apiMessage.id ∈ deletedIds
      · rw [if_pos hdeleted]
        rw [List.filter_cons_of_neg (by simpa using hdeleted)] at hm
        exact ih hdb hm h
      · rw [if_neg hdeleted]
        rw [List.filter_cons_of_pos (by simpa using hdeleted)] at hm
        by_cases hstorable : db.Storable apiMessage
        · rcases saveOne_of_storable hdb hstorable with
            ⟨message, db', hsave, hdb', hgrown, _⟩
          rw [hsave]
          have hrest : m ∈ kept deletedIds rest := by
            rcases List.mem_cons.mp hm with heq | hm
            · exact absurd (heq ▸ hstorable) h
            · exact hm
          have hnone := ih hdb' hrest
            (fun hs => h ((hgrown.storable_iff hdb m).mp hs))
          dsimp only
          rw [hnone]
          rfl
        · have hnot := not_or.mp hstorable
          rw [saveOne_of_unknown hnot.left hnot.right]

theorem saveEach_of_storable (hdb : db.Consistent)
    {deletedIds : List MessageId} {page : List ApiMessageMetadata}
    (h : forall m, m ∈ kept deletedIds page -> db.Storable m) :
    exists messages db', saveEach deletedIds db page = some (messages, db') ∧
      db'.Consistent ∧ db.Grown db' ∧
      List.Forall₂ (fun m message => db'.Stored m.id message)
        (kept deletedIds page) messages := by
  induction page generalizing db with
  | nil => exact ⟨[], db, rfl, hdb, Grown.refl db, List.Forall₂.nil⟩
  | cons apiMessage rest ih =>
      unfold saveEach
      unfold kept at h ⊢
      by_cases hdeleted : apiMessage.id ∈ deletedIds
      · rw [if_pos hdeleted]
        rw [List.filter_cons_of_neg (by simpa using hdeleted)] at h ⊢
        exact ih hdb h
      · rw [if_neg hdeleted]
        rw [List.filter_cons_of_pos (by simpa using hdeleted)] at h ⊢
        rcases saveOne_of_storable hdb (h apiMessage List.mem_cons_self) with
          ⟨message, db', hsave, hdb', hgrown, hstored⟩
        have hrest : forall m, m ∈ kept deletedIds rest -> db'.Storable m := by
          intro m hm
          exact (hgrown.storable_iff hdb m).mpr (h m (List.mem_cons_of_mem _ hm))
        rcases ih hdb' hrest with
          ⟨messages, db'', hsaves, hdb'', hgrown', hall⟩
        refine ⟨message :: messages, db'', ?_, hdb'', hgrown.trans hgrown',
          List.Forall₂.cons (hstored.grown hgrown') hall⟩
        rw [hsave]
        dsimp only
        rw [hsaves]
        rfl

theorem kept_deletedIds (page : List ApiMessageMetadata) :
    kept (db.deletedItems.filter (fun id =>
      id ∈ page.map ApiMessageMetadata.id)) page = kept db.deletedItems page := by
  unfold kept
  apply List.filter_congr
  intro m hm
  have hmem : m.id ∈ page.map ApiMessageMetadata.id :=
    List.mem_map.mpr ⟨m, hm, rfl⟩
  apply decide_eq_decide.mpr
  rw [List.mem_filter, and_iff_left (decide_eq_true hmem)]

end Tables

/-!
# Rows for the messages
-/

/-- The messages without a row, each once. -/
def rowless (rows : List SearchScrollData) (ids : List LocalMessageId) :
    List LocalMessageId :=
  (ids.filter (fun l =>
    l ∉ rows.map SearchScrollData.localMessageId)).eraseDups

theorem rowless_cons_of_mem {rows : List SearchScrollData}
    {l : LocalMessageId} (ids : List LocalMessageId)
    (hl : l ∈ rows.map SearchScrollData.localMessageId) :
    rowless rows (l :: ids) = rowless rows ids := by
  unfold rowless
  rw [List.filter_cons_of_neg (by simpa using hl)]

theorem rowless_cons_of_not_mem {rows : List SearchScrollData}
    {l : LocalMessageId} (ids : List LocalMessageId) (order : Nat)
    (hl : l ∉ rows.map SearchScrollData.localMessageId) :
    rowless rows (l :: ids) = l :: rowless (rows ++ [⟨l, order⟩]) ids := by
  unfold rowless
  rw [List.filter_cons_of_pos (by simpa using hl), List.eraseDups_cons,
    List.filter_filter]
  congr 2
  apply List.filter_congr
  intro x _
  rw [List.map_append, Bool.eq_iff_iff, Bool.and_eq_true, Bool.not_eq_true',
    beq_eq_false_iff_ne, decide_eq_true_iff, decide_eq_true_iff, List.mem_append,
    not_or, and_comm, List.map_singleton, List.mem_singleton]

theorem appendRows_eq (messages : List Message) (rows : List SearchScrollData)
    {order : Nat} (horder : order ≤ 2 ^ 63) :
    appendRows rows order messages =
      if order + (rowless rows (messages.map Message.localId)).length ≤ 2 ^ 63
      then
        some (rows ++ ((rowless rows (messages.map Message.localId)).zipIdx
          order).map (fun p => ⟨p.1, p.2⟩))
      else none := by
  induction messages generalizing rows order with
  | nil =>
      have hnil : rowless rows ([] : List LocalMessageId) = [] := rfl
      rw [List.map_nil, hnil, List.length_nil, Nat.add_zero, if_pos horder,
        List.zipIdx_nil, List.map_nil, List.append_nil]
      rfl
  | cons message rest ih =>
      unfold appendRows
      rw [List.map_cons]
      by_cases hmem : message.localId ∈
          rows.map SearchScrollData.localMessageId
      · rw [if_pos hmem, rowless_cons_of_mem _ hmem]
        exact ih rows horder
      · rw [if_neg hmem, rowless_cons_of_not_mem _ order hmem, List.length_cons,
          List.zipIdx_cons, List.map_cons]
        unfold save
        dsimp only
        by_cases hfits : order < 2 ^ 63
        · have hsucc : saturatingSucc order = order + 1 :=
            min_eq_left (le_trans hfits (by decide))
          have hnext : order + 1 ≤ 2 ^ 63 := hfits
          rw [if_pos hfits]
          dsimp only
          rw [hsucc, ih _ hnext, Nat.add_assoc, Nat.add_comm 1,
            List.append_assoc, List.singleton_append]
        · rw [if_neg hfits, if_neg]
          intro hle
          exact hfits (lt_of_lt_of_le
            (Nat.lt_add_of_pos_right (Nat.succ_pos _)) hle)

namespace Tables

variable {db db' : Tables}

def hasRow (db : Tables) (id : MessageId) : Bool :=
  (db.remoteIdCounterpart id).any (fun l =>
    l ∈ db.scroll.map SearchScrollData.localMessageId)

/-- The kept messages that have no row yet, in the order of the page. -/
def newIds (db : Tables) (page : List ApiMessageMetadata) : List MessageId :=
  (((kept db.deletedItems page).map ApiMessageMetadata.id).filter (fun id =>
    ¬ db.hasRow id)).eraseDups

/-- The first display order that is after all rows. -/
def nextOrder (db : Tables) : Nat :=
  ((last db.scroll).map (fun s => s.displayOrder + 1)).getD 0

/-- The rows that the messages get, numbered from the next order on. -/
def newRows (db : Tables) (messages : List Message) : List SearchScrollData :=
  ((rowless db.scroll (messages.map Message.localId)).zipIdx db.nextOrder).map
    (fun p => ⟨p.1, p.2⟩)

theorem newRows_ids (db : Tables) (messages : List Message) :
    (db.newRows messages).map SearchScrollData.localMessageId =
      rowless db.scroll (messages.map Message.localId) := by
  unfold newRows
  rw [List.map_map]
  exact List.zipIdx_map_fst _ _

theorem newRows_orders (db : Tables) (messages : List Message) :
    (db.newRows messages).map SearchScrollData.displayOrder =
      List.range' db.nextOrder
        (rowless db.scroll (messages.map Message.localId)).length := by
  unfold newRows
  rw [List.map_map, <- List.zipIdx_map_snd]
  rfl

theorem lt_nextOrder {r : SearchScrollData} (hr : r ∈ db.scroll) :
    r.displayOrder < db.nextOrder := by
  unfold nextOrder
  cases hlast : last db.scroll with
  | none =>
      rw [List.argmax_eq_none.mp hlast] at hr
      cases hr
  | some s => exact Nat.lt_succ_of_le (List.le_of_mem_argmax hr hlast)

theorem Consistent.nextOrder_le (h : db.Consistent) :
    db.nextOrder ≤ 2 ^ 63 := by
  unfold nextOrder
  cases hlast : last db.scroll with
  | none => exact Nat.zero_le _
  | some s => exact h.scroll_fits s (List.argmax_mem hlast)

theorem Consistent.saturating_eq (h : db.Consistent) :
    ((last db.scroll).map (fun s => saturatingSucc s.displayOrder)).getD 0 =
      db.nextOrder := by
  unfold nextOrder
  cases hlast : last db.scroll with
  | none => rfl
  | some s =>
      have hfits := h.scroll_fits s (List.argmax_mem hlast)
      exact min_eq_left (le_trans (Nat.succ_le_of_lt hfits) (by decide))

variable {page : List ApiMessageMetadata}

theorem stored_counterparts {messages : List Message}
    (hall : List.Forall₂ (fun m message => db.Stored m.id message)
      page messages) :
    (messages.map Message.localId).map some =
      (page.map ApiMessageMetadata.id).map db.remoteIdCounterpart := by
  induction hall with
  | nil => rfl
  | cons hstored _ ih =>
      rw [List.map_cons, List.map_cons, List.map_cons, List.map_cons, ih,
        hstored.right]

theorem stored_remoteId {messages : List Message}
    (hall : List.Forall₂ (fun m message => db.Stored m.id message)
      page messages) :
    forall message, message ∈ messages ->
      exists id, message.remoteId = some id := by
  induction hall with
  | nil =>
      intro message hmem
      cases hmem
  | cons hstored _ ih =>
      intro message hmem
      rcases List.mem_cons.mp hmem with rfl | hmem
      · exact ⟨_, hstored.left⟩
      · exact ih message hmem

theorem rowless_iff (hdb : db.Consistent) (hgrown : db.Grown db')
    {id : MessageId} {l : LocalMessageId}
    (hl : db'.remoteIdCounterpart id = some l) :
    l ∉ db.scroll.map SearchScrollData.localMessageId ↔ ¬ db.hasRow id := by
  unfold hasRow
  rcases hgrown.fresh id l hl with hold | ⟨hnone, hle⟩
  · rw [hold, Option.any_some, decide_eq_true_iff]
  · rw [hnone, Option.any_none]
    refine iff_of_true ?_ Bool.false_ne_true
    intro hmem
    rcases List.mem_map.mp hmem with ⟨r, hr, rfl⟩
    exact absurd (hdb.lt_nextLocalId _ (hdb.scroll_known r hr))
      (not_lt_of_ge hle)

theorem rowless_eq (hdb : db.Consistent) (hdb' : db'.Consistent)
    (hgrown : db.Grown db') {messages : List Message}
    (hall : List.Forall₂ (fun m message => db'.Stored m.id message)
      (kept db.deletedItems page) messages) :
    (rowless db.scroll (messages.map Message.localId)).map some =
      (db.newIds page).map db'.remoteIdCounterpart := by
  have hlocals := stored_counterparts hall
  unfold rowless newIds
  generalize (kept db.deletedItems page).map ApiMessageMetadata.id = ids
    at hlocals
  generalize messages.map Message.localId = locals at hlocals
  have hknown : forall id, id ∈ ids ->
      exists l, db'.remoteIdCounterpart id = some l := by
    intro id hid
    have hmem : db'.remoteIdCounterpart id ∈ ids.map db'.remoteIdCounterpart :=
      List.mem_map.mpr ⟨id, hid, rfl⟩
    rw [<- hlocals] at hmem
    rcases List.mem_map.mp hmem with ⟨l, _, hl⟩
    exact ⟨l, hl.symm⟩
  have hinj : forall id, id ∈ ids.filter (fun id => ¬ db.hasRow id) ->
      forall id', id' ∈ ids.filter (fun id => ¬ db.hasRow id) ->
      db'.remoteIdCounterpart id = db'.remoteIdCounterpart id' -> id = id' := by
    intro id hid id' _ heq
    rcases hknown id (List.mem_of_mem_filter hid) with ⟨l, hl⟩
    exact hdb'.counterpart_inj hl (heq ▸ hl)
  -- Whether a local id is new is asked of the remote id instead.
  let isNew : Option LocalMessageId -> Bool := fun l =>
    l.all (fun l => l ∉ db.scroll.map SearchScrollData.localMessageId)
  have hlocal : (locals.filter (fun l =>
      l ∉ db.scroll.map SearchScrollData.localMessageId)).map some =
      (locals.map some).filter isNew := by
    rw [List.filter_map]
    rfl
  have hremote : (ids.map db'.remoteIdCounterpart).filter isNew =
      (ids.filter (fun id => ¬ db.hasRow id)).map db'.remoteIdCounterpart := by
    rw [List.filter_map]
    congr 1
    apply List.filter_congr
    intro id hid
    rcases hknown id hid with ⟨l, hl⟩
    rw [Function.comp_apply, hl]
    exact decide_eq_decide.mpr (rowless_iff hdb hgrown hl)
  rw [<- eraseDups_map _ (fun _ _ _ _ h => Option.some.inj h), hlocal, hlocals,
    hremote, eraseDups_map _ hinj]

/-- The rows that a page should add, and nothing else. -/
structure Appended (db : Tables) (page : List ApiMessageMetadata)
    (db' : Tables) (rows : List SearchScrollData) : Prop where
  scroll : db'.scroll = db.scroll ++ rows
  messages : rows.map (fun r => some r.localMessageId) =
    (db.newIds page).map db'.remoteIdCounterpart
  orders : rows.map SearchScrollData.displayOrder =
    List.range' db.nextOrder (db.newIds page).length
  fresh : forall r, r ∈ db.scroll -> forall r', r' ∈ rows ->
    r.displayOrder < r'.displayOrder

/-- The page is saved as it should be. -/
def PageSaved (db : Tables) (page : List ApiMessageMetadata) : Prop :=
  exists messages db' rows,
    db.saveMessages page = Outcome.saved messages db' ∧
      db.Appended page db' rows

theorem saveMessages_of_not_storable (hdb : db.Consistent)
    {m : ApiMessageMetadata} (hm : m ∈ kept db.deletedItems page)
    (h : ¬ db.Storable m) :
    db.saveMessages page = Outcome.failed := by
  have hne : page ≠ [] := by
    intro hnil
    rw [hnil] at hm
    cases hm
  rw [<- kept_deletedIds] at hm
  unfold saveMessages saveScrollerMessages
  rw [if_neg hne]
  dsimp only
  rw [saveEach_of_not_storable hdb hm h]

theorem saveMessages_of_storable (hdb : db.Consistent) (hne : page ≠ [])
    (h : forall m, m ∈ kept db.deletedItems page -> db.Storable m) :
    exists messages db', db'.Consistent ∧ db.Grown db' ∧
      List.Forall₂ (fun m message => db'.Stored m.id message)
        (kept db.deletedItems page) messages ∧
      db.saveMessages page =
        if db.nextOrder + (db.newIds page).length ≤ 2 ^ 63 then
          if kept db.deletedItems page = [] then Outcome.panicked
          else
            Outcome.saved messages
              { db' with scroll := db.scroll ++ db.newRows messages }
        else Outcome.failed := by
  rw [<- kept_deletedIds] at h
  rcases saveEach_of_storable hdb h with ⟨messages, db', hsave, hdb', hgrown, hall⟩
  rw [kept_deletedIds] at hall
  refine ⟨messages, db', hdb', hgrown, hall, ?_⟩
  have hlength : (rowless db.scroll (messages.map Message.localId)).length =
      (db.newIds page).length := by
    have heq := congrArg List.length (rowless_eq hdb hdb' hgrown hall)
    rwa [List.length_map, List.length_map] at heq
  unfold saveMessages saveScrollerMessages
  rw [if_neg hne]
  dsimp only
  rw [hsave]
  dsimp only
  rw [hdb.saturating_eq, hgrown.scroll,
    appendRows_eq messages db.scroll hdb.nextOrder_le, hlength]
  by_cases hfits : db.nextOrder + (db.newIds page).length ≤ 2 ^ 63
  · rw [if_pos hfits, if_pos hfits]
    dsimp only
    rcases List.eq_nil_or_concat messages with rfl | ⟨before, message, rfl⟩
    · rw [List.forall₂_nil_right_iff.mp hall, if_pos rfl]
      rfl
    · rw [List.concat_eq_append] at hall ⊢
      have hkept : kept db.deletedItems page ≠ [] := by
        intro hnil
        rw [hnil] at hall
        have hmessages := List.forall₂_nil_left_iff.mp hall
        exact List.append_ne_nil_of_right_ne_nil _ (List.cons_ne_nil _ _)
          hmessages
      rcases stored_remoteId hall message (List.mem_append_right _
        (List.mem_singleton.mpr rfl)) with ⟨id, hid⟩
      rw [if_neg hkept, List.getLast?_concat]
      dsimp only
      rw [hid]
      rfl
  · rw [if_neg hfits, if_neg hfits]

theorem appended_rows (hdb : db.Consistent) (hdb' : db'.Consistent)
    (hgrown : db.Grown db') {messages : List Message}
    (hall : List.Forall₂ (fun m message => db'.Stored m.id message)
      (kept db.deletedItems page) messages) :
    db.Appended page { db' with scroll := db.scroll ++ db.newRows messages }
      (db.newRows messages) := by
  have heq := rowless_eq hdb hdb' hgrown hall
  have hlength := congrArg List.length heq
  rw [List.length_map, List.length_map] at hlength
  have horders : (db.newRows messages).map SearchScrollData.displayOrder =
      List.range' db.nextOrder (db.newIds page).length := by
    rw [newRows_orders, hlength]
  refine ⟨rfl, ?_, horders, ?_⟩
  · refine Eq.trans ?_ heq
    rw [<- newRows_ids, List.map_map]
    rfl
  · intro r hr r' hr'
    have hmem : r'.displayOrder ∈
        (db.newRows messages).map SearchScrollData.displayOrder :=
      List.mem_map_of_mem hr'
    rw [horders] at hmem
    exact lt_of_lt_of_le (lt_nextOrder hr) (List.mem_range'_1.mp hmem).left

end Tables

end SearchStore

/-- The tables as the schema lets them be. -/
structure SearchStore extends SearchStore.Tables where
  consistent : toTables.Consistent

namespace SearchStore

open Tables

/--
A page is saved exactly if a message of it has not been deleted, those that are
not deleted are open as drafts or have a known address, and there are display
orders left for the new rows.
-/
theorem page_saved_iff (db : SearchStore) (page : List ApiMessageMetadata) :
    db.PageSaved page ↔
      page = [] ∨
        (kept db.deletedItems page ≠ [] ∧
          (forall m, m ∈ kept db.deletedItems page ->
            db.Skips m ∨ m.addressId ∈ db.addresses) ∧
          db.nextOrder + (db.newIds page).length ≤ 2 ^ 63) := by
  by_cases hne : page = []
  · refine iff_of_true ?_ (Or.inl hne)
    rw [hne]
    refine ⟨[], db.toTables, [], rfl, (List.append_nil _).symm, rfl, rfl, ?_⟩
    intro r _ r' hr'
    cases hr'
  · rw [or_iff_right hne]
    by_cases hstorable : forall m, m ∈ kept db.deletedItems page ->
        db.Storable m
    · rcases saveMessages_of_storable db.consistent hne hstorable with
        ⟨messages, db', hdb', hgrown, hall, hsave⟩
      constructor
      · intro h
        rcases h with ⟨messages', db'', rows, hsaved, _⟩
        rw [hsave] at hsaved
        split at hsaved
        · rename_i hfits
          split at hsaved
          · cases hsaved
          · rename_i hkept
            exact ⟨hkept, hstorable, hfits⟩
        · cases hsaved
      · intro h
        rcases h with ⟨hkept, _, hfits⟩
        rw [if_pos hfits, if_neg hkept] at hsave
        exact ⟨_, _, _, hsave, appended_rows db.consistent hdb' hgrown hall⟩
    · constructor
      · intro h
        rcases h with ⟨messages, db', rows, hsaved, _⟩
        rcases not_forall.mp hstorable with ⟨m, hm⟩
        rcases Classical.not_imp.mp hm with ⟨hm, hnot⟩
        rw [saveMessages_of_not_storable db.consistent hm hnot] at hsaved
        cases hsaved
      · intro h
        exact absurd h.right.left hstorable

/-- A page of one message that has been deleted. -/
def deletedPage : SearchStore where
  messages := []
  nextLocalId := 0
  bodies := []
  deletedItems := ["m"]
  drafts := []
  addresses := ["a"]
  scroll := []
  consistent := by
    constructor <;> simp [Tables.keys]

theorem deletedPage_panics :
    deletedPage.saveMessages [⟨"m", "a", 0, 0⟩] =
        Outcome.panicked ∧
      ¬ forall (db : SearchStore) (page : List ApiMessageMetadata),
        page ≠ [] -> db.PageSaved page := by
  have hpanic : deletedPage.saveMessages [⟨"m", "a", 0, 0⟩] =
      Outcome.panicked := rfl
  refine ⟨hpanic, ?_⟩
  intro h
  rcases h deletedPage [⟨"m", "a", 0, 0⟩] (List.cons_ne_nil _ _) with
    ⟨messages, db', rows, hsaved, _⟩
  rw [hpanic] at hsaved
  cases hsaved

end SearchStore

end Scroller
end MailClient
