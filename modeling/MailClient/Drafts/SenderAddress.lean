import Mathlib.Data.List.DropRight
import Mathlib.Data.List.Nodup
import MailClient.Foundation.Replace
import MailClient.Messages.Ids

/-!
# The sender of a draft

A request compares the address that is asked for with the one of the draft.  A
new address brings its signature, which takes the place of the old one in the
body, and its public key.
-/

namespace MailClient
namespace Drafts

open Foundation

abbrev Text := List Char

inductive MessageMimeType where
  | textHtml
  | textPlain
  deriving DecidableEq, Repr

inductive AddressStatus where
  | disabled
  | enabled
  | deleting
  deriving DecidableEq, Repr

structure Address where
  remoteId : AddressId
  email : Text
  status : AddressStatus := AddressStatus.enabled
  send : Bool := true
  receive : Bool := true
  signature : Text := []
  isByoe : Bool := false
  deriving DecidableEq, Repr

/-- An attachment of the draft whose row says that it is a public key. -/
structure KeyAttachment where
  localId : Nat
  filename : String
  isPublicKeyAttachment : Bool := true
  deleted : Bool := false
  deriving DecidableEq, Repr

/-- The account of the user, and the crates that read and write HTML. -/
structure Account where
  /-- In the order of `display_order`. -/
  addresses : List Address
  hasPaidMailPlan : Bool
  attachPublicKey : Bool
  /-- The name of the exported key, if it can be exported. -/
  genPublicKey : Address -> Option String
  canonicalizeAuto : Text -> Text
  toPlainText : Text -> Option Text
  replaceInnerDiv : Text -> Text -> Text

inductive DraftAddressValidationError where
  | disabled
  | canNotSend
  | canNotReceive
  | subscriptionRequired
  deriving DecidableEq, Repr

structure ComposedDraft where
  sender : Text
  addressId : AddressId
  body : Text
  mimeType : MessageMimeType
  isByoe : Bool
  senderAlias : Option Text := none
  addressValidationResult : Option (Text × DraftAddressValidationError) := none
  deriving DecidableEq, Repr

inductive OpenError where
  | userHasNoAddresses
  | addressNotFound (id : AddressId)
  deriving DecidableEq, Repr

/-- The draft of a stored message, before its address is checked. -/
structure StoredDraft where
  sender : Text
  addressId : AddressId
  body : Text
  mimeType : MessageMimeType
  senderAlias : Option Text := none
  deriving DecidableEq, Repr

def StoredDraft.load (m : StoredDraft) (a : Address) : ComposedDraft where
  sender := m.sender
  addressId := m.addressId
  body := m.body
  mimeType := m.mimeType
  isByoe := a.isByoe
  senderAlias := m.senderAlias

structure DraftAddressChangeFullAddressParams where
  oldSignature : Text
  newSignature : Text
  addressId : AddressId
  sender : Text
  isByoe : Bool
  deriving DecidableEq, Repr

inductive DraftAddressChangeOutput where
  | senderOnly (sender : Text)
  | full (params : DraftAddressChangeFullAddressParams)
  deriving DecidableEq, Repr

namespace Account

variable (account : Account)

def prepareSignature (signature : Text) : MessageMimeType -> Text
  | MessageMimeType.textPlain =>
      (((account.toPlainText signature).getD signature).dropWhile
        (· = '\n')).rdropWhile (· = '\n')
  | MessageMimeType.textHtml => signature

def replaceSignature (mimeType : MessageMimeType)
    (oldSignature newSignature body : Text) : Text :=
  match mimeType with
  | MessageMimeType.textHtml => account.replaceInnerDiv body newSignature
  | MessageMimeType.textPlain =>
      if oldSignature = [] then body
      else replace oldSignature newSignature body

def finalizeSenderAddressChangeRequest (d : ComposedDraft) :
    DraftAddressChangeOutput -> ComposedDraft
  | DraftAddressChangeOutput.senderOnly sender => { d with sender := sender }
  | DraftAddressChangeOutput.full output =>
      { d with
        addressId := output.addressId
        sender := output.sender
        body := account.replaceSignature d.mimeType output.oldSignature
          output.newSignature d.body
        isByoe := output.isByoe }

/-- What a request for another address leads to. -/
def fullOutput (mimeType : MessageMimeType) (old address : Address)
    (sender : Text) : DraftAddressChangeOutput :=
  DraftAddressChangeOutput.full {
    oldSignature := account.prepareSignature old.signature mimeType
    newSignature := account.prepareSignature address.signature mimeType
    addressId := address.remoteId
    sender := sender
    isByoe := address.isByoe }

/-!
# Requests
-/

inductive SenderAddressChangeError where
  | addressEmailNotFound (email : Text)
  | addressNotFound (id : AddressId)
  | addressDisabled (id : AddressId)
  | addressNotSendEnabled (id : AddressId)
  | crypto
  deriving DecidableEq, Repr

def findByRemoteId (id : AddressId) : Option Address :=
  account.addresses.find? (fun a => a.remoteId = id)

/-- `Address::all_send_enabled`, searched for an email. -/
def findSendEnabled (email : Text) : Option Address :=
  (account.addresses.filter (fun a =>
    a.send ∧ a.status = AddressStatus.enabled)).find? (fun a =>
      account.canonicalizeAuto a.email = account.canonicalizeAuto email)

def findValidSenderAddress : Option Address :=
  account.addresses.find? (fun a =>
    a.send ∧ a.receive ∧ a.status = AddressStatus.enabled)

def validateSenderAddress (a : Address) : Option DraftAddressValidationError :=
  if a.status ≠ AddressStatus.enabled then
    some DraftAddressValidationError.disabled
  else if ¬ a.send then some DraftAddressValidationError.canNotSend
  else if ¬ a.receive then some DraftAddressValidationError.canNotReceive
  else if ['@', 'p', 'm', '.', 'm', 'e'] <:+ a.email.map Char.toLower ∧
      ¬ account.hasPaidMailPlan then
    some DraftAddressValidationError.subscriptionRequired
  else none

/-- The first key of this name is marked as removed. -/
def removeKey (name : String) (keys : List KeyAttachment) :
    List KeyAttachment :=
  match keys.find? (fun k => k.filename = name) with
  | none => keys
  | some k =>
      keys.map (fun k' =>
        if k'.localId = k.localId then { k' with deleted := true } else k')

def hasKey (name : String) (keys : List KeyAttachment) : Bool :=
  keys.any (fun k => k.isPublicKeyAttachment && k.filename = name)

def swapKeys (old address : Address) (next : Nat)
    (keys : List KeyAttachment) : Option (List KeyAttachment) :=
  if account.attachPublicKey then
    match account.genPublicKey old, account.genPublicKey address with
    | some oldName, some name =>
        some (removeKey oldName keys ++
          if hasKey name keys then [] else [{ localId := next, filename := name }])
    | _, _ => none
  else some keys

variable (next : Nat)

/-- A new key attachment gets the id `next`. -/
def apply (d : ComposedDraft) (senderEmail : Text) (addressId : AddressId)
    (keys : List KeyAttachment) :
    Except SenderAddressChangeError
      (Option DraftAddressChangeOutput × List KeyAttachment) :=
  if addressId = d.addressId then
    if d.sender ≠ senderEmail then
      Except.ok (some (DraftAddressChangeOutput.senderOnly senderEmail), keys)
    else Except.ok (none, keys)
  else
    match account.findByRemoteId addressId with
    | none =>
        Except.error (SenderAddressChangeError.addressNotFound addressId)
    | some address =>
        match account.findByRemoteId d.addressId with
        | none =>
            Except.error (SenderAddressChangeError.addressNotFound d.addressId)
        | some old =>
            if address.status ≠ AddressStatus.enabled then
              Except.error (SenderAddressChangeError.addressDisabled addressId)
            else if ¬ address.send then
              Except.error
                (SenderAddressChangeError.addressNotSendEnabled addressId)
            else
              match account.swapKeys old address next keys with
              | none => Except.error SenderAddressChangeError.crypto
              | some keys' =>
                  Except.ok
                    (some (account.fullOutput d.mimeType old address
                      senderEmail), keys')

def changeSenderAddressImpl (d : ComposedDraft) (senderEmail : Text)
    (addressId : AddressId) (keys : List KeyAttachment) :
    Except SenderAddressChangeError (ComposedDraft × List KeyAttachment) :=
  match account.apply next d senderEmail addressId keys with
  | Except.error e => Except.error e
  | Except.ok (none, keys') => Except.ok (d, keys')
  | Except.ok (some output, keys') =>
      Except.ok (account.finalizeSenderAddressChangeRequest d output, keys')

def changeSenderAddress (d : ComposedDraft) (email : Text)
    (keys : List KeyAttachment) :
    Except SenderAddressChangeError (ComposedDraft × List KeyAttachment) :=
  match account.findSendEnabled email with
  | none =>
      Except.error (SenderAddressChangeError.addressEmailNotFound email)
  | some address =>
      account.changeSenderAddressImpl next d email address.remoteId keys

/-- The address is checked only if the draft has been synced. -/
def openDraft (m : StoredDraft) (synced : Bool) (keys : List KeyAttachment) :
    Except OpenError (ComposedDraft × List KeyAttachment) :=
  match account.findByRemoteId m.addressId with
  | none => Except.error (OpenError.addressNotFound m.addressId)
  | some a =>
      if synced then
        match account.validateSenderAddress a with
        | none => Except.ok (m.load a, keys)
        | some result =>
            match account.findValidSenderAddress with
            | none => Except.error OpenError.userHasNoAddresses
            | some new =>
                -- The draft has its new address before the request is made.
                let d : ComposedDraft :=
                  { m.load a with
                    addressId := new.remoteId
                    addressValidationResult := some (a.email, result)
                    senderAlias := none }
                match account.changeSenderAddressImpl next d new.email
                    d.addressId keys with
                | Except.error _ => Except.ok (d, keys)
                | Except.ok changed => Except.ok changed
      else Except.ok (m.load a, keys)

/-!
# Changing the signature
-/

variable {account next}

variable (account) in
theorem body_fullOutput {d : ComposedDraft}
    (hmime : d.mimeType = MessageMimeType.textPlain) (a b : Address)
    (sender : Text) :
    (account.finalizeSenderAddressChangeRequest d
        (account.fullOutput d.mimeType a b sender)).body =
      account.replaceSignature MessageMimeType.textPlain
        (account.prepareSignature a.signature MessageMimeType.textPlain)
        (account.prepareSignature b.signature MessageMimeType.textPlain)
        d.body := by
  unfold fullOutput finalizeSenderAddressChangeRequest
  rw [hmime]

/-- The signature after `x` is replaced, and nothing else. -/
def OnlySignature (s t x y : Text) : Prop :=
  t = s ∨ s ≠ [] ∧ OccursOnce s t x y

theorem replaceSignature_iff (s t x y : Text) :
    account.replaceSignature MessageMimeType.textPlain s t (x ++ (s ++ y)) =
      x ++ (t ++ y) ↔ OnlySignature s t x y := by
  unfold replaceSignature OnlySignature
  dsimp only
  by_cases hs : s = []
  · rw [if_pos hs, hs, List.nil_append, List.append_cancel_left_eq,
      List.self_eq_append_left]
    simp
  · rw [if_neg hs, replace_between_iff hs]
    simp [hs]

/-- Changing the sender touches the signature only, there and back. -/
theorem sender_change_touches_signature_iff (account : Account)
    (d : ComposedDraft) (hmime : d.mimeType = MessageMimeType.textPlain)
    (a b : Address) (sender : Text) (x y : Text)
    (hbody : d.body = x ++ (account.prepareSignature a.signature d.mimeType ++ y)) :
    let changed := account.finalizeSenderAddressChangeRequest d
      (account.fullOutput d.mimeType a b sender)
    let restored := account.finalizeSenderAddressChangeRequest changed
      (account.fullOutput changed.mimeType b a d.sender)
    (changed.body =
        x ++ (account.prepareSignature b.signature d.mimeType ++ y) ∧
      restored.body = d.body) ↔
    OnlySignature (account.prepareSignature a.signature d.mimeType)
        (account.prepareSignature b.signature d.mimeType) x y ∧
      OnlySignature (account.prepareSignature b.signature d.mimeType)
        (account.prepareSignature a.signature d.mimeType) x y := by
  intro changed restored
  have hchangedMime : changed.mimeType = MessageMimeType.textPlain := hmime
  have hthere := body_fullOutput account hmime a b sender
  have hback := body_fullOutput account hchangedMime b a d.sender
  rw [hmime] at hbody ⊢
  rw [hbody] at hthere
  change changed.body = _ at hthere
  change restored.body = _ at hback
  rw [hback, hthere, replaceSignature_iff]
  refine and_congr_right ?_
  intro honly
  rw [(replaceSignature_iff _ _ _ _).mpr honly, hbody, replaceSignature_iff]

def ann : Address where
  remoteId := "ann"
  email := ['a', 'n', 'n', '@', 'p', 'm', '.', 'm', 'e']
  signature := ['A', 'n', 'n']

def bob : Address where
  remoteId := "bob"
  email := ['b', 'o', 'b', '@', 'p', 'm', '.', 'm', 'e']
  signature := ['B', 'o', 'b']

def plainAccount (addresses : List Address) : Account where
  addresses := addresses
  hasPaidMailPlan := true
  attachPublicKey := false
  genPublicKey := fun _ => none
  canonicalizeAuto := id
  toPlainText := some
  replaceInnerDiv := fun body _ => body

def plainDraft (body : Text) : ComposedDraft where
  sender := ann.email
  addressId := ann.remoteId
  body := body
  mimeType := MessageMimeType.textPlain
  isByoe := false

/-- The signature stands between a greeting and a mark. -/
theorem signature_replaced :
    let account := plainAccount [ann, bob]
    let d := plainDraft ['H', 'i', ' ', 'A', 'n', 'n', '!']
    let changed := account.finalizeSenderAddressChangeRequest d
      (account.fullOutput d.mimeType ann bob bob.email)
    let restored := account.finalizeSenderAddressChangeRequest changed
      (account.fullOutput changed.mimeType bob ann d.sender)
    changed.body = ['H', 'i', ' ', 'B', 'o', 'b', '!'] ∧
      restored.body = d.body := by
  refine (sender_change_touches_signature_iff (plainAccount [ann, bob])
    (plainDraft ['H', 'i', ' ', 'A', 'n', 'n', '!']) rfl ann bob bob.email
    ['H', 'i', ' '] ['!'] rfl).mpr ⟨?_, ?_⟩
  · exact Or.inr ⟨by decide, ['H', 'i', ' '], [], [], rfl, rfl, rfl,
      firstBetween_of_not_mem (by decide) _, by decide⟩
  · exact Or.inr ⟨by decide, ['H', 'i', ' '], [], [], rfl, rfl, rfl,
      firstBetween_of_not_mem (by decide) _, by decide⟩

/-- The name in the text is replaced together with the signature. -/
theorem text_replaced :
    ¬ forall (account : Account) (d : ComposedDraft) (a b : Address)
        (x y : Text),
      d.mimeType = MessageMimeType.textPlain ->
      d.body = x ++ (account.prepareSignature a.signature d.mimeType ++ y) ->
      (account.finalizeSenderAddressChangeRequest d
        (account.fullOutput d.mimeType a b b.email)).body =
          x ++ (account.prepareSignature b.signature d.mimeType ++ y) := by
  intro h
  have hbody := h (plainAccount [ann, bob])
    (plainDraft ['A', 'n', 'n', ' ', 'A', 'n', 'n']) ann bob
    ['A', 'n', 'n', ' '] [] rfl rfl
  exact absurd hbody (by decide)

/-!
# Two ways to a new sender
-/

/-- What both ways of changing the sender have to agree on. -/
structure SameSender (o o' : ComposedDraft × List KeyAttachment) : Prop where
  sender : o.1.sender = o'.1.sender
  addressId : o.1.addressId = o'.1.addressId
  body : o.1.body = o'.1.body
  isByoe : o.1.isByoe = o'.1.isByoe
  keys : o.2 = o'.2

def SignatureUnchanged (account : Account) (m : StoredDraft)
    (a b : Address) : Prop :=
  match m.mimeType with
  | MessageMimeType.textHtml =>
      account.replaceInnerDiv m.body b.signature = m.body
  | MessageMimeType.textPlain =>
      let s := account.prepareSignature a.signature MessageMimeType.textPlain
      s = [] ∨ ¬ s <:+: m.body ∨
        account.prepareSignature b.signature MessageMimeType.textPlain = s

def KeysUnchanged (account : Account) (keys : List KeyAttachment)
    (a b : Address) : Prop :=
  account.attachPublicKey = true ->
    exists oldName name, account.genPublicKey a = some oldName ∧
      account.genPublicKey b = some name ∧ hasKey name keys = true ∧
      forall k, keys.find? (fun k => k.filename = oldName) = some k ->
        forall k', k' ∈ keys -> k'.localId = k.localId -> k'.deleted = true

/--
The email leads to `b`, and the signature, the flag and the keys of `b` make no
difference to the draft.
-/
structure NothingToChange (account : Account) (m : StoredDraft)
    (keys : List KeyAttachment) (a b : Address) : Prop where
  found : account.findSendEnabled b.email = some b
  signature : SignatureUnchanged account m a b
  isByoe : b.isByoe = a.isByoe
  keys : KeysUnchanged account keys a b

theorem removeKey_eq_iff {name : String} {keys : List KeyAttachment} :
    removeKey name keys = keys ↔
      forall k, keys.find? (fun k => k.filename = name) = some k ->
        forall k', k' ∈ keys -> k'.localId = k.localId -> k'.deleted = true := by
  unfold removeKey
  cases hfind : keys.find? (fun k => k.filename = name) with
  | none => exact iff_of_true rfl (fun _ h => nomatch h)
  | some k =>
      simp only [Option.some.injEq, forall_eq']
      nth_rewrite 2 [<- List.map_id keys]
      rw [List.map_inj_left]
      refine forall₂_congr (fun k' _ => ?_)
      cases k'
      simp [eq_comm]

theorem length_removeKey (name : String) (keys : List KeyAttachment) :
    (removeKey name keys).length = keys.length := by
  unfold removeKey
  split
  · rfl
  · exact List.length_map _

theorem swapKeys_eq_iff {keys : List KeyAttachment} {a b : Address} :
    account.swapKeys a b next keys = some keys ↔
      KeysUnchanged account keys a b := by
  unfold swapKeys KeysUnchanged
  by_cases hattach : account.attachPublicKey = true
  · rw [if_pos hattach]
    simp only [hattach, true_implies]
    cases account.genPublicKey a with
    | none => simp
    | some oldName =>
        cases account.genPublicKey b with
        | none => simp
        | some name =>
            have hrow : (exists oldName' name', some oldName = some oldName' ∧
                some name = some name' ∧ hasKey name' keys = true ∧
                  removeKey oldName' keys = keys) ↔
                hasKey name keys = true ∧ removeKey oldName keys = keys := by
              simp
            simp only [<- removeKey_eq_iff, hrow]
            by_cases hhas : hasKey name keys = true
            · simp [hhas]
            · have hlength := length_removeKey oldName keys
              refine iff_of_false (fun heq => ?_) (fun h => hhas h.left)
              have hcount := congrArg List.length (Option.some.inj heq)
              rw [if_neg hhas, List.length_append, hlength] at hcount
              exact Nat.succ_ne_self _ hcount
  · rw [if_neg hattach]
    exact iff_of_true rfl (fun h => absurd h hattach)

theorem replaceSignature_eq_iff (m : StoredDraft) (a b : Address) :
    account.replaceSignature m.mimeType
        (account.prepareSignature a.signature m.mimeType)
        (account.prepareSignature b.signature m.mimeType) m.body = m.body ↔
      SignatureUnchanged account m a b := by
  unfold SignatureUnchanged replaceSignature
  cases m.mimeType with
  | textHtml => exact Iff.rfl
  | textPlain =>
      dsimp only
      by_cases hs : account.prepareSignature a.signature
          MessageMimeType.textPlain = []
      · rw [if_pos hs]
        exact iff_of_true rfl (Or.inl hs)
      · rw [if_neg hs, replace_eq_self_iff hs]
        simp [hs]

theorem openDraft_invalid {m : StoredDraft} {keys : List KeyAttachment}
    {a b : Address} (ha : account.findByRemoteId m.addressId = some a)
    {result : DraftAddressValidationError}
    (hinvalid : account.validateSenderAddress a = some result)
    (hb : account.findValidSenderAddress = some b) :
    account.openDraft next m true keys =
      Except.ok ({ m.load a with
        sender := b.email
        addressId := b.remoteId
        addressValidationResult := some (a.email, result)
        senderAlias := none }, keys) := by
  unfold openDraft changeSenderAddressImpl apply
  rw [ha]
  simp only [if_true, hinvalid, hb]
  by_cases hsender : (m.load a).sender = b.email
  · simp only [hsender, ne_eq, not_true_eq_false, if_false]
  · simp only [hsender, ne_eq, not_false_eq_true, if_true]
    rfl

theorem eq_of_remoteId {a b : Address}
    (hunique : (account.addresses.map Address.remoteId).Nodup)
    (ha : a ∈ account.addresses) (hb : b ∈ account.addresses)
    (h : a.remoteId = b.remoteId) : a = b :=
  List.inj_on_of_nodup_map hunique ha hb h

theorem findByRemoteId_mem {a : Address}
    (hunique : (account.addresses.map Address.remoteId).Nodup)
    (ha : a ∈ account.addresses) :
    account.findByRemoteId a.remoteId = some a := by
  unfold findByRemoteId
  cases hfind : account.addresses.find? (fun a' => a'.remoteId = a.remoteId) with
  | none => simpa using List.find?_eq_none.mp hfind a ha
  | some a' =>
      have hid : a'.remoteId = a.remoteId := by
        simpa using List.find?_some hfind
      rw [eq_of_remoteId hunique (List.mem_of_find?_eq_some hfind) ha hid]

theorem findSendEnabled_spec {email : Text} {c : Address}
    (h : account.findSendEnabled email = some c) :
    c ∈ account.addresses ∧ c.send = true ∧
      c.status = AddressStatus.enabled := by
  have hmem := List.mem_filter.mp (List.mem_of_find?_eq_some h)
  exact ⟨hmem.left, of_decide_eq_true hmem.right⟩

theorem findValidSenderAddress_spec {b : Address}
    (h : account.findValidSenderAddress = some b) :
    b ∈ account.addresses ∧ b.send = true ∧
      b.status = AddressStatus.enabled := by
  have hvalid : b.send ∧ b.receive ∧ b.status = AddressStatus.enabled := by
    simpa using List.find?_some h
  exact ⟨List.mem_of_find?_eq_some h, hvalid.left, hvalid.right.right⟩

theorem changeSenderAddress_eq {m : StoredDraft} {keys : List KeyAttachment}
    {a c : Address} {email : Text}
    (hunique : (account.addresses.map Address.remoteId).Nodup)
    (ha : account.findByRemoteId m.addressId = some a)
    (hc : account.findSendEnabled email = some c)
    (hne : c.remoteId ≠ m.addressId) :
    account.changeSenderAddress next (m.load a) email keys =
      match account.swapKeys a c next keys with
      | none => Except.error SenderAddressChangeError.crypto
      | some keys' => Except.ok
          (account.finalizeSenderAddressChangeRequest (m.load a)
            (account.fullOutput m.mimeType a c email), keys') := by
  rcases findSendEnabled_spec hc with ⟨hmem, hsend, hstatus⟩
  have happly : account.apply next (m.load a) email c.remoteId keys =
      match account.swapKeys a c next keys with
      | none => Except.error SenderAddressChangeError.crypto
      | some keys' => Except.ok
          (some (account.fullOutput m.mimeType a c email), keys') := by
    unfold apply
    change (if c.remoteId = m.addressId then _ else
      match account.findByRemoteId c.remoteId with
      | none => _
      | some address =>
          match account.findByRemoteId m.addressId with
          | none => _
          | some old => _) = _
    rw [if_neg hne, findByRemoteId_mem hunique hmem, ha]
    dsimp only
    rw [if_neg (not_not.mpr hstatus), if_neg (not_not.mpr hsend)]
    rfl
  unfold changeSenderAddress changeSenderAddressImpl
  rw [hc]
  dsimp only
  rw [happly]
  cases account.swapKeys a c next keys with
  | none => rfl
  | some keys' => rfl

theorem addressId_changeSenderAddress {m : StoredDraft}
    {keys : List KeyAttachment} {a c : Address} {email : Text}
    (hc : account.findSendEnabled email = some c)
    (heq : c.remoteId = m.addressId) {o : ComposedDraft × List KeyAttachment}
    (h : account.changeSenderAddress next (m.load a) email keys =
      Except.ok o) : o.1.addressId = m.addressId := by
  have happly : account.apply next (m.load a) email m.addressId keys =
      if (m.load a).sender ≠ email then
        Except.ok (some (DraftAddressChangeOutput.senderOnly email), keys)
      else Except.ok (none, keys) := if_pos rfl
  unfold changeSenderAddress changeSenderAddressImpl at h
  rw [hc] at h
  simp only [heq, happly] at h
  by_cases hsender : (m.load a).sender = email
  · rw [if_neg (not_not.mpr hsender)] at h
    cases h
    rfl
  · rw [if_pos hsender] at h
    cases h
    rfl

/--
Both ways of changing the sender agree just if the new address makes no
difference to the draft.
-/
theorem sender_changes_agree_iff (account : Account) (next : Nat)
    (m : StoredDraft) (keys : List KeyAttachment) (a b : Address)
    (hunique : (account.addresses.map Address.remoteId).Nodup)
    (ha : account.findByRemoteId m.addressId = some a)
    (hinvalid : account.validateSenderAddress a ≠ none)
    (hb : account.findValidSenderAddress = some b)
    (hvalid : account.validateSenderAddress b = none) :
    (exists o o', account.openDraft next m true keys = Except.ok o ∧
      account.changeSenderAddress next (m.load a) b.email keys =
        Except.ok o' ∧ SameSender o o') ↔
      NothingToChange account m keys a b := by
  rcases Option.ne_none_iff_exists'.mp hinvalid with ⟨result, hresult⟩
  rcases findValidSenderAddress_spec hb with ⟨hmem, hsend, hstatus⟩
  have haid : a.remoteId = m.addressId := by
    simpa using List.find?_some ha
  have hamem := List.mem_of_find?_eq_some ha
  have hother : b.remoteId ≠ m.addressId := by
    intro heq
    have hab := eq_of_remoteId hunique hmem hamem (heq.trans haid.symm)
    rw [<- hab, hvalid] at hresult
    cases hresult
  rw [openDraft_invalid ha hresult hb]
  constructor
  · intro ⟨o, o', ho, ho', hsame⟩
    cases ho
    cases hc : account.findSendEnabled b.email with
    | none =>
        unfold changeSenderAddress at ho'
        rw [hc] at ho'
        cases ho'
    | some c =>
        have hne : c.remoteId ≠ m.addressId := by
          intro heq
          have hid := addressId_changeSenderAddress hc heq ho'
          exact hother (hsame.addressId.trans hid)
        rw [changeSenderAddress_eq hunique ha hc hne] at ho'
        cases hkeys : account.swapKeys a c next keys with
        | none =>
            rw [hkeys] at ho'
            cases ho'
        | some keys' =>
            rw [hkeys] at ho'
            cases ho'
            have hbc : b = c :=
              eq_of_remoteId hunique hmem (findSendEnabled_spec hc).left
                hsame.addressId
            subst hbc
            have hk : keys = keys' := hsame.keys
            subst hk
            exact {
              found := hc
              signature := (replaceSignature_eq_iff m a b).mp hsame.body.symm
              isByoe := hsame.isByoe.symm
              keys := swapKeys_eq_iff.mp hkeys }
  · intro h
    have hmanual : account.changeSenderAddress next (m.load a) b.email keys =
        Except.ok (account.finalizeSenderAddressChangeRequest (m.load a)
          (account.fullOutput m.mimeType a b b.email), keys) := by
      rw [changeSenderAddress_eq hunique ha h.found hother,
        swapKeys_eq_iff.mpr h.keys]
    exact ⟨_, _, rfl, hmanual, {
      sender := rfl
      addressId := rfl
      body := ((replaceSignature_eq_iff m a b).mpr h.signature).symm
      isByoe := h.isByoe.symm
      keys := rfl }⟩

def disabledAnn : Address :=
  { ann with status := AddressStatus.disabled }

def annsDraft (body : Text) : StoredDraft where
  sender := ann.email
  addressId := ann.remoteId
  body := body
  mimeType := MessageMimeType.textPlain

/-- Every key is named after its address. -/
def keyedAccount : Account :=
  { plainAccount [disabledAnn, bob] with
    attachPublicKey := true
    genPublicKey := fun a => some a.remoteId }

/-- The key of the old address has been removed before. -/
def bobsKey : List KeyAttachment :=
  [{ localId := 1, filename := "ann", deleted := true },
    { localId := 2, filename := "bob" }]

/-- A draft without a signature, to which the new key is attached. -/
theorem unsigned_agrees :
    exists o o', keyedAccount.openDraft 3 (annsDraft ['H', 'i']) true bobsKey =
        Except.ok o ∧
      keyedAccount.changeSenderAddress 3
        ((annsDraft ['H', 'i']).load disabledAnn) bob.email bobsKey =
          Except.ok o' ∧
      SameSender o o' := by
  refine (sender_changes_agree_iff keyedAccount 3 (annsDraft ['H', 'i'])
    bobsKey disabledAnn bob (by decide) (by decide) (by decide) (by decide)
    (by decide)).mpr ?_
  refine {
    found := by decide
    signature := Or.inr (Or.inl (by decide))
    isByoe := rfl
    keys := fun _ => ⟨"ann", "bob", rfl, rfl, by decide, ?_⟩ }
  intro k hk
  cases hk
  decide

/-- A draft that is opened keeps the signature of the old address. -/
theorem signature_stays :
    ¬ forall (account : Account) (next : Nat) (m : StoredDraft)
        (keys : List KeyAttachment) (a b : Address),
      (account.addresses.map Address.remoteId).Nodup ->
      account.findByRemoteId m.addressId = some a ->
      account.validateSenderAddress a ≠ none ->
      account.findValidSenderAddress = some b ->
      account.validateSenderAddress b = none ->
      exists o o', account.openDraft next m true keys = Except.ok o ∧
        account.changeSenderAddress next (m.load a) b.email keys =
          Except.ok o' ∧ SameSender o o' := by
  intro h
  rcases h (plainAccount [disabledAnn, bob]) 1 (annsDraft ['A', 'n', 'n']) []
    disabledAnn bob (by decide) (by decide) (by decide) (by decide)
    (by decide) with ⟨o, o', ho, ho', hsame⟩
  cases ho
  cases ho'
  exact absurd hsame.body (by decide)

end Account

end Drafts
end MailClient
