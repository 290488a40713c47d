import Mathlib.Data.List.DropRight
import MailClient.Foundation.PercentEncoding

/-!
# The recipients of a mailto link

Recipients stand in the path of a link or in its query.  The path is split and
then decoded.  The query has been decoded as a form before it is split, and is
decoded a second time after that.
-/

namespace MailClient

open Foundation

/-!
# The link
-/

structure Mailto where
  «to» : List (List Char)
  cc : List (List Char)
  bcc : List (List Char)
  subject : Option (List Char)
  body : Option (List Char)

namespace Mailto

def default : Mailto where
  «to» := []
  cc := []
  bcc := []
  subject := none
  body := none

/-- The characters of the Unicode property White_Space. -/
def isWhitespace (c : Char) : Bool :=
  (9 ≤ c.toNat && c.toNat ≤ 13) || c.toNat = 0x20 || c.toNat = 0x85 ||
    c.toNat = 0xA0 || c.toNat = 0x1680 ||
    (0x2000 ≤ c.toNat && c.toNat ≤ 0x200A) || c.toNat = 0x2028 ||
    c.toNat = 0x2029 || c.toNat = 0x202F || c.toNat = 0x205F ||
    c.toNat = 0x3000

def trim (s : List Char) : List Char :=
  (s.rdropWhile isWhitespace).dropWhile isWhitespace

def eqIgnoreAsciiCase (s t : List Char) : Bool :=
  s.map Char.toLower = t.map Char.toLower

/-- What is used of a parsed URL. -/
structure Url where
  scheme : List Char
  path : List Char
  queryPairs : List (List Char × List Char)

inductive Error where
  | invalidScheme (scheme : List Char)
  | invalidUrl

/-- The URL parser, and the address that is found in a text. -/
structure Crates where
  parseUrl : List Char -> Option Url
  parseEmailAddress : List Char -> Option (List Char)

def isSeparator (c : Char) : Bool :=
  c = ',' || c = ';'

/-- The text in which an address is looked for. -/
def emailText (email : List Char) : List Char :=
  let email := trim email
  match fromUtf8 (percentDecode (octets email)) with
  | some email => trim email
  | none => email

section Link

variable (crates : Crates)

def parseEmail (email : List Char) : List Char :=
  let email := emailText email
  match crates.parseEmailAddress email with
  | some address => address
  | none => email

def parseEmails (input : List Char) : List (List Char) :=
  (input.splitOnP isSeparator).map (parseEmail crates)

def addPair (this : Mailto) (pair : List Char × List Char) : Mailto :=
  let k := trim pair.1
  let v := trim pair.2
  if eqIgnoreAsciiCase k ['t', 'o'] then
    { this with «to» := this.to ++ parseEmails crates v }
  else if eqIgnoreAsciiCase k ['c', 'c'] then
    { this with cc := this.cc ++ parseEmails crates v }
  else if eqIgnoreAsciiCase k ['b', 'c', 'c'] then
    { this with bcc := this.bcc ++ parseEmails crates v }
  else if eqIgnoreAsciiCase k ['s', 'u', 'b', 'j', 'e', 'c', 't'] then
    { this with subject := some v }
  else if eqIgnoreAsciiCase k ['b', 'o', 'd', 'y'] then
    { this with body := some v }
  else
    this

def fromStr (s : List Char) : Except Error Mailto :=
  match crates.parseUrl s with
  | none => Except.error Error.invalidUrl
  | some url =>
      if eqIgnoreAsciiCase url.scheme ['m', 'a', 'i', 'l', 't', 'o'] then
        let «to» := trim url.path
        let this :=
          if «to» ≠ [] ∧ «to» ≠ ['@'] then
            { default with «to» := parseEmails crates «to» }
          else
            default
        Except.ok (url.queryPairs.foldl (addPair crates) this)
      else
        Except.error (Error.invalidScheme url.scheme)

end Link

/-!
# The routes
-/

/-- The characters of encoded recipients. -/
def isUrlChar (c : Char) : Bool :=
  c.isAlphanum || c ∈ ['-', '.', '_', '~', '!', '$', '\'', '(', ')', '*', '+',
    ',', ';', ':', '@', '/', '%', '=']

/-- Recipients as they stand in a link. -/
structure UrlEncoded (x : List Char) : Prop where
  chars : forall c, c ∈ x -> isUrlChar c = true
  rootless : x.head? ≠ some '/'

def inPath (x : List Char) : List Char :=
  ['m', 'a', 'i', 'l', 't', 'o', ':'] ++ x

def inQuery (key x : List Char) : List Char :=
  ['m', 'a', 'i', 'l', 't', 'o', ':', '?'] ++ key ++ '=' :: x

/-- The path is as it was, and the value of the query is that of a form. -/
structure Crates.UrlStandard (crates : Crates) : Prop where
  path : forall x, UrlEncoded x ->
    crates.parseUrl (inPath x) =
      some ⟨['m', 'a', 'i', 'l', 't', 'o'], x, []⟩
  query : forall key x, UrlEncoded x ->
    key ∈ [['t', 'o'], ['c', 'c'], ['b', 'c', 'c']] ->
    crates.parseUrl (inQuery key x) =
      some ⟨['m', 'a', 'i', 'l', 't', 'o'], [],
        [(key, formDecode (octets x))]⟩

/-- Decoded once, or as it is if this is not UTF-8. -/
def decodedOnce (p : List Char) : List Char :=
  ((fromUtf8 (percentDecode (octets p))).map trim).getD p

/-- Every address is decoded once, and no encoded separator separates. -/
def recipients (crates : Crates) (x : List Char) : List (List Char) :=
  (x.splitOnP isSeparator).map (fun p =>
    (crates.parseEmailAddress (decodedOnce p)).getD (decodedOnce p))

/-- Path and query have the recipients, and so have the copies. -/
structure RoutesAgree (crates : Crates) (x : List Char) : Prop where
  path : exists m, fromStr crates (inPath x) = Except.ok m ∧
    m.to = recipients crates x
  query : exists m, fromStr crates (inQuery ['t', 'o'] x) = Except.ok m ∧
    m.to = recipients crates x
  cc : exists m, fromStr crates (inQuery ['c', 'c'] x) = Except.ok m ∧
    m.cc = recipients crates x
  bcc : exists m, fromStr crates (inQuery ['b', 'c', 'c'] x) = Except.ok m ∧
    m.bcc = recipients crates x

/-!
# Spaces around addresses
-/

theorem rdropWhile_cons (p : Char -> Bool) (c : Char) (s : List Char) :
    (c :: s).rdropWhile p =
      if s.rdropWhile p = [] then [c].dropWhile p else c :: s.rdropWhile p := by
  unfold List.rdropWhile
  rw [List.reverse_cons, List.dropWhile_append]
  cases hrest : s.reverse.dropWhile p with
  | nil =>
      simp only [List.isEmpty_nil, List.reverse_nil, if_true, List.dropWhile_cons,
        List.dropWhile_nil]
      split <;> rfl
  | cons d l => simp

theorem trim_cons {c : Char} (hc : isWhitespace c = true) (s : List Char) :
    trim (c :: s) = trim s := by
  unfold trim
  rw [rdropWhile_cons]
  split
  · rename_i hs
    rw [hs, List.dropWhile_cons_of_pos hc]
    rfl
  · rw [List.dropWhile_cons_of_pos hc]

theorem map_modifyHead {f : List Char -> List Char} {c : Char}
    {l l' : List (List Char)} (h : l.map f = l'.map f)
    (hf : forall s t, f s = f t -> f (c :: s) = f (c :: t)) :
    (l.modifyHead (c :: ·)).map f = (l'.modifyHead (c :: ·)).map f := by
  cases l with
  | nil =>
      cases l' with
      | nil => rfl
      | cons t l' => cases h
  | cons s l =>
      cases l' with
      | nil => cases h
      | cons t l' =>
          rw [List.map_cons, List.map_cons, List.cons.injEq] at h
          rw [List.modifyHead_cons, List.modifyHead_cons, List.map_cons,
            List.map_cons, hf s t h.left, h.right]

theorem isSeparator_whitespace {c : Char} (hc : isWhitespace c = true) :
    ¬ isSeparator c = true := by
  intro hsep
  unfold isSeparator at hsep
  rw [Bool.or_eq_true, decide_eq_true_eq, decide_eq_true_eq] at hsep
  rcases hsep with rfl | rfl
  · cases hc
  · cases hc

theorem split_rdropWhile (s : List Char) :
    ((s.rdropWhile isWhitespace).splitOnP isSeparator).map
        (List.rdropWhile isWhitespace) =
      (s.splitOnP isSeparator).map (List.rdropWhile isWhitespace) := by
  have hcongr : forall c s t, s.rdropWhile isWhitespace = t.rdropWhile isWhitespace ->
      (c :: s).rdropWhile isWhitespace = (c :: t).rdropWhile isWhitespace := by
    intro c s t h
    rw [rdropWhile_cons, rdropWhile_cons, h]
  induction s with
  | nil => rfl
  | cons c s ih =>
      rw [rdropWhile_cons]
      by_cases hblank : s.rdropWhile isWhitespace = [] ∧ isWhitespace c = true
      · have hsplit : s.splitOnP isSeparator = [s] := by
          apply List.splitOnP_eq_singleton
          intro d hd
          have hws := List.rdropWhile_eq_nil_iff.mp hblank.left d hd
          exact Bool.eq_false_iff.mpr (isSeparator_whitespace hws)
        rw [if_pos hblank.left, List.dropWhile_cons_of_pos hblank.right,
          List.splitOnP_cons_eq_if_modifyHead,
          if_neg (isSeparator_whitespace hblank.right), hsplit,
          List.modifyHead_cons]
        simp only [List.dropWhile_nil, List.splitOnP_nil, List.map_cons, List.map_nil]
        rw [rdropWhile_cons, if_pos hblank.left,
          List.dropWhile_cons_of_pos hblank.right]
        rfl
      · have hkept : (if s.rdropWhile isWhitespace = [] then
            [c].dropWhile isWhitespace else c :: s.rdropWhile isWhitespace) =
            c :: s.rdropWhile isWhitespace := by
          split
          · rename_i hs
            have hc : ¬ isWhitespace c = true := fun hc => hblank ⟨hs, hc⟩
            rw [List.dropWhile_cons_of_neg hc, hs]
          · rfl
        rw [hkept, List.splitOnP_cons_eq_if_modifyHead,
          List.splitOnP_cons_eq_if_modifyHead]
        split
        · rw [List.map_cons, List.map_cons, ih]
        · exact map_modifyHead ih (hcongr c)

theorem split_dropWhile (s : List Char) :
    ((s.dropWhile isWhitespace).splitOnP isSeparator).map trim =
      (s.splitOnP isSeparator).map trim := by
  induction s with
  | nil => rfl
  | cons c s ih =>
      by_cases hc : isWhitespace c = true
      · rw [List.dropWhile_cons_of_pos hc, ih,
          List.splitOnP_cons_eq_if_modifyHead,
          if_neg (isSeparator_whitespace hc)]
        cases hsplit : s.splitOnP isSeparator with
        | nil => rfl
        | cons p ps =>
            rw [List.modifyHead_cons, List.map_cons, List.map_cons, trim_cons hc]
      · rw [List.dropWhile_cons_of_neg hc]

theorem split_trim (s : List Char) :
    ((trim s).splitOnP isSeparator).map trim =
      (s.splitOnP isSeparator).map trim := by
  have h := congrArg (List.map (List.dropWhile isWhitespace)) (split_rdropWhile s)
  rw [List.map_map, List.map_map] at h
  exact (split_dropWhile _).trans h

theorem parseEmails_trim (crates : Crates) (s : List Char) :
    parseEmails crates (trim s) = parseEmails crates s := by
  have hsame : forall p q, trim p = trim q -> parseEmail crates p = parseEmail crates q := by
    intro p q h
    unfold parseEmail emailText
    rw [h]
  unfold parseEmails
  generalize hl : (trim s).splitOnP isSeparator = l
  generalize hl' : s.splitOnP isSeparator = l'
  have h := split_trim s
  rw [hl, hl'] at h
  clear hl hl'
  induction l generalizing l' with
  | nil =>
      cases l' with
      | nil => rfl
      | cons q l' => cases h
  | cons p l ih =>
      cases l' with
      | nil => cases h
      | cons q l' =>
          rw [List.map_cons, List.map_cons, List.cons.injEq] at h
          rw [List.map_cons, List.map_cons, hsame p q h.left, ih l' h.right]

/-!
# Separators
-/

def isSeparatorOctet (b : UInt8) : Bool :=
  isSeparator (Char.ofNat b.toNat)

theorem isSeparator_ascii {c : Char} (hc : isSeparator c = true) :
    c.toNat < 128 := by
  unfold isSeparator at hc
  rw [Bool.or_eq_true, decide_eq_true_eq, decide_eq_true_eq] at hc
  rcases hc with rfl | rfl <;> decide

theorem separator_octet {b : UInt8} (hb : isSeparatorOctet b = true) :
    b = 44 ∨ b = 59 := by
  unfold isSeparatorOctet isSeparator at hb
  rw [Bool.or_eq_true, decide_eq_true_eq, decide_eq_true_eq] at hb
  have hchar := toNat_charOfNat b
  rcases hb with h | h
  · left
    rw [h] at hchar
    exact UInt8.toNat_inj.mp hchar.symm
  · right
    rw [h] at hchar
    exact UInt8.toNat_inj.mp hchar.symm

theorem separator_outside {b : UInt8} (hb : isSeparatorOctet b = true) :
    Outside b := by
  rcases separator_octet hb with rfl | rfl
  · exact ⟨by decide, rfl⟩
  · exact ⟨by decide, rfl⟩

/-- The value of the query that has such text. -/
def formValue (x : List Char) : List Char :=
  formDecode (octets x)

theorem formValue_append {c : Char} (hc : isSeparator c = true)
    (as bs : List Char) :
    formValue (as ++ c :: bs) = formValue as ++ c :: formValue bs := by
  have hascii := isSeparator_ascii hc
  have hoctet : octets (as ++ c :: bs) =
      octets as ++ UInt8.ofNat c.toNat :: octets bs := by
    rw [octets_append, octets_cons, utf8EncodeChar_ascii hascii]
    rfl
  have hsep : isSeparatorOctet (UInt8.ofNat c.toNat) = true := by
    unfold isSeparatorOctet
    rw [toNat_ofNat_of_le (by omega), Char.ofNat_toNat]
    exact hc
  have hplus : (if UInt8.ofNat c.toNat = 43 then 32 else UInt8.ofNat c.toNat) =
      UInt8.ofNat c.toNat := by
    rcases separator_octet hsep with h | h <;> rw [h] <;> rfl
  unfold formValue formDecode
  rw [hoctet, plusToSpace_append]
  unfold plusToSpace
  rw [List.map_cons, hplus, percentDecode_append (separator_outside hsep),
    fromUtf8Lossy_append_ascii hascii]

theorem countP_formValue (x : List Char) :
    x.countP isSeparator ≤ (formValue x).countP isSeparator ∧
      ((formValue x).countP isSeparator = x.countP isSeparator ↔
        ¬ Hides isSeparatorOctet (octets x)) := by
  have hsep : forall c, isSeparator c = true -> c.toNat < 128 :=
    fun c hc => isSeparator_ascii hc
  have hoctet : forall b, isSeparatorOctet b = true -> Outside b :=
    fun b hb => separator_outside hb
  have hplus := countP_percentDecode_plus isSeparatorOctet (octets x)
  have hnone : isSeparatorOctet 43 = false ∧ isSeparatorOctet 32 = false :=
    ⟨by decide, by decide⟩
  rw [hnone.left, hnone.right, Nat.add_right_cancel_iff] at hplus
  unfold formValue formDecode
  rw [countP_fromUtf8Lossy hsep, countP_octets hsep]
  show (octets x).countP isSeparatorOctet ≤ List.countP isSeparatorOctet _ ∧
    (List.countP isSeparatorOctet _ = (octets x).countP isSeparatorOctet ↔ _)
  rw [hplus]
  exact countP_percentDecode hoctet _

theorem length_split (s : List Char) :
    (s.splitOnP isSeparator).length = s.countP isSeparator + 1 := by
  induction s with
  | nil => rfl
  | cons c s ih =>
      rw [List.splitOnP_cons_eq_if_modifyHead, List.countP_cons]
      split
      · rw [List.length_cons, ih]
      · rw [List.length_modifyHead, ih]

theorem split_formValue {x : List Char}
    (h : ¬ Hides isSeparatorOctet (octets x)) :
    (formValue x).splitOnP isSeparator =
      (x.splitOnP isSeparator).map formValue := by
  induction hlength : x.length using Nat.strong_induction_on generalizing x with
  | _ n ih =>
    by_cases hany : exists c, c ∈ x ∧ isSeparator c = true
    · rcases hany with ⟨c, hc, hsep⟩
      rcases List.append_of_mem hc with ⟨as, bs, rfl⟩
      rw [List.length_append, List.length_cons] at hlength
      rw [octets_append, octets_cons] at h
      have has : ¬ Hides isSeparatorOctet (octets as) :=
        fun hhides => h (hhides.before _)
      have hbs : ¬ Hides isSeparatorOctet (octets bs) :=
        fun hhides => h ((hhides.after _).after _)
      rw [formValue_append hsep, List.splitOnP_append_cons _ _ hsep,
        List.splitOnP_append_cons _ _ hsep, ih as.length (by omega) has rfl,
        ih bs.length (by omega) hbs rfl, List.map_append]
    · have hnone : forall s : List Char, s.countP isSeparator = 0 ->
          s.splitOnP isSeparator = [s] := by
        intro s hs
        apply List.splitOnP_eq_singleton
        intro c hc
        exact Bool.eq_false_iff.mpr (List.countP_eq_zero.mp hs c hc)
      have hx : x.countP isSeparator = 0 := by
        apply List.countP_eq_zero.mpr
        intro c hc hsep
        exact hany ⟨c, hc, hsep⟩
      have hvalue := (countP_formValue x).right.mpr h
      rw [hnone x hx, hnone _ (hvalue.trans hx)]
      rfl

/-!
# One recipient
-/

/-- A plus sign is kept, and decoding a second time changes nothing. -/
structure Plain (p : List Char) : Prop where
  noPlus : '+' ∉ p
  once : exists t, percentDecode (octets p) = octets t ∧
    (percentDecode (octets (trim t)) = octets (trim t) ∨
      fromUtf8 (percentDecode (octets (trim t))) = none)

theorem trim_spec (s : List Char) :
    exists before after, s = before ++ trim s ++ after ∧
      forall c, c ∈ before ++ after -> isWhitespace c = true := by
  refine ⟨(s.rdropWhile isWhitespace).takeWhile isWhitespace,
    s.rtakeWhile isWhitespace, ?_, ?_⟩
  · unfold trim
    rw [List.takeWhile_append_dropWhile, List.rdropWhile_append_rtakeWhile]
  · intro c hc
    rcases List.mem_append.mp hc with h | h
    · exact List.mem_takeWhile_imp h
    · exact List.mem_rtakeWhile_imp h

theorem countP_trim {q : Char -> Bool}
    (hq : forall c, isWhitespace c = true -> q c = false) (s : List Char) :
    (trim s).countP q = s.countP q := by
  rcases trim_spec s with ⟨before, after, heq, hws⟩
  have hnone : (before ++ after).countP q = 0 := by
    apply List.countP_eq_zero.mpr
    intro c hc
    exact Bool.eq_false_iff.mp (hq c (hws c hc))
  rw [List.countP_append] at hnone
  have hcount := congrArg (List.countP q) heq
  rw [List.countP_append, List.countP_append] at hcount
  omega

theorem trim_of_none {s : List Char}
    (h : forall c, c ∈ s -> isWhitespace c = false) : trim s = s := by
  rcases trim_spec s with ⟨before, after, heq, hws⟩
  have hsub : forall c, c ∈ before ++ after -> c ∈ s := by
    intro c hc
    rw [heq, List.append_assoc]
    rcases List.mem_append.mp hc with hc | hc
    · exact List.mem_append_left _ hc
    · exact List.mem_append_right _ (List.mem_append_right _ hc)
  have hnil : before ++ after = [] := by
    apply List.eq_nil_iff_forall_not_mem.mpr
    intro c hc
    have hfalse := h c (hsub c hc)
    rw [hws c hc] at hfalse
    cases hfalse
  rcases List.append_eq_nil_iff.mp hnil with ⟨rfl, rfl⟩
  rw [List.nil_append, List.append_nil] at heq
  exact heq.symm

theorem trim_idem (s : List Char) : trim (trim s) = trim s := by
  unfold trim
  rw [List.rdropWhile_eq_self_iff.mpr, List.dropWhile_idempotent]
  intro hne
  have hsuffix := List.dropWhile_suffix isWhitespace (l := s.rdropWhile isWhitespace)
  have hlast := hsuffix.getLast hne
  rw [hlast]
  exact List.rdropWhile_last_not _ _ _

theorem emailText_some {s t : List Char}
    (h : percentDecode (octets (trim s)) = octets t) : emailText s = trim t := by
  unfold emailText
  dsimp only
  rw [h, fromUtf8_octets]

theorem emailText_none {s : List Char}
    (h : fromUtf8 (percentDecode (octets (trim s))) = none) :
    emailText s = trim s := by
  unfold emailText
  dsimp only
  rw [h]

theorem emailText_cases (s : List Char) :
    (exists t, percentDecode (octets (trim s)) = octets t ∧ emailText s = trim t) ∨
      (fromUtf8 (percentDecode (octets (trim s))) = none ∧
        emailText s = trim s) := by
  cases h : fromUtf8 (percentDecode (octets (trim s))) with
  | some t =>
      have heq := fromUtf8_eq_some.mp h
      exact Or.inl ⟨t, heq, emailText_some heq⟩
  | none => exact Or.inr ⟨rfl, emailText_none h⟩

/-- The text of one recipient in a link. -/
def Member (p : List Char) : Prop :=
  forall c, c ∈ p -> isUrlChar c = true

theorem isUrlChar_range {c : Char} (hc : isUrlChar c = true) :
    32 < c.toNat ∧ c.toNat < 128 := by
  unfold isUrlChar Char.isAlphanum Char.isAlpha Char.isUpper Char.isLower
    Char.isDigit at hc
  simp only [Bool.or_eq_true, Bool.and_eq_true, decide_eq_true_eq, List.mem_cons,
    List.not_mem_nil, or_false, ge_iff_le] at hc
  rcases hc with ((hupper | hlower) | hdigit) | hmark
  · exact ⟨Nat.lt_of_lt_of_le (by decide) hupper.left,
      Nat.lt_of_le_of_lt hupper.right (by decide)⟩
  · exact ⟨Nat.lt_of_lt_of_le (by decide) hlower.left,
      Nat.lt_of_le_of_lt hlower.right (by decide)⟩
  · exact ⟨Nat.lt_of_lt_of_le (by decide) hdigit.left,
      Nat.lt_of_le_of_lt hdigit.right (by decide)⟩
  · rcases hmark with rfl | rfl | rfl | rfl | rfl | rfl | rfl | rfl | rfl | rfl |
      rfl | rfl | rfl | rfl | rfl | rfl | rfl | rfl <;> decide

theorem isUrlChar_not_whitespace {c : Char} (hc : isUrlChar c = true) :
    isWhitespace c = false := by
  have hrange := isUrlChar_range hc
  unfold isWhitespace
  simp only [Bool.or_eq_false_iff, Bool.and_eq_false_iff, decide_eq_false_iff_not]
  omega

theorem emailText_member {p : List Char} (hp : Member p) :
    emailText p = decodedOnce p := by
  have htrim : trim p = p :=
    trim_of_none (fun c hc => isUrlChar_not_whitespace (hp c hc))
  unfold emailText decodedOnce
  dsimp only
  rw [htrim]
  cases fromUtf8 (percentDecode (octets p)) with
  | none => rfl
  | some t => rfl

/-- Plus signs and percent signs. -/
def isSign (c : Char) : Bool :=
  c = '+' || c = '%'

theorem isSign_not_whitespace {c : Char} (hc : isWhitespace c = true) :
    isSign c = false := by
  unfold isSign
  rw [Bool.or_eq_false_iff, decide_eq_false_iff_not, decide_eq_false_iff_not]
  constructor
  · rintro rfl
    cases hc
  · rintro rfl
    cases hc

theorem isSign_ascii {c : Char} (hc : isSign c = true) : c.toNat < 128 := by
  unfold isSign at hc
  rw [Bool.or_eq_true, decide_eq_true_eq, decide_eq_true_eq] at hc
  rcases hc with rfl | rfl <;> decide

def isSignOctet (b : UInt8) : Bool :=
  isSign (Char.ofNat b.toNat)

theorem countP_isSign_octets (s : List Char) :
    s.countP isSign = (octets s).countP isSignOctet :=
  countP_octets (fun _ hc => isSign_ascii hc) s

theorem countP_emailText_le (s : List Char) :
    (emailText s).countP isSign ≤ s.countP isSign := by
  have htrim : forall t, (trim t).countP isSign = t.countP isSign :=
    countP_trim (fun _ hc => isSign_not_whitespace hc)
  rcases emailText_cases s with ⟨t, ht, heq⟩ | ⟨_, heq⟩
  · calc
      (emailText s).countP isSign = t.countP isSign := by rw [heq, htrim]
      _ = (percentDecode (octets (trim s))).countP isSignOctet := by
        rw [countP_isSign_octets, ht]
      _ ≤ (octets (trim s)).countP isSignOctet := countP_percentDecode_le rfl _
      _ = s.countP isSign := by rw [<- countP_isSign_octets, htrim]
  · rw [heq, htrim]

theorem plus_octet {p : List Char} : 43 ∈ octets p ↔ '+' ∈ p := by
  constructor
  · intro h
    unfold octets at h
    rcases List.mem_flatMap.mp h with ⟨c, hc, hb⟩
    have heq : c = '+' := eq_of_octet hb (by decide) rfl
    exact heq ▸ hc
  · intro h
    rw [<- fromUtf8Lossy_octets p] at h
    exact octet_of_mem_fromUtf8Lossy (c := '+') (by decide) (octets p) h

theorem noPlus_of_same {p : List Char}
    (h : emailText (formValue p) = decodedOnce p) : '+' ∉ p := by
  intro hmem
  have htrim : forall t, (trim t).countP isSign = t.countP isSign :=
    countP_trim (fun _ hc => isSign_not_whitespace hc)
  have hplus : 0 < (octets p).count 43 := by
    exact List.count_pos_iff.mpr (plus_octet.mpr hmem)
  have hvalue : (formValue p).countP isSign + (octets p).count 43 =
      (percentDecode (octets p)).countP isSignOctet := by
    have hall := countP_percentDecode_plus isSignOctet (octets p)
    have hsigns : isSignOctet 43 = true ∧ isSignOctet 32 = false :=
      ⟨by decide, by decide⟩
    rw [hsigns.left, hsigns.right, Bool.toNat_true, Bool.toNat_false, Nat.mul_one,
      Nat.mul_zero] at hall
    unfold formValue formDecode
    rw [countP_fromUtf8Lossy (fun _ hc => isSign_ascii hc)]
    exact hall
  have hless := countP_emailText_le (formValue p)
  have honce : (percentDecode (octets p)).countP isSignOctet ≤
      (decodedOnce p).countP isSign := by
    unfold decodedOnce
    cases hdecode : fromUtf8 (percentDecode (octets p)) with
    | none =>
        show _ ≤ p.countP isSign
        rw [countP_isSign_octets]
        exact countP_percentDecode_le rfl _
    | some t =>
        show _ ≤ (trim t).countP isSign
        rw [htrim, countP_isSign_octets, fromUtf8_eq_some.mp hdecode]
  rw [h] at hless
  omega

theorem formValue_noPlus {p : List Char} (h : '+' ∉ p) :
    formValue p = fromUtf8Lossy (percentDecode (octets p)) := by
  unfold formValue formDecode
  rw [plusToSpace_of_not_mem (fun hb => h (plus_octet.mp hb))]

theorem Plain.same {p : List Char} (h : Plain p) :
    emailText (formValue p) = decodedOnce p := by
  rcases h.once with ⟨t, ht, hor⟩
  have hvalue : formValue p = t := by
    rw [formValue_noPlus h.noPlus, ht, fromUtf8Lossy_octets]
  unfold decodedOnce
  rw [hvalue, ht, fromUtf8_octets]
  rcases hor with hself | hnone
  · rw [emailText_some hself, trim_idem]
    rfl
  · exact emailText_none hnone

/-- The first octet of U+FFFD is in the text. -/
def Marked (s : List Char) : Prop :=
  239 ∈ octets s

theorem marked_iff {s : List Char} :
    Marked s ↔ exists c, c ∈ s ∧ 239 ∈ String.utf8EncodeChar c :=
  List.mem_flatMap

theorem Marked.trim {s : List Char} (h : Marked s) : Marked (trim s) := by
  rcases marked_iff.mp h with ⟨c, hc, hb⟩
  have hle := le_of_octet hb
  rcases trim_spec s with ⟨before, after, heq, hws⟩
  have hout : c ∉ before ++ after := by
    intro hmem
    have hspace := hws c hmem
    unfold isWhitespace at hspace
    simp only [Bool.or_eq_true, Bool.and_eq_true, decide_eq_true_eq] at hspace
    omega
  rw [List.mem_append, not_or] at hout
  rw [heq, List.mem_append, List.mem_append] at hc
  rcases hc with (hc | hc) | hc
  · exact absurd hc hout.left
  · exact marked_iff.mpr ⟨c, hc, hb⟩
  · exact absurd hc hout.right

theorem Marked.emailText {s : List Char} (h : Marked s) :
    Marked (emailText s) := by
  rcases emailText_cases s with ⟨t, ht, heq⟩ | ⟨_, heq⟩
  · rw [heq]
    apply Marked.trim
    have hcount := (countP_percentDecode (q := (· == 239)) (by
      intro b hb
      rw [eq_of_beq hb]
      exact ⟨by decide, rfl⟩) (octets (Mailto.trim s))).left
    have hpos : 0 < (octets (Mailto.trim s)).countP (· == 239) :=
      List.countP_pos_iff.mpr ⟨239, h.trim, beq_self_eq_true _⟩
    rw [ht] at hcount
    rcases List.countP_pos_iff.mp (Nat.lt_of_lt_of_le hpos hcount) with ⟨b, hb, hbeq⟩
    rw [eq_of_beq hbeq] at hb
    exact hb
  · rw [heq]
    exact h.trim

theorem not_marked_of_member {p : List Char} (hp : Member p) : ¬ Marked p := by
  intro h
  rcases marked_iff.mp h with ⟨c, hc, hb⟩
  have hle := le_of_octet hb
  have hrange := isUrlChar_range (hp c hc)
  omega

theorem plain_iff {p : List Char} (hp : Member p) :
    emailText (formValue p) = decodedOnce p ↔ Plain p := by
  constructor
  · intro h
    have hplus := noPlus_of_same h
    refine ⟨hplus, ?_⟩
    rw [formValue_noPlus hplus] at h
    cases hdecode : fromUtf8 (percentDecode (octets p)) with
    | none =>
        have hmem := mem_fromUtf8Lossy_of_malformed _ hdecode
        have hmarked : Marked (fromUtf8Lossy (percentDecode (octets p))) :=
          marked_iff.mpr ⟨_, hmem, by decide⟩
        have hp' := hmarked.emailText
        rw [h] at hp'
        unfold decodedOnce at hp'
        rw [hdecode] at hp'
        exact absurd hp' (not_marked_of_member hp)
    | some t =>
        have ht := fromUtf8_eq_some.mp hdecode
        refine ⟨t, ht, ?_⟩
        unfold decodedOnce at h
        rw [hdecode, ht, fromUtf8Lossy_octets] at h
        rcases emailText_cases t with ⟨u, hu, heq⟩ | ⟨hnone, _⟩
        · left
          have hsame : trim u = trim t := heq.symm.trans h
          have hlength : (octets (trim u)).length ≤ (octets u).length := by
            rcases trim_spec u with ⟨before, after, hspec, _⟩
            have hall := congrArg (fun s => (octets s).length) hspec
            rw [octets_append, octets_append, List.length_append,
              List.length_append] at hall
            omega
          apply percentDecode_eq_self
          rw [hu, <- hsame]
          exact hlength
        · exact Or.inr hnone
  · exact fun h => h.same

/-!
# The routes compared
-/

theorem mem_of_mem_split {x p : List Char} (hp : p ∈ x.splitOnP isSeparator) :
    forall c, c ∈ p -> c ∈ x := by
  induction x generalizing p with
  | nil =>
      intro c hc
      rw [List.splitOnP_nil, List.mem_singleton] at hp
      exact hp ▸ hc
  | cons d x ih =>
      intro c hc
      rw [List.splitOnP_cons_eq_if_modifyHead] at hp
      split at hp
      · rcases List.mem_cons.mp hp with rfl | hp
        · cases hc
        · exact List.mem_cons_of_mem d (ih hp c hc)
      · cases hsplit : x.splitOnP isSeparator with
        | nil => exact absurd hsplit (List.splitOnP_ne_nil _ _)
        | cons q qs =>
            rw [hsplit] at hp ih
            rw [List.modifyHead_cons] at hp
            rcases List.mem_cons.mp hp with rfl | hp
            · rcases List.mem_cons.mp hc with rfl | hc
              · exact List.mem_cons_self
              · exact List.mem_cons_of_mem d (ih List.mem_cons_self c hc)
            · exact List.mem_cons_of_mem d (ih (List.mem_cons_of_mem q hp) c hc)

theorem UrlEncoded.member {x : List Char} (hx : UrlEncoded x) {p : List Char}
    (hp : p ∈ x.splitOnP isSeparator) : Member p :=
  fun c hc => hx.chars c (mem_of_mem_split hp c hc)

section Compared

variable (crates : Crates)

/-- The address that is found in the text, or the text. -/
def address (s : List Char) : List Char :=
  (crates.parseEmailAddress s).getD s

theorem parseEmail_eq (p : List Char) :
    parseEmail crates p = address crates (emailText p) := by
  unfold parseEmail address
  dsimp only
  cases crates.parseEmailAddress (emailText p) with
  | none => rfl
  | some a => rfl

/-- The same address is found in both texts. -/
def SameAddress (p : List Char) : Prop :=
  address crates (emailText (formValue p)) = address crates (decodedOnce p)

theorem recipients_ne_nil (x : List Char) : recipients crates x ≠ [] := by
  unfold recipients
  intro h
  exact List.splitOnP_ne_nil _ _ (List.map_eq_nil_iff.mp h)

theorem parseEmails_eq {x : List Char} (hx : UrlEncoded x) :
    parseEmails crates x = recipients crates x := by
  unfold parseEmails recipients
  apply List.map_congr_left
  intro p hp
  rw [parseEmail_eq, emailText_member (hx.member hp)]
  rfl

theorem scheme_mailto :
    eqIgnoreAsciiCase ['m', 'a', 'i', 'l', 't', 'o'] ['m', 'a', 'i', 'l', 't', 'o'] =
      true :=
  rfl

theorem fromStr_inPath {x : List Char} (hcrates : crates.UrlStandard)
    (hx : UrlEncoded x) :
    (exists m, fromStr crates (inPath x) = Except.ok m ∧
      m.to = recipients crates x) ↔ x ≠ [] ∧ x ≠ ['@'] := by
  have htrim : trim x = x :=
    trim_of_none (fun c hc => isUrlChar_not_whitespace (hx.chars c hc))
  have hparse : fromStr crates (inPath x) = Except.ok
      (if x ≠ [] ∧ x ≠ ['@'] then
        { default with «to» := parseEmails crates x }
      else default) := by
    unfold fromStr
    rw [hcrates.path x hx]
    dsimp only
    rw [htrim, if_pos scheme_mailto]
    rfl
  rw [hparse]
  constructor
  · rintro ⟨m, hm, hto⟩
    cases hm
    by_contra hempty
    rw [if_neg hempty] at hto
    exact recipients_ne_nil crates x hto.symm
  · intro hne
    refine ⟨_, rfl, ?_⟩
    rw [if_pos hne]
    exact parseEmails_eq crates hx

theorem fromStr_inQuery {key x : List Char} (hcrates : crates.UrlStandard)
    (hx : UrlEncoded x) (hkey : key ∈ [['t', 'o'], ['c', 'c'], ['b', 'c', 'c']]) :
    fromStr crates (inQuery key x) =
      Except.ok (addPair crates default (key, formValue x)) := by
  unfold fromStr
  rw [hcrates.query key x hx hkey]
  dsimp only
  rw [if_pos scheme_mailto, if_neg (by decide)]
  rfl

theorem parseEmails_formValue (x : List Char) :
    parseEmails crates (formValue x) = recipients crates x ↔
      ¬ Hides isSeparatorOctet (octets x) ∧
        forall p, p ∈ x.splitOnP isSeparator -> SameAddress crates p := by
  constructor
  · intro h
    have hhides : ¬ Hides isSeparatorOctet (octets x) := by
      apply (countP_formValue x).right.mp
      have hlength := congrArg List.length h
      unfold parseEmails recipients at hlength
      rw [List.length_map, List.length_map, length_split, length_split] at hlength
      exact Nat.succ_injective hlength
    refine ⟨hhides, ?_⟩
    intro p hp
    unfold parseEmails recipients at h
    rw [split_formValue hhides, List.map_map] at h
    have hsame := List.map_inj_left.mp h p hp
    rw [Function.comp_apply, parseEmail_eq] at hsame
    exact hsame
  · rintro ⟨hhides, hsame⟩
    unfold parseEmails recipients
    rw [split_formValue hhides, List.map_map]
    apply List.map_congr_left
    intro p hp
    rw [Function.comp_apply, parseEmail_eq]
    exact hsame p hp

theorem inQuery_iff {x : List Char} (hcrates : crates.UrlStandard)
    (hx : UrlEncoded x) (key : List Char)
    (hkey : key ∈ [['t', 'o'], ['c', 'c'], ['b', 'c', 'c']])
    (field : Mailto -> List (List Char))
    (hfield : field (addPair crates default (key, formValue x)) =
      parseEmails crates (formValue x)) :
    (exists m, fromStr crates (inQuery key x) = Except.ok m ∧
      field m = recipients crates x) ↔
      ¬ Hides isSeparatorOctet (octets x) ∧
        forall p, p ∈ x.splitOnP isSeparator -> SameAddress crates p := by
  rw [fromStr_inQuery crates hcrates hx hkey, <- parseEmails_formValue, <- hfield]
  constructor
  · rintro ⟨m, hm, heq⟩
    cases hm
    exact heq
  · intro heq
    exact ⟨_, rfl, heq⟩

theorem addPair_to (v : List Char) :
    (addPair crates default (['t', 'o'], v)).to = parseEmails crates v :=
  parseEmails_trim crates v

theorem addPair_cc (v : List Char) :
    (addPair crates default (['c', 'c'], v)).cc = parseEmails crates v :=
  parseEmails_trim crates v

theorem addPair_bcc (v : List Char) :
    (addPair crates default (['b', 'c', 'c'], v)).bcc = parseEmails crates v :=
  parseEmails_trim crates v

theorem routesAgree_same {x : List Char} (hcrates : crates.UrlStandard)
    (hx : UrlEncoded x) :
    RoutesAgree crates x ↔
      (x ≠ [] ∧ x ≠ ['@']) ∧ ¬ Hides isSeparatorOctet (octets x) ∧
        forall p, p ∈ x.splitOnP isSeparator -> SameAddress crates p := by
  have hto := inQuery_iff crates hcrates hx ['t', 'o'] (by decide)
    Mailto.to (addPair_to crates _)
  have hcc := inQuery_iff crates hcrates hx ['c', 'c'] (by decide)
    Mailto.cc (addPair_cc crates _)
  have hbcc := inQuery_iff crates hcrates hx ['b', 'c', 'c'] (by decide)
    Mailto.bcc (addPair_bcc crates _)
  have hpath := fromStr_inPath crates hcrates hx
  constructor
  · intro h
    exact ⟨hpath.mp h.path, hto.mp h.query⟩
  · intro h
    exact ⟨hpath.mpr h.left, hto.mpr h.right, hcc.mpr h.right, hbcc.mpr h.right⟩

/-- Recipients that path and query agree on, with the parser and with any. -/
theorem routesAgree_iff (x : List Char) (hcrates : crates.UrlStandard)
    (hx : UrlEncoded x) :
    (RoutesAgree crates x ↔
      (x ≠ [] ∧ x ≠ ['@']) ∧ ¬ Hides isSeparatorOctet (octets x) ∧
        forall p, p ∈ x.splitOnP isSeparator ->
          Plain p ∨ SameAddress crates p) ∧
    ((forall find, RoutesAgree { crates with parseEmailAddress := find } x) ↔
      (x ≠ [] ∧ x ≠ ['@']) ∧ ¬ Hides isSeparatorOctet (octets x) ∧
        forall p, p ∈ x.splitOnP isSeparator -> Plain p) := by
  have hplain : forall crates' p, Plain p -> SameAddress crates' p := by
    intro crates' p hp
    unfold SameAddress
    rw [hp.same]
  constructor
  · rw [routesAgree_same crates hcrates hx]
    constructor
    · intro h
      exact ⟨h.left, h.right.left, fun p hp => Or.inr (h.right.right p hp)⟩
    · intro h
      refine ⟨h.left, h.right.left, ?_⟩
      intro p hp
      rcases h.right.right p hp with h | h
      · exact hplain crates p h
      · exact h
  · have hstandard : forall find,
        Crates.UrlStandard { crates with parseEmailAddress := find } :=
      fun find => ⟨hcrates.path, hcrates.query⟩
    constructor
    · intro h
      -- A parser that finds no address leaves the texts to be compared.
      have hnone := (routesAgree_same _ (hstandard (fun _ => none)) hx).mp (h _)
      refine ⟨hnone.left, hnone.right.left, ?_⟩
      intro p hp
      exact (plain_iff (hx.member hp)).mp (hnone.right.right p hp)
    · intro h find
      rw [routesAgree_same _ (hstandard find) hx]
      exact ⟨h.left, h.right.left, fun p hp => hplain _ p (h.right.right p hp)⟩

end Compared

/-!
# Links
-/

/-- A link with at most one value. -/
def parseLink (s : List Char) : Option Url :=
  let scheme := s.takeWhile (· ≠ ':')
  let rest := (s.dropWhile (· ≠ ':')).drop 1
  let query := (rest.dropWhile (· ≠ '?')).drop 1
  some {
    scheme := scheme
    path := rest.takeWhile (· ≠ '?')
    queryPairs :=
      if query = [] then []
      else [(query.takeWhile (· ≠ '='), formValue ((query.dropWhile (· ≠ '=')).drop 1))] }

def linkCrates : Crates where
  parseUrl := parseLink
  parseEmailAddress := fun _ => none

theorem linkCrates_standard : linkCrates.UrlStandard := by
  constructor
  · intro x hx
    have hmark : forall c, c ∈ x -> decide (c ≠ '?') = true := by
      intro c hc
      apply decide_eq_true
      rintro rfl
      cases hx.chars _ hc
    have hpath : x.takeWhile (· ≠ '?') = x := List.takeWhile_eq_self_iff.mpr hmark
    have hquery : x.dropWhile (· ≠ '?') = [] := List.dropWhile_eq_nil_iff.mpr hmark
    have hparse : parseLink (inPath x) = some (Url.mk ['m', 'a', 'i', 'l', 't', 'o']
        (x.takeWhile (· ≠ '?'))
        (if (x.dropWhile (· ≠ '?')).drop 1 = [] then []
        else [(((x.dropWhile (· ≠ '?')).drop 1).takeWhile (· ≠ '='),
          formValue ((((x.dropWhile (· ≠ '?')).drop 1).dropWhile (· ≠ '=')).drop 1))])) :=
      rfl
    show parseLink (inPath x) = _
    rw [hparse, hpath, hquery]
    rfl
  · intro key x _ hkey
    simp only [List.mem_cons, List.not_mem_nil, or_false] at hkey
    rcases hkey with rfl | rfl | rfl
    · rfl
    · rfl
    · rfl

/-- Two addresses with nothing to decode. -/
theorem routesAgree_two :
    RoutesAgree linkCrates ['j', 'i', 'm', '@', 'p', ',', 'l', 'u', 'c', '@', 'p'] := by
  have hx : UrlEncoded ['j', 'i', 'm', '@', 'p', ',', 'l', 'u', 'c', '@', 'p'] :=
    ⟨List.all_eq_true.mp (by decide), by decide⟩
  apply (routesAgree_iff linkCrates _ linkCrates_standard hx).left.mpr
  refine ⟨⟨by decide, by decide⟩, ?_, ?_⟩
  · exact (countP_percentDecode (fun _ hb => separator_outside hb) _).right.mp
      (by decide)
  · intro p hp
    have hsplit : List.splitOnP isSeparator
        ['j', 'i', 'm', '@', 'p', ',', 'l', 'u', 'c', '@', 'p'] =
        [['j', 'i', 'm', '@', 'p'], ['l', 'u', 'c', '@', 'p']] := by decide
    rw [hsplit] at hp
    simp only [List.mem_cons, List.not_mem_nil, or_false] at hp
    left
    rcases hp with rfl | rfl
    · exact ⟨by decide, ['j', 'i', 'm', '@', 'p'], by decide, Or.inl (by decide)⟩
    · exact ⟨by decide, ['l', 'u', 'c', '@', 'p'], by decide, Or.inl (by decide)⟩

/-- A plus sign in a query is a space. -/
theorem plus_lost :
    linkCrates.UrlStandard ∧
      UrlEncoded ['j', 'i', 'm', '+', 'n', '@', 'p', 'r', 'o', 't', 'o', 'n'] ∧
      ¬ RoutesAgree linkCrates
        ['j', 'i', 'm', '+', 'n', '@', 'p', 'r', 'o', 't', 'o', 'n'] := by
  have hx : UrlEncoded
      ['j', 'i', 'm', '+', 'n', '@', 'p', 'r', 'o', 't', 'o', 'n'] :=
    ⟨List.all_eq_true.mp (by decide), by decide⟩
  refine ⟨linkCrates_standard, hx, ?_⟩
  intro h
  have hsame := (routesAgree_same linkCrates linkCrates_standard hx).mp h
  have hplain := (plain_iff (hx.member (List.mem_singleton_self _))).mp
    (hsame.right.right _ (by decide))
  exact hplain.noPlus (by decide)

end Mailto
end MailClient
