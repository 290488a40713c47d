import Mathlib.Algebra.Ring.Nat
import MailClient.Foundation.Folding

/-!
# The reader of calendar files

The reader unfolds lines octet by octet, and only then decodes characters.  On
a folded form of a text it gives back the characters of the text.
-/

namespace MailClient
namespace Ical

open Foundation

/-!
# Messages
-/

/-- A line and an octet in it, both counted from one. -/
abbrev LineAndChar :=
  Nat × Nat

structure Span where
  start : LineAndChar
  «end» : LineAndChar
deriving DecidableEq

def Span.one (char : LineAndChar) : Span where
  start := char
  «end» := char

structure Spanned (value : Type) where
  span : Span
  value : value
deriving DecidableEq

inductive ReadMsgKind where
  | warning
  | error
deriving DecidableEq

structure ReadMsg where
  «at» : Option Span
  body : String
  kind : ReadMsgKind
  context : List (Spanned String)
deriving DecidableEq

structure IcsReaderPosition where
  byte : Nat
  line : Nat
  char : Nat
  prevLine : Nat
  prevChar : Nat
deriving DecidableEq

namespace IcsReaderPosition

def default : IcsReaderPosition where
  byte := 0
  line := 1
  char := 1
  prevLine := 1
  prevChar := 1

def here (p : IcsReaderPosition) : LineAndChar :=
  (p.line, p.char)

def prev (p : IcsReaderPosition) : LineAndChar :=
  (p.prevLine, p.prevChar)

end IcsReaderPosition

structure IcsReaderHints where
  insideArray : Bool
  insideQuote : Bool
deriving DecidableEq

structure IcsReader where
  src : List UInt8
  pos : IcsReaderPosition
  hints : IcsReaderHints
  msgs : List ReadMsg
  context : List (Spanned String)
deriving DecidableEq

/--
What the reader uses of other crates and of the Unicode tables: the number of
octets of a character by its first one, the name of a type and the form of a character in messages, and
which characters outside ASCII are letters.
-/
structure Crates where
  getWidth : UInt8 -> Fin 5
  charName : String
  debug : Char -> String
  alphabetic : Char -> Bool

/-- The first octet of a character tells how many there are. -/
def Crates.Widths (crates : Crates) : Prop :=
  forall ch : Char, forall b rest, String.utf8EncodeChar ch = b :: rest ->
    (crates.getWidth b : Nat) = ch.utf8Size

/--
The widths of the crate.  The octets from 80 to C1, in hexadecimal digits, start
no character and have the width 3, as those of the three-octet characters have.
-/
def octetWidth (b : UInt8) : Fin 5 :=
  if b.toNat < 0x80 then 1
  else if 0xC2 ≤ b.toNat ∧ b.toNat < 0xE0 then 2
  else if b.toNat < 0xF0 then 3
  else if b.toNat < 0xF5 then 4
  else 0

theorem octetWidth_ofNat {n : Nat} (hn : n < 256) :
    octetWidth (UInt8.ofNat n) =
      if n < 0x80 then 1
      else if 0xC2 ≤ n ∧ n < 0xE0 then 2
      else if n < 0xF0 then 3
      else if n < 0xF5 then 4
      else 0 := by
  unfold octetWidth
  rw [UInt8.toNat_ofNat', Nat.mod_eq_of_lt hn]

/-- With no letters outside ASCII. -/
def asciiCrates : Crates where
  getWidth := octetWidth
  charName := "char"
  debug := Char.quote
  alphabetic := fun _ => false

theorem asciiCrates_widths : asciiCrates.Widths := by
  intro ch b rest hoctets
  have hvalid : ch.val.toNat < 0x110000 := by
    rcases ch.valid with h | h
    · exact Nat.lt_trans h (by decide)
    · exact h.right
  show (octetWidth b : Nat) = ch.utf8Size
  rw [<- String.length_utf8EncodeChar, hoctets]
  revert hoctets
  fun_cases String.utf8EncodeChar with
  | case1 v hv =>
      intro hoctets
      cases hoctets
      rw [octetWidth_ofNat (by omega), if_pos (by omega)]
      rfl
  | case2 v h1 h2 =>
      intro hoctets
      cases hoctets
      rw [octetWidth_ofNat (by omega), if_neg (by omega), if_pos (by omega)]
      rfl
  | case3 v h1 h2 h3 =>
      intro hoctets
      cases hoctets
      rw [octetWidth_ofNat (by omega), if_neg (by omega), if_neg (by omega),
        if_pos (by omega)]
      rfl
  | case4 v h1 h2 h3 =>
      intro hoctets
      cases hoctets
      have hv : v < 0x110000 := hvalid
      rw [octetWidth_ofNat (by omega), if_neg (by omega), if_neg (by omega),
        if_neg (by omega), if_pos (by omega)]
      rfl

namespace IcsReader

def new (src : List UInt8) : IcsReader where
  src := src
  pos := IcsReaderPosition.default
  hints := { insideArray := false, insideQuote := false }
  msgs := []
  context := []

/-- A reader that has come to a position, without a message. -/
def standing (src : List UInt8) (pos : IcsReaderPosition) : IcsReader :=
  { new src with pos := pos }

def maxMsgs : Nat :=
  32

def tooManyMsgs : ReadMsg where
  «at» := none
  body := "got too many messages, going silent"
  kind := ReadMsgKind.warning
  context := []

/-- Reports a message, and tells whether there was room for it. -/
def msg (r : IcsReader) (at' : Option Span) (body : String)
    (kind : ReadMsgKind) (context : Option (List (Spanned String))) :
    Bool × IcsReader :=
  if r.msgs.length < maxMsgs then
    (true,
      { r with
        msgs := r.msgs ++ [{
          «at» := at'
          body := body
          kind := kind
          context := context.getD r.context }] })
  else if r.msgs.length = maxMsgs then
    (false, { r with msgs := r.msgs ++ [tooManyMsgs] })
  else
    (false, r)

def warn (r : IcsReader) (span : Span) (body : String) : IcsReader :=
  (r.msg (some span) body ReadMsgKind.warning none).2

def error (r : IcsReader) (span : Span) (body : String) : IcsReader :=
  (r.msg (some span) body ReadMsgKind.error none).2

/-!
# Characters
-/

/-- Line and octet counters have 32 bits. -/
def wrap (n : Nat) : Nat :=
  n % 2 ^ 32

/-- The loop of `byte` over the octets that are left. -/
def scan : List UInt8 -> IcsReaderPosition ->
    Option UInt8 × IcsReaderPosition
  | [], p => (none, p)
  | c0 :: rest, p =>
      if c0 = 13 then
        scan rest { p with byte := p.byte + 1 }
      else if c0 = 10 then
        match rest with
        | c1 :: rest =>
            if c1 = 32 ∨ c1 = 9 then
              scan rest
                { p with
                  byte := p.byte + 2
                  line := wrap (p.line + 1)
                  char := 2 }
            else
              (some 10,
                { p with
                  byte := p.byte + 1
                  line := wrap (p.line + 1)
                  char := 1 })
        | [] =>
            (some 10,
              { p with
                byte := p.byte + 1
                line := wrap (p.line + 1)
                char := 1 })
      else
        (some c0, { p with byte := p.byte + 1, char := wrap (p.char + 1) })

def byte (r : IcsReader) : Option UInt8 × IcsReader :=
  let p := { r.pos with prevLine := r.pos.line, prevChar := r.pos.char }
  let scanned := scan (r.src.drop p.byte) p
  (scanned.1, { r with pos := scanned.2 })

/-- The further octets of a character. -/
def bytes : Nat -> IcsReader -> Option (List UInt8) × IcsReader
  | 0, r => (some [], r)
  | n + 1, r =>
      match r.byte with
      | (none, r) => (none, r)
      | (some b, r) =>
          match bytes n r with
          | (none, r) => (none, r)
          | (some bs, r) => (some (b :: bs), r)

/-- The first character of a buffer of four octets, if there is one. -/
def decode (buf : List UInt8) : Option Char :=
  (buf ++ List.replicate (4 - buf.length) 0).toByteArray.utf8DecodeChar? 0

/-- Each round of the loop of `char` takes an octet at least. -/
def charLoop (crates : Crates) : Nat -> IcsReader -> Option Char × IcsReader
  | 0, r => (none, r)
  | fuel + 1, r =>
      match r.byte with
      | (none, r') => (none, r')
      | (some b, r') =>
          match bytes (crates.getWidth b - 1) r' with
          | (none, r') => (none, r')
          | (some bs, r') =>
              match decode (b :: bs) with
              | some ch => (some ch, r')
              | none =>
                  charLoop crates fuel
                    (r'.warn ⟨r.pos.here, r'.pos.here⟩
                      "invalid unicode character")

/-- The octets that are left, and one more. -/
def fuel (r : IcsReader) : Nat :=
  r.src.length - r.pos.byte + 1

def char (crates : Crates) (r : IcsReader) : Option Char × IcsReader :=
  charLoop crates r.fuel r

/-!
# Reading octets
-/

/-- The octets that are left. -/
def At (r : IcsReader) (bs : List UInt8) : Prop :=
  exists before, r.src = before ++ bs ∧ r.pos.byte = before.length

/-- Only the position has changed. -/
def Same (r r' : IcsReader) : Prop :=
  exists p, r' = { r with pos := p }

def Moved (r : IcsReader) (bs : List UInt8) (r' : IcsReader) : Prop :=
  r.Same r' ∧ r'.At bs

theorem at_new (src : List UInt8) : (new src).At src :=
  ⟨[], rfl, rfl⟩

variable {bs : List UInt8} {r r' : IcsReader} {cs : List Char}

theorem at_standing {before : List UInt8} {p : IcsReaderPosition}
    (hp : p.byte = before.length) : (standing (before ++ bs) p).At bs :=
  ⟨before, rfl, hp⟩

theorem At.byte_eq {before : List UInt8} (h : r.At bs)
    (hsrc : r.src = before ++ bs) : r.pos.byte = before.length := by
  rcases h with ⟨before', hsrc', hbyte⟩
  rw [hbyte, List.append_cancel_right (hsrc'.symm.trans hsrc)]

theorem At.drop (h : r.At bs) :
    r.src.drop r.pos.byte = bs := by
  rcases h with ⟨before, hsrc, hbyte⟩
  rw [hsrc, hbyte, List.drop_left]

theorem At.fuel (h : r.At bs) :
    r.fuel = bs.length + 1 := by
  rcases h with ⟨before, hsrc, hbyte⟩
  unfold IcsReader.fuel
  rw [hsrc, hbyte, List.length_append, Nat.add_sub_cancel_left]

theorem At.move_past (xs : List UInt8) (h : r.At (xs ++ bs))
    {p : IcsReaderPosition} (hp : p.byte = r.pos.byte + xs.length) :
    r.Moved bs { r with pos := p } := by
  rcases h with ⟨before, hsrc, hbyte⟩
  refine ⟨⟨p, rfl⟩, before ++ xs, ?_, ?_⟩
  · rw [List.append_assoc]
    exact hsrc
  · rw [List.length_append, <- hbyte]
    exact hp

theorem Same.refl (r : IcsReader) : r.Same r :=
  ⟨r.pos, rfl⟩

theorem Same.trans {r'' : IcsReader} (h : r.Same r') (h' : r'.Same r'') :
    r.Same r'' := by
  rcases h with ⟨p, rfl⟩
  rcases h' with ⟨p', rfl⟩
  exact ⟨p', rfl⟩

theorem Same.msgs (h : r.Same r') : r'.msgs = r.msgs := by
  rcases h with ⟨p, rfl⟩
  rfl

theorem Same.hints (h : r.Same r') : r'.hints = r.hints := by
  rcases h with ⟨p, rfl⟩
  rfl

theorem Same.src (h : r.Same r') : r'.src = r.src := by
  rcases h with ⟨p, rfl⟩
  rfl

theorem Moved.trans {r'' : IcsReader} {bs' : List UInt8} (h : r.Moved bs r')
    (h' : r'.Moved bs' r'') : r.Moved bs' r'' :=
  ⟨h.left.trans h'.left, h'.right⟩

theorem scan_octet {b : UInt8} (hb : b ≠ 13 ∧ b ≠ 10) (bs : List UInt8)
    (p : IcsReaderPosition) :
    scan (b :: bs) p =
      (some b, { p with byte := p.byte + 1, char := wrap (p.char + 1) }) := by
  unfold scan
  rw [if_neg hb.left, if_neg hb.right]

theorem scan_fold (bs : List UInt8) (p : IcsReaderPosition) :
    scan (13 :: 10 :: 32 :: bs) p =
      scan bs
        { p with byte := p.byte + 3, line := wrap (p.line + 1), char := 2 } :=
  rfl

theorem scan_line (hbs : ¬ Blank bs) (p : IcsReaderPosition) :
    scan (13 :: 10 :: bs) p =
      (some 10,
        { p with byte := p.byte + 2, line := wrap (p.line + 1), char := 1 }) := by
  cases bs with
  | nil => rfl
  | cons b rest =>
      have hb : ¬ (b = 32 ∨ b = 9) := by
        rintro (rfl | rfl)
        · exact hbs (Or.inl rfl)
        · exact hbs (Or.inr rfl)
      show (if b = 32 ∨ b = 9 then _ else _) = _
      exact if_neg hb

theorem byte_octet {b : UInt8} (h : r.At (b :: bs)) (hb : b ≠ 13 ∧ b ≠ 10) :
    exists r', r.byte = (some b, r') ∧ r.Moved bs r' := by
  unfold byte
  dsimp only
  rw [h.drop, scan_octet hb]
  exact ⟨_, rfl, At.move_past [b] h rfl⟩

theorem byte_fold {b : UInt8} (h : r.At (13 :: 10 :: 32 :: b :: bs))
    (hb : b ≠ 13 ∧ b ≠ 10) :
    exists r', r.byte = (some b, r') ∧ r.Moved bs r' := by
  unfold byte
  dsimp only
  rw [h.drop, scan_fold, scan_octet hb]
  exact ⟨_, rfl, At.move_past [13, 10, 32, b] h rfl⟩

theorem bytes_octets {l : List UInt8} (hl : forall b, b ∈ l -> b ≠ 13 ∧ b ≠ 10)
    (h : r.At (l ++ bs)) :
    exists r', bytes l.length r = (some l, r') ∧ r.Moved bs r' := by
  induction l generalizing r with
  | nil => exact ⟨r, rfl, Same.refl r, h⟩
  | cons b rest ih =>
      rcases byte_octet h (hl b List.mem_cons_self) with ⟨r', hbyte, hr'⟩
      rcases ih (fun b hb => hl b (List.mem_cons_of_mem _ hb)) hr'.right with
        ⟨r'', hbytes, hr''⟩
      refine ⟨r'', ?_, hr'.trans hr''⟩
      rw [List.length_cons, bytes, hbyte]
      dsimp only
      rw [hbytes]

theorem decode_utf8EncodeChar (ch : Char) :
    decode (String.utf8EncodeChar ch) = some ch := by
  unfold decode
  rw [List.toByteArray_append]
  exact ByteArray.utf8DecodeChar?_utf8EncodeChar_append

/-!
# Reading characters
-/

/-- The text is ahead of the reader, in a folded form, and then `tail`. -/
def Ahead (tail : List UInt8) (cs : List Char) (r : IcsReader) : Prop :=
  exists bs, r.At bs ∧ Folded tail cs bs

section Characters

variable {crates : Crates} (hwidths : crates.Widths)

include hwidths

theorem char_of_byte {ch : Char} {b : UInt8} {l : List UInt8}
    (hbyte : r.byte = (some b, r'))
    (hoctets : String.utf8EncodeChar ch = b :: l)
    (hl : forall b, b ∈ l -> b ≠ 13 ∧ b ≠ 10) (hmoved : r.Moved (l ++ bs) r') :
    exists r'', r.char crates = (some ch, r'') ∧ r.Moved bs r'' := by
  rcases bytes_octets hl hmoved.right with ⟨r'', hbytes, hr''⟩
  refine ⟨r'', ?_, hmoved.trans hr''⟩
  have hlength : (crates.getWidth b : Nat) - 1 = l.length := by
    rw [hwidths ch b l hoctets, <- String.length_utf8EncodeChar, hoctets]
    rfl
  unfold char fuel
  rw [charLoop, hbyte]
  dsimp only
  rw [hlength, hbytes]
  dsimp only
  rw [<- hoctets, decode_utf8EncodeChar]

theorem char_unfolded {ch : Char} (hch : ch ≠ '\r' ∧ ch ≠ '\n')
    (h : r.At (String.utf8EncodeChar ch ++ bs)) :
    exists r', r.char crates = (some ch, r') ∧ r.Moved bs r' := by
  have hoctet := octet_not_break hch
  cases hoctets : String.utf8EncodeChar ch with
  | nil => exact absurd hoctets String.utf8EncodeChar_ne_nil
  | cons b l =>
      rw [hoctets] at h hoctet
      rcases byte_octet h (hoctet b List.mem_cons_self) with ⟨r', hbyte, hr'⟩
      exact char_of_byte hwidths hbyte hoctets
        (fun b hb => hoctet b (List.mem_cons_of_mem _ hb)) hr'

theorem char_folded {ch : Char} (hch : ch ≠ '\r' ∧ ch ≠ '\n')
    (h : r.At (13 :: 10 :: 32 :: (String.utf8EncodeChar ch ++ bs))) :
    exists r', r.char crates = (some ch, r') ∧ r.Moved bs r' := by
  have hoctet := octet_not_break hch
  cases hoctets : String.utf8EncodeChar ch with
  | nil => exact absurd hoctets String.utf8EncodeChar_ne_nil
  | cons b l =>
      rw [hoctets] at h hoctet
      rcases byte_fold h (hoctet b List.mem_cons_self) with ⟨r', hbyte, hr'⟩
      exact char_of_byte hwidths hbyte hoctets
        (fun b hb => hoctet b (List.mem_cons_of_mem _ hb)) hr'

theorem char_newline (hbs : ¬ Blank bs) (h : r.At (13 :: 10 :: bs)) :
    exists r', r.char crates = (some '\n', r') ∧ r.Moved bs r' ∧
      r'.pos.char = 1 := by
  have hbyte : exists r', r.byte = (some 10, r') ∧ r.Moved bs r' ∧
      r'.pos.char = 1 := by
    unfold byte
    dsimp only
    rw [h.drop, scan_line hbs]
    exact ⟨_, rfl, At.move_past [13, 10] h rfl, rfl⟩
  rcases hbyte with ⟨r', hbyte, hr', hstart⟩
  have hwidth : (crates.getWidth 10 : Nat) = 1 := hwidths '\n' 10 [] rfl
  refine ⟨r', ?_, hr', hstart⟩
  unfold char fuel
  rw [charLoop, hbyte]
  dsimp only
  rw [hwidth]
  rfl

theorem char_of_ahead {tail : List UInt8} {ch : Char} {cs : List Char}
    (h : r.Ahead tail (ch :: cs)) :
    exists r', r.char crates = (some ch, r') ∧ r.Same r' ∧ r'.Ahead tail cs := by
  rcases h with ⟨bs, hat, hfolded⟩
  cases hfolded with
  | line hblank hrest =>
      rcases char_newline hwidths hblank hat with ⟨r', hchar, hr', _⟩
      exact ⟨r', hchar, hr'.left, _, hr'.right, hrest⟩
  | char hc hrest =>
      rcases char_unfolded hwidths hc hat with ⟨r', hchar, hr'⟩
      exact ⟨r', hchar, hr'.left, _, hr'.right, hrest⟩
  | fold hc hrest =>
      rcases char_folded hwidths hc hat with ⟨r', hchar, hr'⟩
      exact ⟨r', hchar, hr'.left, _, hr'.right, hrest⟩

theorem newline_of_ahead {tail : List UInt8} {cs : List Char}
    (h : r.Ahead tail ('\n' :: cs)) :
    exists r', r.char crates = (some '\n', r') ∧ r.Same r' ∧ r'.Ahead tail cs ∧
      r'.pos.char = 1 := by
  rcases h with ⟨bs, hat, hfolded⟩
  cases hfolded with
  | line hblank hrest =>
      rcases char_newline hwidths hblank hat with ⟨r', hchar, hr', hstart⟩
      exact ⟨r', hchar, hr'.left, ⟨_, hr'.right, hrest⟩, hstart⟩
  | char hc _ => exact absurd rfl hc.right
  | fold hc _ => exact absurd rfl hc.right

end Characters

theorem char_end (crates : Crates) (h : r.At []) :
    exists r', r.char crates = (none, r') ∧ r.Moved [] r' := by
  unfold char
  rw [h.fuel, charLoop]
  unfold byte
  dsimp only
  rw [h.drop, scan]
  exact ⟨_, rfl, At.move_past [] h rfl⟩

theorem Ahead.at_tail {tail : List UInt8} (h : r.Ahead tail []) :
    r.At tail := by
  rcases h with ⟨bs, hat, hfolded⟩
  cases hfolded with
  | done => exact hat

theorem Ahead.length_lt_fuel {tail : List UInt8} (h : r.Ahead tail cs) :
    cs.length < r.fuel := by
  rcases h with ⟨bs, hat, hfolded⟩
  have hle := hfolded.length_le
  rw [hat.fuel]
  omega

/-!
# Looking ahead
-/

/-- What `attempt` starts with. -/
def fork (r : IcsReader) : IcsReader :=
  { r with msgs := [], context := [] }

/-- The messages of a successful attempt, until there are too many. -/
def report : List ReadMsg -> IcsReader -> IcsReader
  | [], r => r
  | m :: ms, r =>
      match r.msg m.at m.body m.kind (some (r.context ++ m.context)) with
      | (true, r) => report ms r
      | (false, r) => r

def attempt {value : Type} (f : IcsReader -> Option value × IcsReader)
    (r : IcsReader) : Option value × IcsReader :=
  match f r.fork with
  | (some val, this) =>
      let r := report this.msgs { r with pos := this.pos }
      (some val, { r with context := r.context ++ this.context })
  | (none, _) => (none, r)

/-- An attempt that never succeeds, so that nothing but the character is left. -/
def peek (crates : Crates) (r : IcsReader) : Option Char :=
  (r.fork.char crates).1

def eqIgnoreAsciiCase (got ch : Char) : Bool :=
  got.toLower = ch.toLower

def tryEat (crates : Crates) (ch : Char) (r : IcsReader) :
    Option Unit × IcsReader :=
  r.attempt (fun this =>
    match this.char crates with
    | (none, this) => (none, this)
    | (some got, this) =>
        if eqIgnoreAsciiCase got ch then (some (), this) else (none, this))

def eat (crates : Crates) (ch : Char) (r : IcsReader) : Option Unit × IcsReader :=
  match r.tryEat crates ch with
  | (some _, r) => (some (), r)
  | (none, r) =>
      let body :=
        match r.peek crates with
        | none => "incomplete source"
        | some got => "expected " ++ crates.debug ch ++ ", got " ++ crates.debug got
      (none, r.error (Span.one r.pos.here) body)

def eatAll (crates : Crates) : List Char -> IcsReader -> Option Unit × IcsReader
  | [], r => (some (), r)
  | ch :: s, r =>
      match r.eat crates ch with
      | (none, r) => (none, r)
      | (some _, r) => eatAll crates s r

def tryString (crates : Crates) (s : List Char) (r : IcsReader) :
    Option Unit × IcsReader :=
  r.attempt (eatAll crates s)

def spanned {value : Type} (f : IcsReader -> Option value × IcsReader)
    (r : IcsReader) : Option (Spanned value) × IcsReader :=
  match f r with
  | (none, r) => (none, r)
  | (some val, r') => (some ⟨⟨r.pos.here, r'.pos.prev⟩, val⟩, r')

/-- `value` and `prop`: reads under the name of the type. -/
def any {value : Type} (name : String)
    (f : IcsReader -> Option value × IcsReader) (r : IcsReader) :
    Option value × IcsReader :=
  let tag := ⟨Span.one r.pos.here, "`" ++ name ++ "`"⟩
  let result := f { r with context := r.context ++ [tag] }
  (result.1, { result.2 with context := result.2.context.dropLast })

def isAlphabetic (crates : Crates) (ch : Char) : Bool :=
  if ch.toNat < 128 then ch.isAlpha else crates.alphabetic ch

def identLoop (crates : Crates) : Nat -> List Char -> IcsReader ->
    List Char × IcsReader
  | 0, value, r => (value, r)
  | fuel + 1, value, r =>
      match r.peek crates with
      | none => (value, r)
      | some ch =>
          if isAlphabetic crates ch || ch == '-' then
            identLoop crates fuel (value ++ [ch]) (r.char crates).2
          else
            (value, r)

def ident (crates : Crates) (r : IcsReader) : Option (List Char) × IcsReader :=
  match r.peek crates with
  | none => (none, r.error (Span.one r.pos.here) "incomplete source")
  | some got =>
      if isAlphabetic crates got then
        let result := identLoop crates r.fuel [got] (r.char crates).2
        (some result.1, result.2)
      else
        (none,
          r.error (Span.one r.pos.here)
            ("expected identifier (a-zA-Z), got " ++ crates.debug got))

/-!
# Messages do not change what is read
-/

/-- The same place in the same file. -/
def Alike (r r' : IcsReader) : Prop :=
  r.src = r'.src ∧ r.pos = r'.pos

theorem alike_fork (r : IcsReader) : r.Alike r.fork :=
  ⟨rfl, rfl⟩

theorem alike_msg (r : IcsReader) (span : Option Span) (body : String)
    (kind : ReadMsgKind) (context : Option (List (Spanned String))) :
    (r.msg span body kind context).2.Alike r := by
  unfold msg
  split
  · exact ⟨rfl, rfl⟩
  · split <;> exact ⟨rfl, rfl⟩

theorem byte_alike (h : r.Alike r') :
    r.byte.1 = r'.byte.1 ∧ r.byte.2.Alike r'.byte.2 := by
  unfold byte
  dsimp only
  rw [h.left, h.right]
  exact ⟨rfl, rfl, rfl⟩

theorem bytes_alike {n : Nat} (h : r.Alike r') :
    (bytes n r).1 = (bytes n r').1 ∧ (bytes n r).2.Alike (bytes n r').2 := by
  induction n generalizing r r' with
  | zero => exact ⟨rfl, h⟩
  | succ n ih =>
      have hbyte := byte_alike h
      rw [bytes, bytes]
      rcases hb : r.byte with ⟨b, r1⟩
      rcases hb' : r'.byte with ⟨b', r1'⟩
      rw [hb, hb'] at hbyte
      cases hbyte.left
      cases b with
      | none => exact ⟨rfl, hbyte.right⟩
      | some b =>
          have hrest := ih hbyte.right
          dsimp only
          rcases hbs : bytes n r1 with ⟨bs, r2⟩
          rcases hbs' : bytes n r1' with ⟨bs', r2'⟩
          rw [hbs, hbs'] at hrest
          cases hrest.left
          cases bs with
          | none => exact ⟨rfl, hrest.right⟩
          | some bs => exact ⟨rfl, hrest.right⟩

theorem charLoop_alike {crates : Crates} {fuel : Nat} (h : r.Alike r') :
    (charLoop crates fuel r).1 = (charLoop crates fuel r').1 := by
  induction fuel generalizing r r' with
  | zero => rfl
  | succ fuel ih =>
      have hbyte := byte_alike h
      rw [charLoop, charLoop]
      rcases hb : r.byte with ⟨b, r1⟩
      rcases hb' : r'.byte with ⟨b', r1'⟩
      rw [hb, hb'] at hbyte
      cases hbyte.left
      cases b with
      | none => rfl
      | some b =>
          dsimp only
          have hrest : _ ∧ _ :=
            bytes_alike (n := (crates.getWidth b : Nat) - 1) hbyte.right
          rcases hbs : bytes ((crates.getWidth b : Nat) - 1) r1 with ⟨bs, r2⟩
          rcases hbs' : bytes ((crates.getWidth b : Nat) - 1) r1' with ⟨bs', r2'⟩
          rw [hbs, hbs'] at hrest
          cases hrest.left
          cases bs with
          | none => rfl
          | some bs =>
              dsimp only
              cases decode (b :: bs) with
              | some ch => rfl
              | none =>
                  have hmsg (span span' : Span) (body : String) :
                      (r2.warn span body).Alike (r2'.warn span' body) := by
                    have hleft := alike_msg r2 (some span) body
                      ReadMsgKind.warning none
                    have hright := alike_msg r2' (some span') body
                      ReadMsgKind.warning none
                    exact ⟨hleft.left.trans (hrest.right.left.trans
                      hright.left.symm), hleft.right.trans
                        (hrest.right.right.trans hright.right.symm)⟩
                  exact ih (hmsg _ _ _)

theorem char_of_peek {crates : Crates} {ch : Char}
    (hpeek : r.peek crates = some ch) (halike : r'.Alike r) :
    exists r'', r'.char crates = (some ch, r'') := by
  have hfork : r'.Alike r.fork :=
    ⟨halike.left.trans (alike_fork r).left,
      halike.right.trans (alike_fork r).right⟩
  have hfuel : r'.fuel = r.fork.fuel := by
    unfold fuel
    rw [hfork.left, hfork.right]
  have hchar : (r'.char crates).1 = some ch := by
    unfold char
    rw [hfuel, charLoop_alike hfork]
    exact hpeek
  exact ⟨_, Prod.ext hchar rfl⟩

section Looking

variable {crates : Crates} (hwidths : crates.Widths) {tail : List UInt8}

theorem Ahead.fork (h : r.Ahead tail cs) :
    r.fork.Ahead tail cs :=
  h

theorem attempt_same {value : Type} {f : IcsReader -> Option value × IcsReader}
    {this : IcsReader} {val : value} (hf : f r.fork = (some val, this))
    (hsame : r.fork.Same this) (hahead : this.Ahead tail cs) :
    exists r', r.attempt f = (some val, r') ∧ r.Same r' ∧ r'.Ahead tail cs := by
  rcases hsame with ⟨p, rfl⟩
  refine ⟨{ r with pos := p }, ?_, ⟨p, rfl⟩, hahead⟩
  unfold attempt
  rw [hf]
  dsimp only [fork, report]
  rw [List.append_nil]

include hwidths

theorem peek_of_ahead {ch : Char} (h : r.Ahead tail (ch :: cs)) :
    r.peek crates = some ch := by
  rcases char_of_ahead hwidths h.fork with ⟨r', hchar, _, _⟩
  unfold peek
  rw [hchar]

theorem tryEat_of_ahead {ch got : Char} (h : r.Ahead tail (got :: cs))
    (heq : eqIgnoreAsciiCase got ch = true) :
    exists r', r.tryEat crates ch = (some (), r') ∧ r.Same r' ∧
      r'.Ahead tail cs := by
  rcases char_of_ahead hwidths h.fork with ⟨r', hchar, hsame, hahead⟩
  refine attempt_same ?_ hsame hahead
  rw [hchar]
  exact if_pos heq

theorem tryEat_other {ch got : Char} (h : r.Ahead tail (got :: cs))
    (hne : eqIgnoreAsciiCase got ch = false) :
    r.tryEat crates ch = (none, r) := by
  rcases char_of_ahead hwidths h.fork with ⟨r', hchar, hsame, hahead⟩
  unfold tryEat attempt
  dsimp only
  rw [hchar]
  dsimp only
  rw [if_neg (Bool.not_eq_true _ ▸ hne)]

theorem eat_of_ahead {ch : Char} (h : r.Ahead tail (ch :: cs)) :
    exists r', r.eat crates ch = (some (), r') ∧ r.Same r' ∧ r'.Ahead tail cs := by
  have hself : eqIgnoreAsciiCase ch ch = true := decide_eq_true rfl
  rcases tryEat_of_ahead hwidths h hself with ⟨r', heat, hsame, hahead⟩
  refine ⟨r', ?_, hsame, hahead⟩
  unfold eat
  rw [heat]

/-- No letter and no hyphen follows. -/
def EndsName (crates : Crates) (tail : List UInt8) (cs : List Char) : Prop :=
  forall r ch, Ahead tail cs r -> r.peek crates = some ch ->
    (isAlphabetic crates ch || ch == '-') = false

theorem endsName_cons {stop : Char}
    (hstop : (isAlphabetic crates stop || stop == '-') = false) (cs : List Char) :
    EndsName crates tail (stop :: cs) := by
  intro r ch hahead hpeek
  rw [peek_of_ahead hwidths hahead] at hpeek
  cases hpeek
  exact hstop

theorem identLoop_of_ahead (value : List Char) {name : List Char}
    (hname : forall ch, ch ∈ name ->
      (isAlphabetic crates ch || ch == '-') = true)
    (hstop : EndsName crates tail cs) (h : r.Ahead tail (name ++ cs))
    {fuel : Nat} (hfuel : name.length < fuel) :
    exists r', identLoop crates fuel value r = (value ++ name, r') ∧
      r.Same r' ∧ r'.Ahead tail cs := by
  induction name generalizing value r fuel with
  | nil =>
      refine ⟨r, ?_, Same.refl r, h⟩
      cases fuel with
      | zero => cases hfuel
      | succ fuel =>
          rw [identLoop, List.append_nil]
          cases hpeek : r.peek crates with
          | none => rfl
          | some ch =>
              dsimp only
              rw [hstop r ch h hpeek, if_neg Bool.false_ne_true]
  | cons ch rest ih =>
      cases fuel with
      | zero => cases hfuel
      | succ fuel =>
          rcases char_of_ahead hwidths h with ⟨r', hchar, hsame, hahead⟩
          rcases ih (value ++ [ch])
            (fun c hc => hname c (List.mem_cons_of_mem _ hc)) hahead
            (Nat.lt_of_succ_lt_succ hfuel) with ⟨r'', hloop, hsame', hahead'⟩
          refine ⟨r'', ?_, hsame.trans hsame', hahead'⟩
          rw [identLoop, peek_of_ahead hwidths h]
          dsimp only
          rw [if_pos (hname ch List.mem_cons_self), hchar, hloop,
            List.append_assoc, List.singleton_append]

theorem ident_of_ahead {first : Char} {name : List Char}
    (hfirst : isAlphabetic crates first = true) (hname : forall ch, ch ∈ name ->
      (isAlphabetic crates ch || ch == '-') = true)
    (hstop : EndsName crates tail cs) (h : r.Ahead tail (first :: name ++ cs)) :
    exists r', r.ident crates = (some (first :: name), r') ∧ r.Same r' ∧
      r'.Ahead tail cs := by
  rcases char_of_ahead hwidths h with ⟨r', hchar, hsame, hahead⟩
  have hfuel : name.length < r.fuel := by
    have hlt := h.length_lt_fuel
    rw [List.length_append, List.length_cons] at hlt
    omega
  rcases identLoop_of_ahead hwidths [first] hname hstop hahead hfuel with
    ⟨r'', hloop, hsame', hahead'⟩
  refine ⟨r'', ?_, hsame.trans hsame', hahead'⟩
  unfold ident
  rw [peek_of_ahead hwidths h]
  dsimp only
  rw [if_pos hfirst, hchar, hloop]
  rfl

end Looking

end IcsReader

end Ical
end MailClient
