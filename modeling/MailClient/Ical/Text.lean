import MailClient.Ical.Reader
import MailClient.Ical.Writer

/-!
# Text values

Text is escaped character by character, and the escaped line is folded at any
place.  The reader unfolds before it looks for escapes, so that the text
survives wherever the folds fall.
-/

namespace MailClient
namespace Ical

open Foundation

/-- Unicode's control characters. -/
def isControl (ch : Char) : Bool :=
  ch.toNat < 0x20 || (0x7F ≤ ch.toNat && ch.toNat < 0xA0)

structure Text where
  value : List Char
deriving DecidableEq

namespace Text

def sanitize (ch : Char) : Option Char :=
  if ch = '\t' then some ' '
  else if ch = '\n' then some '\n'
  else if isControl ch then none
  else some ch

def new (text : List Char) : Text where
  value := text.filterMap sanitize

/-!
# Writing
-/

def escape (ch : Char) : List Char :=
  if ch = '\\' then ['\\', '\\']
  else if ch = ';' then ['\\', ';']
  else if ch = ',' then ['\\', ',']
  else if ch = '\n' then ['\\', 'n']
  else [ch]

/-- What stands for the character after a backslash. -/
def Escapes (ch esc : Char) : Prop :=
  (ch = esc ∧ (esc = '\\' ∨ esc = ';' ∨ esc = ',')) ∨ (ch = '\n' ∧ esc = 'n')

theorem escape_cases (ch : Char) :
    (escape ch = [ch] ∧ ch ≠ '\n' ∧ ch ≠ '\\') ∨
      exists esc, escape ch = ['\\', esc] ∧ Escapes ch esc := by
  unfold escape
  split
  · rename_i hslash
    exact Or.inr ⟨_, rfl, Or.inl ⟨hslash, Or.inl rfl⟩⟩
  · rename_i hslash
    split
    · rename_i hch
      exact Or.inr ⟨_, rfl, Or.inl ⟨hch, Or.inr (Or.inl rfl)⟩⟩
    · split
      · rename_i hch
        exact Or.inr ⟨_, rfl, Or.inl ⟨hch, Or.inr (Or.inr rfl)⟩⟩
      · split
        · rename_i hch
          exact Or.inr ⟨_, rfl, Or.inr ⟨hch, rfl⟩⟩
        · rename_i hnewline
          exact Or.inl ⟨rfl, hnewline, hslash⟩

def write (text : Text) (w : IcsWriter) : IcsWriter :=
  text.value.foldl (fun w ch => w.raw (escape ch)) w

theorem write_eq (text : Text) (w : IcsWriter) :
    text.write w = w.raw (text.value.flatMap escape) := by
  unfold write
  induction text.value generalizing w with
  | nil => rfl
  | cons ch rest ih =>
      rw [List.foldl_cons, ih, IcsWriter.raw_raw, List.flatMap_cons]

/-- A property whose value is a text and that has no parameters. -/
def writeProperty (text : Text) (w : IcsWriter) : IcsWriter :=
  text.write (w.raw [':'])

/-!
# Reading
-/

def readLoop (crates : Crates) : Nat -> List Char -> IcsReader ->
    List Char × IcsReader
  | 0, text, r => (text, r)
  | fuel + 1, text, r =>
      match r.char crates with
      | (none, r) => (text, r)
      | (some ch, r) =>
          if ch = '\n' then (text, r)
          else if ch = '\\' then
            match r.any crates.charName (IcsReader.spanned (IcsReader.char crates)) with
            | (none, r) => (text, r)
            | (some ch, r) =>
                if ch.value = '\\' ∨ ch.value = ';' ∨ ch.value = ',' then
                  readLoop crates fuel (text ++ [ch.value]) r
                else if ch.value = 'n' then
                  readLoop crates fuel (text ++ ['\n']) r
                else if ch.value = '\n' then
                  (text, r.warn ch.span "unexpected newline character")
                else
                  readLoop crates fuel text
                    (r.error ch.span "unrecognized escape sequence")
          else if ch = '"' then
            if r.hints.insideQuote then (text, r)
            else readLoop crates fuel (text ++ [ch]) r
          else
            readLoop crates fuel (text ++ [ch]) r

def read (crates : Crates) (r : IcsReader) : Option Text × IcsReader :=
  let result := readLoop crates r.fuel [] r
  (some ⟨result.1⟩, result.2)

section Reading

variable {crates : Crates} (hwidths : crates.Widths) {tail : List UInt8}

include hwidths

theorem any_char {ch : Char} {cs : List Char} {r : IcsReader}
    (h : r.Ahead tail (ch :: cs)) :
    exists c r', r.any crates.charName (IcsReader.spanned (IcsReader.char crates)) =
        (some c, r') ∧ c.value = ch ∧ r.Same r' ∧ r'.Ahead tail cs := by
  have hcontext (tag : Spanned String) :
      IcsReader.Ahead tail (ch :: cs)
        { r with context := r.context ++ [tag] } := h
  rcases IcsReader.char_of_ahead hwidths (hcontext _) with
    ⟨r', hchar, ⟨p, rfl⟩, hahead⟩
  refine ⟨⟨⟨r.pos.here, p.prev⟩, ch⟩, { r with pos := p }, ?_, rfl, ⟨p, rfl⟩,
    hahead⟩
  unfold IcsReader.any IcsReader.spanned
  dsimp only
  rw [hchar]
  dsimp only
  rw [List.dropLast_concat]

theorem readLoop_escaped {esc ch : Char} (hesc : Escapes ch esc)
    {cs text : List Char} {fuel : Nat} {r : IcsReader}
    (h : r.Ahead tail ('\\' :: esc :: cs)) :
    exists r', readLoop crates (fuel + 1) text r =
        readLoop crates fuel (text ++ [ch]) r' ∧
      r.Same r' ∧ r'.Ahead tail cs := by
  rcases IcsReader.char_of_ahead hwidths h with ⟨r1, hchar, hsame, hahead⟩
  rcases any_char hwidths hahead with ⟨c, r2, hany, rfl, hsame', hahead'⟩
  refine ⟨r2, ?_, hsame.trans hsame', hahead'⟩
  rw [readLoop, hchar]
  dsimp only
  rw [if_neg (by decide), if_pos rfl, hany]
  dsimp only
  rcases hesc with ⟨rfl, hesc⟩ | ⟨rfl, hesc⟩
  · rw [if_pos hesc]
  · rw [if_neg (by rw [hesc]; decide), if_pos hesc]

theorem readLoop_plain {ch : Char} (hnewline : ch ≠ '\n') (hslash : ch ≠ '\\')
    {cs text : List Char} {fuel : Nat} {r : IcsReader}
    (hquote : r.hints.insideQuote = false) (h : r.Ahead tail (ch :: cs)) :
    exists r', readLoop crates (fuel + 1) text r =
        readLoop crates fuel (text ++ [ch]) r' ∧
      r.Same r' ∧ r'.Ahead tail cs := by
  rcases IcsReader.char_of_ahead hwidths h with ⟨r', hchar, hsame, hahead⟩
  refine ⟨r', ?_, hsame, hahead⟩
  rw [readLoop, hchar]
  dsimp only
  rw [if_neg hnewline, if_neg hslash, hsame.hints, hquote]
  split
  · exact if_neg Bool.false_ne_true
  · rfl

theorem readLoop_escape (ch : Char) {cs text : List Char} {fuel : Nat}
    {r : IcsReader} (hquote : r.hints.insideQuote = false)
    (h : r.Ahead tail (escape ch ++ cs)) :
    exists r', readLoop crates (fuel + 1) text r =
        readLoop crates fuel (text ++ [ch]) r' ∧
      r.Same r' ∧ r'.Ahead tail cs := by
  rcases escape_cases ch with ⟨heq, hnewline, hslash⟩ | ⟨esc, heq, hesc⟩
  · rw [heq] at h
    exact readLoop_plain hwidths hnewline hslash hquote h
  · rw [heq] at h
    exact readLoop_escaped hwidths hesc h

theorem readLoop_line {cs : List Char} (text : List Char) {fuel : Nat}
    (hfuel : cs.length < fuel) {r : IcsReader}
    (hquote : r.hints.insideQuote = false)
    (h : r.Ahead tail (cs.flatMap escape ++ ['\n'])) :
    exists r', readLoop crates fuel text r = (text ++ cs, r') ∧ r.Same r' ∧
      r'.At tail ∧ r'.pos.char = 1 := by
  induction cs generalizing text fuel r with
  | nil =>
      cases fuel with
      | zero => cases hfuel
      | succ fuel =>
          rcases IcsReader.newline_of_ahead hwidths h with
            ⟨r', hchar, hsame, hahead, hstart⟩
          refine ⟨r', ?_, hsame, hahead.at_tail, hstart⟩
          rw [readLoop, hchar]
          dsimp only
          rw [if_pos rfl, List.append_nil]
  | cons ch rest ih =>
      cases fuel with
      | zero => cases hfuel
      | succ fuel =>
          rw [List.flatMap_cons, List.append_assoc] at h
          rcases readLoop_escape hwidths ch hquote h with
            ⟨r', hloop, hsame, hahead⟩
          rcases ih (text ++ [ch]) (Nat.lt_of_succ_lt_succ hfuel)
            (hsame.hints ▸ hquote) hahead with
            ⟨r'', hrest, hsame', hat, hstart⟩
          refine ⟨r'', ?_, hsame.trans hsame', hat, hstart⟩
          rw [hloop, hrest, List.append_assoc, List.singleton_append]

end Reading

/-!
# The round trip
-/

theorem escape_unbroken {ch : Char} (hcr : ch ≠ '\r') :
    forall c, c ∈ escape ch -> c ≠ '\r' ∧ c ≠ '\n' := by
  intro c hc
  rcases escape_cases ch with ⟨heq, hnewline, _⟩ | ⟨esc, heq, hesc⟩
  · rw [heq] at hc
    exact List.mem_singleton.mp hc ▸ ⟨hcr, hnewline⟩
  · rw [heq] at hc
    rcases List.mem_cons.mp hc with rfl | hc
    · decide
    · cases List.mem_singleton.mp hc
      rcases hesc with ⟨_, rfl | rfl | rfl⟩ | ⟨_, rfl⟩ <;> decide

theorem length_le_escape (cs : List Char) :
    cs.length ≤ (cs.flatMap escape).length := by
  induction cs with
  | nil => exact Nat.le_refl _
  | cons ch rest ih =>
      have hone : 1 ≤ (escape ch).length := by
        rcases escape_cases ch with ⟨heq, _⟩ | ⟨esc, heq, _⟩
        · rw [heq]
          exact Nat.le_refl 1
        · rw [heq]
          exact Nat.le_succ 1
      rw [List.flatMap_cons, List.length_append, List.length_cons, Nat.add_comm]
      exact Nat.add_le_add hone ih

theorem mem_new {s : List Char} {ch : Char} (h : ch ∈ (new s).value) :
    ch ≠ '\r' := by
  rintro rfl
  rcases List.mem_filterMap.mp h with ⟨c, _, hc⟩
  unfold sanitize at hc
  split at hc
  · cases hc
  · split at hc
    · cases hc
    · split at hc
      · cases hc
      · rename_i hcontrol
        cases hc
        exact hcontrol (by decide)

/-- The line of a property, before it is folded. -/
def line (name : List Char) (text : Text) : List Char :=
  name ++ ':' :: (text.value.flatMap escape ++ ['\n'])

theorem writeProperty_eq (w : IcsWriter) (name : List Char) (text : Text) :
    w.prop name text.writeProperty = w.raw (line name text) := by
  unfold IcsWriter.prop writeProperty line
  rw [write_eq, IcsWriter.raw_raw, IcsWriter.raw_raw, IcsWriter.raw_raw]
  simp

theorem isNameValid_mem {name : List Char}
    (hname : IcsWriter.isNameValid name = true) {ch : Char} (hch : ch ∈ name) :
    ch.isUpper = true ∨ ch = '-' := by
  have hall := (Bool.and_eq_true_iff.mp hname).right
  rcases Bool.or_eq_true_iff.mp (List.all_eq_true.mp hall ch hch) with h | h
  · exact Or.inl h
  · exact Or.inr (beq_iff_eq.mp h)

theorem mem_line {name : List Char} (hname : IcsWriter.isNameValid name = true)
    {s : List Char} :
    forall c, c ∈ name ++ ':' :: (new s).value.flatMap escape ->
      c ≠ '\r' ∧ c ≠ '\n' := by
  intro c hc
  rcases List.mem_append.mp hc with hc | hc
  · rcases isNameValid_mem hname hc with h | rfl
    · constructor <;> rintro rfl <;> cases h
    · decide
  · rcases List.mem_cons.mp hc with rfl | hc
    · decide
    · rcases List.mem_flatMap.mp hc with ⟨ch, hch, hc⟩
      exact escape_unbroken (mem_new hch) c hc

theorem ahead_line {name : List Char} (hname : IcsWriter.isNameValid name = true)
    (s : List Char) (w : IcsWriter) {tail : List UInt8} (htail : ¬ Blank tail)
    {p : IcsReaderPosition} (hp : p.byte = (octets w.finish).length) :
    (IcsReader.standing
      (octets (w.prop name (new s).writeProperty).finish ++ tail) p).Ahead tail
        (line name (new s)) := by
  have hbroken := mem_line hname (s := s)
  have hline : line name (new s) =
      (name ++ ':' :: (new s).value.flatMap escape) ++ ['\n'] := by
    unfold line
    rw [List.append_assoc, List.cons_append]
  have hcr : '\r' ∉ line name (new s) := by
    intro h
    rw [hline] at h
    rcases List.mem_append.mp h with h | h
    · exact (hbroken _ h).left rfl
    · cases List.mem_singleton.mp h
  have hunindented : IcsWriterBuffer.Unindented (line name (new s)) := by
    rw [hline]
    exact IcsWriterBuffer.unindented_line (fun h => (hbroken _ h).right rfl)
  rcases IcsWriterBuffer.folded_writeStr hcr hunindented (fun _ => htail)
    w.buffer with ⟨added, hout, hfolded⟩
  have hfinish : (w.raw (line name (new s))).finish = w.finish ++ added := hout
  rw [writeProperty_eq, hfinish, octets_append, List.append_assoc]
  exact ⟨_, IcsReader.at_standing hp, hfolded⟩

theorem isAlphabetic_of_isUpper (crates : Crates) {ch : Char}
    (h : ch.isUpper = true) : IcsReader.isAlphabetic crates ch = true := by
  have hle : ch.val ≤ 90 := (of_decide_eq_true h).right
  have hascii : ch.toNat < 128 :=
    Nat.lt_of_le_of_lt (UInt32.le_iff_toNat_le.mp hle) (by decide)
  unfold IcsReader.isAlphabetic Char.isAlpha
  rw [if_pos hascii, h, Bool.true_or]

/--
The line of a property, after anything else that was written and before
anything that is not its continuation: the name, the colon and the text are
read back, and the reader stands at the start of the next line.
-/
theorem text_survives {crates : Crates} (hwidths : crates.Widths) (s : List Char)
    {first : Char} {name : List Char} (hfirst : first.isUpper = true)
    (hname : IcsWriter.isNameValid (first :: name) = true) (w : IcsWriter)
    {tail : List UInt8} (htail : ¬ Blank tail) {p : IcsReaderPosition}
    (hp : p.byte = (octets w.finish).length) :
    exists r1 r2 r3,
      (IcsReader.standing
        (octets (w.prop (first :: name) (new s).writeProperty).finish ++ tail)
          p).ident crates = (some (first :: name), r1) ∧
      r1.eat crates ':' = (some (), r2) ∧
      read crates r2 = (some (new s), r3) ∧ r3.msgs = [] ∧
      r3.pos.byte =
        (octets (w.prop (first :: name) (new s).writeProperty).finish).length ∧
      r3.pos.char = 1 := by
  have hletters : forall ch, ch ∈ name ->
      (IcsReader.isAlphabetic crates ch || ch == '-') = true := by
    intro ch hch
    rcases isNameValid_mem hname (List.mem_cons_of_mem _ hch) with h | rfl
    · rw [isAlphabetic_of_isUpper crates h, Bool.true_or]
    · exact Bool.or_true _
  rcases IcsReader.ident_of_ahead hwidths (isAlphabetic_of_isUpper crates hfirst)
    hletters (IcsReader.endsName_cons hwidths rfl _) (ahead_line hname s w htail hp) with
    ⟨r1, hident, hsame1, hahead1⟩
  rcases IcsReader.eat_of_ahead hwidths hahead1 with ⟨r2, heat, hsame2, hahead2⟩
  have hsame := hsame1.trans hsame2
  have hfuel : (new s).value.length < r2.fuel := by
    have hlt := hahead2.length_lt_fuel
    rw [List.length_append] at hlt
    exact Nat.lt_of_le_of_lt (length_le_escape _)
      (Nat.lt_of_le_of_lt (Nat.le_add_right _ _) hlt)
  rcases readLoop_line hwidths [] hfuel (by rw [hsame.hints]; rfl) hahead2 with
    ⟨r3, hloop, hsame3, hat, hstart⟩
  refine ⟨r1, r2, r3, hident, heat, ?_, (hsame.trans hsame3).msgs,
    hat.byte_eq (hsame.trans hsame3).src, hstart⟩
  unfold read
  rw [hloop]
  rfl

/-- The fold falls between the backslash and the comma. -/
def foldedEscape : List Char :=
  List.replicate 70 'x' ++ [',', '\t', 'é']

theorem foldedEscape_survives :
    exists r1 r2 r3,
      (IcsReader.standing
        (octets (IcsWriter.default.prop ['U', 'I', 'D']
          (new foldedEscape).writeProperty).finish ++ [69, 78, 68])
          IcsReaderPosition.default).ident asciiCrates =
        (some ['U', 'I', 'D'], r1) ∧
      r1.eat asciiCrates ':' = (some (), r2) ∧
      read asciiCrates r2 = (some (new foldedEscape), r3) ∧ r3.msgs = [] ∧
      r3.pos.byte =
        (octets (IcsWriter.default.prop ['U', 'I', 'D']
          (new foldedEscape).writeProperty).finish).length ∧
      r3.pos.char = 1 :=
  text_survives asciiCrates_widths foldedEscape (by decide) (by decide)
    IcsWriter.default (by decide) rfl

end Text

end Ical
end MailClient
