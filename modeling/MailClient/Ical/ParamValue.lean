import MailClient.Ical.Text

/-!
# Values of parameters

The constructors drop or refuse control characters and quotes, and ask for
quotes around a separator.  The reader also takes a backslash for the start of
an escape sequence, which the writer never writes: a value with a backslash does
not survive.
-/

namespace MailClient
namespace Ical

open Foundation

structure ParamValue where
  value : List Char
  quote : Bool
deriving DecidableEq

inductive ParamValueViolation where
  | illegalCharacter (idx : Nat) (ch : Char)
deriving DecidableEq

namespace ParamValue

def isSeparator (ch : Char) : Bool :=
  ch == ';' || ch == ':' || ch == ','

def isIllegal (ch : Char) : Bool :=
  isControl ch || ch == '"'

def new (value : List Char) : ParamValue where
  value := value.filter (fun ch => !isIllegal ch)
  quote := value.any isSeparator

/-- The octet index counts from the start of the string. -/
def checkChars : Nat -> List Char -> Except ParamValueViolation (List Char)
  | _, [] => Except.ok []
  | idx, ch :: rest =>
      if isIllegal ch then
        Except.error (ParamValueViolation.illegalCharacter idx ch)
      else
        (checkChars (idx + ch.utf8Size) rest).map (fun cs => ch :: cs)

def newChecked (value : List Char) : Except ParamValueViolation ParamValue :=
  (checkChars 0 value).map (fun cs =>
    { value := cs, quote := value.any isSeparator })

def asStr (v : ParamValue) : List Char :=
  v.value

def write (v : ParamValue) (w : IcsWriter) : IcsWriter :=
  let w := if v.quote then w.raw ['"'] else w
  let w := w.raw v.value
  if v.quote then w.raw ['"'] else w

/-!
# Reading
-/

inductive Mode where
  | quoted (quoteSpan : Span)
  | plain
deriving DecidableEq

/-- A value that is pushed, or a loop that ends. -/
inductive Round where
  | next (value : List Char) (quote : Bool) (mode : Mode)
  | stop
  | fail

/-- The character after a backslash. -/
def readEscape (crates : Crates) (value : List Char) (quote escaped : Bool)
    (mode : Mode) (r : IcsReader) : Round × IcsReader :=
  let r := (r.char crates).2
  let span := ⟨r.pos.prev, r.pos.here⟩
  match r.char crates with
  | (none, r) => (Round.fail, r)
  | (some ch, r) =>
      if isSeparator ch then
        (Round.next (value ++ [ch]) escaped mode,
          r.warn span "quirky escape sequence")
      else
        (Round.next value quote mode,
          r.error span "unrecognized escape sequence")

/-- Pushes the next character as it is. -/
def readChar (crates : Crates) (value : List Char) (quote : Bool) (mode : Mode)
    (r : IcsReader) : Round × IcsReader :=
  match r.char crates with
  | (none, r) => (Round.fail, r)
  | (some ch, r) => (Round.next (value ++ [ch]) quote mode, r)

/-- The cases that both modes share. -/
def readOther (crates : Crates) (ch : Char) (value : List Char) (quote : Bool)
    (mode : Mode) (r : IcsReader) : Round × IcsReader :=
  if ch = '\t' then
    (Round.next (value ++ [' ']) quote mode,
      ((r.warn (Span.one r.pos.here) "quirky tab").char crates).2)
  else if isControl ch then
    (Round.stop, r)
  else
    readChar crates value quote mode r

/-- One round of the loop, with `ch` ahead. -/
def readRound (crates : Crates) (ch : Char) (value : List Char) (quote : Bool)
    (mode : Mode) (r : IcsReader) : Round × IcsReader :=
  match mode with
  | Mode.quoted quoteSpan =>
      if ch = '"' then
        (Round.stop, (r.char crates).2)
      else if ch = '\\' then
        match r.tryString crates ['\\', '"'] with
        | (some _, r) =>
            (Round.next value false Mode.plain, r.warn quoteSpan "quirky quote")
        | (none, r) => readEscape crates value quote quote mode r
      else
        readOther crates ch value quote mode r
  | Mode.plain =>
      if ch = ';' ∨ ch = ':' ∨ ch = '"' then
        (Round.stop, r)
      else if ch = ',' then
        if r.hints.insideArray then
          (Round.stop, r)
        else
          readChar crates value true mode
            (r.warn (Span.one r.pos.here) "quirky comma")
      else if ch = '\\' then
        readEscape crates value quote true mode r
      else
        readOther crates ch value quote mode r

def readLoop (crates : Crates) : Nat -> List Char -> Bool -> Mode -> IcsReader ->
    Option ParamValue × IcsReader
  | 0, value, quote, _, r => (some ⟨value, quote⟩, r)
  | fuel + 1, value, quote, mode, r =>
      match r.peek crates with
      | none => (some ⟨value, quote⟩, r)
      | some ch =>
          match readRound crates ch value quote mode r with
          | (Round.next value quote mode, r) =>
              readLoop crates fuel value quote mode r
          | (Round.stop, r) => (some ⟨value, quote⟩, r)
          | (Round.fail, r) => (none, r)

def read (crates : Crates) (r : IcsReader) : Option ParamValue × IcsReader :=
  match r.spanned (IcsReader.tryEat crates '"') with
  | (some q, r) => readLoop crates r.fuel [] true (Mode.quoted q.span) r
  | (none, r) => readLoop crates r.fuel [] false Mode.plain r

/-!
# No value with a backslash is read
-/

theorem not_mem_push {value : List Char} {ch : Char} (hvalue : '\\' ∉ value)
    (hch : ch ≠ '\\') : '\\' ∉ value ++ [ch] := by
  intro h
  rcases List.mem_append.mp h with h | h
  · exact hvalue h
  · exact hch (List.mem_singleton.mp h).symm

section Rounds

variable {crates : Crates} {value value' : List Char} {quote quote' : Bool}
  {mode mode' : Mode} {r r' : IcsReader} (hvalue : '\\' ∉ value)

include hvalue

theorem readEscape_next {escaped : Bool}
    (h : readEscape crates value quote escaped mode r =
      (Round.next value' quote' mode', r')) : '\\' ∉ value' := by
  unfold readEscape at h
  dsimp only at h
  rcases hchar : (r.char crates).2.char crates with ⟨got, r1⟩
  rw [hchar] at h
  cases got with
  | none => cases h
  | some ch =>
      dsimp only at h
      split at h
      · rename_i hseparator
        cases h
        refine not_mem_push hvalue ?_
        rintro rfl
        cases hseparator
      · cases h
        exact hvalue

theorem readChar_next {ch : Char} (hch : ch ≠ '\\') {seen : IcsReader}
    (hpeek : seen.peek crates = some ch) (halike : r.Alike seen)
    (h : readChar crates value quote mode r =
      (Round.next value' quote' mode', r')) : '\\' ∉ value' := by
  rcases IcsReader.char_of_peek hpeek halike with ⟨r1, hchar⟩
  unfold readChar at h
  rw [hchar] at h
  cases h
  exact not_mem_push hvalue hch

theorem readOther_next {ch : Char} (hch : ch ≠ '\\')
    (hpeek : r.peek crates = some ch)
    (h : readOther crates ch value quote mode r =
      (Round.next value' quote' mode', r')) : '\\' ∉ value' := by
  unfold readOther at h
  split at h
  · cases h
    exact not_mem_push hvalue (by decide)
  · split at h
    · cases h
    · exact readChar_next hvalue hch hpeek ⟨rfl, rfl⟩ h

theorem readRound_next {ch : Char} (hpeek : r.peek crates = some ch)
    (h : readRound crates ch value quote mode r =
      (Round.next value' quote' mode', r')) : '\\' ∉ value' := by
  unfold readRound at h
  cases mode with
  | quoted span =>
      dsimp only at h
      split at h
      · cases h
      · split at h
        · rcases hstring : r.tryString crates ['\\', '"'] with ⟨got, r1⟩
          rw [hstring] at h
          cases got with
          | none => exact readEscape_next hvalue h
          | some _ =>
              cases h
              exact hvalue
        · rename_i hslash
          exact readOther_next hvalue hslash hpeek h
  | plain =>
      dsimp only at h
      split at h
      · cases h
      · split at h
        · rename_i hcomma
          split at h
          · cases h
          · exact readChar_next hvalue (by rw [hcomma]; decide) hpeek
              (IcsReader.alike_msg r _ _ _ _) h
        · split at h
          · exact readEscape_next hvalue h
          · rename_i hslash
            exact readOther_next hvalue hslash hpeek h

end Rounds

theorem readLoop_value {crates : Crates} {fuel : Nat} {value : List Char}
    {quote : Bool} {mode : Mode} {r : IcsReader} (hvalue : '\\' ∉ value)
    {v : ParamValue} {r' : IcsReader}
    (h : readLoop crates fuel value quote mode r = (some v, r')) :
    '\\' ∉ v.value := by
  induction fuel generalizing value quote mode r with
  | zero =>
      cases h
      exact hvalue
  | succ fuel ih =>
      rw [readLoop] at h
      cases hpeek : r.peek crates with
      | none =>
          rw [hpeek] at h
          cases h
          exact hvalue
      | some ch =>
          rw [hpeek] at h
          dsimp only at h
          rcases hround : readRound crates ch value quote mode r with ⟨round, r1⟩
          rw [hround] at h
          cases round with
          | next value' quote' mode' =>
              exact ih (readRound_next hvalue hpeek hround) h
          | stop =>
              cases h
              exact hvalue
          | fail => cases h

theorem read_value {crates : Crates} {r r' : IcsReader} {v : ParamValue}
    (h : read crates r = (some v, r')) : '\\' ∉ v.value := by
  unfold read at h
  rcases hquote : r.spanned (IcsReader.tryEat crates '"') with ⟨q, r1⟩
  rw [hquote] at h
  cases q with
  | none => exact readLoop_value List.not_mem_nil h
  | some q => exact readLoop_value List.not_mem_nil h

/-!
# The round trip
-/

/-- A character that the reader pushes as it is. -/
structure Ordinary (mode : Mode) (ch : Char) : Prop where
  legal : isIllegal ch = false
  slash : ch ≠ '\\'
  plain : mode = Mode.plain -> isSeparator ch = false

theorem isControl_of_legal {ch : Char} (h : isIllegal ch = false) :
    isControl ch = false ∧ ch ≠ '"' := by
  rcases Bool.or_eq_false_iff.mp h with ⟨hcontrol, hquote⟩
  exact ⟨hcontrol, beq_eq_false_iff_ne.mp hquote⟩

theorem fuel_eq {tail : List UInt8} {cs rest : List Char} {stop : Char}
    {r : IcsReader} (h : r.Ahead tail (cs ++ stop :: rest)) :
    exists fuel, r.fuel = cs.length + (fuel + 1) := by
  have hlt := h.length_lt_fuel
  rw [List.length_append] at hlt
  rcases Nat.exists_eq_add_of_lt (Nat.lt_of_le_of_lt (Nat.le_add_right _ _) hlt)
    with ⟨fuel, hfuel⟩
  exact ⟨fuel, hfuel⟩

section Reading

variable {crates : Crates} (hwidths : crates.Widths) {tail : List UInt8}

include hwidths

theorem readRound_ordinary {mode : Mode} {ch : Char} (hch : Ordinary mode ch)
    {value cs : List Char} {quote : Bool} {r : IcsReader}
    (h : r.Ahead tail (ch :: cs)) :
    exists r', readRound crates ch value quote mode r =
        (Round.next (value ++ [ch]) quote mode, r') ∧ r.Same r' ∧
      r'.Ahead tail cs := by
  rcases IcsReader.char_of_ahead hwidths h with ⟨r', hchar, hsame, hahead⟩
  refine ⟨r', ?_, hsame, hahead⟩
  rcases isControl_of_legal hch.legal with ⟨hcontrol, hquote⟩
  have hother : readOther crates ch value quote mode r =
      (Round.next (value ++ [ch]) quote mode, r') := by
    have htab : ch ≠ '\t' := by
      rintro rfl
      cases hcontrol
    unfold readOther readChar
    rw [if_neg htab, hcontrol, if_neg Bool.false_ne_true, hchar]
  unfold readRound
  cases mode with
  | quoted span =>
      dsimp only
      rw [if_neg hquote, if_neg hch.slash, hother]
  | plain =>
      have hseparator := hch.plain rfl
      have hstop : ¬ (ch = ';' ∨ ch = ':' ∨ ch = '"') := by
        rintro (rfl | rfl | rfl)
        · cases hseparator
        · cases hseparator
        · exact hquote rfl
      have hcomma : ch ≠ ',' := by
        rintro rfl
        cases hseparator
      dsimp only
      rw [if_neg hstop, if_neg hcomma, if_neg hch.slash, hother]

theorem readLoop_ordinary {mode : Mode} {cs : List Char}
    (hcs : forall ch, ch ∈ cs -> Ordinary mode ch) (fuel : Nat)
    (value : List Char) {quote : Bool} {rest : List Char} {r : IcsReader}
    (h : r.Ahead tail (cs ++ rest)) :
    exists r', readLoop crates (cs.length + fuel) value quote mode r =
        readLoop crates fuel (value ++ cs) quote mode r' ∧ r.Same r' ∧
      r'.Ahead tail rest := by
  induction cs generalizing value r with
  | nil =>
      refine ⟨r, ?_, IcsReader.Same.refl r, h⟩
      rw [List.append_nil, List.length_nil, Nat.zero_add]
  | cons ch cs ih =>
      rcases readRound_ordinary hwidths (hcs ch List.mem_cons_self) h with
        ⟨r1, hround, hsame, hahead⟩
      rcases ih (fun c hc => hcs c (List.mem_cons_of_mem _ hc)) (value ++ [ch])
        hahead with ⟨r2, hloop, hsame', hahead'⟩
      refine ⟨r2, ?_, hsame.trans hsame', hahead'⟩
      rw [List.length_cons, Nat.succ_add, readLoop,
        IcsReader.peek_of_ahead hwidths h]
      dsimp only
      rw [hround]
      dsimp only
      rw [hloop, List.append_assoc, List.singleton_append]

theorem readLoop_quoted {span : Span} {cs : List Char}
    (hcs : forall ch, ch ∈ cs -> Ordinary (Mode.quoted span) ch)
    {rest : List Char} {r : IcsReader}
    (h : r.Ahead tail (cs ++ '"' :: rest)) :
    exists r', readLoop crates r.fuel [] true (Mode.quoted span) r =
        (some ⟨cs, true⟩, r') ∧ r.Same r' ∧ r'.Ahead tail rest := by
  rcases fuel_eq h with ⟨fuel, hfuel⟩
  rcases readLoop_ordinary hwidths hcs (fuel + 1) [] h with
    ⟨r1, hloop, hsame, hahead⟩
  rcases IcsReader.char_of_ahead hwidths hahead with
    ⟨r2, hchar, hsame', hahead'⟩
  refine ⟨r2, ?_, hsame.trans hsame', hahead'⟩
  rw [hfuel, hloop, readLoop,
    IcsReader.peek_of_ahead hwidths hahead]
  dsimp only [readRound]
  rw [if_pos rfl, hchar]
  rfl

theorem readLoop_plain {cs : List Char}
    (hcs : forall ch, ch ∈ cs -> Ordinary Mode.plain ch) {rest : List Char}
    {r : IcsReader} (h : r.Ahead tail (cs ++ ':' :: rest)) :
    exists r', readLoop crates r.fuel [] false Mode.plain r =
        (some ⟨cs, false⟩, r') ∧ r.Same r' ∧ r'.Ahead tail (':' :: rest) := by
  rcases fuel_eq h with ⟨fuel, hfuel⟩
  rcases readLoop_ordinary hwidths hcs (fuel + 1) [] h with
    ⟨r1, hloop, hsame, hahead⟩
  refine ⟨r1, ?_, hsame, hahead⟩
  rw [hfuel, hloop, readLoop,
    IcsReader.peek_of_ahead hwidths hahead]
  dsimp only [readRound]
  rw [if_pos (Or.inr (Or.inl rfl))]
  rfl

end Reading

theorem eqIgnoreAsciiCase_quote {ch : Char} (h : ch ≠ '"') :
    IcsReader.eqIgnoreAsciiCase ch '"' = false := by
  refine decide_eq_false ?_
  intro heq
  have hself : '"'.toLower = '"' := by decide
  rw [hself] at heq
  unfold Char.toLower at heq
  split at heq
  · rename_i hupper
    have hlow := UInt32.le_iff_toNat_le.mp hupper.left
    have hhigh := UInt32.le_iff_toNat_le.mp hupper.right
    have hnat := congrArg (fun c : Char => c.val.toNat) heq
    dsimp only at hnat
    rw [UInt32.toNat_add] at hnat
    have hquote : '"'.val.toNat = 34 := by decide
    have hshift : ('a'.val - 'A'.val).toNat = 32 := by decide
    have hA : 'A'.val.toNat = 65 := by decide
    have hZ : 'Z'.val.toNat = 90 := by decide
    omega
  · exact h heq

/-- The value as it is written. -/
def written (v : ParamValue) : List Char :=
  if v.quote then '"' :: (v.value ++ ['"']) else v.value

theorem write_eq (v : ParamValue) (w : IcsWriter) :
    v.write w = w.raw v.written := by
  unfold write written
  split <;> simp

/-- A value as the constructors make it. -/
structure Made (v : ParamValue) : Prop where
  legal : forall ch, ch ∈ v.value -> isIllegal ch = false
  quote : v.quote = v.value.any isSeparator

theorem Made.unbroken {v : ParamValue} (hv : Made v) :
    forall c, c ∈ v.written ++ [':'] -> c ≠ '\r' ∧ c ≠ '\n' := by
  intro c hc
  have hvalue : c ∈ v.value -> c ≠ '\r' ∧ c ≠ '\n' := by
    intro hmem
    have hlegal := hv.legal c hmem
    constructor <;> rintro rfl <;> cases hlegal
  rcases List.mem_append.mp hc with hc | hc
  · unfold written at hc
    split at hc
    · rcases List.mem_cons.mp hc with rfl | hc
      · decide
      · rcases List.mem_append.mp hc with hc | hc
        · exact hvalue hc
        · cases List.mem_singleton.mp hc
          decide
    · exact hvalue hc
  · cases List.mem_singleton.mp hc
    decide

theorem ahead_written {v : ParamValue} (hv : Made v) {w : IcsWriter}
    {tail : List UInt8} {r : IcsReader}
    (hsrc : r.src = octets ((v.write w).raw [':']).finish ++ tail)
    (hpos : r.pos.byte = (octets w.finish).length) :
    r.Ahead tail (v.written ++ [':']) := by
  have hunindented : IcsWriterBuffer.Unindented (v.written ++ [':']) :=
    (IcsWriterBuffer.unindented_line
      (fun h => (hv.unbroken _ h).right rfl)).left_of_append
  have htail : (v.written ++ [':']).getLast? = some '\n' -> ¬ Blank tail := by
    intro h
    rw [List.getLast?_concat] at h
    cases h
  rcases IcsWriterBuffer.folded_writeStr
    (fun h => (hv.unbroken _ h).left rfl) hunindented htail w.buffer with
    ⟨added, hout, hfolded⟩
  have hfinish : ((v.write w).raw [':']).finish = w.finish ++ added := by
    rw [write_eq, IcsWriter.raw_raw]
    exact hout
  rw [hfinish, octets_append, List.append_assoc] at hsrc
  exact ⟨_, ⟨_, hsrc, hpos⟩, hfolded⟩

theorem read_written {crates : Crates} (hwidths : crates.Widths) {v : ParamValue}
    (hv : Made v) (hslash : '\\' ∉ v.value) {tail : List UInt8} {r : IcsReader}
    (h : r.Ahead tail (v.written ++ [':'])) :
    exists r', read crates r = (some v, r') ∧ r.Same r' ∧ r'.Ahead tail [':'] := by
  have hordinary (mode : Mode)
      (hplain : mode = Mode.plain -> v.value.any isSeparator = false) :
      forall ch, ch ∈ v.value -> Ordinary mode ch := by
    intro ch hch
    refine ⟨hv.legal ch hch, fun heq => hslash (heq ▸ hch), ?_⟩
    intro hmode
    exact Bool.eq_false_iff.mpr
      (List.any_eq_false.mp (hplain hmode) ch hch)
  rcases v with ⟨value, quote⟩
  unfold written at h
  unfold read IcsReader.spanned
  cases quote with
  | true =>
      rw [if_pos rfl, List.cons_append, List.append_assoc] at h
      have hself : IcsReader.eqIgnoreAsciiCase '"' '"' = true := by decide
      rcases IcsReader.tryEat_of_ahead hwidths h hself with
        ⟨r1, heat, hsame, hahead⟩
      rw [heat]
      dsimp only
      rcases readLoop_quoted hwidths
        (hordinary (Mode.quoted ⟨r.pos.here, r1.pos.prev⟩)
          (fun hmode => Mode.noConfusion hmode)) hahead with
        ⟨r2, hloop, hsame', hahead'⟩
      exact ⟨r2, hloop, hsame.trans hsame', hahead'⟩
  | false =>
      rw [if_neg Bool.false_ne_true] at h
      have hplain := hordinary Mode.plain (fun _ => hv.quote.symm)
      have heat : r.tryEat crates '"' = (none, r) := by
        cases value with
        | nil => exact IcsReader.tryEat_other hwidths h (by decide)
        | cons ch rest =>
            have hquote := (isControl_of_legal
              (hplain ch List.mem_cons_self).legal).right
            exact IcsReader.tryEat_other hwidths h
              (eqIgnoreAsciiCase_quote hquote)
      rw [heat]
      exact readLoop_plain hwidths hplain h

/--
Written after anything, and followed by a colon and anything: the same string
is read back without a message, and the next character is the colon.
-/
def RoundTrips (crates : Crates) (v : ParamValue) : Prop :=
  forall (w : IcsWriter) (tail : List UInt8) (r : IcsReader),
    r.src = octets ((v.write w).raw [':']).finish ++ tail ->
    r.pos.byte = (octets w.finish).length ->
    exists v' r' r'',
      read crates r = (some v', r') ∧ v'.asStr = v.asStr ∧ r'.msgs = r.msgs ∧
      r'.char crates = (some ':', r'') ∧
      r''.pos.byte = (octets ((v.write w).raw [':']).finish).length

theorem roundTrips_of_made {crates : Crates} (hwidths : crates.Widths)
    {v : ParamValue} (hv : Made v) (hslash : '\\' ∉ v.value) :
    RoundTrips crates v := by
  intro w tail r hsrc hpos
  rcases read_written hwidths hv hslash (ahead_written hv hsrc hpos) with
    ⟨r', hread, hsame, hahead⟩
  rcases IcsReader.char_of_ahead hwidths hahead with
    ⟨r'', hchar, hsame', hahead'⟩
  exact ⟨v, r', r'', hread, rfl, hsame.msgs, hchar,
    hahead'.at_tail.byte_eq ((hsame.trans hsame').src.trans hsrc)⟩

theorem isIllegal_of_isSeparator {ch : Char} (h : isSeparator ch = true) :
    isIllegal ch = false := by
  unfold isSeparator at h
  rcases Bool.or_eq_true_iff.mp h with h | h
  · rcases Bool.or_eq_true_iff.mp h with h | h
    · rw [beq_iff_eq.mp h]
      decide
    · rw [beq_iff_eq.mp h]
      decide
  · rw [beq_iff_eq.mp h]
    decide

theorem made_new (s : List Char) : Made (new s) where
  legal := by
    intro ch hch
    exact (Bool.not_eq_true' _).mp (List.mem_filter.mp hch).right
  quote := by
    show s.any isSeparator = (s.filter _).any isSeparator
    rw [List.any_filter]
    congr 1
    funext ch
    cases hseparator : isSeparator ch with
    | false => exact (Bool.and_false _).symm
    | true => rw [isIllegal_of_isSeparator hseparator, Bool.and_true, Bool.not_false]

theorem checkChars_eq {idx : Nat} {s cs : List Char}
    (h : checkChars idx s = Except.ok cs) :
    cs = s.filter (fun ch => !isIllegal ch) := by
  induction s generalizing idx cs with
  | nil =>
      cases h
      rfl
  | cons ch rest ih =>
      rw [checkChars] at h
      split at h
      · cases h
      · rename_i hlegal
        cases hrest : checkChars (idx + ch.utf8Size) rest with
        | error violation =>
            rw [hrest] at h
            cases h
        | ok cs' =>
            rw [hrest] at h
            cases h
            rw [List.filter_cons_of_pos (by rw [Bool.eq_false_iff.mpr hlegal]; rfl),
              <- ih hrest]

theorem newChecked_eq {s : List Char} {v : ParamValue}
    (h : newChecked s = Except.ok v) : v = new s := by
  unfold newChecked at h
  cases hcheck : checkChars 0 s with
  | error violation =>
      rw [hcheck] at h
      cases h
  | ok cs =>
      rw [hcheck] at h
      cases h
      rw [checkChars_eq hcheck]
      rfl

theorem mem_new {s : List Char} : '\\' ∈ (new s).value ↔ '\\' ∈ s := by
  unfold new
  rw [List.mem_filter]
  exact ⟨fun h => h.left, fun h => ⟨h, by decide⟩⟩

/--
A string survives as the value of a parameter exactly if it has no backslash.
-/
theorem paramValue_survives_iff {crates : Crates} (hwidths : crates.Widths)
    (s : List Char) :
    (RoundTrips crates (new s) ∧
      forall v, newChecked s = Except.ok v -> RoundTrips crates v) ↔
    '\\' ∉ s := by
  constructor
  · rintro ⟨htrips, _⟩ hmem
    rcases htrips IcsWriter.default [] (IcsReader.new _) (List.append_nil _).symm
      rfl with ⟨v, r, _, hread, heq, _⟩
    have hvalue : v.value = (new s).value := heq
    exact read_value hread (hvalue ▸ mem_new.mpr hmem)
  · intro hslash
    have hnew := roundTrips_of_made hwidths (made_new s)
      (fun h => hslash (mem_new.mp h))
    refine ⟨hnew, ?_⟩
    intro v hv
    rw [newChecked_eq hv]
    exact hnew

theorem plainName_survives :
    RoundTrips asciiCrates (new ['a', ',', ' ', 'b']) ∧ '\\' ∉ ['a', ',', ' ', 'b'] :=
  have hslash : '\\' ∉ ['a', ',', ' ', 'b'] := by decide
  ⟨((paramValue_survives_iff asciiCrates_widths _).mpr hslash).left, hslash⟩

/-- The backslash and the character after it are lost, and an error is reported. -/
theorem backslash_lost :
    ((new ['a', '\\', 'b']).asStr = ['a', '\\', 'b'] ∧
      (read asciiCrates (IcsReader.new
        (octets (((new ['a', '\\', 'b']).write IcsWriter.default).raw
          [':']).finish))).1 = some ⟨['a'], false⟩) ∧
    ¬ (RoundTrips asciiCrates (new ['a', '\\', 'b']) ∧
      forall v, newChecked ['a', '\\', 'b'] = Except.ok v ->
        RoundTrips asciiCrates v) := by
  refine ⟨⟨by decide, by decide⟩, ?_⟩
  rintro ⟨htrips, _⟩
  rcases htrips IcsWriter.default [] (IcsReader.new _) (List.append_nil _).symm
    rfl with ⟨v, r, _, hread, heq, _⟩
  have hvalue : v.value = ['a', '\\', 'b'] := heq
  exact read_value hread (by rw [hvalue]; decide)

end ParamValue

end Ical
end MailClient
