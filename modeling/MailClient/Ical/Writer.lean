import MailClient.Foundation.Folding

/-!
# The writer of calendar files

All output goes through `IcsWriterBuffer`, which counts the octets of the
current line and folds it before it gets too long.  What is written is a folded
form of the text, and no line of it has more than 75 octets.
-/

namespace MailClient
namespace Ical

open Foundation

structure IcsWriterBuffer where
  out : List Char
  lineLen : Nat
deriving DecidableEq

namespace IcsWriterBuffer

def default : IcsWriterBuffer where
  out := []
  lineLen := 0

/-- A line with no room for the character is folded before it. -/
def fold (b : IcsWriterBuffer) (ch : Char) : IcsWriterBuffer :=
  if b.lineLen + ch.utf8Size > 75 then
    { out := b.out ++ ['\r', '\n', ' '], lineLen := 1 }
  else
    b

def push (b : IcsWriterBuffer) (ch : Char) : IcsWriterBuffer where
  out := b.out ++ [ch]
  lineLen := b.lineLen + ch.utf8Size

def writeChar (b : IcsWriterBuffer) (ch : Char) : IcsWriterBuffer :=
  if ch = '\n' then
    { out := b.out ++ ['\r', '\n'], lineLen := 0 }
  else
    (b.fold ch).push ch

def writeStr (b : IcsWriterBuffer) (s : List Char) : IcsWriterBuffer :=
  s.foldl writeChar b

@[simp] theorem writeStr_cons (b : IcsWriterBuffer) (ch : Char)
    (s : List Char) : b.writeStr (ch :: s) = (b.writeChar ch).writeStr s :=
  rfl

theorem writeStr_append (b : IcsWriterBuffer) (s t : List Char) :
    b.writeStr (s ++ t) = (b.writeStr s).writeStr t :=
  List.foldl_append

theorem foldl_writeStr (b : IcsWriterBuffer) (ss : List (List Char)) :
    ss.foldl writeStr b = b.writeStr ss.flatten := by
  induction ss generalizing b with
  | nil => rfl
  | cons s rest ih =>
      rw [List.foldl_cons, ih, List.flatten_cons, writeStr_append]

theorem writeChar_newline (b : IcsWriterBuffer) :
    b.writeChar '\n' = { out := b.out ++ ['\r', '\n'], lineLen := 0 } :=
  rfl

theorem writeChar_out (b : IcsWriterBuffer) {ch : Char} (hch : ch ≠ '\n') :
    (b.lineLen + ch.utf8Size ≤ 75 ∧
      b.writeChar ch =
        { out := b.out ++ [ch], lineLen := b.lineLen + ch.utf8Size }) ∨
    (75 < b.lineLen + ch.utf8Size ∧
      b.writeChar ch =
        { out := b.out ++ ['\r', '\n', ' '] ++ [ch],
          lineLen := 1 + ch.utf8Size }) := by
  unfold writeChar fold
  rw [if_neg hch]
  split
  · rename_i hlong
    exact Or.inr ⟨hlong, rfl⟩
  · rename_i hshort
    exact Or.inl ⟨Nat.le_of_not_lt hshort, rfl⟩

end IcsWriterBuffer

/-!
# Writing
-/

structure IcsWriter where
  buffer : IcsWriterBuffer
deriving DecidableEq

namespace IcsWriter

def default : IcsWriter where
  buffer := IcsWriterBuffer.default

/-- What has been written, as it is stored and sent. -/
def finish (w : IcsWriter) : List Char :=
  w.buffer.out

def raw (w : IcsWriter) (value : List Char) : IcsWriter where
  buffer := w.buffer.writeStr value

/-- `NAME`, what the property writes of itself, and the end of the line. -/
def prop (w : IcsWriter) (name : List Char)
    (write : IcsWriter -> IcsWriter) : IcsWriter :=
  (write (w.raw name)).raw ['\n']

def isNameValid (name : List Char) : Bool :=
  !name.isEmpty && name.all (fun ch => ch.isUpper || ch == '-')

@[simp] theorem raw_raw (w : IcsWriter) (s t : List Char) :
    (w.raw s).raw t = w.raw (s ++ t) := by
  unfold raw
  rw [IcsWriterBuffer.writeStr_append]

end IcsWriter

/-!
# What is written is a folded form of the text
-/

namespace IcsWriterBuffer

/-- No line break is directly followed by a blank. -/
def Unindented (s : List Char) : Prop :=
  s.IsChain (fun c d => c = '\n' -> d ≠ ' ' ∧ d ≠ '\t')

instance (s : List Char) : Decidable (Unindented s) := by
  unfold Unindented
  infer_instance

/--
What comes out for the text after the buffer's output.  If the text ends with a
line break, no blank may follow it.
-/
theorem folded_writeStr {s : List Char} {tail : List UInt8} (hcr : '\r' ∉ s)
    (hlines : Unindented s)
    (htail : s.getLast? = some '\n' -> ¬ Blank tail) (b : IcsWriterBuffer) :
    exists added, (b.writeStr s).out = b.out ++ added ∧
      Folded tail s (octets added ++ tail) := by
  induction s generalizing b with
  | nil => exact ⟨[], (List.append_nil _).symm, Folded.done⟩
  | cons ch rest ih =>
      have hcrRest : '\r' ∉ rest := fun h => hcr (List.mem_cons_of_mem _ h)
      have htailRest : rest.getLast? = some '\n' -> ¬ Blank tail := by
        intro h
        apply htail
        rw [List.getLast?_cons, h]
        rfl
      have hwrite := ih hcrRest hlines.tail htailRest (b.writeChar ch)
      rcases hwrite with ⟨added, hout, hfolded⟩
      rw [writeStr_cons, hout]
      by_cases hnewline : ch = '\n'
      · subst hnewline
        have hnext : ¬ Blank (octets added ++ tail) := by
          apply hfolded.not_blank
          · rintro rfl
            exact htail rfl
          · intro c hc
            exact (List.isChain_cons.mp hlines).left c hc rfl
        rw [writeChar_newline, List.append_assoc]
        exact ⟨_, rfl, Folded.line hnext hfolded⟩
      · have hch : ch ≠ '\r' ∧ ch ≠ '\n' :=
          ⟨fun h => hcr (h ▸ List.mem_cons_self), hnewline⟩
        rcases writeChar_out b hnewline with ⟨_, hnext⟩ | ⟨_, hnext⟩
        · rw [hnext, List.append_assoc]
          refine ⟨_, rfl, ?_⟩
          rw [octets_append, octets_singleton, List.append_assoc]
          exact Folded.char hch hfolded
        · rw [hnext, List.append_assoc, List.append_assoc]
          refine ⟨_, rfl, ?_⟩
          rw [octets_append, octets_append, octets_singleton,
            List.append_assoc, List.append_assoc]
          exact Folded.fold hch hfolded

theorem unindented_line {s : List Char} (hs : '\n' ∉ s) :
    Unindented (s ++ ['\n']) := by
  induction s with
  | nil => exact List.isChain_singleton _
  | cons ch rest ih =>
      refine List.isChain_cons.mpr ⟨?_, ih (fun h => hs (List.mem_cons_of_mem _ h))⟩
      intro _ _ hch
      exact absurd (hch ▸ List.mem_cons_self) hs

/-!
# The lines
-/

/-- A line as it may be sent. -/
structure Line (l : List Char) : Prop where
  short : (octets l).length ≤ 75
  unbroken : forall c, c ∈ l -> c ≠ '\r' ∧ c ≠ '\n'

/-- The output is made of lines, and the last has `lineLen` octets. -/
structure Lines (b : IcsWriterBuffer) (ls : List (List Char))
    (last : List Char) : Prop where
  out : b.out = ls.flatMap (· ++ crlf) ++ last
  closed : forall l, l ∈ ls -> Line l
  current : Line last
  lineLen : b.lineLen = (octets last).length

theorem lines_default : Lines default [] [] where
  out := rfl
  closed := fun _ hl => absurd hl List.not_mem_nil
  current := ⟨Nat.zero_le _, fun _ hc => absurd hc List.not_mem_nil⟩
  lineLen := rfl

theorem Line.push {l : List Char} (h : Line l) {ch : Char}
    (hch : ch ≠ '\r' ∧ ch ≠ '\n')
    (hshort : (octets l).length + ch.utf8Size ≤ 75) : Line (l ++ [ch]) where
  short := by
    rw [octets_append, octets_singleton, List.length_append,
      String.length_utf8EncodeChar]
    exact hshort
  unbroken := by
    intro c hc
    rcases List.mem_append.mp hc with hc | hc
    · exact h.unbroken c hc
    · exact List.mem_singleton.mp hc ▸ hch

theorem Lines.next {b : IcsWriterBuffer} {ls : List (List Char)}
    {last : List Char} (h : Lines b ls last) {l : List Char}
    (hl : l ∈ ls ++ [last]) : Line l := by
  rcases List.mem_append.mp hl with hl | hl
  · exact h.closed l hl
  · exact List.mem_singleton.mp hl ▸ h.current

theorem Lines.writeChar {b : IcsWriterBuffer} {ls : List (List Char)}
    {last : List Char} (h : Lines b ls last) {ch : Char} (hcr : ch ≠ '\r') :
    exists ls' last', Lines (b.writeChar ch) ls' last' := by
  by_cases hnewline : ch = '\n'
  · subst hnewline
    refine ⟨ls ++ [last], [], ?_, fun l hl => h.next hl, lines_default.current, rfl⟩
    rw [writeChar_newline, h.out]
    simp [crlf]
  · have hlen (l : List Char) : (octets (l ++ [ch])).length =
        (octets l).length + ch.utf8Size := by
      rw [octets_append, octets_singleton, List.length_append,
        String.length_utf8EncodeChar]
    rcases writeChar_out b hnewline with ⟨hshort, hnext⟩ | ⟨_, hnext⟩
    · rw [h.lineLen] at hshort
      refine ⟨ls, last ++ [ch], ?_, h.closed,
        h.current.push ⟨hcr, hnewline⟩ hshort, ?_⟩
      · rw [hnext, h.out, List.append_assoc]
      · rw [hnext, h.lineLen, hlen]
    · have hblank : Line [' '] :=
        ⟨by decide, fun c hc => List.mem_singleton.mp hc ▸ by decide⟩
      have hfour := ch.utf8Size_le_four
      refine ⟨ls ++ [last], [' '] ++ [ch], ?_, fun l hl => h.next hl,
        hblank.push ⟨hcr, hnewline⟩ ?_, ?_⟩
      · rw [hnext, h.out]
        simp [crlf]
      · have hone : (octets [' ']).length = 1 := by decide
        omega
      · rw [hnext, hlen]
        rfl

theorem Lines.writeStr {s : List Char} (hcr : '\r' ∉ s) {b : IcsWriterBuffer}
    {ls : List (List Char)} {last : List Char} (h : Lines b ls last) :
    exists ls' last', Lines (b.writeStr s) ls' last' := by
  induction s generalizing b ls last with
  | nil => exact ⟨ls, last, h⟩
  | cons ch rest ih =>
      rcases h.writeChar (fun hch => hcr (hch ▸ List.mem_cons_self)) with
        ⟨ls', last', hnext⟩
      exact ih (fun hmem => hcr (List.mem_cons_of_mem _ hmem)) hnext

theorem Lines.crlfLines {b : IcsWriterBuffer} {ls : List (List Char)}
    {last : List Char} (h : Lines b ls last) :
    Foundation.crlfLines (octets b.out) = (ls ++ [last]).map octets := by
  rw [h.out, crlfLines_octets (fun l hl => (h.closed l hl).unbroken)
    h.current.unbroken, List.map_append, List.map_singleton]

end IcsWriterBuffer

end Ical
end MailClient
