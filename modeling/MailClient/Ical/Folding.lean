import MailClient.Ical.Reader
import MailClient.Ical.Writer

/-!
# Written lines are read back

Whatever is written in whatever pieces, the lines are short and whole, and the
reader gives back the text.
-/

namespace MailClient
namespace Ical

open Foundation IcsWriterBuffer

namespace IcsReader

/-- The characters that `char` gives until there are no more. -/
inductive Yields (crates : Crates) : IcsReader -> List Char -> IcsReader -> Prop
    where
  | done {r r' : IcsReader} (h : r.char crates = (none, r')) : Yields crates r [] r'
  | more {r r' r'' : IcsReader} {ch : Char} {cs : List Char}
      (h : r.char crates = (some ch, r')) (hrest : Yields crates r' cs r'') :
      Yields crates r (ch :: cs) r''

theorem yields_of_ahead {crates : Crates} (hwidths : crates.Widths) {cs : List Char}
    {r : IcsReader} (h : r.Ahead [] cs) :
    exists r', Yields crates r cs r' ∧ r.Same r' := by
  induction cs generalizing r with
  | nil =>
      rcases char_end crates h.at_tail with ⟨r', hchar, hr'⟩
      exact ⟨r', Yields.done hchar, hr'.left⟩
  | cons ch rest ih =>
      rcases char_of_ahead hwidths h with ⟨r', hchar, hsame, hahead⟩
      rcases ih hahead with ⟨r'', hyields, hsame'⟩
      exact ⟨r'', Yields.more hchar hyields, hsame.trans hsame'⟩

end IcsReader

/--
Any sequence of raw writes without carriage returns: every line between two
line breaks has at most 75 octets and consists of whole characters, and if no
line break was written before a blank, the characters are read back, with no
message.
-/
theorem writes_fold_and_unfold {crates : Crates} (hwidths : crates.Widths)
    {ss : List (List Char)} (hcr : forall s, s ∈ ss -> '\r' ∉ s) :
    (forall line, line ∈ crlfLines (octets (ss.foldl writeStr default).out) ->
      line.length ≤ 75 ∧ exists cs, line = octets cs) ∧
    (Unindented ss.flatten ->
      exists r, (IcsReader.new
          (octets (ss.foldl writeStr default).out)).Yields crates ss.flatten r ∧
        r.msgs = []) := by
  have hcrs : '\r' ∉ ss.flatten := by
    intro hmem
    rcases List.mem_flatten.mp hmem with ⟨s, hs, hc⟩
    exact hcr s hs hc
  rw [foldl_writeStr]
  constructor
  · intro line hline
    rcases lines_default.writeStr hcrs with ⟨ls, last, hlines⟩
    rw [hlines.crlfLines] at hline
    rcases List.mem_map.mp hline with ⟨l, hl, rfl⟩
    exact ⟨(hlines.next hl).short, l, rfl⟩
  · intro hunindented
    rcases folded_writeStr hcrs hunindented (fun _ => not_blank_nil) default with
      ⟨added, hout, hfolded⟩
    rw [List.append_nil] at hfolded
    rw [hout]
    rcases IcsReader.yields_of_ahead hwidths
      ⟨octets added, IcsReader.at_new _, hfolded⟩ with ⟨r, hyields, hsame⟩
    exact ⟨r, hyields, hsame.msgs⟩

/-- The second piece fills up the line, and its line break is no fold. -/
theorem longLine_folds :
    (forall s, s ∈ [['A', ':'], List.replicate 80 'b' ++ ['\n', 'é']] ->
      '\r' ∉ s) ∧
    Unindented [['A', ':'], List.replicate 80 'b' ++ ['\n', 'é']].flatten ∧
    exists r, (IcsReader.new (octets
        ([['A', ':'], List.replicate 80 'b' ++ ['\n', 'é']].foldl writeStr
          default).out)).Yields asciiCrates
        (['A', ':'] ++ (List.replicate 80 'b' ++ ['\n', 'é'])) r ∧
      r.msgs = [] := by
  have hcr : forall s,
      s ∈ [['A', ':'], List.replicate 80 'b' ++ ['\n', 'é']] -> '\r' ∉ s := by
    decide
  have hunindented :
      Unindented [['A', ':'], List.replicate 80 'b' ++ ['\n', 'é']].flatten := by
    decide +kernel
  exact ⟨hcr, hunindented,
    (writes_fold_and_unfold asciiCrates_widths hcr).right hunindented⟩

end Ical
end MailClient
