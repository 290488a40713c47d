import MailClient.Foundation.Utf8
import MailClient.Ical.Folding

/-!
# Malformed characters

`char` takes as many octets as the first one announces before it looks at the
others.  What follows a character that breaks off is lost, be it the end of the
line.
-/

namespace MailClient
namespace Ical

open Foundation

/-- Without carriage returns and folds. -/
def unfolded : List UInt8 -> List UInt8
  | [] => []
  | c0 :: rest =>
      if c0 = 13 then
        unfolded rest
      else if c0 = 10 then
        match rest with
        | c1 :: rest =>
            if c1 = 32 ∨ c1 = 9 then unfolded rest
            else 10 :: unfolded (c1 :: rest)
        | [] => [10]
      else
        c0 :: unfolded rest

/--
The text can be read to the end: it is made of characters and of broken pieces.
A broken piece is an octet that begins no character, with the further octets
that it announces or all that are left; at none of these a character begins.
-/
inductive Harmless (crates : Crates) : List UInt8 -> Prop where
  | done : Harmless crates []
  | char {c : Char} {rest : List UInt8} (h : Harmless crates rest) :
      Harmless crates (String.utf8EncodeChar c ++ rest)
  | broken {b : UInt8} {bs : List UInt8} (hb : leading (b :: bs) = none)
      (hbs : forall i, i < (crates.getWidth b : Nat) - 1 ->
        leading (bs.drop i) = none)
      (h : Harmless crates (bs.drop ((crates.getWidth b : Nat) - 1))) :
      Harmless crates (b :: bs)

/-- What `char` makes of the unfolded octets. -/
inductive Taken (crates : Crates) : List UInt8 -> List Char -> Prop where
  | done : Taken crates [] []
  | char {c : Char} {rest : List UInt8} {cs : List Char}
      (h : Taken crates rest cs) :
      Taken crates (String.utf8EncodeChar c ++ rest) (c :: cs)
  | broken {b : UInt8} {bs : List UInt8} {cs : List Char}
      (hb : leading (b :: bs) = none)
      (h : Taken crates (bs.drop ((crates.getWidth b : Nat) - 1)) cs) :
      Taken crates (b :: bs) cs

variable {crates : Crates}

/-!
# What is lost
-/

theorem harmless_append {c : Char} {rest : List UInt8} :
    Harmless crates (String.utf8EncodeChar c ++ rest) ↔
      Harmless crates rest := by
  constructor
  · intro h
    generalize hall : String.utf8EncodeChar c ++ rest = all at h
    have hleading := leading_append c rest
    rw [hall] at hleading
    cases h with
    | done =>
        rw [List.append_eq_nil_iff] at hall
        exact absurd hall.left String.utf8EncodeChar_ne_nil
    | @char c' rest' h =>
        rw [leading_append] at hleading
        cases hleading
        exact List.append_cancel_left hall ▸ h
    | broken hb _ _ =>
        rw [hb] at hleading
        cases hleading
  · exact Harmless.char

theorem harmless_broken {b : UInt8} {bs : List UInt8}
    (hb : leading (b :: bs) = none) :
    Harmless crates (b :: bs) ↔
      (forall i, i < (crates.getWidth b : Nat) - 1 ->
        leading (bs.drop i) = none) ∧
      Harmless crates (bs.drop ((crates.getWidth b : Nat) - 1)) := by
  constructor
  · intro h
    generalize hall : b :: bs = all at h
    cases h with
    | done => cases hall
    | @char c rest h =>
        rw [hall, leading_append] at hb
        cases hb
    | broken _ hbs h =>
        cases hall
        exact ⟨hbs, h⟩
  · intro h
    exact Harmless.broken hb h.left h.right

theorem Taken.recovered_iff {l : List UInt8} {cs : List Char}
    (h : Taken crates l cs) :
    cs.length ≤ (recovered l).length ∧
      (cs = recovered l ↔ Harmless crates l) := by
  induction h with
  | done => exact ⟨le_rfl, iff_of_true rfl Harmless.done⟩
  | @char c rest cs _ ih =>
      rw [recovered_append, harmless_append, List.cons.injEq,
        and_iff_right rfl]
      exact ⟨Nat.succ_le_succ ih.left, ih.right⟩
  | @broken b bs cs hb _ ih =>
      rw [recovered_of_leading_none hb, harmless_broken hb]
      by_cases hbs : forall i, i < (crates.getWidth b : Nat) - 1 ->
          leading (bs.drop i) = none
      · rw [recovered_drop hbs, and_iff_right hbs]
        exact ih
      · rcases not_forall.mp hbs with ⟨i, hi⟩
        rcases Classical.not_imp.mp hi with ⟨hi, hnone⟩
        have hless := recovered_drop_length_lt hi hnone
        refine ⟨le_trans ih.left (Nat.le_of_lt hless), iff_of_false ?_ ?_⟩
        · intro heq
          rw [<- heq] at hless
          exact absurd ih.left (Nat.not_le_of_lt hless)
        · intro h
          exact hbs h.left

/-!
# Reading octets of any kind
-/

namespace IcsReader

theorem scan_return (rest : List UInt8) (p : IcsReaderPosition) :
    scan (13 :: rest) p = scan rest { p with byte := p.byte + 1 } ∧
      unfolded (13 :: rest) = unfolded rest := by
  rw [scan.eq_def, unfolded.eq_def]
  exact ⟨rfl, rfl⟩

theorem scan_blank {c1 : UInt8} (hc : c1 = 32 ∨ c1 = 9) (rest : List UInt8)
    (p : IcsReaderPosition) :
    scan (10 :: c1 :: rest) p =
        scan rest
          { p with byte := p.byte + 2, line := wrap (p.line + 1), char := 2 } ∧
      unfolded (10 :: c1 :: rest) = unfolded rest := by
  constructor
  · show (if c1 = 32 ∨ c1 = 9 then _ else _) = _
    exact if_pos hc
  · show (if c1 = 32 ∨ c1 = 9 then _ else _) = _
    exact if_pos hc

theorem scan_newline {c1 : UInt8} (hc : ¬ (c1 = 32 ∨ c1 = 9))
    (rest : List UInt8) (p : IcsReaderPosition) :
    scan (10 :: c1 :: rest) p =
        (some 10,
          { p with byte := p.byte + 1, line := wrap (p.line + 1), char := 1 }) ∧
      unfolded (10 :: c1 :: rest) = 10 :: unfolded (c1 :: rest) := by
  constructor
  · show (if c1 = 32 ∨ c1 = 9 then _ else _) = _
    exact if_neg hc
  · show (if c1 = 32 ∨ c1 = 9 then _ else _) = _
    exact if_neg hc

theorem unfolded_octet {b : UInt8} (hb : b ≠ 13 ∧ b ≠ 10) (rest : List UInt8) :
    unfolded (b :: rest) = b :: unfolded rest := by
  rw [unfolded.eq_def]
  dsimp only
  rw [if_neg hb.left, if_neg hb.right]

theorem scan_unfolded (bs : List UInt8) (p : IcsReaderPosition) :
    exists taken rest, bs = taken ++ rest ∧
      (scan bs p).1 = (unfolded bs).head? ∧
      unfolded rest = (unfolded bs).tail ∧
      (scan bs p).2.byte = p.byte + taken.length ∧
      ((scan bs p).1 = none -> rest = []) ∧
      ((scan bs p).1 ≠ none -> taken ≠ []) := by
  induction bs, p using scan.induct with
  | case1 p =>
      exact ⟨[], [], rfl, rfl, rfl, rfl, fun _ => rfl, fun h => absurd rfl h⟩
  | case2 rest p ih =>
      rcases ih with ⟨taken, rest', rfl, hhead, htail, hbyte, hnone, _⟩
      rw [(scan_return _ p).left, (scan_return _ p).right]
      refine ⟨13 :: taken, rest', rfl, hhead, htail, hbyte.trans ?_, hnone,
        fun _ => List.cons_ne_nil _ _⟩
      rw [List.length_cons, Nat.add_assoc, Nat.add_comm 1]
  | case3 p c1 rest hblank _ ih =>
      rcases ih with ⟨taken, rest', rfl, hhead, htail, hbyte, hnone, _⟩
      rw [(scan_blank hblank _ p).left, (scan_blank hblank _ p).right]
      refine ⟨10 :: c1 :: taken, rest', rfl, hhead, htail, hbyte.trans ?_, hnone,
        fun _ => List.cons_ne_nil _ _⟩
      rw [List.length_cons, List.length_cons, Nat.add_assoc, Nat.add_comm 2]
  | case4 p c1 rest hblank _ =>
      rw [(scan_newline hblank rest p).left, (scan_newline hblank rest p).right]
      exact ⟨[10], c1 :: rest, rfl, rfl, rfl, rfl, fun h => (nomatch h),
        fun _ => List.cons_ne_nil _ _⟩
  | case5 p _ =>
      exact ⟨[10], [], rfl, rfl, rfl, rfl, fun _ => rfl,
        fun _ => List.cons_ne_nil _ _⟩
  | case6 b rest p hcr hlf =>
      rw [scan_octet ⟨hcr, hlf⟩, unfolded_octet ⟨hcr, hlf⟩]
      exact ⟨[b], rest, rfl, rfl, rfl, rfl, fun h => (nomatch h),
        fun _ => List.cons_ne_nil _ _⟩

/-- The unfolded octets that are left, of at most `n` octets of the file. -/
def Left (r : IcsReader) (n : Nat) (l : List UInt8) : Prop :=
  exists bs, r.At bs ∧ bs.length ≤ n ∧ unfolded bs = l

theorem byte_at {r : IcsReader} {bs : List UInt8} (h : r.At bs) :
    exists r' taken rest, bs = taken ++ rest ∧
      r.byte = ((unfolded bs).head?, r') ∧ r'.At rest ∧
      unfolded rest = (unfolded bs).tail ∧
      (unfolded bs = [] -> rest = []) ∧ (unfolded bs ≠ [] -> taken ≠ []) := by
  rcases scan_unfolded bs
      { r.pos with prevLine := r.pos.line, prevChar := r.pos.char } with
    ⟨taken, rest, hbs, hhead, htail, hbyte, hnone, htaken⟩
  rw [hhead] at hnone htaken
  refine ⟨{ r with pos := (scan bs { r.pos with
    prevLine := r.pos.line, prevChar := r.pos.char }).2 }, taken, rest, hbs, ?_,
    ?_, htail, fun h => hnone (List.head?_eq_none_iff.mpr h),
    fun h => htaken (fun hnil => h (List.head?_eq_none_iff.mp hnil))⟩
  · unfold byte
    dsimp only
    rw [<- hhead, h.drop]
  · rw [hbs] at h
    exact (h.move_past taken hbyte).right

theorem Left.byte_some {r : IcsReader} {n : Nat} {b : UInt8} {l : List UInt8}
    (h : r.Left n (b :: l)) :
    exists r' n', n' < n ∧ r.byte = (some b, r') ∧ r'.Left n' l := by
  rcases h with ⟨bs, hat, hn, hl⟩
  rcases byte_at hat with ⟨r', taken, rest, hbs, hbyte, hat', htail, _, htaken⟩
  rw [hl, List.head?_cons] at hbyte
  rw [hl, List.tail_cons] at htail
  have hpos := List.length_pos_of_ne_nil
    (htaken (by rw [hl]; exact List.cons_ne_nil b l))
  rw [hbs, List.length_append] at hn
  exact ⟨r', rest.length, by omega, hbyte, rest, hat', le_rfl, htail⟩

theorem Left.byte_none {r : IcsReader} {n : Nat} (h : r.Left n []) :
    exists r', r.byte = (none, r') ∧ r'.Left 0 [] := by
  rcases h with ⟨bs, hat, _, hl⟩
  rcases byte_at hat with ⟨r', taken, rest, _, hbyte, hat', _, hnil, _⟩
  rw [hl, List.head?_nil] at hbyte
  rw [hnil hl] at hat'
  exact ⟨r', hbyte, [], hat', le_rfl, rfl⟩

theorem Left.bytes {r : IcsReader} {n : Nat} {l : List UInt8}
    (h : r.Left n l) (k : Nat) :
    exists r', r'.Left n (l.drop k) ∧
      bytes k r = (if k ≤ l.length then some (l.take k) else none, r') := by
  induction k generalizing r n l with
  | zero => exact ⟨r, h, rfl⟩
  | succ k ih =>
      cases l with
      | nil =>
          rcases h.byte_none with ⟨r', hbyte, hr'⟩
          rcases hr' with ⟨bs, hat, hle, hbs⟩
          refine ⟨r', ⟨bs, hat, le_trans hle (Nat.zero_le n), hbs⟩, ?_⟩
          rw [IcsReader.bytes, hbyte]
          rfl
      | cons b l =>
          rcases h.byte_some with ⟨r', n', hn, hbyte, hr'⟩
          rcases ih hr' with ⟨r'', hr'', hbytes⟩
          rcases hr'' with ⟨bs, hat, hle, hbs⟩
          refine ⟨r'', ⟨bs, hat, le_trans hle (Nat.le_of_lt hn), hbs⟩, ?_⟩
          rw [IcsReader.bytes, hbyte]
          dsimp only
          rw [hbytes, List.length_cons, List.take_succ_cons]
          by_cases hk : k ≤ l.length
          · rw [if_pos hk, if_pos (Nat.succ_le_succ hk)]
          · rw [if_neg hk, if_neg (fun h => hk (Nat.le_of_succ_le_succ h))]

theorem Left.warn {r : IcsReader} {n : Nat} {l : List UInt8} (h : r.Left n l)
    (span : Span) (body : String) : (r.warn span body).Left n l := by
  have halike := alike_msg r (some span) body ReadMsgKind.warning none
  rcases h with ⟨bs, ⟨before, hsrc, hbyte⟩, hle, hl⟩
  exact ⟨bs, ⟨before, halike.left.trans hsrc,
    (congrArg IcsReaderPosition.byte halike.right).trans hbyte⟩, hle, hl⟩

/-!
# Reading characters of any kind
-/

section Characters

variable (hwidths : crates.Widths)

include hwidths

theorem announced {c : Char} {b : UInt8} {l : List UInt8}
    (hoctets : String.utf8EncodeChar c = b :: l) :
    (crates.getWidth b : Nat) - 1 = l.length := by
  rw [hwidths c b l hoctets, <- String.length_utf8EncodeChar, hoctets]
  rfl

theorem octets_announced {c : Char} {b : UInt8} {l : List UInt8}
    (h : leading (b :: l) = some c) :
    (crates.getWidth b : Nat) - 1 ≤ l.length ∧
      String.utf8EncodeChar c = b :: l.take ((crates.getWidth b : Nat) - 1) := by
  rcases leading_eq_some h with ⟨rest, heq⟩
  cases hoctets : String.utf8EncodeChar c with
  | nil => exact absurd hoctets String.utf8EncodeChar_ne_nil
  | cons b' l' =>
      rw [hoctets, List.cons_append] at heq
      cases heq
      rw [announced hwidths hoctets, List.take_left, List.length_append]
      exact ⟨Nat.le_add_right _ _, rfl⟩

theorem decode_announced {b : UInt8} {l : List UInt8}
    (hk : (crates.getWidth b : Nat) - 1 ≤ l.length) :
    decode (b :: l.take ((crates.getWidth b : Nat) - 1)) = leading (b :: l) := by
  cases hleading : leading (b :: l) with
  | some c =>
      rw [<- (octets_announced hwidths hleading).right, decode_utf8EncodeChar]
  | none =>
      cases hdecode : decode (b :: l.take ((crates.getWidth b : Nat) - 1)) with
      | none => rfl
      | some c =>
          rcases leading_eq_some hdecode with ⟨rest, heq⟩
          cases hoctets : String.utf8EncodeChar c with
          | nil => exact absurd hoctets String.utf8EncodeChar_ne_nil
          | cons b' l' =>
              rw [hoctets, List.cons_append, List.cons_append,
                List.cons.injEq] at heq
              have hlength : (l.take ((crates.getWidth b : Nat) - 1)).length =
                  l'.length := by
                rw [List.length_take, Nat.min_eq_left hk, heq.left]
                exact announced hwidths hoctets
              have htake := List.append_inj_left heq.right hlength
              have hall : b :: l = String.utf8EncodeChar c ++
                  l.drop ((crates.getWidth b : Nat) - 1) := by
                rw [hoctets, List.cons_append, <- htake, List.take_append_drop,
                  heq.left]
              rw [hall, leading_append] at hleading
              cases hleading

theorem charLoop_taken {fuel n : Nat} {r : IcsReader} {l : List UInt8}
    (h : r.Left n l) (hfuel : n < fuel) :
    (exists r', charLoop crates fuel r = (none, r') ∧ Taken crates l []) ∨
      exists c r' n' l', charLoop crates fuel r = (some c, r') ∧ n' < n ∧
        r'.Left n' l' ∧
        forall cs, Taken crates l' cs -> Taken crates l (c :: cs) := by
  induction fuel generalizing n r l with
  | zero => exact absurd hfuel (Nat.not_lt_zero n)
  | succ fuel ih =>
      rw [charLoop]
      cases l with
      | nil =>
          rcases h.byte_none with ⟨r', hbyte, _⟩
          rw [hbyte]
          exact Or.inl ⟨r', rfl, Taken.done⟩
      | cons b l =>
          rcases h.byte_some with ⟨r1, n1, hn1, hbyte, hr1⟩
          rcases hr1.bytes ((crates.getWidth b : Nat) - 1) with
            ⟨r2, hr2, hbytes⟩
          rw [hbyte]
          dsimp only
          rw [hbytes]
          by_cases hk : (crates.getWidth b : Nat) - 1 ≤ l.length
          · rw [if_pos hk]
            dsimp only
            rw [decode_announced hwidths hk]
            cases hleading : leading (b :: l) with
            | some c =>
                right
                refine ⟨c, r2, n1, _, rfl, hn1, hr2, ?_⟩
                intro cs hcs
                have htaken := Taken.char (c := c) hcs
                rw [(octets_announced hwidths hleading).right,
                  List.cons_append, List.take_append_drop] at htaken
                exact htaken
            | none =>
                dsimp only
                rcases ih (hr2.warn _ _) (by omega) with
                  ⟨r', hloop, htaken⟩ | ⟨c, r', n', l', hloop, hn', hr', htaken⟩
                · exact Or.inl ⟨r', hloop, Taken.broken hleading htaken⟩
                · exact Or.inr ⟨c, r', n', l', hloop, by omega, hr',
                    fun cs hcs => Taken.broken hleading (htaken cs hcs)⟩
          · rw [if_neg hk]
            left
            refine ⟨r2, rfl, ?_⟩
            have hnil := List.drop_eq_nil_of_le (Nat.le_of_not_le hk)
            have hleading : leading (b :: l) = none := by
              cases hleading : leading (b :: l) with
              | none => rfl
              | some c => exact absurd (octets_announced hwidths hleading).left hk
            exact Taken.broken hleading (hnil ▸ Taken.done)

theorem yields_taken {n : Nat} {r : IcsReader} {l : List UInt8}
    (h : r.Left n l) :
    exists cs r', Taken crates l cs ∧ Yields crates r cs r' := by
  induction n using Nat.strong_induction_on generalizing r l with
  | _ n ih =>
    rcases h with ⟨bs, hat, hle, hl⟩
    have hfuel : bs.length < r.fuel := by
      rw [hat.fuel]
      exact Nat.lt_succ_self _
    rcases charLoop_taken hwidths ⟨bs, hat, le_rfl, hl⟩ hfuel with
      ⟨r', hchar, htaken⟩ | ⟨c, r', n', l', hchar, hn', hr', htaken⟩
    · exact ⟨[], r', htaken, Yields.done hchar⟩
    · rcases ih n' (lt_of_lt_of_le hn' hle) hr' with ⟨cs, r'', hcs, hyields⟩
      exact ⟨c :: cs, r'', htaken cs hcs, Yields.more hchar hyields⟩

end Characters

theorem Yields.unique {r r' r'' : IcsReader} {cs cs' : List Char}
    (h : Yields crates r cs r') (h' : Yields crates r cs' r'') : cs = cs' := by
  induction h generalizing cs' r'' with
  | done h =>
      cases h' with
      | done _ => rfl
      | more h' _ =>
          rw [h] at h'
          cases h'
  | more h _ ih =>
      cases h' with
      | done h' =>
          rw [h] at h'
          cases h'
      | more h' hrest =>
          rw [h] at h'
          cases h'
          rw [ih hrest]

end IcsReader

/--
The characters of a file are read, without the malformed ones, exactly if no
character is among the octets that a broken one announces.
-/
theorem char_recovers_iff (hwidths : crates.Widths) (src : List UInt8) :
    (exists r, (IcsReader.new src).Yields crates (recovered (unfolded src)) r) ↔
      Harmless crates (unfolded src) := by
  have hleft : (IcsReader.new src).Left src.length (unfolded src) :=
    ⟨src, IcsReader.at_new src, le_rfl, rfl⟩
  rcases IcsReader.yields_taken hwidths hleft with ⟨cs, r, htaken, hyields⟩
  rw [<- htaken.recovered_iff.right]
  constructor
  · intro h
    rcases h with ⟨r', hyields'⟩
    exact hyields.unique hyields'
  · intro heq
    exact ⟨r, heq ▸ hyields⟩

/-- Nothing but the octet that begins no character is dropped. -/
theorem strayOctet_recovered :
    asciiCrates.Widths ∧
      ((exists r, (IcsReader.new [0xF5, 65]).Yields asciiCrates
          (recovered (unfolded [0xF5, 65])) r) ↔
        Harmless asciiCrates (unfolded [0xF5, 65])) :=
  ⟨asciiCrates_widths, char_recovers_iff asciiCrates_widths [0xF5, 65]⟩

/-- The line ends after the first of two octets. -/
theorem newline_eaten :
    recovered (unfolded [0xC3, 10, 65]) = ['\n', 'A'] ∧
      ((IcsReader.new [0xC3, 10, 65]).char asciiCrates).1 = some 'A' ∧
      ¬ forall crates : Crates, crates.Widths -> forall src : List UInt8,
        exists r, (IcsReader.new src).Yields crates (recovered (unfolded src)) r := by
  have hrecovered : recovered (unfolded [0xC3, 10, 65]) = ['\n', 'A'] := by
    decide +kernel
  have hchar : ((IcsReader.new [0xC3, 10, 65]).char asciiCrates).1 = some 'A' := by
    decide +kernel
  refine ⟨hrecovered, hchar, ?_⟩
  intro h
  rcases h asciiCrates asciiCrates_widths [0xC3, 10, 65] with ⟨r, hyields⟩
  rw [hrecovered] at hyields
  cases hyields with
  | more h _ =>
      rw [h] at hchar
      cases hchar

end Ical
end MailClient
