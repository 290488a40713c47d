import Mathlib.Data.List.Chain
import Mathlib.Data.List.Flatten

/-!
# Folded lines of UTF-8 text

A line of text may be folded before a character: a line break and one blank
stand before it.  A line break that is not followed by a blank is a character
of the text.
-/

namespace MailClient
namespace Foundation

/-!
# Octets
-/

def octets (cs : List Char) : List UInt8 :=
  cs.flatMap String.utf8EncodeChar

@[simp] theorem octets_nil : octets [] = [] :=
  rfl

@[simp] theorem octets_cons (c : Char) (cs : List Char) :
    octets (c :: cs) = String.utf8EncodeChar c ++ octets cs :=
  rfl

theorem octets_singleton (c : Char) : octets [c] = String.utf8EncodeChar c :=
  List.append_nil _

@[simp] theorem octets_append (cs ds : List Char) :
    octets (cs ++ ds) = octets cs ++ octets ds :=
  List.flatMap_append

theorem toNat_ofNat_of_le {n : Nat} (hn : n ≤ 255) :
    (UInt8.ofNat n).toNat = n := by
  rw [UInt8.toNat_ofNat']
  exact Nat.mod_eq_of_lt (Nat.lt_succ_of_le hn)

theorem utf8EncodeChar_of_mem {c : Char} {b : UInt8}
    (hb : b ∈ String.utf8EncodeChar c) (hsmall : b.toNat < 128) :
    String.utf8EncodeChar c = [b] ∧ c.toNat = b.toNat := by
  revert hb
  fun_cases String.utf8EncodeChar with
  | case1 v hv =>
      intro hb
      cases List.mem_singleton.mp hb
      have hval : v ≤ 127 := hv
      rw [toNat_ofNat_of_le (by omega)]
      exact ⟨rfl, rfl⟩
  | case2 v h1 h2 =>
      intro hb
      simp only [List.mem_cons, List.not_mem_nil, or_false] at hb
      rcases hb with rfl | rfl <;> rw [toNat_ofNat_of_le (by omega)] at hsmall <;> omega
  | case3 v h1 h2 h3 =>
      intro hb
      simp only [List.mem_cons, List.not_mem_nil, or_false] at hb
      rcases hb with rfl | rfl | rfl <;> rw [toNat_ofNat_of_le (by omega)] at hsmall <;>
        omega
  | case4 v h1 h2 h3 =>
      intro hb
      simp only [List.mem_cons, List.not_mem_nil, or_false] at hb
      rcases hb with rfl | rfl | rfl | rfl <;>
        rw [toNat_ofNat_of_le (by omega)] at hsmall <;> omega

theorem eq_of_octet {c d : Char} {b : UInt8} (hb : b ∈ String.utf8EncodeChar c)
    (hsmall : b.toNat < 128) (hd : d.toNat = b.toNat) : c = d :=
  Char.toNat_inj.mp ((utf8EncodeChar_of_mem hb hsmall).right.trans hd.symm)

theorem octet_not_break {c : Char} (hc : c ≠ '\r' ∧ c ≠ '\n') :
    forall b, b ∈ String.utf8EncodeChar c -> b ≠ 13 ∧ b ≠ 10 := by
  intro b hb
  constructor
  · rintro rfl
    exact hc.left (eq_of_octet hb (by decide) rfl)
  · rintro rfl
    exact hc.right (eq_of_octet hb (by decide) rfl)

/-!
# Folding
-/

/-- The octets go on with a blank. -/
def Blank (bs : List UInt8) : Prop :=
  bs.head? = some 32 ∨ bs.head? = some 9

instance (bs : List UInt8) : Decidable (Blank bs) := by
  unfold Blank
  infer_instance

theorem not_blank_nil : ¬ Blank [] := by
  decide

theorem blank_octet {c : Char} {bs : List UInt8}
    (h : Blank (String.utf8EncodeChar c ++ bs)) : c = ' ' ∨ c = '\t' := by
  cases hoctets : String.utf8EncodeChar c with
  | nil => exact absurd hoctets String.utf8EncodeChar_ne_nil
  | cons b rest =>
      rw [hoctets] at h
      have hmem : b ∈ String.utf8EncodeChar c := by
        rw [hoctets]
        exact List.mem_cons_self
      rcases h with h | h
      · cases h
        exact Or.inl (eq_of_octet hmem (by decide) rfl)
      · cases h
        exact Or.inr (eq_of_octet hmem (by decide) rfl)

/--
The octets are a folded form of the text, followed by `tail`.
-/
inductive Folded (tail : List UInt8) : List Char -> List UInt8 -> Prop where
  | done : Folded tail [] tail
  | line {cs : List Char} {bs : List UInt8} (hblank : ¬ Blank bs)
      (h : Folded tail cs bs) : Folded tail ('\n' :: cs) (13 :: 10 :: bs)
  | char {c : Char} {cs : List Char} {bs : List UInt8}
      (hc : c ≠ '\r' ∧ c ≠ '\n') (h : Folded tail cs bs) :
      Folded tail (c :: cs) (String.utf8EncodeChar c ++ bs)
  | fold {c : Char} {cs : List Char} {bs : List UInt8}
      (hc : c ≠ '\r' ∧ c ≠ '\n') (h : Folded tail cs bs) :
      Folded tail (c :: cs) (13 :: 10 :: 32 :: (String.utf8EncodeChar c ++ bs))

theorem Folded.not_blank {tail bs : List UInt8} {cs : List Char}
    (h : Folded tail cs bs) (htail : cs = [] -> ¬ Blank tail)
    (hhead : forall c, c ∈ cs.head? -> c ≠ ' ' ∧ c ≠ '\t') : ¬ Blank bs := by
  intro hblank
  cases h with
  | done => exact htail rfl hblank
  | line _ _ => rcases hblank with hblank | hblank <;> cases hblank
  | char hc _ =>
      rcases blank_octet hblank with rfl | rfl
      · exact (hhead _ rfl).left rfl
      · exact (hhead _ rfl).right rfl
  | fold _ _ => rcases hblank with hblank | hblank <;> cases hblank

theorem length_utf8EncodeChar_pos (c : Char) :
    0 < (String.utf8EncodeChar c).length := by
  rw [String.length_utf8EncodeChar]
  exact c.utf8Size_pos

theorem Folded.length_le {tail bs : List UInt8} {cs : List Char}
    (h : Folded tail cs bs) : cs.length + tail.length ≤ bs.length := by
  induction h with
  | done => exact Nat.le_of_eq (Nat.zero_add _)
  | line _ _ ih =>
      simp only [List.length_cons]
      omega
  | @char c _ _ _ _ ih =>
      have hpos := length_utf8EncodeChar_pos c
      simp only [List.length_cons, List.length_append]
      omega
  | @fold c _ _ _ _ ih =>
      have hpos := length_utf8EncodeChar_pos c
      simp only [List.length_cons, List.length_append]
      omega

/-!
# Lines
-/

/-- What stands between the pairs of a carriage return and a line feed. -/
def crlfLines : List UInt8 -> List (List UInt8)
  | [] => [[]]
  | b :: bs =>
      match b, bs with
      | 13, 10 :: rest => [] :: crlfLines rest
      | b, bs =>
          match crlfLines bs with
          | [] => [[b]]
          | l :: ls => (b :: l) :: ls

theorem crlfLines_break (bs : List UInt8) :
    crlfLines (13 :: 10 :: bs) = [] :: crlfLines bs := by
  rw [crlfLines]

theorem crlfLines_cons {b : UInt8} (hb : b ≠ 13) (bs : List UInt8) :
    crlfLines (b :: bs) =
      match crlfLines bs with
      | [] => [[b]]
      | l :: ls => (b :: l) :: ls := by
  rw [crlfLines]
  intro rest hcr
  exact absurd hcr hb

theorem crlfLines_append {xs : List UInt8} (hxs : 13 ∉ xs) {bs l : List UInt8}
    {ls : List (List UInt8)} (h : crlfLines bs = l :: ls) :
    crlfLines (xs ++ bs) = (xs ++ l) :: ls := by
  induction xs with
  | nil => exact h
  | cons x rest ih =>
      rw [List.cons_append,
        crlfLines_cons (fun hx => hxs (hx ▸ List.mem_cons_self)),
        ih (fun hmem => hxs (List.mem_cons_of_mem _ hmem))]
      rfl

def crlf : List Char :=
  ['\r', '\n']

theorem mem_octets {cs : List Char} (hcs : forall c, c ∈ cs -> c ≠ '\r' ∧ c ≠ '\n') :
    13 ∉ octets cs := by
  intro hmem
  rcases List.mem_flatMap.mp hmem with ⟨c, hc, hb⟩
  exact (octet_not_break (hcs c hc) 13 hb).left rfl

theorem crlfLines_octets {ls : List (List Char)} {last : List Char}
    (hls : forall l, l ∈ ls -> forall c, c ∈ l -> c ≠ '\r' ∧ c ≠ '\n')
    (hlast : forall c, c ∈ last -> c ≠ '\r' ∧ c ≠ '\n') :
    crlfLines (octets (ls.flatMap (· ++ crlf) ++ last)) =
      ls.map octets ++ [octets last] := by
  induction ls with
  | nil =>
      have hnil : crlfLines [] = [[]] := rfl
      have h := crlfLines_append (mem_octets hlast) hnil
      rw [List.append_nil] at h
      exact h
  | cons l rest ih =>
      have hrest := ih (fun l hl => hls l (List.mem_cons_of_mem _ hl))
      have hl := crlfLines_append
        (mem_octets (hls l List.mem_cons_self))
        (crlfLines_break (octets (rest.flatMap (· ++ crlf) ++ last)))
      rw [hrest, List.append_nil] at hl
      simp only [List.flatMap_cons, List.append_assoc, octets_append] at hl ⊢
      exact hl

end Foundation
end MailClient
