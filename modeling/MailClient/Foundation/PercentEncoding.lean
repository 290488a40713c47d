import MailClient.Foundation.Utf8

/-!
# Percent-encoding

An escape stands for one octet.  What is no escape stands for itself, so that
text which has been decoded once may hold escapes again.
-/

namespace MailClient
namespace Foundation

def hexDigit (b : UInt8) : Option Nat :=
  if 48 ≤ b.toNat ∧ b.toNat ≤ 57 then some (b.toNat - 48)
  else if 65 ≤ b.toNat ∧ b.toNat ≤ 70 then some (b.toNat - 55)
  else if 97 ≤ b.toNat ∧ b.toNat ≤ 102 then some (b.toNat - 87)
  else none

/-- The octet that `%hl` stands for. -/
def escape (b h l : UInt8) : Option UInt8 :=
  if b = 37 then
    match hexDigit h, hexDigit l with
    | some hi, some lo => some (UInt8.ofNat (16 * hi + lo))
    | _, _ => none
  else
    none

def percentDecode : List UInt8 -> List UInt8
  | [] => []
  | b :: bs =>
      match bs with
      | h :: l :: rest =>
          match escape b h l with
          | some e => e :: percentDecode rest
          | none => b :: percentDecode (h :: l :: rest)
      | bs => b :: percentDecode bs

def plusToSpace (bs : List UInt8) : List UInt8 :=
  bs.map (fun b => if b = 43 then 32 else b)

/-- The value of a form field. -/
def formDecode (bs : List UInt8) : List Char :=
  fromUtf8Lossy (percentDecode (plusToSpace bs))

/-!
# One escape
-/

/-- The octets begin with an escape. -/
inductive Escaped : List UInt8 -> UInt8 -> List UInt8 -> Prop where
  | intro {b h l e : UInt8} {rest : List UInt8} (he : escape b h l = some e) :
      Escaped (b :: h :: l :: rest) e rest

variable {bs rest : List UInt8}

theorem percentDecode_escaped {e : UInt8} (h : Escaped bs e rest) :
    percentDecode bs = e :: percentDecode rest := by
  cases h with
  | intro he => rw [percentDecode, he]

theorem percentDecode_literal {b : UInt8}
    (h : forall e rest, ¬ Escaped (b :: bs) e rest) :
    percentDecode (b :: bs) = b :: percentDecode bs := by
  rcases bs with _ | ⟨x, _ | ⟨y, rest⟩⟩
  · rfl
  · rfl
  · rw [percentDecode]
    cases he : escape b x y with
    | none => rfl
    | some e => exact absurd (Escaped.intro he) (h e rest)

theorem escaped_or_literal (bs : List UInt8) :
    (exists e rest, Escaped bs e rest) ∨ forall e rest, ¬ Escaped bs e rest := by
  by_cases h : exists e rest, Escaped bs e rest
  · exact Or.inl h
  · right
    intro e rest hescaped
    exact h ⟨e, rest, hescaped⟩

theorem Escaped.length {e : UInt8} (h : Escaped bs e rest) :
    bs.length = rest.length + 3 := by
  cases h with
  | intro _ => rfl

/-- An octet that is in no escape. -/
structure Outside (b : UInt8) : Prop where
  sign : b ≠ 37
  digit : hexDigit b = none

theorem Escaped.digits {b h l e : UInt8} (he : escape b h l = some e) :
    b = 37 ∧ hexDigit h ≠ none ∧ hexDigit l ≠ none := by
  unfold escape at he
  split at he
  · rename_i hb
    split at he
    · rename_i hh hl
      rw [hh, hl]
      exact ⟨hb, Option.some_ne_none _, Option.some_ne_none _⟩
    · cases he
  · cases he

theorem Escaped.append {e : UInt8} (h : Escaped bs e rest) (more : List UInt8) :
    Escaped (bs ++ more) e (rest ++ more) := by
  cases h with
  | intro he => exact Escaped.intro he

theorem Escaped.of_append {as : List UInt8} {b e : UInt8} (hb : Outside b)
    (h : Escaped (as ++ b :: bs) e rest) :
    exists rest', rest = rest' ++ b :: bs ∧ Escaped as e rest' := by
  rcases as with _ | ⟨x, _ | ⟨y, _ | ⟨z, as⟩⟩⟩
  · cases h with
    | intro he => exact absurd (Escaped.digits he).left hb.sign
  · cases h with
    | intro he => exact absurd hb.digit (Escaped.digits he).right.left
  · cases h with
    | intro he => exact absurd hb.digit (Escaped.digits he).right.right
  · cases h with
    | intro he => exact ⟨as, rfl, Escaped.intro he⟩

/-!
# Whole texts
-/

theorem percentDecode_append {b : UInt8} (hb : Outside b)
    (as bs : List UInt8) :
    percentDecode (as ++ b :: bs) = percentDecode as ++ b :: percentDecode bs := by
  induction hlength : as.length using Nat.strong_induction_on generalizing as with
  | _ n ih =>
    rcases escaped_or_literal (as ++ b :: bs) with ⟨e, rest, h⟩ | h
    · rcases h.of_append hb with ⟨rest', rfl, h'⟩
      have hless := h'.length
      rw [percentDecode_escaped h, percentDecode_escaped h',
        ih rest'.length (by omega) rest' rfl, List.cons_append]
    · cases as with
      | nil =>
          rw [List.nil_append] at h ⊢
          rw [percentDecode_literal h]
          rfl
      | cons a as =>
          have has : forall e rest, ¬ Escaped (a :: as) e rest := by
            intro e rest hescaped
            exact h e _ (hescaped.append (b :: bs))
          rw [List.length_cons] at hlength
          rw [List.cons_append] at h ⊢
          rw [percentDecode_literal h, percentDecode_literal has,
            ih as.length (by omega) as rfl, List.cons_append]

theorem percentDecode_length_le (bs : List UInt8) :
    (percentDecode bs).length ≤ bs.length := by
  induction hlength : bs.length using Nat.strong_induction_on generalizing bs with
  | _ n ih =>
    rcases escaped_or_literal bs with ⟨e, rest, h⟩ | h
    · have hless := h.length
      have hrest := ih rest.length (by omega) rest rfl
      rw [percentDecode_escaped h, List.length_cons]
      omega
    · cases bs with
      | nil => exact Nat.zero_le _
      | cons b bs =>
          rw [List.length_cons] at hlength
          have hrest := ih bs.length (by omega) bs rfl
          rw [percentDecode_literal h, List.length_cons]
          omega

theorem plusToSpace_append (as bs : List UInt8) :
    plusToSpace (as ++ bs) = plusToSpace as ++ plusToSpace bs :=
  List.map_append

/-!
# Counting
-/

/-- An escape that stands for such an octet. -/
def Hides (q : UInt8 -> Bool) (bs : List UInt8) : Prop :=
  exists before after e rest, bs = before ++ after ∧ Escaped after e rest ∧
    q e = true

theorem not_hides_nil (q : UInt8 -> Bool) : ¬ Hides q [] := by
  intro h
  rcases h with ⟨before, after, e, rest, heq, hescaped, _⟩
  have hafter := (List.append_eq_nil_iff.mp heq.symm).right
  rw [hafter] at hescaped
  cases hescaped

theorem Hides.before {q : UInt8 -> Bool} (h : Hides q bs) (more : List UInt8) :
    Hides q (bs ++ more) := by
  rcases h with ⟨before, after, e, rest, heq, hescaped, hq⟩
  refine ⟨before, after ++ more, e, rest ++ more, ?_, hescaped.append more, hq⟩
  rw [heq, List.append_assoc]

theorem Hides.after {q : UInt8 -> Bool} (h : Hides q bs) (more : List UInt8) :
    Hides q (more ++ bs) := by
  rcases h with ⟨before, after, e, rest, heq, hescaped, hq⟩
  refine ⟨more ++ before, after, e, rest, ?_, hescaped, hq⟩
  rw [heq, List.append_assoc]

theorem hides_literal {q : UInt8 -> Bool} {b : UInt8}
    (h : forall e rest, ¬ Escaped (b :: bs) e rest) :
    Hides q (b :: bs) ↔ Hides q bs := by
  constructor
  · intro hhides
    rcases hhides with ⟨before, after, e, rest, heq, hescaped, hq⟩
    cases before with
    | nil =>
        rw [List.nil_append] at heq
        exact absurd (heq ▸ hescaped) (h e rest)
    | cons b' before =>
        cases heq
        exact ⟨before, after, e, rest, rfl, hescaped, hq⟩
  · intro hhides
    exact hhides.after [b]

theorem hides_escaped {q : UInt8 -> Bool} {e : UInt8} (h : Escaped bs e rest) :
    Hides q bs ↔ q e = true ∨ Hides q rest := by
  cases h with
  | @intro b x y e rest he =>
      have hdigits := Escaped.digits he
      have hsign : hexDigit 37 = none := rfl
      constructor
      · intro hhides
        rcases hhides with ⟨before, after, e', rest', heq, hescaped, hq⟩
        rcases before with _ | ⟨b1, _ | ⟨b2, _ | ⟨b3, before⟩⟩⟩
        · rw [List.nil_append] at heq
          rw [<- heq] at hescaped
          cases hescaped with
          | intro he' =>
              rw [he] at he'
              cases he'
              exact Or.inl hq
        · cases heq
          cases hescaped with
          | intro he' =>
              rw [(Escaped.digits he').left] at hdigits
              exact absurd hsign hdigits.right.left
        · cases heq
          cases hescaped with
          | intro he' =>
              rw [(Escaped.digits he').left] at hdigits
              exact absurd hsign hdigits.right.right
        · cases heq
          exact Or.inr ⟨before, after, e', rest', rfl, hescaped, hq⟩
      · intro hor
        rcases hor with hq | hhides
        · exact ⟨[], _, e, rest, rfl, Escaped.intro he, hq⟩
        · exact hhides.after [b, x, y]

theorem countP_percentDecode {q : UInt8 -> Bool}
    (hq : forall b, q b = true -> Outside b) (bs : List UInt8) :
    bs.countP q ≤ (percentDecode bs).countP q ∧
      ((percentDecode bs).countP q = bs.countP q ↔ ¬ Hides q bs) := by
  induction hlength : bs.length using Nat.strong_induction_on generalizing bs with
  | _ n ih =>
    rcases escaped_or_literal bs with ⟨e, rest, h⟩ | h
    · have hless := h.length
      rcases ih rest.length (by omega) rest rfl with ⟨hle, hiff⟩
      rw [percentDecode_escaped h, hides_escaped h, List.countP_cons, not_or,
        <- hiff]
      have hcount : bs.countP q = rest.countP q := by
        cases h with
        | @intro b x y e rest he =>
            have hdigits := Escaped.digits he
            have hb : ¬ q b = true := fun hqb => (hq b hqb).sign hdigits.left
            have hx : ¬ q x = true :=
              fun hqx => hdigits.right.left (hq x hqx).digit
            have hy : ¬ q y = true :=
              fun hqy => hdigits.right.right (hq y hqy).digit
            rw [List.countP_cons_of_neg hb, List.countP_cons_of_neg hx,
              List.countP_cons_of_neg hy]
      rw [hcount]
      by_cases hqe : q e = true
      · rw [if_pos hqe]
        refine ⟨by omega, iff_of_false (by omega) ?_⟩
        intro hnot
        exact hnot.left hqe
      · rw [if_neg hqe]
        exact ⟨hle, (and_iff_right hqe).symm⟩
    · cases bs with
      | nil => exact ⟨le_rfl, iff_of_true rfl (not_hides_nil q)⟩
      | cons b bs =>
          rw [List.length_cons] at hlength
          rcases ih bs.length (by omega) bs rfl with ⟨hle, hiff⟩
          rw [percentDecode_literal h, hides_literal h, List.countP_cons,
            List.countP_cons, <- hiff]
          exact ⟨Nat.add_le_add_right hle _, Nat.add_right_cancel_iff⟩

theorem countP_percentDecode_le {q : UInt8 -> Bool} (hq : q 37 = true)
    (bs : List UInt8) : (percentDecode bs).countP q ≤ bs.countP q := by
  induction hlength : bs.length using Nat.strong_induction_on generalizing bs with
  | _ n ih =>
    rcases escaped_or_literal bs with ⟨e, rest, h⟩ | h
    · have hless := h.length
      have hle := ih rest.length (by omega) rest rfl
      rw [percentDecode_escaped h, List.countP_cons]
      cases h with
      | @intro b x y e rest he =>
          rw [(Escaped.digits he).left, List.countP_cons_of_pos hq,
            List.countP_cons, List.countP_cons]
          split <;> omega
    · cases bs with
      | nil => exact le_rfl
      | cons b bs =>
          rw [List.length_cons] at hlength
          rw [percentDecode_literal h, List.countP_cons, List.countP_cons]
          exact Nat.add_le_add_right (ih bs.length (by omega) bs rfl) _

theorem percentDecode_eq_self (h : bs.length ≤ (percentDecode bs).length) :
    percentDecode bs = bs := by
  induction bs with
  | nil => rfl
  | cons b bs ih =>
      rcases escaped_or_literal (b :: bs) with ⟨e, rest, hescaped⟩ | hliteral
      · have hless := hescaped.length
        have hle := percentDecode_length_le rest
        rw [percentDecode_escaped hescaped, hless, List.length_cons] at h
        omega
      · rw [percentDecode_literal hliteral, List.length_cons,
          List.length_cons] at h
        rw [percentDecode_literal hliteral, ih (Nat.le_of_succ_le_succ h)]

/-!
# Spaces for plus signs
-/

theorem plusToSpace_escaped {e : UInt8} :
    Escaped bs e rest -> Escaped (plusToSpace bs) e (plusToSpace rest) := by
  intro h
  cases h with
  | @intro b x y e rest he =>
      have hdigits := Escaped.digits he
      have hplus : hexDigit 43 = none := rfl
      have hb : b ≠ 43 := by
        rw [hdigits.left]
        decide
      have hx : x ≠ 43 := fun heq => hdigits.right.left (heq ▸ hplus)
      have hy : y ≠ 43 := fun heq => hdigits.right.right (heq ▸ hplus)
      unfold plusToSpace
      rw [List.map_cons, List.map_cons, List.map_cons, if_neg hb, if_neg hx,
        if_neg hy]
      exact Escaped.intro he

theorem escaped_of_plusToSpace {e : UInt8} (h : Escaped (plusToSpace bs) e rest) :
    exists rest', rest = plusToSpace rest' ∧ Escaped bs e rest' := by
  rcases bs with _ | ⟨b, _ | ⟨x, _ | ⟨y, bs⟩⟩⟩
  · cases h
  · cases h
  · cases h
  · unfold plusToSpace at h
    rw [List.map_cons, List.map_cons, List.map_cons] at h
    have hspace : hexDigit 32 = none := rfl
    cases h with
    | intro he =>
        have hdigits := Escaped.digits he
        split at he
        · rename_i hb
          rw [if_pos hb] at hdigits
          cases hdigits.left
        · split at he
          · exact absurd hspace (Escaped.digits he).right.left
          · split at he
            · exact absurd hspace (Escaped.digits he).right.right
            · exact ⟨bs, rfl, Escaped.intro he⟩

theorem plusToSpace_of_not_mem (h : 43 ∉ bs) :
    plusToSpace bs = bs := by
  have hkept : forall b, b ∈ bs -> (if b = 43 then 32 else b) = b := by
    intro b hb
    rw [if_neg]
    intro heq
    exact h (heq ▸ hb)
  unfold plusToSpace
  rw [List.map_congr_left hkept, List.map_id']

theorem countP_percentDecode_plus (q : UInt8 -> Bool) (bs : List UInt8) :
    (percentDecode (plusToSpace bs)).countP q + bs.count 43 * (q 43).toNat =
      (percentDecode bs).countP q + bs.count 43 * (q 32).toNat := by
  induction hlength : bs.length using Nat.strong_induction_on generalizing bs with
  | _ n ih =>
    rcases escaped_or_literal bs with ⟨e, rest, h⟩ | h
    · have hless := h.length
      have hrest := ih rest.length (by omega) rest rfl
      have hcount : bs.count 43 = rest.count 43 := by
        cases h with
        | @intro b x y e rest he =>
            have hdigits := Escaped.digits he
            have hplus : hexDigit 43 = none := rfl
            have hb : b ≠ 43 := by
              rw [hdigits.left]
              decide
            have hx : x ≠ 43 := fun heq => hdigits.right.left (heq ▸ hplus)
            have hy : y ≠ 43 := fun heq => hdigits.right.right (heq ▸ hplus)
            rw [List.count_cons_of_ne hb, List.count_cons_of_ne hx,
              List.count_cons_of_ne hy]
      rw [percentDecode_escaped h, percentDecode_escaped (plusToSpace_escaped h),
        List.countP_cons, List.countP_cons, hcount]
      omega
    · cases bs with
      | nil =>
          rw [List.count_nil, Nat.zero_mul, Nat.zero_mul]
          rfl
      | cons b bs =>
          rw [List.length_cons] at hlength
          have hrest := ih bs.length (by omega) bs rfl
          have hplus : forall e rest, ¬ Escaped (plusToSpace (b :: bs)) e rest := by
            intro e rest hescaped
            rcases escaped_of_plusToSpace hescaped with ⟨rest', _, hescaped'⟩
            exact h e rest' hescaped'
          unfold plusToSpace at hplus hrest ⊢
          rw [List.map_cons] at hplus ⊢
          rw [percentDecode_literal h, percentDecode_literal hplus,
            List.countP_cons, List.countP_cons, List.count_cons]
          by_cases hb : b = 43
          · have hbool : forall c : Bool,
                (if c = true then 1 else 0) = c.toNat := by
              intro c
              cases c <;> rfl
            rw [if_pos hb, hb, if_pos (beq_self_eq_true _), hbool, hbool,
              Nat.add_mul, Nat.add_mul]
            omega
          · rw [if_neg hb]
            have hbeq : ¬ (b == 43) = true := by simpa using hb
            rw [if_neg hbeq, Nat.add_zero]
            omega

end Foundation
end MailClient
