import MailClient.Vcard.Checked

/-!
# Numbers as they are written

Numbers of two and four digits, which the parsers of integers read back.
-/

namespace MailClient
namespace Vcard

open Foundation

/-- The last digit of a number. -/
def digit (n : Nat) : Char :=
  Char.ofNat ('0'.toNat + n % 10)

def twoDigits (n : Nat) : List Char :=
  [digit (n / 10), digit n]

def fourDigits (n : Nat) : List Char :=
  [digit (n / 1000), digit (n / 100), digit (n / 10), digit n]

theorem digit_mod (n : Nat) : digit (n % 10) = digit n := by
  unfold digit
  rw [Nat.mod_mod]

theorem digit_cases (n : Nat) (P : Char -> Nat -> Prop)
    (h : forall k, k < 10 -> P (digit k) k) : P (digit n) (n % 10) := by
  rw [<- digit_mod]
  exact h (n % 10) (Nat.mod_lt n (by decide))

theorem digitValue_digit (n : Nat) : digitValue (digit n) = some (n % 10) :=
  digit_cases n (fun c k => digitValue c = some k) (by decide)

theorem utf8Size_digit (n : Nat) : (digit n).utf8Size = 1 :=
  digit_cases n (fun c _ => c.utf8Size = 1) (by decide)

theorem digit_ne (n : Nat) {c : Char} (hc : forall k, k < 10 -> digit k ≠ c) :
    digit n ≠ c :=
  digit_cases n (fun d _ => d ≠ c) hc

theorem digit_ne_plus (n : Nat) : digit n ≠ '+' :=
  digit_ne n (by decide)

theorem digit_ne_minus (n : Nat) : digit n ≠ '-' :=
  digit_ne n (by decide)

theorem singleBytes_twoDigits (n : Nat) : SingleBytes (twoDigits n) := by
  intro c hc
  simp only [twoDigits, List.mem_cons, List.not_mem_nil, or_false] at hc
  rcases hc with hc | hc
  · rw [hc]
    exact utf8Size_digit _
  · rw [hc]
    exact utf8Size_digit _

theorem singleBytes_fourDigits (n : Nat) : SingleBytes (fourDigits n) := by
  intro c hc
  simp only [fourDigits, List.mem_cons, List.not_mem_nil, or_false] at hc
  rcases hc with hc | hc | hc | hc
  · rw [hc]
    exact utf8Size_digit _
  · rw [hc]
    exact utf8Size_digit _
  · rw [hc]
    exact utf8Size_digit _
  · rw [hc]
    exact utf8Size_digit _

theorem singleBytes_append {s t : List Char} (hs : SingleBytes s)
    (ht : SingleBytes t) : SingleBytes (s ++ t) := by
  intro c hc
  rcases List.mem_append.mp hc with hc | hc
  · exact hs c hc
  · exact ht c hc

theorem parseDigits_twoDigits {n : Nat} (h : n < 100) :
    parseDigits (twoDigits n) = some n := by
  unfold parseDigits twoDigits
  simp only [List.cons_ne_nil, if_false, List.foldlM_cons, List.foldlM_nil,
    digitValue_digit, Option.map_some]
  change some ((0 * 10 + n / 10 % 10) * 10 + n % 10) = some n
  congr 1
  omega

theorem parseDigits_fourDigits {n : Nat} (h : n < 10000) :
    parseDigits (fourDigits n) = some n := by
  unfold parseDigits fourDigits
  simp only [List.cons_ne_nil, if_false, List.foldlM_cons, List.foldlM_nil,
    digitValue_digit, Option.map_some]
  change some ((((0 * 10 + n / 1000 % 10) * 10 + n / 100 % 10) * 10 +
    n / 10 % 10) * 10 + n % 10) = some n
  congr 1
  omega

theorem parseUnsigned_digit {limit n m : Nat} {rest : List Char}
    (h : parseDigits (digit m :: rest) = some n) (hlt : n < limit) :
    parseUnsigned limit (digit m :: rest) = some n := by
  unfold parseUnsigned
  have hplus := digit_ne_plus m
  split
  · rename_i tail heq
    exact absurd (List.cons.inj heq).left hplus
  · rw [h]
    simp [Option.filter, hlt]

theorem parseSigned_digit {limit n m : Nat} {rest : List Char}
    (h : parseDigits (digit m :: rest) = some n) (hlt : n < limit) :
    parseSigned limit (digit m :: rest) = some (n : Int) := by
  have hread := parseUnsigned_digit h hlt
  unfold parseSigned
  have hminus := digit_ne_minus m
  split
  · rename_i tail heq
    exact absurd (List.cons.inj heq).left hminus
  · rw [hread]
    rfl

theorem parseUnsigned_twoDigits {limit n : Nat} (h : n < 100)
    (hlt : n < limit) : parseUnsigned limit (twoDigits n) = some n :=
  parseUnsigned_digit (parseDigits_twoDigits h) hlt

theorem parseSigned_fourDigits {limit n : Nat} (h : n < 10000)
    (hlt : n < limit) : parseSigned limit (fourDigits n) = some (n : Int) :=
  parseSigned_digit (parseDigits_fourDigits h) hlt

/-- A sign: plus or minus. -/
def sign (negative : Bool) : Char :=
  if negative then '-' else '+'

/-- The number with its sign. -/
def signed (negative : Bool) (n : Nat) : Int :=
  if negative then -(n : Int) else (n : Int)

theorem parseSigned_signed {limit n : Nat} (negative : Bool) (h : n < 100)
    (hlt : n < limit) :
    parseSigned limit (sign negative :: twoDigits n) =
      some (signed negative n) := by
  cases negative with
  | true =>
      change ((parseDigits (twoDigits n)).filter (· ≤ limit)).map
        (fun n : Nat => -(n : Int)) = some (-(n : Int))
      rw [parseDigits_twoDigits h]
      simp [Option.filter, Nat.le_of_lt hlt]
  | false =>
      change ((parseDigits (twoDigits n)).filter (· < limit)).map
        (fun n : Nat => (n : Int)) = some (n : Int)
      rw [parseDigits_twoDigits h]
      simp [Option.filter, hlt]

end Vcard
end MailClient
