import MailClient.Foundation.Folding

/-!
# UTF-8 with errors

The octets of one character tell it apart wherever it begins, so that the
characters of a text with errors are those that begin at some octet.
-/

namespace MailClient
namespace Foundation

/-- The octets start with a character. -/
def leading (bs : List UInt8) : Option Char :=
  bs.toByteArray.utf8DecodeChar? 0

/-- The characters of a text, without the octets that belong to none. -/
def recovered : List UInt8 -> List Char
  | [] => []
  | b :: bs =>
      match leading (b :: bs) with
      | some c => c :: recovered bs
      | none => recovered bs

theorem leading_append (c : Char) (bs : List UInt8) :
    leading (String.utf8EncodeChar c ++ bs) = some c := by
  unfold leading
  rw [List.toByteArray_append]
  exact ByteArray.utf8DecodeChar?_utf8EncodeChar_append

theorem leading_eq_some {c : Char} {bs : List UInt8} (h : leading bs = some c) :
    exists rest, bs = String.utf8EncodeChar c ++ rest := by
  rcases ByteArray.exists_of_utf8DecodeChar?_eq_some h with ⟨l, hl⟩
  have hdata := congrArg (fun b : ByteArray => b.data.toList) hl
  refine ⟨l.data.toList, ?_⟩
  simpa using hdata

/-- An octet that only goes on with a character. -/
def Continuation (b : UInt8) : Prop :=
  128 ≤ b.toNat ∧ b.toNat < 192

theorem continuation_of_tail {c : Char} {b : UInt8} {l : List UInt8}
    (h : String.utf8EncodeChar c = b :: l) :
    ¬ Continuation b ∧ forall b', b' ∈ l -> Continuation b' := by
  unfold Continuation
  revert h
  fun_cases String.utf8EncodeChar with
  | case1 v hv =>
      intro h
      cases h
      rw [toNat_ofNat_of_le (by omega)]
      refine ⟨by omega, ?_⟩
      intro b' hb'
      cases hb'
  | case2 v h1 h2 =>
      intro h
      cases h
      rw [toNat_ofNat_of_le (by omega)]
      refine ⟨by omega, ?_⟩
      intro b' hb'
      cases List.mem_singleton.mp hb'
      rw [toNat_ofNat_of_le (by omega)]
      omega
  | case3 v h1 h2 h3 =>
      intro h
      cases h
      rw [toNat_ofNat_of_le (by omega)]
      refine ⟨by omega, ?_⟩
      intro b' hb'
      simp only [List.mem_cons, List.not_mem_nil, or_false] at hb'
      rcases hb' with rfl | rfl <;> rw [toNat_ofNat_of_le (by omega)] <;> omega
  | case4 v h1 h2 h3 =>
      intro h
      cases h
      have hvalid : v < 0x110000 := by
        rcases c.valid with h | h
        · exact Nat.lt_trans h (by decide)
        · exact h.right
      rw [toNat_ofNat_of_le (by omega)]
      refine ⟨by omega, ?_⟩
      intro b' hb'
      simp only [List.mem_cons, List.not_mem_nil, or_false] at hb'
      rcases hb' with rfl | rfl | rfl <;>
        rw [toNat_ofNat_of_le (by omega)] <;> omega

theorem leading_of_continuation {b : UInt8} (hb : Continuation b)
    (bs : List UInt8) : leading (b :: bs) = none := by
  cases hleading : leading (b :: bs) with
  | none => rfl
  | some c =>
      rcases leading_eq_some hleading with ⟨rest, heq⟩
      cases hoctets : String.utf8EncodeChar c with
      | nil => exact absurd hoctets String.utf8EncodeChar_ne_nil
      | cons b' l =>
          rw [hoctets] at heq
          cases heq
          exact absurd hb (continuation_of_tail hoctets).left

theorem recovered_of_leading_none {b : UInt8} {bs : List UInt8}
    (h : leading (b :: bs) = none) : recovered (b :: bs) = recovered bs := by
  rw [recovered, h]

theorem recovered_drop {bs : List UInt8} {n : Nat}
    (h : forall i, i < n -> leading (bs.drop i) = none) :
    recovered bs = recovered (bs.drop n) := by
  induction n generalizing bs with
  | zero => rfl
  | succ n ih =>
      cases bs with
      | nil => rw [List.drop_nil]
      | cons b bs =>
          rw [recovered_of_leading_none (h 0 (Nat.succ_pos n)),
            List.drop_succ_cons]
          exact ih (fun i hi => h (i + 1) (Nat.succ_lt_succ hi))

theorem recovered_append (c : Char) (bs : List UInt8) :
    recovered (String.utf8EncodeChar c ++ bs) = c :: recovered bs := by
  cases hoctets : String.utf8EncodeChar c with
  | nil => exact absurd hoctets String.utf8EncodeChar_ne_nil
  | cons b l =>
      have hleading := leading_append c bs
      rw [hoctets, List.cons_append] at hleading
      have htail : recovered (l ++ bs) = recovered ((l ++ bs).drop l.length) := by
        apply recovered_drop
        intro i hi
        rw [List.drop_append_of_le_length (Nat.le_of_lt hi),
          List.drop_eq_getElem_cons hi, List.cons_append]
        exact leading_of_continuation
          ((continuation_of_tail hoctets).right _ (List.getElem_mem hi)) _
      rw [List.cons_append, recovered, hleading]
      dsimp only
      rw [htail, List.drop_left]

theorem recovered_drop_sublist (bs : List UInt8) (n : Nat) :
    (recovered (bs.drop n)).Sublist (recovered bs) := by
  induction n generalizing bs with
  | zero => exact List.Sublist.refl _
  | succ n ih =>
      cases bs with
      | nil => exact List.Sublist.refl _
      | cons b bs =>
          rw [List.drop_succ_cons, recovered]
          cases leading (b :: bs) with
          | none => exact ih bs
          | some c => exact (ih bs).cons c

theorem recovered_drop_length_lt {bs : List UInt8} {i n : Nat} (hi : i < n)
    (h : leading (bs.drop i) ≠ none) :
    (recovered (bs.drop n)).length < (recovered bs).length := by
  induction i generalizing bs n with
  | zero =>
      cases bs with
      | nil => exact absurd rfl h
      | cons b bs =>
          cases hleading : leading (b :: bs) with
          | none => exact absurd hleading h
          | some c =>
              cases n with
              | zero => exact absurd hi (Nat.lt_irrefl 0)
              | succ n =>
                  rw [List.drop_succ_cons, recovered, hleading]
                  exact Nat.lt_succ_of_le (recovered_drop_sublist bs n).length_le
  | succ i ih =>
      cases n with
      | zero => exact absurd hi (Nat.not_lt_zero _)
      | succ n =>
          cases bs with
          | nil => exact absurd rfl h
          | cons b bs =>
              have hless := ih (Nat.lt_of_succ_lt_succ hi) h
              rw [List.drop_succ_cons, recovered]
              cases leading (b :: bs) with
              | none => exact hless
              | some c => exact Nat.lt_succ_of_lt hless

/-!
# Decoding
-/

/-- The text, if there is nothing malformed in it. -/
def fromUtf8 (bs : List UInt8) : Option (List Char) :=
  if octets (recovered bs) = bs then some (recovered bs) else none

/-- The octets that may follow the first one of three or four. -/
def secondOctet (b : UInt8) : Option (UInt8 × UInt8) :=
  if b < 0xE0 then none
  else if b = 0xE0 then some (0xA0, 0xBF)
  else if b = 0xED then some (0x80, 0x9F)
  else if b < 0xF0 then some (0x80, 0xBF)
  else if b = 0xF0 then some (0x90, 0xBF)
  else if b < 0xF4 then some (0x80, 0xBF)
  else if b = 0xF4 then some (0x80, 0x8F)
  else none

/-- How many further octets could have belonged to a character that breaks off. -/
def brokenTail (b : UInt8) (bs : List UInt8) : Nat :=
  match secondOctet b, bs with
  | some (lo, hi), x :: rest =>
      if lo ≤ x ∧ x ≤ hi then
        match rest with
        | y :: _ => if 0xF0 ≤ b ∧ 0x80 ≤ y ∧ y ≤ 0xBF then 2 else 1
        | [] => 1
      else 0
  | _, _ => 0

/-- The text, with U+FFFD for what is malformed. -/
def fromUtf8Lossy : List UInt8 -> List Char
  | [] => []
  | b :: bs =>
      match leading (b :: bs) with
      | some c => c :: fromUtf8Lossy (bs.drop (c.utf8Size - 1))
      | none => '\uFFFD' :: fromUtf8Lossy (bs.drop (brokenTail b bs))
termination_by bs => bs.length
decreasing_by
  · rw [List.length_drop, List.length_cons]
    omega
  · rw [List.length_drop, List.length_cons]
    omega

theorem recovered_octets (cs : List Char) : recovered (octets cs) = cs := by
  induction cs with
  | nil => rfl
  | cons c cs ih => rw [octets_cons, recovered_append, ih]

theorem fromUtf8_eq_some {bs : List UInt8} {cs : List Char} :
    fromUtf8 bs = some cs ↔ bs = octets cs := by
  unfold fromUtf8
  constructor
  · intro h
    split at h
    · rename_i heq
      cases h
      exact heq.symm
    · cases h
  · intro h
    rw [h, recovered_octets, if_pos rfl]

theorem fromUtf8_octets (cs : List Char) : fromUtf8 (octets cs) = some cs :=
  fromUtf8_eq_some.mpr rfl

theorem fromUtf8Lossy_append (c : Char) (bs : List UInt8) :
    fromUtf8Lossy (String.utf8EncodeChar c ++ bs) = c :: fromUtf8Lossy bs := by
  cases hoctets : String.utf8EncodeChar c with
  | nil => exact absurd hoctets String.utf8EncodeChar_ne_nil
  | cons b l =>
      have hleading := leading_append c bs
      have hsize := String.length_utf8EncodeChar c
      rw [hoctets] at hleading hsize
      rw [List.cons_append] at hleading ⊢
      rw [fromUtf8Lossy, hleading]
      dsimp only
      rw [<- hsize, List.length_cons, Nat.add_sub_cancel, List.drop_left]

theorem fromUtf8Lossy_octets (cs : List Char) : fromUtf8Lossy (octets cs) = cs := by
  induction cs with
  | nil => rw [octets_nil, fromUtf8Lossy]
  | cons c cs ih => rw [octets_cons, fromUtf8Lossy_append, ih]

theorem utf8EncodeChar_ascii {c : Char} (hc : c.toNat < 128) :
    String.utf8EncodeChar c = [UInt8.ofNat c.toNat] := by
  unfold String.utf8EncodeChar
  exact if_pos (Nat.le_of_lt_succ hc)

theorem not_continuation_ascii {n : Nat} (hn : n < 128) :
    ¬ Continuation (UInt8.ofNat n) := by
  unfold Continuation
  rw [toNat_ofNat_of_le (by omega)]
  omega

theorem secondOctet_continuation {b lo hi x : UInt8}
    (h : secondOctet b = some (lo, hi)) (hx : lo ≤ x ∧ x ≤ hi) :
    Continuation x := by
  have hrange : 0x80 ≤ lo ∧ hi ≤ 0xBF := by
    revert h
    unfold secondOctet
    repeat' split
    all_goals
      intro h
      cases h
    all_goals decide
  have hlo : (0x80 : UInt8).toNat ≤ x.toNat := le_trans hrange.left hx.left
  have hhi : x.toNat ≤ (0xBF : UInt8).toNat := le_trans hx.right hrange.right
  exact ⟨hlo, Nat.lt_succ_of_le hhi⟩

theorem brokenTail_append {b y : UInt8} (hy : ¬ Continuation y)
    (as bs : List UInt8) :
    brokenTail b (as ++ y :: bs) = brokenTail b as ∧
      brokenTail b as ≤ as.length := by
  unfold brokenTail
  cases hsecond : secondOctet b with
  | none => exact ⟨rfl, Nat.zero_le _⟩
  | some range =>
      rcases range with ⟨lo, hi⟩
      rcases as with _ | ⟨x, _ | ⟨x', rest⟩⟩
      · have hrange : ¬ (lo ≤ y ∧ y ≤ hi) :=
          fun h => hy (secondOctet_continuation hsecond h)
        dsimp only [List.nil_append]
        rw [if_neg hrange]
        exact ⟨rfl, le_rfl⟩
      · have hthird : ¬ (0xF0 ≤ b ∧ 0x80 ≤ y ∧ y ≤ 0xBF) :=
          fun h => hy ⟨h.right.left, Nat.lt_succ_of_le h.right.right⟩
        dsimp only [List.cons_append, List.nil_append]
        rw [if_neg hthird]
        refine ⟨rfl, ?_⟩
        split <;> exact Nat.le_of_ble_eq_true rfl
      · refine ⟨rfl, ?_⟩
        dsimp only
        rw [List.length_cons, List.length_cons]
        split
        · split <;> omega
        · omega

theorem leading_none_append {a y : UInt8} (hy : ¬ Continuation y)
    {as : List UInt8} (bs : List UInt8) (h : leading (a :: as) = none) :
    leading (a :: (as ++ y :: bs)) = none := by
  cases hleading : leading (a :: (as ++ y :: bs)) with
  | none => rfl
  | some d =>
      rcases leading_eq_some hleading with ⟨rest, heq⟩
      cases hoctets : String.utf8EncodeChar d with
      | nil => exact absurd hoctets String.utf8EncodeChar_ne_nil
      | cons a' l =>
          rw [hoctets, List.cons_append, List.cons.injEq] at heq
          rcases List.append_eq_append_iff.mp heq.right with
            ⟨between, hl, hrest⟩ | ⟨between, has, _⟩
          · cases between with
            | nil =>
                rw [List.append_nil] at hl
                have hfound := leading_append d []
                rw [hoctets, List.append_nil, hl, <- heq.left, h] at hfound
                cases hfound
            | cons y' between =>
                cases hrest
                have hmem : y ∈ l := by
                  rw [hl]
                  exact List.mem_append_right as List.mem_cons_self
                exact absurd ((continuation_of_tail hoctets).right y hmem) hy
          · have hfound := leading_append d between
            rw [hoctets, List.cons_append, <- has, <- heq.left, h] at hfound
            cases hfound

theorem fromUtf8Lossy_append_ascii {c : Char} (hc : c.toNat < 128)
    (as bs : List UInt8) :
    fromUtf8Lossy (as ++ UInt8.ofNat c.toNat :: bs) =
      fromUtf8Lossy as ++ c :: fromUtf8Lossy bs := by
  have hy := not_continuation_ascii hc
  induction hlength : as.length using Nat.strong_induction_on generalizing as with
  | _ n ih =>
    cases as with
    | nil =>
        have happend := fromUtf8Lossy_append c bs
        rw [utf8EncodeChar_ascii hc] at happend
        rw [fromUtf8Lossy]
        exact happend
    | cons a as =>
        rw [List.length_cons] at hlength
        rw [List.cons_append, fromUtf8Lossy, fromUtf8Lossy]
        cases hleading : leading (a :: as) with
        | some d =>
            rcases leading_eq_some hleading with ⟨rest, heq⟩
            have hall : leading (a :: (as ++ UInt8.ofNat c.toNat :: bs)) =
                some d := by
              rw [<- List.cons_append, heq, List.append_assoc, leading_append]
            have hsize : d.utf8Size - 1 ≤ as.length := by
              have hlength := congrArg List.length heq
              rw [List.length_append, List.length_cons,
                String.length_utf8EncodeChar] at hlength
              omega
            rw [hall]
            dsimp only
            rw [List.drop_append_of_le_length hsize, List.cons_append]
            congr 1
            exact ih _ (by rw [List.length_drop]; omega) _ rfl
        | none =>
            have hall : leading (a :: (as ++ UInt8.ofNat c.toNat :: bs)) = none :=
              leading_none_append hy bs hleading
            rcases brokenTail_append (b := a) hy as bs with ⟨hbroken, hle⟩
            rw [hall]
            dsimp only
            rw [hbroken, List.drop_append_of_le_length hle, List.cons_append]
            congr 1
            exact ih _ (by rw [List.length_drop]; omega) _ rfl

theorem le_of_octet {c : Char} (h : 239 ∈ String.utf8EncodeChar c) :
    0xF000 ≤ c.toNat := by
  have hnat : forall n, n ≤ 255 -> (239 : UInt8) = UInt8.ofNat n -> n = 239 := by
    intro n hn heq
    have hvalue := congrArg UInt8.toNat heq
    rw [toNat_ofNat_of_le hn] at hvalue
    exact hvalue.symm
  have hvalue : c.toNat = c.val.toNat := rfl
  revert h
  fun_cases String.utf8EncodeChar with
  | case1 v hv =>
      intro h
      have hoctet := hnat _ (by omega) (List.mem_singleton.mp h)
      omega
  | case2 v h1 h2 =>
      intro h
      simp only [List.mem_cons, List.not_mem_nil, or_false] at h
      rcases h with h | h <;> have hoctet := hnat _ (by omega) h <;> omega
  | case3 v h1 h2 h3 =>
      intro h
      simp only [List.mem_cons, List.not_mem_nil, or_false] at h
      rcases h with h | h | h <;> have hoctet := hnat _ (by omega) h <;> omega
  | case4 v h1 h2 h3 =>
      intro _
      omega

theorem mem_fromUtf8Lossy_of_malformed (bs : List UInt8)
    (h : fromUtf8 bs = none) : '\uFFFD' ∈ fromUtf8Lossy bs := by
  induction hlength : bs.length using Nat.strong_induction_on generalizing bs with
  | _ n ih =>
    cases bs with
    | nil => cases h
    | cons b bs =>
        rw [List.length_cons] at hlength
        cases hleading : leading (b :: bs) with
        | none =>
            rw [fromUtf8Lossy, hleading]
            exact List.mem_cons_self
        | some c =>
            rcases leading_eq_some hleading with ⟨rest, heq⟩
            rw [heq, fromUtf8Lossy_append]
            have hrest : fromUtf8 rest = none := by
              cases hdecode : fromUtf8 rest with
              | none => rfl
              | some cs =>
                  rw [heq, fromUtf8_eq_some.mp hdecode, <- octets_cons,
                    fromUtf8_octets] at h
                  cases h
            have hless : rest.length < n := by
              have hall := congrArg List.length heq
              rw [List.length_append, String.length_utf8EncodeChar,
                List.length_cons, hlength] at hall
              have hpos := c.utf8Size_pos
              omega
            exact List.mem_cons_of_mem c (ih _ hless rest hrest rfl)

theorem octet_of_mem_fromUtf8Lossy {c : Char} (hc : c.toNat < 128)
    (bs : List UInt8) (h : c ∈ fromUtf8Lossy bs) :
    UInt8.ofNat c.toNat ∈ bs := by
  induction hlength : bs.length using Nat.strong_induction_on generalizing bs with
  | _ n ih =>
    cases bs with
    | nil =>
        rw [fromUtf8Lossy] at h
        cases h
    | cons b bs =>
        rw [List.length_cons] at hlength
        have hdrop : forall k, c ∈ fromUtf8Lossy (bs.drop k) ->
            UInt8.ofNat c.toNat ∈ b :: bs := by
          intro k hmem
          have hrest := ih _ (by rw [List.length_drop]; omega) (bs.drop k) hmem rfl
          exact List.mem_cons_of_mem b (List.mem_of_mem_drop hrest)
        rw [fromUtf8Lossy] at h
        cases hleading : leading (b :: bs) with
        | none =>
            rw [hleading] at h
            rcases List.mem_cons.mp h with rfl | hmem
            · exact absurd hc (by decide)
            · exact hdrop _ hmem
        | some d =>
            rw [hleading] at h
            rcases List.mem_cons.mp h with rfl | hmem
            · rcases leading_eq_some hleading with ⟨rest, heq⟩
              rw [heq, utf8EncodeChar_ascii hc]
              exact List.mem_append_left _ (List.mem_singleton.mpr rfl)
            · exact hdrop _ hmem

theorem toNat_charOfNat (b : UInt8) : (Char.ofNat b.toNat).toNat = b.toNat := by
  have hvalid : b.toNat.isValidChar :=
    Or.inl (Nat.lt_trans b.toNat_lt (by decide))
  unfold Char.ofNat
  rw [dif_pos hvalid]
  rfl

theorem countP_fromUtf8Lossy {q : Char -> Bool}
    (hq : forall c, q c = true -> c.toNat < 128) (bs : List UInt8) :
    (fromUtf8Lossy bs).countP q =
      bs.countP (fun b => q (Char.ofNat b.toNat)) := by
  induction hlength : bs.length using Nat.strong_induction_on generalizing bs with
  | _ n ih =>
    by_cases hany : exists b, b ∈ bs ∧ q (Char.ofNat b.toNat) = true
    · rcases hany with ⟨b, hb, hqb⟩
      rcases List.append_of_mem hb with ⟨as, rest, rfl⟩
      have hsmall := hq _ hqb
      rw [List.length_append, List.length_cons] at hlength
      have hb : UInt8.ofNat (Char.ofNat b.toNat).toNat = b := by
        rw [toNat_charOfNat, UInt8.ofNat_toNat]
      have hsplit := fromUtf8Lossy_append_ascii hsmall as rest
      rw [hb] at hsplit
      rw [hsplit, List.countP_append, List.countP_append, List.countP_cons,
        List.countP_cons, ih as.length (by omega) as rfl,
        ih rest.length (by omega) rest rfl]
    · have hnone : bs.countP (fun b => q (Char.ofNat b.toNat)) = 0 := by
        apply List.countP_eq_zero.mpr
        intro b hb hqb
        exact hany ⟨b, hb, hqb⟩
      rw [hnone, List.countP_eq_zero]
      intro c hc hqc
      have hsmall := hq c hqc
      refine hany ⟨_, octet_of_mem_fromUtf8Lossy hsmall bs hc, ?_⟩
      rw [toNat_ofNat_of_le (by omega), Char.ofNat_toNat]
      exact hqc

theorem countP_octets {q : Char -> Bool}
    (hq : forall c, q c = true -> c.toNat < 128) (cs : List Char) :
    cs.countP q = (octets cs).countP (fun b => q (Char.ofNat b.toNat)) := by
  rw [<- countP_fromUtf8Lossy hq, fromUtf8Lossy_octets]

end Foundation
end MailClient
