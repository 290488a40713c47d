import Mathlib.Algebra.Ring.Nat
import Mathlib.Data.List.Basic

/-!
# Slices of a text in bytes

The positions of a text are counted in the bytes of its UTF-8 form.  A slice
exists when both of its ends fall between characters.
-/

namespace MailClient
namespace Foundation

/-- The length of a text in bytes. -/
def byteLength (s : List Char) : Nat :=
  (s.map Char.utf8Size).sum

@[simp]
theorem byteLength_nil : byteLength [] = 0 :=
  rfl

@[simp]
theorem byteLength_cons (c : Char) (s : List Char) :
    byteLength (c :: s) = c.utf8Size + byteLength s := by
  unfold byteLength
  rw [List.map_cons, List.sum_cons]

@[simp]
theorem byteLength_append (s t : List Char) :
    byteLength (s ++ t) = byteLength s + byteLength t := by
  unfold byteLength
  rw [List.map_append, List.sum_append]

theorem byteLength_eq_zero {s : List Char} : byteLength s = 0 ↔ s = [] := by
  cases s with
  | nil => simp
  | cons c s =>
      have hpos := c.utf8Size_pos
      rw [byteLength_cons]
      simp only [List.cons_ne_nil, iff_false]
      omega

/-- A text is cut in two at a position. -/
def splitAtByte : List Char -> Nat -> Option (List Char × List Char)
  | s, 0 => some ([], s)
  | [], _ + 1 => none
  | c :: s, n + 1 =>
      if c.utf8Size ≤ n + 1 then
        (splitAtByte s (n + 1 - c.utf8Size)).map (fun p => (c :: p.1, p.2))
      else
        none

theorem splitAtByte_append (s t : List Char) :
    splitAtByte (s ++ t) (byteLength s) = some (s, t) := by
  induction s with
  | nil => cases t <;> rfl
  | cons c s ih =>
      have hpos := c.utf8Size_pos
      have hsucc : byteLength (c :: s) =
          c.utf8Size + byteLength s - 1 + 1 := by
        rw [byteLength_cons]
        omega
      rw [List.cons_append, hsucc, splitAtByte, if_pos (by omega)]
      have hrest : c.utf8Size + byteLength s - 1 + 1 - c.utf8Size =
          byteLength s := by
        omega
      rw [hrest, ih]
      rfl

theorem splitAtByte_eq_some {s u v : List Char} {n : Nat} :
    splitAtByte s n = some (u, v) ↔ s = u ++ v ∧ byteLength u = n := by
  constructor
  · intro h
    fun_induction splitAtByte s n generalizing u v with
    | case1 s =>
        cases h
        exact ⟨rfl, rfl⟩
    | case2 n => cases h
    | case3 c s n hle ih =>
        rcases Option.map_eq_some_iff.mp h with ⟨p, hp, heq⟩
        cases heq
        rcases ih hp with ⟨hs, hlength⟩
        rw [byteLength_cons, hlength, List.cons_append, <- hs]
        exact ⟨rfl, by omega⟩
    | case4 c s n hlt => cases h
  · intro ⟨hs, hlength⟩
    rw [hs, <- hlength]
    exact splitAtByte_append u v

/-- A position that is not inside a character, nor after the end. -/
def Boundary (s : List Char) (n : Nat) : Prop :=
  (splitAtByte s n).isSome

instance (s : List Char) (n : Nat) : Decidable (Boundary s n) :=
  inferInstanceAs (Decidable (_ = true))

theorem boundary_iff {s : List Char} {n : Nat} :
    Boundary s n ↔ exists u v, s = u ++ v ∧ byteLength u = n := by
  unfold Boundary
  rw [Option.isSome_iff_exists]
  constructor
  · intro ⟨p, hp⟩
    exact ⟨p.1, p.2, splitAtByte_eq_some.mp hp⟩
  · intro ⟨u, v, h⟩
    exact ⟨(u, v), splitAtByte_eq_some.mpr h⟩

@[simp]
theorem boundary_zero (s : List Char) : Boundary s 0 :=
  boundary_iff.mpr ⟨[], s, rfl, rfl⟩

@[simp]
theorem boundary_byteLength (s : List Char) : Boundary s (byteLength s) :=
  boundary_iff.mpr ⟨s, [], (List.append_nil s).symm, rfl⟩

/-- The slice between two positions. -/
def sliceBytes (s : List Char) (a b : Nat) : Option (List Char) :=
  (splitAtByte s b).bind (fun p => (splitAtByte p.1 a).map Prod.snd)

theorem sliceBytes_eq_some {s t : List Char} {a b : Nat} :
    sliceBytes s a b = some t ↔
      exists u v, s = u ++ t ++ v ∧ byteLength u = a ∧
        byteLength u + byteLength t = b := by
  unfold sliceBytes
  rw [Option.bind_eq_some_iff]
  constructor
  · intro ⟨p, hp, h⟩
    rcases Option.map_eq_some_iff.mp h with ⟨q, hq, heq⟩
    rcases splitAtByte_eq_some.mp hp with ⟨hs, hb⟩
    rcases splitAtByte_eq_some.mp hq with ⟨hfront, ha⟩
    rw [heq] at hfront
    refine ⟨q.1, p.2, ?_, ha, ?_⟩
    · rw [<- hfront]
      exact hs
    · rw [<- byteLength_append, <- hfront]
      exact hb
  · intro ⟨u, v, hs, ha, hb⟩
    refine ⟨(u ++ t, v), splitAtByte_eq_some.mpr ⟨hs, ?_⟩, ?_⟩
    · rw [byteLength_append]
      exact hb
    · rw [splitAtByte_eq_some.mpr ⟨rfl, ha⟩]
      rfl

theorem append_of_byteLength_le {u v u' v' : List Char}
    (h : u ++ v = u' ++ v') (hle : byteLength u ≤ byteLength u') :
    exists w, u' = u ++ w := by
  rcases List.append_eq_append_iff.mp h with ⟨w, hw, _⟩ | ⟨w, hw, _⟩
  · exact ⟨w, hw⟩
  · rw [hw, byteLength_append] at hle
    have hnil : w = [] := byteLength_eq_zero.mp (by omega)
    refine ⟨[], ?_⟩
    rw [hw, hnil, List.append_nil, List.append_nil]

theorem isSome_sliceBytes {s : List Char} {a b : Nat} :
    (sliceBytes s a b).isSome ↔ a ≤ b ∧ Boundary s a ∧ Boundary s b := by
  rw [Option.isSome_iff_exists]
  constructor
  · intro ⟨t, h⟩
    rcases sliceBytes_eq_some.mp h with ⟨u, v, hs, ha, hb⟩
    refine ⟨by omega, boundary_iff.mpr ⟨u, t ++ v, ?_, ha⟩,
      boundary_iff.mpr ⟨u ++ t, v, hs, ?_⟩⟩
    · rw [hs, List.append_assoc]
    · rw [byteLength_append]
      exact hb
  · intro ⟨hle, ha, hb⟩
    rcases boundary_iff.mp ha with ⟨u, v, hs, hu⟩
    rcases boundary_iff.mp hb with ⟨u', v', hs', hu'⟩
    rcases append_of_byteLength_le (hs.symm.trans hs') (by omega) with ⟨t, ht⟩
    refine ⟨t, sliceBytes_eq_some.mpr ⟨u, v', ?_, hu, ?_⟩⟩
    · rw [<- ht]
      exact hs'
    · rw [<- byteLength_append, <- ht]
      exact hu'

theorem sliceBytes_prefix {s t : List Char} :
    sliceBytes (s ++ t) 0 (byteLength s) = some s :=
  sliceBytes_eq_some.mpr ⟨[], t, rfl, rfl, by simp⟩

theorem sliceBytes_append {s t : List Char} {a b : Nat}
    (h : byteLength s ≤ a) (hab : a ≤ b) :
    sliceBytes (s ++ t) a b =
      sliceBytes t (a - byteLength s) (b - byteLength s) := by
  apply Option.ext
  intro x
  rw [sliceBytes_eq_some, sliceBytes_eq_some]
  constructor
  · intro ⟨u, v, hs, ha, hb⟩
    rw [List.append_assoc] at hs
    rcases append_of_byteLength_le hs (by omega) with ⟨w, hw⟩
    subst hw
    rw [List.append_assoc, List.append_cancel_left_eq] at hs
    rw [byteLength_append] at ha hb
    exact ⟨w, v, by rw [hs, List.append_assoc], by omega, by omega⟩
  · intro ⟨u, v, hs, ha, hb⟩
    subst hs
    refine ⟨s ++ u, v, by simp, ?_, ?_⟩
    · rw [byteLength_append]
      omega
    · rw [byteLength_append]
      omega

/-!
# Characters of one byte
-/

/-- Every character takes one byte. -/
def SingleBytes (s : List Char) : Prop :=
  forall c, c ∈ s -> c.utf8Size = 1

theorem byteLength_singleBytes {s : List Char} (h : SingleBytes s) :
    byteLength s = s.length := by
  induction s with
  | nil => rfl
  | cons c s ih =>
      have hc := h c List.mem_cons_self
      have hs := ih (fun d hd => h d (List.mem_cons_of_mem c hd))
      rw [byteLength_cons, hc, hs, List.length_cons]
      omega

theorem sliceBytes_singleBytes {s : List Char} (h : SingleBytes s) {a b : Nat}
    (hab : a ≤ b) (hb : b ≤ s.length) :
    sliceBytes s a b = some ((s.take b).drop a) := by
  have hfront : SingleBytes (s.take b) :=
    fun c hc => h c (List.mem_of_mem_take hc)
  have hstart : SingleBytes ((s.take b).take a) :=
    fun c hc => hfront c (List.mem_of_mem_take hc)
  have hmiddle : SingleBytes ((s.take b).drop a) :=
    fun c hc => hfront c (List.mem_of_mem_drop hc)
  refine sliceBytes_eq_some.mpr
    ⟨(s.take b).take a, s.drop b, ?_, ?_, ?_⟩
  · rw [List.take_append_drop, List.take_append_drop]
  · rw [byteLength_singleBytes hstart, List.length_take, List.length_take]
    omega
  · rw [byteLength_singleBytes hstart, byteLength_singleBytes hmiddle,
      List.length_take, List.length_drop, List.length_take]
    omega

end Foundation
end MailClient
