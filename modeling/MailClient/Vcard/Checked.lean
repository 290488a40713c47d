import MailClient.Foundation.Transition
import MailClient.Vcard.Values

/-!
# Rules for conversions

What a conversion or a predicate gives, and when it panics, from its parts.
-/

namespace MailClient
namespace Vcard

open Foundation

def NoPanic {result : Type} (x : Checked result) : Prop :=
  x ≠ Except.error Fault.panic

/-!
# Rules
-/

section Rules

variable {arg result : Type}

theorem noPanic_ok (r : result) : NoPanic (Except.ok r : Checked result) := by
  intro h
  cases h

theorem noPanic_invalid (error : VCardValueError) :
    NoPanic (Except.error (Fault.invalid error) : Checked result) := by
  intro h
  cases h

theorem noPanic_bind {x : Checked arg} {f : arg -> Checked result} :
    NoPanic (x >>= f) ↔
      NoPanic x ∧ forall a, x = Except.ok a -> NoPanic (f a) := by
  cases x with
  | error fault =>
      have hsame : NoPanic ((Except.error fault : Checked arg) >>= f) ↔
          NoPanic (Except.error fault : Checked arg) := by
        unfold NoPanic
        rw [Ne, Ne, not_iff_not]
        constructor
        · intro h
          cases h
          rfl
        · intro h
          cases h
          rfl
      rw [hsame]
      refine (and_iff_left ?_).symm
      intro a ha
      cases ha
  | ok a =>
      constructor
      · intro h
        refine ⟨noPanic_ok a, ?_⟩
        intro a' ha'
        cases ha'
        exact h
      · intro h
        exact h.right a rfl

theorem noPanic_branch {condition : Checked Bool} {yes no : Checked result} :
    NoPanic (Checked.branch condition yes no) ↔
      NoPanic condition ∧ (condition = Except.ok true -> NoPanic yes) ∧
        (condition = Except.ok false -> NoPanic no) := by
  unfold Checked.branch
  rw [noPanic_bind]
  refine and_congr_right ?_
  intro _
  constructor
  · intro h
    exact ⟨fun heq => h true heq, fun heq => h false heq⟩
  · intro h b heq
    cases b with
    | true => exact h.left heq
    | false => exact h.right heq

theorem noPanic_and {left right : Checked Bool} :
    NoPanic (Checked.and left right) ↔
      NoPanic left ∧ (left = Except.ok true -> NoPanic right) := by
  unfold Checked.and
  rw [noPanic_branch]
  have hfalse := noPanic_ok false
  tauto

theorem noPanic_or {left right : Checked Bool} :
    NoPanic (Checked.or left right) ↔
      NoPanic left ∧ (left = Except.ok false -> NoPanic right) := by
  unfold Checked.or
  rw [noPanic_branch]
  have htrue := noPanic_ok true
  tauto

theorem noPanic_branch_and {result : Type} {left right : Checked Bool}
    {yes no : Checked result} :
    NoPanic (Checked.branch (Checked.and left right) yes no) ↔
      NoPanic (Checked.branch left (Checked.branch right yes no) no) := by
  unfold Checked.and Checked.branch
  cases left with
  | error fault => exact Iff.rfl
  | ok b =>
      cases b with
      | true =>
          cases right with
          | error fault => exact Iff.rfl
          | ok b' => exact Iff.rfl
      | false => exact Iff.rfl

end Rules

/-!
# Slices
-/

section Slices

variable {value : List Char} {start stop : Nat}

theorem slice_eq_ok {part : List Char} :
    slice value start stop = Except.ok part ↔
      sliceBytes value start stop = some part := by
  unfold slice
  cases sliceBytes value start stop with
  | none => simp
  | some part' => simp

theorem noPanic_slice :
    NoPanic (slice value start stop) ↔
      start ≤ stop ∧ Boundary value start ∧ Boundary value stop := by
  rw [<- isSome_sliceBytes]
  unfold slice NoPanic
  cases sliceBytes value start stop with
  | none => simp
  | some part => simp

theorem noPanic_sliceTest {test : List Char -> Bool} :
    NoPanic (sliceTest value start stop test) ↔
      start ≤ stop ∧ Boundary value start ∧ Boundary value stop := by
  unfold sliceTest
  rw [noPanic_bind, noPanic_slice]
  exact and_iff_left (fun part _ => noPanic_ok _)

theorem noPanic_sliceIs {text : List Char} :
    NoPanic (sliceIs value start stop text) ↔
      start ≤ stop ∧ Boundary value start ∧ Boundary value stop := by
  unfold sliceIs
  rw [noPanic_bind, noPanic_slice]
  exact and_iff_left (fun part _ => noPanic_ok _)

theorem sliceTest_eq_ok {test : List Char -> Bool} {b : Bool} :
    sliceTest value start stop test = Except.ok b ↔
      exists part, sliceBytes value start stop = some part ∧ test part = b := by
  unfold sliceTest
  constructor
  · intro h
    rcases bind_eq_ok h with ⟨part, hpart, h⟩
    cases h
    exact ⟨part, slice_eq_ok.mp hpart, rfl⟩
  · intro ⟨part, hpart, htest⟩
    rw [slice_eq_ok.mpr hpart, <- htest]
    rfl

theorem noPanic_branch_test {result : Type} {value : List Char}
    {start stop : Nat} {test : List Char -> Bool} {yes no : Checked result}
    {P : Prop}
    (hP : sliceTest value start stop test = Except.ok true ↔ P) :
    NoPanic (Checked.branch (sliceTest value start stop test) yes no) ↔
      (start ≤ stop ∧ Boundary value start ∧ Boundary value stop) ∧
        (P -> NoPanic yes) ∧ (¬ P -> NoPanic no) := by
  rw [noPanic_branch, noPanic_sliceTest, hP]
  refine and_congr_right ?_
  intro hrange
  rcases Option.isSome_iff_exists.mp (isSome_sliceBytes.mpr hrange) with
    ⟨part, hpart⟩
  have hresult : sliceTest value start stop test = Except.ok (test part) :=
    sliceTest_eq_ok.mpr ⟨part, hpart, rfl⟩
  refine and_congr_right ?_
  intro _
  rw [<- hP, hresult]
  cases test part with
  | true => simp
  | false => simp

theorem sliceIs_eq_true {text : List Char} :
    sliceIs value start stop text = Except.ok true ↔
      sliceBytes value start stop = some text := by
  change sliceTest value start stop (fun part => part = text) = _ ↔ _
  rw [sliceTest_eq_ok]
  constructor
  · intro ⟨part, hpart, heq⟩
    rw [hpart, of_decide_eq_true heq]
  · intro h
    exact ⟨text, h, decide_eq_true rfl⟩

theorem boundary_sliceBytes {part : List Char}
    (h : sliceBytes value start stop = some part) {n : Nat}
    (hn : n ≤ byteLength part) :
    Boundary part n ↔ Boundary value (start + n) := by
  rcases sliceBytes_eq_some.mp h with ⟨u, v, hs, ha, _⟩
  rw [boundary_iff, boundary_iff]
  constructor
  · intro ⟨x, y, heq, hx⟩
    refine ⟨u ++ x, y ++ v, ?_, ?_⟩
    · rw [hs, heq]
      simp
    · rw [byteLength_append]
      omega
  · intro ⟨x, y, heq, hx⟩
    rw [hs, List.append_assoc] at heq
    rcases append_of_byteLength_le heq (by omega) with ⟨w, hw⟩
    subst hw
    rw [List.append_assoc, List.append_cancel_left_eq] at heq
    rw [byteLength_append] at hx
    rcases append_of_byteLength_le heq.symm (by omega) with ⟨w', hw'⟩
    exact ⟨w, w', hw', by omega⟩

theorem byteLength_sliceBytes {part : List Char}
    (h : sliceBytes value start stop = some part) :
    byteLength part + start = stop := by
  rcases sliceBytes_eq_some.mp h with ⟨u, v, _, ha, hb⟩
  omega

end Slices

theorem starts_iff {value text : List Char} {n : Nat}
    (h : byteLength text = n) :
    sliceBytes value 0 n = some text ↔ text <+: value := by
  rw [sliceBytes_eq_some]
  constructor
  · intro ⟨u, v, hs, hu, _⟩
    rw [byteLength_eq_zero.mp hu] at hs
    exact ⟨v, hs.symm⟩
  · intro ⟨v, hv⟩
    exact ⟨[], v, hv.symm, rfl, by rw [byteLength_nil, h, Nat.zero_add]⟩

theorem starts_eq_true {value text : List Char} {n : Nat}
    (h : byteLength text = n) :
    sliceIs value 0 n text = Except.ok true ↔ text <+: value := by
  rw [sliceIs_eq_true, starts_iff h]

/-!
# Fields
-/

section Fields

variable {number : Type} {value : List Char}

theorem noPanic_into {valueType : ValueType}
    {parse : List Char -> Option number} (part : List Char) :
    NoPanic (into valueType parse part) := by
  unfold into
  cases parse part with
  | none => exact noPanic_invalid _
  | some n => exact noPanic_ok n

/-- The ends of a field are boundaries. -/
def InRange (value : List Char) : Option (Nat × Nat) -> Prop
  | none => True
  | some (start, stop) =>
      start ≤ stop ∧ Boundary value start ∧ Boundary value stop

/-- A field can be read, if there is one. -/
def Readable (value : List Char) (read : List Char -> Checked number)
    (range : Option (Nat × Nat)) : Prop :=
  exists n, field value read range = Except.ok n

@[simp]
theorem readable_none (read : List Char -> Checked number) :
    Readable value read none :=
  ⟨none, rfl⟩

theorem noPanic_field {read : List Char -> Checked number}
    (hread : forall part, NoPanic (read part)) (range : Option (Nat × Nat)) :
    NoPanic (field value read range) ↔ InRange value range := by
  cases range with
  | none => exact iff_of_true (noPanic_ok none) trivial
  | some range =>
      unfold field InRange
      dsimp only
      rw [noPanic_bind, noPanic_slice]
      refine and_iff_left ?_
      intro part _
      rw [noPanic_bind]
      exact ⟨hread part, fun n _ => noPanic_ok (some n)⟩

theorem noPanic_field_bind {result : Type} {read : List Char -> Checked number}
    (hread : forall part, NoPanic (read part)) {range : Option (Nat × Nat)}
    {next : Option number -> Checked result} {Q : Prop}
    (hnext : forall n, NoPanic (next n) ↔ Q) :
    NoPanic (field value read range >>= next) ↔
      InRange value range ∧ (Readable value read range -> Q) := by
  rw [noPanic_bind, noPanic_field hread]
  refine and_congr_right ?_
  intro _
  rw [Readable, forall_exists_index]
  exact forall₂_congr fun n _ => hnext n

end Fields

end Vcard
end MailClient
