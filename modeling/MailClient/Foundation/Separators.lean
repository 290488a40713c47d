import Mathlib.Data.List.Basic

/-!
# Pieces of a text

A text is cut at its separators, but not at those that follow a mark.  Joined
words are the pieces again as long as no word but the last ends in the mark.
-/

namespace MailClient
namespace Foundation

section Pieces

variable (sep mark : Char)

/-- The pieces of a text, of which the first has begun already. -/
def pieces : List Char -> List Char -> List (List Char)
  | piece, [] => [piece]
  | piece, c :: rest =>
      if c = sep ∧ piece.getLast? ≠ some mark then piece :: pieces [] rest
      else pieces (piece ++ [c]) rest

/-- Each separator in a word comes after a mark. -/
def Guarded (word : List Char) : Prop :=
  forall before after, word = before ++ sep :: after ->
    before.getLast? = some mark

end Pieces

variable {sep mark : Char}

theorem pieces_of_guarded {word : List Char} (h : Guarded sep mark word)
    (piece rest : List Char) :
    pieces sep mark piece (word ++ rest) =
      pieces sep mark (piece ++ word) rest := by
  have hgeneral : forall (word piece : List Char),
      (forall before after, word = before ++ sep :: after ->
        (piece ++ before).getLast? = some mark) ->
      pieces sep mark piece (word ++ rest) =
        pieces sep mark (piece ++ word) rest := by
    intro word
    induction word with
    | nil =>
        intro piece _
        rw [List.nil_append, List.append_nil]
    | cons c word ih =>
        intro piece hguard
        rw [List.cons_append, pieces, if_neg, ih, List.append_assoc]
        · rfl
        · intro before after heq
          have hfirst := hguard (c :: before) after (by rw [heq]; rfl)
          rwa [List.append_cons] at hfirst
        · intro ⟨hsep, hlast⟩
          have hfirst := hguard [] word (by rw [hsep]; rfl)
          rw [List.append_nil] at hfirst
          exact hlast hfirst
  refine hgeneral word piece ?_
  intro before after heq
  rw [List.getLast?_append, h before after heq]
  rfl

theorem pieces_of_not_mem {sep mark : Char} {rest : List Char} (h : sep ∉ rest)
    (piece : List Char) : pieces sep mark piece rest = [piece ++ rest] := by
  have hguarded : Guarded sep mark rest := by
    intro before after heq
    rw [heq] at h
    exact absurd (List.mem_append_right before List.mem_cons_self) h
  have happend := pieces_of_guarded hguarded piece []
  rw [List.append_nil] at happend
  rw [happend]
  rfl

/-- The words but the last that end in the mark. -/
def cutShort (mark : Char) (words : List (List Char)) : Nat :=
  words.dropLast.countP (fun word => word.getLast? = some mark)

theorem getLast?_append_sep (hsep : sep ≠ mark) (piece word : List Char) :
    (piece ++ [sep] ++ word).getLast? = some mark ↔
      word.getLast? = some mark := by
  rw [List.getLast?_append]
  cases hword : word.getLast? with
  | none => simp [hsep]
  | some c => simp

theorem intercalate_cons_cons (sep : Char) (word next : List Char)
    (words : List (List Char)) :
    List.intercalate [sep] (word :: next :: words) =
      word ++ sep :: List.intercalate [sep] (next :: words) := by
  rw [List.intercalate_cons_cons]
  simp

theorem length_pieces (hsep : sep ≠ mark) {word : List Char}
    {words : List (List Char)}
    (h : forall w, w ∈ word :: words -> Guarded sep mark w)
    (piece : List Char) :
    (pieces sep mark piece (List.intercalate [sep] (word :: words))).length +
        cutShort mark ((piece ++ word) :: words) = words.length + 1 := by
  induction words generalizing word piece with
  | nil =>
      have hword := h word List.mem_cons_self
      have happend := pieces_of_guarded hword piece []
      rw [List.append_nil] at happend
      rw [List.intercalate_singleton, happend]
      rfl
  | cons next words ih =>
      have hword := h word List.mem_cons_self
      have hrest : forall w, w ∈ next :: words -> Guarded sep mark w :=
        fun w hw => h w (List.mem_cons_of_mem word hw)
      rw [intercalate_cons_cons, pieces_of_guarded hword, pieces]
      by_cases hlast : (piece ++ word).getLast? = some mark
      · rw [if_neg (fun hsplit => hsplit.right hlast)]
        have hnext := ih hrest (piece ++ word ++ [sep])
        have hcut : cutShort mark ((piece ++ word) :: next :: words) =
            cutShort mark ((piece ++ word ++ [sep] ++ next) :: words) + 1 := by
          cases words with
          | nil => simp [cutShort, hlast]
          | cons other words =>
              simp only [cutShort, List.dropLast_cons_cons, List.countP_cons,
                hlast, getLast?_append_sep hsep, decide_true, if_true]
        rw [hcut, List.length_cons]
        omega
      · rw [if_pos ⟨rfl, hlast⟩, List.length_cons, List.length_cons]
        have hnext := ih hrest []
        rw [List.nil_append] at hnext
        have hcut : cutShort mark ((piece ++ word) :: next :: words) =
            cutShort mark (next :: words) := by
          simp only [cutShort, List.dropLast_cons_cons, List.countP_cons, hlast,
            decide_false, Bool.false_eq_true, if_false, Nat.add_zero]
        rw [hcut]
        omega

theorem pieces_intercalate {word : List Char} {words : List (List Char)}
    (h : forall w, w ∈ word :: words -> Guarded sep mark w)
    (hcut : forall w, w ∈ (word :: words).dropLast -> w.getLast? ≠ some mark) :
    pieces sep mark [] (List.intercalate [sep] (word :: words)) =
      word :: words := by
  induction words generalizing word with
  | nil =>
      have hword := h word List.mem_cons_self
      have happend := pieces_of_guarded hword [] []
      rw [List.append_nil, List.nil_append] at happend
      rw [List.intercalate_singleton, happend]
      rfl
  | cons next words ih =>
      have hword := h word List.mem_cons_self
      have hlast : word.getLast? ≠ some mark :=
        hcut word List.mem_cons_self
      rw [intercalate_cons_cons, pieces_of_guarded hword, List.nil_append,
        pieces, if_pos ⟨rfl, hlast⟩,
        ih (fun w hw => h w (List.mem_cons_of_mem word hw))
          (fun w hw => hcut w (List.mem_cons_of_mem word hw))]

theorem cutShort_eq_zero {words : List (List Char)} :
    cutShort mark words = 0 ↔
      forall w, w ∈ words.dropLast -> w.getLast? ≠ some mark := by
  unfold cutShort
  rw [List.countP_eq_zero]
  simp only [decide_eq_true_eq]

/-!
# Replacing
-/

/--
Each occurrence of a pattern is replaced, from the left and without overlaps.
The number says how many characters belong to an occurrence still.
-/
def replaceFrom (pattern new : List Char) : Nat -> List Char -> List Char
  | _, [] => []
  | skip + 1, _ :: rest => replaceFrom pattern new skip rest
  | 0, c :: rest =>
      if pattern.isPrefixOf (c :: rest) then
        new ++ replaceFrom pattern new (pattern.length - 1) rest
      else
        c :: replaceFrom pattern new 0 rest

/-- The pattern is not empty. -/
def replace (pattern new text : List Char) : List Char :=
  replaceFrom pattern new 0 text

section Pairs

variable {a b c : Char} {new rest : List Char}

theorem replace_pair :
    replace [a, b] new (a :: b :: rest) = new ++ replace [a, b] new rest := by
  unfold replace
  rw [replaceFrom]
  simp [List.isPrefixOf, replaceFrom]

theorem replace_other (h : c ≠ a) :
    replace [a, b] new (c :: rest) = c :: replace [a, b] new rest := by
  unfold replace
  rw [replaceFrom]
  simp [List.isPrefixOf, Ne.symm h]

theorem replace_alone (h : rest.head? ≠ some b) :
    replace [a, b] new (c :: rest) = c :: replace [a, b] new rest := by
  unfold replace
  rw [replaceFrom]
  cases rest with
  | nil => simp [List.isPrefixOf]
  | cons d rest =>
      have hd : b ≠ d := by
        intro heq
        exact h (by rw [heq]; rfl)
      simp [List.isPrefixOf, hd]

end Pairs

end Foundation
end MailClient
