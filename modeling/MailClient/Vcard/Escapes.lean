import MailClient.Foundation.Transition
import MailClient.Vcard.Lists

/-!
# What survives escaping

Unescaping replaces one pair of characters after another in the whole text, so
that an escaped backslash before an `n` is taken for a newline, and a separator
after an escaped backslash for an escaped separator.
-/

namespace MailClient
namespace Vcard

open Foundation

/-!
# Cutting
-/

theorem findIdx?_separator {separator : Char} {rest : List Char} {position : Nat}
    (h : rest.findIdx? (· = separator) = some position) :
    separator ∉ rest.take position ∧ rest[position]? = some separator ∧
      rest = rest.take position ++ separator :: rest.drop (position + 1) := by
  rcases List.findIdx?_eq_some_iff_getElem.mp h with ⟨hlt, hsep, hbefore⟩
  have hat : rest[position] = separator := of_decide_eq_true hsep
  refine ⟨?_, ?_, ?_⟩
  · intro hmem
    rcases List.mem_take_iff_getElem.mp hmem with ⟨i, hi, heq⟩
    exact hbefore i (by omega) (decide_eq_true heq)
  · rw [List.getElem?_eq_getElem hlt, hat]
  · rw [<- hat, List.getElem_cons_drop, List.take_append_drop]

theorem splitLoop_eq {value : List Char} {separator : Char}
    (hsep : separator ≠ '\\') {fuel offset start : Nat}
    (hfuel : value.length < fuel + offset) (hoffset : offset ≤ value.length)
    (hstart : start ≤ offset)
    (hbefore : start = 0 ∨ value[start - 1]? = some separator)
    (result : List (List Char)) :
    splitLoop value separator fuel offset start result =
      result ++ pieces separator '\\' ((value.take offset).drop start)
        (value.drop offset) := by
  induction fuel generalizing offset start result with
  | zero => omega
  | succ fuel ih =>
      rw [splitLoop]
      cases hfind : (value.drop offset).findIdx? (· = separator) with
      | none =>
          have hnone : separator ∉ value.drop offset := by
            intro hmem
            have hfalse := List.findIdx?_eq_none_iff.mp hfind separator hmem
            simp at hfalse
          rw [pieces_of_not_mem hnone]
          have happend : (value.take offset).drop start ++ value.drop offset =
              value.drop start := by
            conv_rhs => rw [<- List.take_append_drop offset value]
            rw [List.drop_append_of_le_length]
            rw [List.length_take]
            omega
          rw [happend]
      | some position =>
          rcases findIdx?_separator hfind with ⟨hmem, hat, hrest⟩
          rw [List.getElem?_drop] at hat
          have hlt : offset + position < value.length :=
            (List.getElem?_eq_some_iff.mp hat).choose
          -- the word up to the separator
          have hword : (value.take offset).drop start ++
                (value.drop offset).take position =
              (value.take (offset + position)).drop start := by
            rw [List.take_add, List.drop_append_of_le_length]
            rw [List.length_take]
            omega
          have hnext : (value.take (offset + position)).drop start ++
                [separator] =
              (value.take (offset + position + 1)).drop start := by
            rw [List.take_add_one, hat, List.drop_append_of_le_length]
            · rfl
            · rw [List.length_take]
              omega
          have hguarded : Guarded separator '\\'
              ((value.drop offset).take position) := by
            intro before after heq
            rw [heq] at hmem
            exact absurd (List.mem_append_right before List.mem_cons_self) hmem
          have hpieces : pieces separator '\\'
                ((value.take offset).drop start) (value.drop offset) =
              pieces separator '\\'
                ((value.take (offset + position)).drop start)
                (separator :: value.drop (offset + position + 1)) := by
            have hsplit := pieces_of_guarded hguarded
              ((value.take offset).drop start)
              (separator :: (value.drop offset).drop (position + 1))
            rw [<- hrest, hword, List.drop_drop] at hsplit
            exact hsplit
          have hempty : (value.take (offset + position + 1)).drop
              (offset + position + 1) = [] := by
            rw [List.drop_eq_nil_iff, List.length_take]
            omega
          rw [hpieces, pieces]
          dsimp only
          by_cases hfirst : offset + position + 1 < 2
          · have hzero : offset + position = 0 := by omega
            have hword : (value.take (offset + position)).drop start = [] := by
              rw [hzero]
              simp
            rw [if_pos hfirst, hword, if_pos ⟨rfl, by simp⟩,
              ih (by omega) (by omega) (by omega) (Or.inr hat), hempty,
              List.append_assoc]
            rfl
          · rw [if_neg hfirst]
            -- the character before the separator
            have hiff : value[offset + position + 1 - 2]? ≠ some '\\' ↔
                ((value.take (offset + position)).drop start).getLast? ≠
                  some '\\' := by
              have hindex : offset + position + 1 - 2 = offset + position - 1 := by
                omega
              rw [hindex]
              by_cases hnil : start = offset + position
              · have hlast : ((value.take (offset + position)).drop
                    start).getLast? = none := by
                  rw [List.getLast?_eq_none_iff, List.drop_eq_nil_iff,
                    List.length_take]
                  omega
                have hprevious : value[offset + position - 1]? =
                    some separator := by
                  rcases hbefore with hzero | hprevious
                  · omega
                  · rw [hnil] at hprevious
                    exact hprevious
                rw [hlast, hprevious]
                simp [hsep]
              · rw [List.getLast?_drop, if_neg, List.getLast?_take, if_neg]
                · have hsome : value[offset + position - 1]? =
                      some value[offset + position - 1] :=
                    List.getElem?_eq_getElem (by omega)
                  rw [hsome]
                  rfl
                · omega
                · rw [List.length_take]
                  omega
            by_cases hlast : value[offset + position + 1 - 2]? ≠ some '\\'
            · rw [if_pos hlast, if_pos ⟨rfl, hiff.mp hlast⟩,
                ih (by omega) (by omega) (by omega) (Or.inr hat), hempty,
                List.append_assoc]
              rfl
            · rw [if_neg hlast, if_neg (fun h => hlast (hiff.mpr h.right)),
                ih (by omega) (by omega) (by omega) hbefore, hnext]

theorem splitList_eq {separator : Char} (hsep : separator ≠ '\\')
    (value : List Char) :
    splitList value separator = pieces separator '\\' [] value := by
  unfold splitList
  rw [splitLoop_eq hsep (by omega) (Nat.zero_le _) (Nat.le_refl 0)
    (Or.inl rfl)]
  rfl

/-!
# Unescaping
-/

section Unescaping

variable {semicolon : List Char}

/-- A token stands for one character; `d` is not among those left alone. -/
def Token (d : Char) (token : List Char) : Prop :=
  exists e, (token = [e] ∧ e ≠ '\\' ∧ e ≠ d) ∨ (token = ['\\', e] ∧ e ≠ d)

theorem replace_tokens {d : Char} (hd : d ≠ '\\') {f : Char -> List Char}
    (hpair : f d = ['\\', d]) (htoken : forall c, c ≠ d -> Token d (f c))
    (value : List Char) :
    replace ['\\', d] [d] (value.flatMap f) =
      value.flatMap (fun c => if c = d then [d] else f c) := by
  induction value with
  | nil => rfl
  | cons c rest ih =>
      rw [List.flatMap_cons, List.flatMap_cons, <- ih]
      by_cases hc : c = d
      · subst hc
        rw [hpair, if_pos rfl]
        exact replace_pair
      · rw [if_neg hc]
        -- what comes next is not taken for the second character
        have hnext : (rest.flatMap f).head? ≠ some d := by
          cases rest with
          | nil => simp
          | cons next rest =>
              rw [List.flatMap_cons]
              by_cases hnext : next = d
              · subst hnext
                rw [hpair]
                simpa using Ne.symm hd
              · rcases htoken next hnext with ⟨e, ⟨heq, _, he⟩ | ⟨heq, _⟩⟩
                · rw [heq]
                  simpa using he
                · rw [heq]
                  simpa using Ne.symm hd
        rcases htoken c hc with ⟨e, ⟨heq, hslash, _⟩ | ⟨heq, he⟩⟩
        · rw [heq]
          exact replace_other hslash
        · rw [heq]
          have hfirst : (e :: rest.flatMap f).head? ≠ some d := by
            simpa using he
          change replace _ _ ('\\' :: e :: rest.flatMap f) = _
          rw [replace_alone hfirst, replace_alone hnext]
          rfl

/-- The characters once commas, and maybe semicolons, are unescaped. -/
def unescapedChar (semicolon : List Char) (c : Char) : List Char :=
  if c = '\\' then ['\\', '\\']
  else if c = ',' then [',']
  else if c = ';' then semicolon
  else if c = '\n' then ['\\', 'n']
  else [c]

theorem replace_comma (value : List Char) :
    replace ['\\', ','] [','] (escape value) =
      value.flatMap (unescapedChar ['\\', ';']) := by
  unfold escape
  rw [replace_tokens (by decide) (by decide)]
  · congr 1
    funext c
    unfold escapeChar unescapedChar
    by_cases hslash : c = '\\'
    · subst hslash
      rfl
    · simp only [hslash, if_false]
      split <;> rfl
  · intro c hc
    unfold Token escapeChar
    by_cases hslash : c = '\\'
    · exact ⟨'\\', Or.inr ⟨if_pos hslash, by decide⟩⟩
    · by_cases hsemicolon : c = ';'
      · exact ⟨';', Or.inr ⟨by simp [hsemicolon], by decide⟩⟩
      · by_cases hnewline : c = '\n'
        · exact ⟨'n', Or.inr ⟨by simp [hnewline], by decide⟩⟩
        · exact ⟨c, Or.inl ⟨by simp [hslash, hc, hsemicolon, hnewline], hslash,
            hc⟩⟩

theorem replace_semicolon (value : List Char) :
    replace ['\\', ';'] [';']
        (value.flatMap (unescapedChar ['\\', ';'])) =
      value.flatMap (unescapedChar [';']) := by
  rw [replace_tokens (by decide) (by decide)]
  · congr 1
    funext c
    unfold unescapedChar
    by_cases hsemicolon : c = ';'
    · subst hsemicolon
      rfl
    · simp only [hsemicolon, if_false]
  · intro c hc
    unfold Token unescapedChar
    by_cases hslash : c = '\\'
    · exact ⟨'\\', Or.inr ⟨if_pos hslash, by decide⟩⟩
    · by_cases hcomma : c = ','
      · exact ⟨',', Or.inl ⟨by simp [hcomma], by decide⟩⟩
      · by_cases hnewline : c = '\n'
        · exact ⟨'n', Or.inr ⟨by simp [hnewline], by decide⟩⟩
        · exact ⟨c, Or.inl ⟨by simp [hslash, hc, hcomma, hnewline], hslash,
            hc⟩⟩

/-- What is left once newlines are unescaped as well. -/
def beforeBackslashes (semicolon : List Char) : List Char -> List Char
  | [] => []
  | '\\' :: 'n' :: rest => '\\' :: '\n' :: beforeBackslashes semicolon rest
  | c :: rest =>
      (if c = '\\' then ['\\', '\\'] else if c = ';' then semicolon else [c]) ++
        beforeBackslashes semicolon rest

/-- A value as it is read back. -/
def readBack (semicolon : List Char) : List Char -> List Char
  | [] => []
  | '\\' :: 'n' :: rest => '\\' :: '\n' :: readBack semicolon rest
  | c :: rest =>
      (if c = ';' then semicolon else [c]) ++ readBack semicolon rest

/-- How semicolons are left: unescaped or not. -/
def Semicolon (semicolon : List Char) : Prop :=
  semicolon = [';'] ∨ semicolon = ['\\', ';']

theorem head?_unescaped (hsemicolon : Semicolon semicolon) {value : List Char}
    (h : value.head? ≠ some 'n') :
    (value.flatMap (unescapedChar semicolon)).head? ≠ some 'n' := by
  cases value with
  | nil => simp
  | cons c rest =>
      have hc : c ≠ 'n' := by
        intro heq
        exact h (by rw [heq]; rfl)
      rw [List.flatMap_cons]
      unfold unescapedChar
      split
      · simp
      · split
        · simp
        · split
          · rcases hsemicolon with heq | heq
            · simp [heq]
            · simp [heq]
          · split
            · simp
            · simpa using hc

theorem replace_newline (hsemicolon : Semicolon semicolon)
    (value : List Char) :
    replace ['\\', 'n'] ['\n'] (value.flatMap (unescapedChar semicolon)) =
      beforeBackslashes semicolon value := by
  fun_induction beforeBackslashes semicolon value with
  | case1 => rfl
  | case2 rest ih =>
      rw [List.flatMap_cons, List.flatMap_cons]
      change replace _ _ ('\\' :: '\\' :: 'n' ::
        rest.flatMap (unescapedChar semicolon)) = _
      rw [replace_alone (by simp), replace_pair, ih]
      rfl
  | case3 c rest hnext ih =>
      rw [List.flatMap_cons, <- ih]
      by_cases hslash : c = '\\'
      · have hhead : rest.head? ≠ some 'n' := by
          intro hhead
          cases rest with
          | nil => cases hhead
          | cons d rest =>
              cases Option.some.inj hhead
              exact hnext rest hslash rfl
        subst hslash
        change replace _ _ ('\\' :: '\\' ::
          rest.flatMap (unescapedChar semicolon)) = _
        rw [replace_alone (by simp),
          replace_alone (head?_unescaped hsemicolon hhead)]
        rfl
      · by_cases hsemi : c = ';'
        · subst hsemi
          rcases hsemicolon with heq | heq
          · subst heq
            exact replace_other (by decide)
          · subst heq
            change replace _ _ ('\\' :: ';' :: _) = _
            rw [replace_alone (by simp), replace_other (by decide)]
            rfl
        · by_cases hnewline : c = '\n'
          · subst hnewline
            exact replace_pair
          · have hsame : unescapedChar semicolon c = [c] := by
              unfold unescapedChar
              by_cases hcomma : c = ','
              · simp [hcomma]
              · simp [hslash, hcomma, hsemi, hnewline]
            rw [hsame, if_neg hslash, if_neg hsemi]
            exact replace_other hslash

theorem replace_backslash (hsemicolon : Semicolon semicolon)
    (value : List Char) :
    replace ['\\', '\\'] ['\\'] (beforeBackslashes semicolon value) =
      readBack semicolon value := by
  fun_induction beforeBackslashes semicolon value with
  | case1 => rfl
  | case2 rest ih =>
      rw [replace_alone (by simp), replace_other (by decide), ih]
      rfl
  | case3 c rest hnext ih =>
      rw [readBack, <- ih]
      · by_cases hslash : c = '\\'
        · subst hslash
          exact replace_pair
        · rw [if_neg hslash]
          by_cases hsemi : c = ';'
          · rw [if_pos hsemi]
            rcases hsemicolon with heq | heq
            · subst heq
              exact replace_other (by decide)
            · subst heq
              change replace _ _ ('\\' :: ';' :: _) = _
              rw [replace_alone (by simp), replace_other (by decide)]
              rfl
          · rw [if_neg hsemi]
            exact replace_other hslash
      · exact hnext

theorem Text.unescape_escape (value : List Char) :
    Text.unescape (escape value) = readBack ['\\', ';'] value := by
  unfold Text.unescape
  rw [replace_comma, replace_newline (Or.inr rfl),
    replace_backslash (Or.inr rfl)]

theorem Component.unescape_escape (value : List Char) :
    Component.unescape (escape value) = readBack [';'] value := by
  unfold Component.unescape
  rw [replace_comma, replace_semicolon, replace_newline (Or.inl rfl),
    replace_backslash (Or.inl rfl)]

/-- A backslash stands right before the letter n. -/
def LooksLikeNewline (value : List Char) : Prop :=
  ['\\', 'n'] <:+: value

theorem readBack_component (value : List Char) :
    readBack [';'] value = value ↔ ¬ LooksLikeNewline value := by
  unfold LooksLikeNewline
  fun_induction readBack [';'] value with
  | case1 => simp
  | case2 rest ih =>
      constructor
      · intro h
        simp at h
      · intro h
        exact absurd (List.prefix_append ['\\', 'n'] rest).isInfix h
  | case3 c rest hnext ih =>
      have hchar : (if c = ';' then [';'] else [c]) = [c] := by
        split
        · rename_i hc
          rw [hc]
        · rfl
      rw [hchar, List.singleton_append, List.cons.injEq,
        and_iff_right rfl, ih, List.infix_cons_iff, not_or]
      refine (and_iff_right ?_).symm
      intro hprefix
      rcases hprefix with ⟨tail, htail⟩
      cases htail
      exact hnext tail rfl rfl

theorem readBack_text (value : List Char) :
    readBack ['\\', ';'] value = value ↔
      ¬ LooksLikeNewline value ∧ ';' ∉ value := by
  unfold LooksLikeNewline
  fun_induction readBack ['\\', ';'] value with
  | case1 => simp
  | case2 rest ih =>
      constructor
      · intro h
        simp at h
      · intro h
        exact absurd (List.prefix_append ['\\', 'n'] rest).isInfix h.left
  | case3 c rest hnext ih =>
      by_cases hc : c = ';'
      · subst hc
        simp
      · have hprefix : ¬ ['\\', 'n'] <+: c :: rest := by
          intro ⟨tail, htail⟩
          cases htail
          exact hnext tail rfl rfl
        rw [if_neg hc, List.singleton_append, List.cons.injEq,
          and_iff_right rfl, ih, List.infix_cons_iff, List.mem_cons]
        simp only [ hprefix, Ne.symm hc, false_or]

end Unescaping

end Vcard
end MailClient
