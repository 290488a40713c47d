import MailClient.Vcard.Escapes

/-!
# Lists that survive

The conditions under which a list, a name or an address is the same after it
has been written and read.
-/

namespace MailClient
namespace Vcard

open Foundation

/-!
# Separators in what is written
-/

theorem guarded_append {sep mark : Char} {first second : List Char}
    (hfirst : Guarded sep mark first) (hsecond : Guarded sep mark second) :
    Guarded sep mark (first ++ second) := by
  intro before after heq
  rcases List.append_eq_append_iff.mp heq with
    ⟨middle, hbefore, hafter⟩ | ⟨middle, hbefore, hafter⟩
  · rw [hbefore, List.getLast?_append, hsecond middle after hafter]
    rfl
  · cases middle with
    | nil =>
        have hnone := hsecond [] after hafter.symm
        cases hnone
    | cons c middle =>
        cases hafter
        exact hfirst before middle hbefore

theorem guarded_singleton {sep mark c : Char} (h : c ≠ sep) :
    Guarded sep mark [c] := by
  intro before after heq
  have hmem : sep ∈ [c] := by
    rw [heq]
    exact List.mem_append_right before List.mem_cons_self
  exact absurd (List.mem_singleton.mp hmem).symm h

theorem guarded_pair {sep : Char} (hsep : sep ≠ '\\') (e : Char) :
    Guarded sep '\\' ['\\', e] := by
  intro before after heq
  cases before with
  | nil =>
      cases heq
      exact absurd rfl hsep
  | cons c before =>
      cases before with
      | nil =>
          cases heq
          rfl
      | cons d before =>
          have hlength := congrArg List.length heq
          simp at hlength

theorem escapeChar_cases (c : Char) :
    (escapeChar c = [c] ∧ c ≠ '\\' ∧ c ≠ ',' ∧ c ≠ ';' ∧ c ≠ '\n') ∨
      exists e, escapeChar c = ['\\', e] ∧
        (e = '\\' ∨ e = ',' ∨ e = ';' ∨ e = 'n') ∧ (c = '\\' ↔ e = '\\') := by
  unfold escapeChar
  by_cases hslash : c = '\\'
  · exact Or.inr ⟨'\\', by simp [hslash], by simp, by simp [hslash]⟩
  · by_cases hcomma : c = ','
    · exact Or.inr ⟨',', by simp [hcomma], by simp, by simp [hcomma]⟩
    · by_cases hsemicolon : c = ';'
      · exact Or.inr ⟨';', by simp [hsemicolon], by simp, by simp [hsemicolon]⟩
      · by_cases hnewline : c = '\n'
        · exact Or.inr ⟨'n', by simp [hnewline], by simp, by simp [hnewline]⟩
        · exact Or.inl ⟨by simp [hslash, hcomma, hsemicolon, hnewline], hslash,
            hcomma, hsemicolon, hnewline⟩

theorem guarded_escape {sep : Char} (hsep : sep = ',' ∨ sep = ';')
    (value : List Char) : Guarded sep '\\' (escape value) := by
  have hslash : sep ≠ '\\' := by
    rcases hsep with heq | heq
    · rw [heq]
      decide
    · rw [heq]
      decide
  unfold escape
  induction value with
  | nil =>
      intro before after heq
      cases before with
      | nil => cases heq
      | cons c before => cases heq
  | cons c rest ih =>
      rw [List.flatMap_cons]
      refine guarded_append ?_ ih
      rcases escapeChar_cases c with ⟨heq, _, hcomma, hsemicolon, _⟩ |
        ⟨e, heq, _⟩
      · rw [heq]
        refine guarded_singleton ?_
        rcases hsep with hsep | hsep
        · rw [hsep]
          exact hcomma
        · rw [hsep]
          exact hsemicolon
      · rw [heq]
        exact guarded_pair hslash e

/-- A backslash at the end. -/
def EndsInBackslash (value : List Char) : Prop :=
  value.getLast? = some '\\'

instance (value : List Char) : Decidable (EndsInBackslash value) :=
  inferInstanceAs (Decidable (_ = _))

theorem endsInBackslash_escape {value : List Char} :
    EndsInBackslash (escape value) ↔ EndsInBackslash value := by
  unfold EndsInBackslash
  rcases List.eq_nil_or_concat value with hnil | ⟨init, c, hconcat⟩
  · subst hnil
    simp [escape]
  · subst hconcat
    unfold escape
    rw [List.concat_eq_append, List.flatMap_append, List.flatMap_singleton,
      List.getLast?_append, List.getLast?_append]
    rcases escapeChar_cases c with ⟨heq, _⟩ | ⟨e, heq, _, hiff⟩
    · rw [heq]
      simp
    · rw [heq]
      simp [hiff]

theorem guarded_writeList (values : List (List Char)) :
    Guarded ';' '\\' (writeList values) := by
  unfold writeList
  induction values with
  | nil =>
      intro before after heq
      cases before with
      | nil => cases heq
      | cons c before => cases heq
  | cons value values ih =>
      cases values with
      | nil =>
          rw [List.map_cons, List.map_nil, List.intercalate_singleton]
          exact guarded_escape (Or.inr rfl) value
      | cons next values =>
          rw [List.map_cons, List.map_cons, intercalate_cons_cons]
          refine guarded_append (guarded_escape (Or.inr rfl) value) ?_
          have hcomma : Guarded ';' '\\' [','] := guarded_singleton (by decide)
          exact guarded_append hcomma ih

theorem endsInBackslash_writeList (value : List Char)
    (values : List (List Char)) :
    EndsInBackslash (writeList (value :: values)) ↔
      EndsInBackslash ((value :: values).getLast (List.cons_ne_nil _ _)) := by
  induction values generalizing value with
  | nil =>
      unfold writeList
      rw [List.map_cons, List.map_nil, List.intercalate_singleton]
      exact endsInBackslash_escape
  | cons next values ih =>
      have hwrite : writeList (value :: next :: values) =
          escape value ++ [','] ++ writeList (next :: values) := by
        unfold writeList
        rw [List.map_cons, List.map_cons, intercalate_cons_cons]
        simp
      rw [List.getLast_cons_cons, <- ih, hwrite]
      exact getLast?_append_sep (by decide) _ _

/-!
# Values in a list
-/

/-- Values that are not last have no backslash at the end. -/
def Apart (values : List (List Char)) : Prop :=
  forall value, value ∈ values.dropLast -> ¬ EndsInBackslash value

theorem splitList_writeList {values : List (List Char)} (hne : values ≠ [])
    (hapart : Apart values) :
    splitList (writeList values) ',' = values.map escape := by
  cases values with
  | nil => exact absurd rfl hne
  | cons value values =>
      rw [splitList_eq (by decide)]
      unfold writeList
      rw [List.map_cons]
      refine pieces_intercalate ?_ ?_
      · intro word hword
        rw [<- List.map_cons] at hword
        rcases List.mem_map.mp hword with ⟨v, _, heq⟩
        rw [<- heq]
        exact guarded_escape (Or.inl rfl) v
      · intro word hword
        rw [<- List.map_cons, <- List.map_dropLast] at hword
        rcases List.mem_map.mp hword with ⟨v, hv, heq⟩
        rw [<- heq]
        exact fun hlast => hapart v hv (endsInBackslash_escape.mp hlast)

theorem length_pieces_lt {sep : Char} (hsep : sep ≠ '\\')
    {words : List (List Char)} (hne : words ≠ [])
    (hguarded : forall word, word ∈ words -> Guarded sep '\\' word) :
    (splitList (List.intercalate [sep] words) sep).length ≤ words.length ∧
      (¬ Apart words ->
        (splitList (List.intercalate [sep] words) sep).length <
          words.length) := by
  cases words with
  | nil => exact absurd rfl hne
  | cons word words =>
      have hlength := length_pieces hsep hguarded []
      rw [List.nil_append] at hlength
      rw [splitList_eq hsep, List.length_cons]
      refine ⟨by omega, ?_⟩
      intro hapart
      have hcut : cutShort '\\' (word :: words) ≠ 0 := by
        intro hzero
        exact hapart (cutShort_eq_zero.mp hzero)
      omega

theorem not_apart_escape {values : List (List Char)} (h : ¬ Apart values) :
    ¬ Apart (values.map escape) := by
  intro happart
  refine h ?_
  intro value hvalue hlast
  refine happart (escape value) ?_ (endsInBackslash_escape.mpr hlast)
  rw [<- List.map_dropLast]
  exact List.mem_map_of_mem hvalue

theorem length_splitList_lt {values : List (List Char)} (hne : values ≠ [])
    (hapart : ¬ Apart values) :
    (splitList (writeList values) ',').length < values.length := by
  have hguarded : forall word, word ∈ values.map escape ->
      Guarded ',' '\\' word := by
    intro word hword
    rcases List.mem_map.mp hword with ⟨v, _, heq⟩
    rw [<- heq]
    exact guarded_escape (Or.inl rfl) v
  have hlt := (length_pieces_lt (by decide) (by simpa using hne) hguarded).right
    (not_apart_escape hapart)
  rwa [List.length_map] at hlt

/-!
# Texts
-/

/-- When a list of texts is read as it was written. -/
structure TextsSurvive (values : List (List Char)) : Prop where
  nonempty : values ≠ []
  apart : Apart values
  texts : forall value, value ∈ values ->
    ¬ LooksLikeNewline value ∧ ';' ∉ value

theorem textList_iff (values : List (List Char)) :
    TextList.ofValue (writeList values) = ⟨values.map Text.mk⟩ ↔
      TextsSurvive values := by
  unfold TextList.ofValue
  rw [TextList.mk.injEq]
  by_cases hne : values = []
  · subst hne
    constructor
    · intro h
      cases h
    · intro h
      exact absurd rfl h.nonempty
  · by_cases hapart : Apart values
    · rw [splitList_writeList hne hapart, List.map_map]
      have hnew : (Text.new ∘ escape) =
          fun value => Text.mk (readBack ['\\', ';'] value) := by
        funext value
        exact congrArg Text.mk (Text.unescape_escape value)
      rw [hnew, List.map_inj_left]
      simp only [Text.mk.injEq, readBack_text]
      exact ⟨fun h => ⟨hne, hapart, h⟩, fun h => h.texts⟩
    · constructor
      · intro h
        have hlength := congrArg List.length h
        rw [List.length_map, List.length_map] at hlength
        exact absurd hlength (Nat.ne_of_lt (length_splitList_lt hne hapart))
      · intro h
        exact absurd h.apart hapart

/-!
# Components
-/

/-- No control character but tabs and newlines. -/
def Printable (c : Char) : Prop :=
  c = '\t' ∨ c = '\n' ∨ 0x20 ≤ c.toNat ∧ c.toNat ≠ 0x7F

instance (c : Char) : Decidable (Printable c) :=
  inferInstanceAs (Decidable (_ ∨ _))

theorem isComponentChar_iff {c : Char} (hslash : c ≠ '\\') (hcomma : c ≠ ',')
    (hsemicolon : c ≠ ';') (hnewline : c ≠ '\n') :
    isComponentChar c = true ↔ Printable c := by
  have hne {d : Char} (h : c ≠ d) : c.toNat ≠ d.toNat :=
    fun heq => h (Char.toNat_inj.mp heq)
  have hslash := hne hslash
  have hcomma := hne hcomma
  have hsemicolon := hne hsemicolon
  have heq {d : Char} : c = d ↔ c.toNat = d.toNat := Char.toNat_inj.symm
  have h1 : '\\'.toNat = 0x5C := rfl
  have h2 : ','.toNat = 0x2C := rfl
  have h3 : ';'.toNat = 0x3B := rfl
  have h4 : ' '.toNat = 0x20 := rfl
  rw [h1] at hslash
  rw [h2] at hcomma
  rw [h3] at hsemicolon
  unfold isComponentChar Printable
  simp only [Bool.or_eq_true, Bool.and_eq_true, decide_eq_true_eq, hnewline,
    false_or]
  rw [heq (d := ' '), h4]
  constructor
  · intro h
    rcases h with (((((h | h) | h) | h) | h) | h) | h
    · omega
    · exact Or.inl h
    · omega
    · omega
    · omega
    · omega
    · omega
  · intro h
    rcases h with h | h
    · exact Or.inl (Or.inl (Or.inl (Or.inl (Or.inl (Or.inr h)))))
    · omega

theorem isComponentValue_escape (value : List Char) :
    isComponentValue (escape value) = true ↔
      forall c, c ∈ value -> Printable c := by
  unfold escape
  induction value with
  | nil => simp [isComponentValue]
  | cons c rest ih =>
      rw [List.flatMap_cons, List.forall_mem_cons, <- ih]
      rcases escapeChar_cases c with ⟨heq, hslash, hcomma, hsemicolon, hnewline⟩ |
        ⟨e, heq, he, _⟩
      · rw [heq, List.singleton_append, isComponentValue, Bool.and_eq_true,
          isComponentChar_iff hslash hcomma hsemicolon hnewline]
        intro d tail hc
        exact absurd hc hslash
      · have hprintable : Printable c := by
          unfold escapeChar at heq
          split at heq
          · rename_i hc
            rw [hc]
            decide
          · split at heq
            · rename_i hc
              rw [hc]
              decide
            · split at heq
              · rename_i hc
                rw [hc]
                decide
              · split at heq
                · rename_i hc
                  rw [hc]
                  decide
                · cases heq
        have hpair : (e = '\\' || e = ',' || e = ';' || e = 'n') = true := by
          simpa [or_assoc] using he
        rw [heq]
        change isComponentValue ('\\' :: e :: rest.flatMap escapeChar) = true ↔ _
        rw [isComponentValue, hpair, Bool.true_and]
        exact ⟨fun h => ⟨hprintable, h⟩, fun h => h.right⟩

theorem Component.tryFrom_escape (value : List Char) :
    Component.tryFrom (escape value) = Except.ok ⟨value⟩ ↔
      (forall c, c ∈ value -> Printable c) ∧ ¬ LooksLikeNewline value := by
  unfold Component.tryFrom
  rw [Component.unescape_escape, <- isComponentValue_escape,
    <- readBack_component]
  split
  · rename_i hvalid
    rw [Except.ok.injEq, Component.mk.injEq]
    exact (and_iff_right hvalid).symm
  · rename_i hvalid
    constructor
    · intro h
      cases h
    · intro h
      exact absurd h.left hvalid

/-- When a component is read as it was written. -/
structure ValuesSurvive (values : List (List Char)) : Prop where
  nonempty : values ≠ []
  apart : Apart values
  values : forall value, value ∈ values ->
    (forall c, c ∈ value -> Printable c) ∧ ¬ LooksLikeNewline value

theorem ListComponent.ofValue_eq {value : List Char}
    {values : List Component} (hne : values ≠ []) :
    ListComponent.ofValue value = ⟨values⟩ ↔
      (splitList value ',').mapM Component.tryFrom = Except.ok values := by
  unfold ListComponent.ofValue ListComponent.tryFrom
  cases (splitList value ',').mapM Component.tryFrom with
  | error e =>
      constructor
      · intro h
        exact absurd (congrArg ListComponent.values h).symm hne
      · intro h
        cases h
  | ok values' =>
      constructor
      · intro h
        exact congrArg Except.ok (congrArg ListComponent.values h)
      · intro h
        cases h
        rfl

theorem forall₂_map_right {arg out result : Type} {r : arg -> result -> Prop}
    {f : out -> result} {g : out -> arg} {l : List out} :
    List.Forall₂ r (l.map g) (l.map f) ↔ forall a, a ∈ l -> r (g a) (f a) := by
  rw [List.forall₂_map_left_iff, List.forall₂_map_right_iff,
    List.forall₂_same]

theorem listComponent_iff (values : List (List Char)) :
    ListComponent.ofValue (writeList values) = ⟨values.map Component.mk⟩ ↔
      ValuesSurvive values := by
  by_cases hne : values = []
  · subst hne
    constructor
    · intro h
      cases h
    · intro h
      exact absurd rfl h.nonempty
  · rw [ListComponent.ofValue_eq (by simpa using hne), mapM_eq_ok_iff]
    by_cases hapart : Apart values
    · rw [splitList_writeList hne hapart, forall₂_map_right]
      simp only [Component.tryFrom_escape]
      exact ⟨fun h => ⟨hne, hapart, h⟩, fun h => h.values⟩
    · constructor
      · intro h
        have hlength := h.length_eq
        rw [List.length_map] at hlength
        exact absurd hlength (Nat.ne_of_lt (length_splitList_lt hne hapart))
      · intro h
        exact absurd h.apart hapart

/-- When the components of a name or an address are read as written. -/
structure ComponentsSurvive (components : List (List (List Char))) : Prop where
  each : forall values, values ∈ components -> ValuesSurvive values
  apart : forall values, values ∈ components.dropLast ->
    forall value, value ∈ values -> ¬ EndsInBackslash value

theorem components_iff {components : List (List (List Char))}
    (hne : components ≠ []) :
    (splitList (writeComponents components) ';').map ListComponent.ofValue =
        components.map (fun values => ⟨values.map Component.mk⟩) ↔
      ComponentsSurvive components := by
  have hguarded : forall word, word ∈ components.map writeList ->
      Guarded ';' '\\' word := by
    intro word hword
    rcases List.mem_map.mp hword with ⟨values, _, heq⟩
    rw [<- heq]
    exact guarded_writeList values
  by_cases hapart : Apart (components.map writeList)
  · have hsplit : splitList (writeComponents components) ';' =
        components.map writeList := by
      rw [splitList_eq (by decide)]
      unfold writeComponents
      cases components with
      | nil => exact absurd rfl hne
      | cons values components => exact pieces_intercalate hguarded hapart
    rw [hsplit, List.map_map, List.map_inj_left]
    simp only [Function.comp_apply, listComponent_iff]
    constructor
    · intro h
      refine ⟨h, ?_⟩
      intro values hvalues value hvalue hlast
      have hsurvive := h values (List.dropLast_subset _ hvalues)
      rcases List.eq_nil_or_concat values with hnil | ⟨init, last, hconcat⟩
      · exact hsurvive.nonempty hnil
      · rw [List.concat_eq_append] at hconcat
        subst hconcat
        rcases List.mem_append.mp hvalue with hinit | heq
        · exact hsurvive.apart value (by simpa using hinit) hlast
        · rw [List.mem_singleton.mp heq] at hlast
          refine hapart (writeList (init ++ [last])) ?_ ?_
          · rw [<- List.map_dropLast]
            exact List.mem_map_of_mem hvalues
          · cases init with
            | nil => exact (endsInBackslash_writeList last []).mpr hlast
            | cons first init =>
                refine (endsInBackslash_writeList first (init ++ [last])).mpr ?_
                simpa using hlast
    · intro h
      exact h.each
  · constructor
    · intro h
      have hlength := congrArg List.length h
      have hlt := (length_pieces_lt (by decide) (by simpa using hne)
        hguarded).right hapart
      rw [List.length_map, List.length_map] at hlength
      rw [List.length_map] at hlt
      exact absurd hlength (Nat.ne_of_lt hlt)
    · intro h
      refine absurd ?_ hapart
      intro word hword hlast
      rw [<- List.map_dropLast] at hword
      rcases List.mem_map.mp hword with ⟨values, hvalues, heq⟩
      subst heq
      have hsurvive := h.each values (List.dropLast_subset _ hvalues)
      cases values with
      | nil => exact hsurvive.nonempty rfl
      | cons value values =>
          exact h.apart (value :: values) hvalues _ (List.getLast_mem _)
            ((endsInBackslash_writeList value values).mp hlast)

theorem length_components_le {components : List (List (List Char))}
    (hne : components ≠ []) :
    (splitList (writeComponents components) ';').length ≤
      components.length := by
  have hguarded : forall word, word ∈ components.map writeList ->
      Guarded ';' '\\' word := by
    intro word hword
    rcases List.mem_map.mp hword with ⟨values, _, heq⟩
    rw [<- heq]
    exact guarded_writeList values
  have hle := (length_pieces_lt (by decide) (by simpa using hne) hguarded).left
  rwa [List.length_map] at hle

/-!
# Names and addresses
-/

theorem nextComponent_ok {result : Type} {message : String}
    {values : List (List Char)} {r : result}
    {f : ListComponent × List (List Char) -> Except VCardError result} :
    nextComponent message values >>= f = Except.ok r ↔
      exists value rest, values = value :: rest ∧
        f (ListComponent.ofValue value, rest) = Except.ok r := by
  constructor
  · intro h
    rcases bind_eq_ok h with ⟨⟨component, rest⟩, hnext, hr⟩
    cases values with
    | nil => cases hnext
    | cons value values =>
        cases hnext
        exact ⟨value, rest, rfl, hr⟩
  · rintro ⟨value, rest, rfl, h⟩
    exact h

theorem Name.tryFrom_ok {value : List Char} {name : Name} :
    Name.tryFrom (some value) = Except.ok name ↔
      exists rest, (splitList value ';').map ListComponent.ofValue =
        [name.last, name.first, name.additional, name.prefixes,
          name.suffixes] ++ rest := by
  unfold Name.tryFrom
  simp only [nextComponent_ok]
  constructor
  · rintro ⟨v1, _, hsplit, v2, _, rfl, v3, _, rfl, v4, _, rfl, v5, rest, rfl, h⟩
    cases h
    rw [hsplit]
    exact ⟨rest.map ListComponent.ofValue, rfl⟩
  · rintro ⟨rest, h⟩
    rcases List.map_eq_cons_iff.mp h with ⟨v1, values1, hsplit, h1, h⟩
    rcases List.map_eq_cons_iff.mp h with ⟨v2, values2, rfl, h2, h⟩
    rcases List.map_eq_cons_iff.mp h with ⟨v3, values3, rfl, h3, h⟩
    rcases List.map_eq_cons_iff.mp h with ⟨v4, values4, rfl, h4, h⟩
    rcases List.map_eq_cons_iff.mp h with ⟨v5, values5, rfl, h5, _⟩
    refine ⟨v1, _, hsplit, v2, _, rfl, v3, _, rfl, v4, _, rfl, v5, _, rfl, ?_⟩
    rw [h1, h2, h3, h4, h5]
    rfl

theorem Address.tryFrom_ok {value : List Char} {address : Address} :
    Address.tryFrom (some value) = Except.ok address ↔
      exists rest, (splitList value ';').map ListComponent.ofValue =
        [address.postOfficeBox, address.extendedAddress, address.street,
          address.locality, address.region, address.postalCode,
          address.country] ++ rest := by
  unfold Address.tryFrom
  simp only [nextComponent_ok]
  constructor
  · rintro ⟨v1, _, hsplit, v2, _, rfl, v3, _, rfl, v4, _, rfl, v5, _, rfl, v6, _,
      rfl, v7, rest, rfl, h⟩
    cases h
    rw [hsplit]
    exact ⟨rest.map ListComponent.ofValue, rfl⟩
  · rintro ⟨rest, h⟩
    rcases List.map_eq_cons_iff.mp h with ⟨v1, values1, hsplit, h1, h⟩
    rcases List.map_eq_cons_iff.mp h with ⟨v2, values2, rfl, h2, h⟩
    rcases List.map_eq_cons_iff.mp h with ⟨v3, values3, rfl, h3, h⟩
    rcases List.map_eq_cons_iff.mp h with ⟨v4, values4, rfl, h4, h⟩
    rcases List.map_eq_cons_iff.mp h with ⟨v5, values5, rfl, h5, h⟩
    rcases List.map_eq_cons_iff.mp h with ⟨v6, values6, rfl, h6, h⟩
    rcases List.map_eq_cons_iff.mp h with ⟨v7, values7, rfl, h7, _⟩
    refine ⟨v1, _, hsplit, v2, _, rfl, v3, _, rfl, v4, _, rfl, v5, _, rfl, v6, _,
      rfl, v7, _, rfl, ?_⟩
    rw [h1, h2, h3, h4, h5, h6, h7]
    rfl

theorem components_exactly {components : List (List (List Char))}
    (hne : components ≠ []) :
    (exists rest,
      (splitList (writeComponents components) ';').map ListComponent.ofValue =
        components.map (fun values => ⟨values.map Component.mk⟩) ++ rest) ↔
      ComponentsSurvive components := by
  rw [<- components_iff hne]
  constructor
  · intro ⟨rest, h⟩
    have hlength := congrArg List.length h
    have hle := length_components_le hne
    rw [List.length_map, List.length_append, List.length_map] at hlength
    have hrest : rest = [] := List.eq_nil_of_length_eq_zero (by omega)
    rw [hrest, List.append_nil] at h
    exact h
  · intro h
    exact ⟨[], by rw [h, List.append_nil]⟩

/-- The values of the components of a name. -/
def Name.components (name : Name) : List (List (List Char)) :=
  [name.last, name.first, name.additional, name.prefixes, name.suffixes].map
    ListComponent.written

def Address.components (address : Address) : List (List (List Char)) :=
  [address.postOfficeBox, address.extendedAddress, address.street,
    address.locality, address.region, address.postalCode,
    address.country].map ListComponent.written

theorem map_written (components : List ListComponent) :
    (components.map ListComponent.written).map
      (fun values => ListComponent.mk (values.map Component.mk)) =
        components := by
  rw [List.map_map]
  refine (List.map_congr_left ?_).trans (List.map_id components)
  intro component _
  change ListComponent.mk ((component.values.map _).map _) = component
  rw [List.map_map]
  exact congrArg ListComponent.mk (List.map_id component.values)

/--
Lists of texts, names and addresses are read as they were written under these
conditions, and under no others.
-/
theorem lists_survive_iff (values : List (List Char)) (name : Name)
    (address : Address) :
    (TextList.ofValue (writeList values) = ⟨values.map Text.mk⟩ ↔
        TextsSurvive values) ∧
      (Name.tryFrom (some name.write) = Except.ok name ↔
        ComponentsSurvive name.components) ∧
      (Address.tryFrom (some address.write) = Except.ok address ↔
        ComponentsSurvive address.components) := by
  refine ⟨textList_iff values, ?_, ?_⟩
  · have hiff := components_exactly
      (show name.components ≠ [] from List.cons_ne_nil _ _)
    rw [Name.tryFrom_ok, <- hiff]
    unfold Name.components
    rw [map_written]
    rfl
  · have hiff := components_exactly
      (show address.components ≠ [] from List.cons_ne_nil _ _)
    rw [Address.tryFrom_ok, <- hiff]
    unfold Address.components
    rw [map_written]
    rfl

/-- A semicolon in a text stays escaped. -/
theorem semicolon_stays :
    TextList.ofValue (writeList [['a', ';', 'b']]) ≠
      ⟨[⟨['a', ';', 'b']⟩]⟩ := by
  decide

end Vcard
end MailClient
