import ChartQuery.Proofs.Sql.MaskedText
import ChartQuery.Sql.Token

/-!
# How a query text begins

The database tries the kinds of pieces one after the other: each is tried only where none of those
before it is there. The kinds exclude one another by their first characters, so that the order of
the tries does not matter. What stands in front of a text is thus one of a few cases, each with the
conditions of its own kind only; the symbols alone are what is left over.

## Main definitions

* `Unescapes cs body rest`: the content of a string with escapes
* `Begins c r token rest`: what stands in front of a text, by kind

## Main results

* `begins_of_step`, `Begins.step_eq`: these cases are the steps of the database
-/

namespace ChartQuery.Sql

open Text (apostrophe doubleQuote backslash isWordChar)

/-! ## Characters -/

/-- The code points of the blanks between tokens. -/
def tokenBlanks : List Nat :=
  [32, 9, 10, 11, 12, 13, 0xA0, 0x2000, 0x2001, 0x2002, 0x2003, 0x2004, 0x2005, 0x2006, 0x2007,
    0x2008, 0x2009, 0x200A, 0x200B, 0x200C, 0x200D, 0x202F, 0x205F, 0x2060, 0x3000, 0xFEFF]

theorem mem_tokenBlanks {c : Char} (h : isTokenBlank c = true) : c.toNat ∈ tokenBlanks := by
  simp only [isTokenBlank, Bool.or_eq_true, Bool.and_eq_true, beq_iff_eq, decide_eq_true_eq] at h
  simp only [tokenBlanks, List.mem_cons, List.not_mem_nil, or_false]
  omega

theorem isWordChar_of_isTokenBlank {c : Char} (h : isTokenBlank c = true) :
    isWordChar c = false := by
  have hall : ∀ n ∈ tokenBlanks, isWordChar (Char.ofNat n) = false := by decide +kernel
  rw [← Char.ofNat_toNat c]
  exact hall _ (mem_tokenBlanks h)

theorem continuesTag_of_isWordChar {c : Char} (h : isWordChar c = true) :
    continuesTag c = true := by
  have hblank : isTokenBlank c = false := by
    by_contra hb
    rw [isWordChar_of_isTokenBlank (by simpa using hb)] at h
    exact absurd h (by decide)
  rw [isWordChar] at h
  split at h
  · rename_i hc
    simp [continuesTag, isNameChar, hc, h]
  · rename_i hc
    simp [continuesTag, isForeign, hblank, Nat.le_of_not_lt hc]

theorem continuesWord_of_continuesTag {c : Char} (h : continuesTag c = true) :
    continuesWord c = true := by
  rw [continuesTag, Bool.or_eq_true] at h
  rcases h with h | h <;> simp [continuesWord, h]

theorem continuesTag_of_startsWord {c : Char} (h : startsWord c = true) :
    continuesTag c = true := by
  rw [startsWord, Bool.or_eq_true, Bool.and_eq_true] at h
  rcases h with h | h <;> simp [continuesTag, h]

theorem continuesTag_of_isDigit {c : Char} (h : c.isDigit = true) : continuesTag c = true := by
  simp [continuesTag, isNameChar_of_isDigit h]

theorem startsWord_of_not_continuesTag {c : Char} (h : continuesTag c = false) :
    startsWord c = false := by
  by_contra hs
  rw [continuesTag_of_startsWord (by simpa using hs)] at h
  exact absurd h (by decide)

theorem notMem_markChars {c : Char} (h : continuesTag c = true) : c ∉ markChars := by
  intro hc
  simp only [markChars, List.mem_cons, List.not_mem_nil, or_false] at hc
  rcases hc with rfl | rfl | rfl | rfl | rfl <;> exact absurd h (by decide)

theorem isTokenBlank_of_continuesTag {c : Char} (h : continuesTag c = true) :
    isTokenBlank c = false := by
  rw [continuesTag, Bool.or_eq_true] at h
  rcases h with h | h
  · by_contra hblank
    have hword := isWordChar_of_isTokenBlank (by simpa using hblank)
    simp only [isNameChar, Bool.and_eq_true, decide_eq_true_eq] at h
    simp [isWordChar, h] at hword
  · simp only [isForeign, Bool.and_eq_true, Bool.not_eq_true'] at h
    exact h.2

theorem head?_dropWhile {p : Char → Bool} {cs : List Char} {c : Char}
    (h : (cs.dropWhile p).head? = some c) : p c = false := by
  have hnot := List.head?_dropWhile_not p cs
  simpa [h] using hnot

/-! ## Strings with escapes -/

theorem numberedChar?_suffix {base most : Nat} {cs rest : List Char} {d : Char}
    (h : numberedChar? base most cs = some (d, rest)) : rest <:+ cs := by
  simp only [numberedChar?] at h
  split at h
  case isTrue => simp at h
  case isFalse =>
    obtain ⟨-, rfl⟩ := Prod.mk.inj (Option.some.inj h)
    exact List.drop_suffix _ _

theorem escapedChar_suffix (d : Char) (r : List Char) : (escapedChar d r).2 <:+ d :: r := by
  have hcons : r <:+ d :: r := List.suffix_cons d r
  have hget {base most : Nat} {cs : List Char} (e : Char) (hcs : cs <:+ d :: r) :
      ((numberedChar? base most cs).getD (e, r)).2 <:+ d :: r := by
    cases hn : numberedChar? base most cs with
    | none => exact hcons
    | some p => exact (numberedChar?_suffix hn).trans hcs
  simp only [escapedChar]
  repeat' split
  all_goals
    first
    | exact hget _ hcons
    | exact hget _ (List.suffix_refl _)

/-- The content of a string with escapes, up to the apostrophe that closes it, and the rest. -/
inductive Unescapes : List Char → List Char → List Char → Prop
  | close {r : List Char} (hr : r.head? ≠ some apostrophe) : Unescapes (apostrophe :: r) [] r
  | doubled {r body rest : List Char} (h : Unescapes r body rest) :
    Unescapes (apostrophe :: apostrophe :: r) (apostrophe :: body) rest
  | escape {d : Char} {r body rest : List Char} (h : Unescapes (escapedChar d r).2 body rest) :
    Unescapes (backslash :: d :: r) ((escapedChar d r).1 :: body) rest
  | plain {c : Char} {r body rest : List Char} (hslash : c ≠ backslash) (hquote : c ≠ apostrophe)
    (h : Unescapes r body rest) : Unescapes (c :: r) (c :: body) rest

theorem unescapes_of_escapedContent? {fuel : Nat} {cs body rest : List Char}
    (h : escapedContent? fuel cs = some (body, rest)) : Unescapes cs body rest := by
  fun_induction escapedContent? fuel cs generalizing body rest with
  | case1 => simp at h
  | case2 => simp at h
  | case3 => simp at h
  | case4 _ _ d r =>
    rename_i ih
    -- a character behind a backslash
    obtain ⟨⟨body', rest'⟩, hrest, he⟩ := Option.map_eq_some_iff.1 h
    obtain ⟨rfl, rfl⟩ := Prod.mk.inj he
    exact .escape (ih _ hrest)
  | case5 =>
    -- the apostrophe at the end of the text
    obtain ⟨rfl, rfl⟩ := Prod.mk.inj (Option.some.inj h)
    exact .close (by simp)
  | case6 _ _ r =>
    rename_i ih
    -- one of two apostrophes
    obtain ⟨⟨body', rest'⟩, hrest, he⟩ := Option.map_eq_some_iff.1 h
    obtain ⟨rfl, rfl⟩ := Prod.mk.inj he
    exact .doubled (ih _ hrest)
  | case7 _ d r hd =>
    -- an apostrophe with something else behind it
    obtain ⟨rfl, rfl⟩ := Prod.mk.inj (Option.some.inj h)
    exact .close (by simpa using hd)
  | case8 _ c r _ hslash hquote =>
    rename_i ih
    obtain ⟨⟨body', rest'⟩, hrest, he⟩ := Option.map_eq_some_iff.1 h
    obtain ⟨rfl, rfl⟩ := Prod.mk.inj he
    exact .plain hslash hquote (ih _ hrest)

theorem exists_of_length_cons_le {c : Char} {cs : List Char} {fuel : Nat}
    (h : (c :: cs).length ≤ fuel) : ∃ n, fuel = n + 1 ∧ cs.length ≤ n :=
  ⟨fuel - 1, by grind, by grind⟩

/-- Each character of a string takes one of the text at least, so that the fuel of a step is
enough. -/
theorem Unescapes.escapedContent?_eq {cs body rest : List Char} (h : Unescapes cs body rest)
    {fuel : Nat} (hfuel : cs.length ≤ fuel) : escapedContent? fuel cs = some (body, rest) := by
  have hne : apostrophe ≠ backslash := by decide
  induction h generalizing fuel with
  | @close r hr =>
    obtain ⟨fuel, rfl, -⟩ := exists_of_length_cons_le hfuel
    cases r with
    | nil => simp [escapedContent?, hne]
    | cons d r =>
      have hd : d ≠ apostrophe := fun he => hr (congrArg some he)
      simp [escapedContent?, hne, hd]
  | doubled _ ih =>
    obtain ⟨fuel, rfl, hlen⟩ := exists_of_length_cons_le hfuel
    simp [escapedContent?, hne, ih (Nat.le_of_succ_le hlen)]
  | @escape d r body rest h ih =>
    obtain ⟨fuel, rfl, hlen⟩ := exists_of_length_cons_le hfuel
    simp [escapedContent?, ih ((escapedChar_suffix d r).length_le.trans hlen)]
  | plain hslash hquote _ ih =>
    obtain ⟨fuel, rfl, hlen⟩ := exists_of_length_cons_le hfuel
    simp [escapedContent?, hslash, hquote, ih hlen]

/-! ## Kinds of pieces -/

/-- The text begins with a digit, or a point in front of one. -/
def startsNumber (c : Char) (r : List Char) : Bool :=
  c.isDigit || (c == '.' && r.head?.any Char.isDigit)

/-- Nothing but a symbol begins like this text. -/
structure IsSymbolic (c : Char) (r : List Char) : Prop where
  blank : isTokenBlank c = false
  quote : c ∉ [apostrophe, doubleQuote, '$']
  comment : opensComment (c :: r) = false
  word : startsWord c = false
  number : startsNumber c r = false

/-- What stands in front of a text of a first character and those behind it: the token, if the piece
is one, and the text behind the piece. -/
inductive Begins : Char → List Char → Option Token → List Char → Prop
  | blank {c : Char} {r : List Char} (hc : isTokenBlank c = true) : Begins c r none r
  | string {r body rest : List Char} (h : quotedContent? apostrophe r = some (body, rest)) :
    Begins apostrophe r (some (.string (String.ofList body))) rest
  | name {r body rest : List Char} (hne : body ≠ [])
    (h : quotedContent? doubleQuote r = some (body, rest)) :
    Begins doubleQuote r (some (.name (String.ofList body))) rest
  | lineComment (r : List Char) : Begins '-' ('-' :: r) none (r.dropWhile (!endsLine ·))
  | blockComment {r rest : List Char} (h : closeComment 1 r = some rest) :
    Begins '/' ('*' :: r) none rest
  | tagged {r tag text body rest : List Char} (htag : stringTag? r = some (tag, text))
    (h : through ('$' :: tag ++ ['$']) text = some (body, rest)) :
    Begins '$' r
      (some (.string (String.ofList (body.take (body.length - ('$' :: tag ++ ['$']).length))))) rest
  | parameter {r : List Char} (htag : stringTag? r = none) (hne : r.takeWhile continuesTag ≠ []) :
    Begins '$' r (some (.parameter (String.ofList (r.takeWhile continuesTag))))
      (r.dropWhile continuesTag)
  | dollar {r : List Char} (htag : stringTag? r = none) (hnil : r.takeWhile continuesTag = []) :
    Begins '$' r (some (.symbol "$")) r
  | escaped {c : Char} {r body rest : List Char} (hc : c = 'e' ∨ c = 'E')
    (h : Unescapes r body rest) :
    Begins c (apostrophe :: r) (some (.string (String.ofList body))) rest
  | word {c : Char} {r : List Char} (hc : startsWord c = true)
    (hplain : ¬ ((c = 'e' ∨ c = 'E') ∧ r.head? = some apostrophe)) :
    Begins c r (some (.word (String.ofList (c :: r.takeWhile continuesWord))))
      (r.dropWhile continuesWord)
  | number {c : Char} {r rest : List Char} {token : Option Token} (hc : startsNumber c r = true)
    (h : numberStep (c :: r) = some (token, rest)) : Begins c r token rest
  | symbol {c : Char} {r rest : List Char} {token : Option Token} (hc : IsSymbolic c r)
    (h : symbolStep c r = some (token, rest)) : Begins c r token rest

variable {c : Char} {r rest : List Char} {token : Option Token}

/-! ## What a step finds -/

theorem begins_of_dollarStep (h : dollarStep r = some (token, rest)) :
    Begins '$' r token rest := by
  unfold dollarStep at h
  split at h
  case h_1 tag text htag =>
    obtain ⟨⟨body, t⟩, hbody, he⟩ := Option.map_eq_some_iff.1 h
    obtain ⟨rfl, rfl⟩ := Prod.mk.inj he
    exact .tagged htag hbody
  case h_2 htag =>
    split at h
    case h_1 hnil =>
      obtain ⟨rfl, rfl⟩ := Prod.mk.inj (Option.some.inj h)
      exact .dollar htag hnil
    case h_2 hne =>
      obtain ⟨rfl, rfl⟩ := Prod.mk.inj (Option.some.inj h)
      exact .parameter htag hne

/-- A letter for escapes in front of an apostrophe is no word: the string begins with it. -/
theorem wordStep_escaped (hc : c = 'e' ∨ c = 'E') (r : List Char) :
    wordStep c (apostrophe :: r) = (escapedContent? (r.length + 1) r).map fun p =>
      (some (.string (String.ofList p.1)), p.2) := by
  have hquote : continuesWord apostrophe = false := by decide
  rcases hc with rfl | rfl <;> simp [wordStep, hquote]

theorem wordStep_plain (hplain : ¬ ((c = 'e' ∨ c = 'E') ∧ r.head? = some apostrophe)) :
    wordStep c r = some (some (.word (String.ofList (c :: r.takeWhile continuesWord))),
      r.dropWhile continuesWord) := by
  simp only [wordStep]
  split
  case h_2 hr => rw [hr]
  case h_1 q t hr =>
    rw [if_neg, hr]
    intro hescapes
    simp only [Bool.and_eq_true, Bool.or_eq_true, decide_eq_true_eq, beq_iff_eq, List.cons.injEq,
      ← or_and_right] at hescapes
    -- A word of one letter ends where it starts, so that the apostrophe comes next.
    obtain ⟨rfl, hc, hnil⟩ := hescapes
    have hjoin := List.takeWhile_append_dropWhile (p := continuesWord) (l := r)
    rw [hnil, hr, List.nil_append] at hjoin
    exact hplain ⟨hc, by rw [← hjoin, List.head?_cons]⟩

theorem begins_of_wordStep (hc : startsWord c = true) (h : wordStep c r = some (token, rest)) :
    Begins c r token rest := by
  by_cases hescapes : (c = 'e' ∨ c = 'E') ∧ r.head? = some apostrophe
  · obtain ⟨he, hhead⟩ := hescapes
    obtain ⟨t, rfl⟩ := List.head?_eq_some_iff.1 hhead
    rw [wordStep_escaped he] at h
    obtain ⟨⟨body, t'⟩, hbody, he'⟩ := Option.map_eq_some_iff.1 h
    obtain ⟨rfl, rfl⟩ := Prod.mk.inj he'
    exact .escaped he (unescapes_of_escapedContent? hbody)
  · rw [wordStep_plain hescapes] at h
    obtain ⟨rfl, rfl⟩ := Prod.mk.inj (Option.some.inj h)
    exact .word hc hescapes

theorem eq_cons_of_head? {c d e : Char} {r : List Char}
    (h : (decide (c = d) && r.head? == some e) = true) : c = d ∧ ∃ t, r = e :: t := by
  simp only [Bool.and_eq_true, decide_eq_true_eq, beq_iff_eq] at h
  exact h.imp_right fun hhead => List.head?_eq_some_iff.1 hhead

theorem opensComment_eq_false (hdash : (decide (c = '-') && r.head? == some '-') = false)
    (hslash : (decide (c = '/') && r.head? == some '*') = false) :
    opensComment (c :: r) = false := by
  unfold opensComment
  split
  case h_1 => simp_all
  case h_2 => simp_all
  case h_3 => rfl

/-- A step finds one of the kinds of pieces. -/
theorem begins_of_step (h : step c r = some (token, rest)) : Begins c r token rest := by
  unfold step at h
  -- One case for each try, in the order of the database. Only a symbol needs to know that all tries
  -- before it failed: every other kind is told by its own first characters.
  split at h
  case isTrue hc =>
    obtain ⟨rfl, rfl⟩ := Prod.mk.inj (Option.some.inj h)
    exact .blank hc
  case isFalse hblank =>
  split at h
  case isTrue hc =>
    obtain ⟨⟨body, t⟩, hbody, he⟩ := Option.map_eq_some_iff.1 h
    obtain ⟨rfl, rfl⟩ := Prod.mk.inj he
    exact hc ▸ .string hbody
  case isFalse hquote =>
  split at h
  case isTrue hc =>
    obtain ⟨⟨body, t⟩, hbody, he⟩ := Option.bind_eq_some_iff.1 h
    obtain ⟨hne, he⟩ := Option.ite_none_left_eq_some.1 he
    obtain ⟨rfl, rfl⟩ := Prod.mk.inj (Option.some.inj he)
    exact hc ▸ .name (by simpa using hne) hbody
  case isFalse hname =>
  split at h
  case isTrue hc =>
    obtain ⟨rfl, t, rfl⟩ := eq_cons_of_head? hc
    obtain ⟨rfl, rfl⟩ := Prod.mk.inj (Option.some.inj h)
    exact .lineComment t
  case isFalse hdash =>
  split at h
  case isTrue hc =>
    obtain ⟨rfl, t, rfl⟩ := eq_cons_of_head? hc
    obtain ⟨t', ht, he⟩ := Option.map_eq_some_iff.1 h
    obtain ⟨rfl, rfl⟩ := Prod.mk.inj he
    exact .blockComment ht
  case isFalse hslash =>
  split at h
  case isTrue hc => exact hc ▸ begins_of_dollarStep h
  case isFalse hdollar =>
  split at h
  case isTrue hc => exact begins_of_wordStep hc h
  case isFalse hword =>
  split at h
  case isTrue hc => exact .number hc h
  case isFalse hnumber =>
    refine .symbol ⟨?_, ?_, ?_, ?_, ?_⟩ h
    · simpa using hblank
    · simp [hquote, hname, hdollar]
    · exact opensComment_eq_false (by simpa using hdash) (by simpa using hslash)
    · simpa using hword
    · simpa [startsNumber] using hnumber

/-! ## The step of each kind -/

theorem step_dollar (r : List Char) : step '$' r = dollarStep r := by
  have hbefore : isTokenBlank '$' = false ∧ '$' ≠ apostrophe ∧ '$' ≠ doubleQuote := by decide
  simp [step, hbefore]

/-- A character of words and numbers begins no piece of the kinds tried before these. -/
theorem step_of_continuesTag (hc : continuesTag c = true) (r : List Char) :
    step c r = if startsWord c then wordStep c r else if startsNumber c r then numberStep (c :: r)
      else symbolStep c r := by
  have hmark := notMem_markChars hc
  simp only [markChars, List.mem_cons, not_or] at hmark
  simp [step, isTokenBlank_of_continuesTag hc, hmark, startsNumber]

theorem step_word (hc : startsWord c = true) (r : List Char) : step c r = wordStep c r := by
  rw [step_of_continuesTag (continuesTag_of_startsWord hc), if_pos hc]

theorem startsWord_of_isDigit (hc : c.isDigit = true) : startsWord c = false := by
  have hname := isNameChar_of_isDigit hc
  simp only [isNameChar, Bool.and_eq_true, decide_eq_true_eq] at hname
  simp [startsWord, hc, isForeign, Nat.not_le.2 hname.1]

theorem step_number (hc : startsNumber c r = true) : step c r = numberStep (c :: r) := by
  have hkind := hc
  simp only [startsNumber, Bool.or_eq_true, Bool.and_eq_true, beq_iff_eq] at hkind
  rcases hkind with hdigit | ⟨rfl, hhead⟩
  · rw [step_of_continuesTag (continuesTag_of_isDigit hdigit), startsWord_of_isDigit hdigit,
      if_neg (by decide), if_pos hc]
  · have hbefore : isTokenBlank '.' = false ∧ '.' ≠ apostrophe ∧ '.' ≠ doubleQuote ∧
        startsWord '.' = false := by decide
    simp [step, hbefore, hhead]

theorem step_symbol (hc : IsSymbolic c r) : step c r = symbolStep c r := by
  obtain ⟨hblank, hquote, hcomment, hword, hnumber⟩ := hc
  simp only [List.mem_cons, List.not_mem_nil, or_false, not_or] at hquote
  have hdash : ¬ (c = '-' ∧ r.head? = some '-') := by
    rintro ⟨rfl, hhead⟩
    obtain ⟨t, rfl⟩ := List.head?_eq_some_iff.1 hhead
    exact absurd hcomment (by simp [opensComment])
  have hslash : ¬ (c = '/' ∧ r.head? = some '*') := by
    rintro ⟨rfl, hhead⟩
    obtain ⟨t, rfl⟩ := List.head?_eq_some_iff.1 hhead
    exact absurd hcomment (by simp [opensComment])
  rw [startsNumber] at hnumber
  simp [step, hblank, hquote, hdash, hslash, hword, hnumber]

/-- No kind that is tried before that of a piece begins alike, so that a step finds the piece. -/
theorem Begins.step_eq (h : Begins c r token rest) : step c r = some (token, rest) := by
  cases h with
  | blank hc => simp [step, hc]
  | string h =>
    have hblank : isTokenBlank apostrophe = false := by decide
    simp [step, hblank, h]
  | name hne h =>
    have hbefore : isTokenBlank doubleQuote = false ∧ doubleQuote ≠ apostrophe := by decide
    simp [step, hbefore, h, hne]
  | lineComment => rfl
  | blockComment h =>
    have hbefore : isTokenBlank '/' = false ∧ '/' ≠ apostrophe ∧ '/' ≠ doubleQuote := by decide
    simp [step, hbefore, h]
  | tagged htag h => simp only [step_dollar, dollarStep, htag, h, Option.map_some]
  | parameter htag hne => simp only [step_dollar, dollarStep, htag]
  | dollar htag hnil => simp only [step_dollar, dollarStep, htag, hnil]
  | escaped hc h =>
    have hword : startsWord c = true := by rcases hc with rfl | rfl <;> decide
    rw [step_word hword, wordStep_escaped hc, h.escapedContent?_eq (Nat.le_succ _),
      Option.map_some]
  | word hc hplain => rw [step_word hc, wordStep_plain hplain]
  | number hc h => rw [step_number hc, h]
  | symbol hc h => rw [step_symbol hc, h]

end ChartQuery.Sql
