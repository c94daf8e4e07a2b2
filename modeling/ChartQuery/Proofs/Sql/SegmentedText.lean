import ChartQuery.Proofs.Sql.JoinedText
import ChartQuery.Proofs.Sql.ReplacementScans

/-!
# Texts made of segments

A text that is written as code, strings, quoted names and comments, with blanks or line feeds in
between, is cut where it was put together, whatever the strings, names and comments contain. Each of
them may hold what opens the others: what is quoted has its quotes doubled, and the mark that closes
a tagged string or a comment occurs only at its end.

## Main definitions

* `Segment`: code, a string, a quoted name or a comment, with what makes it well formed
* `SegmentedText`: segments with gaps in between
* `SegmentedText.pieces`, `SegmentedText.masked`: its pieces, and what masking is to show
* `SegmentedText.AgreesWith`: two texts differ in the contents of strings and comments only

## Main results

* `Segment.scan_append`: a segment is cut off where it ends
* `SegmentedText.scan_text`: a text is cut where it was put together
* `SegmentedText.mask_text`: masking a text is exact, and shows no contents
-/

namespace ChartQuery.Sql

open Text (apostrophe doubleQuote isWordChar)

/-! ## Segments -/

/-- A text with each quote in it written twice. -/
def doubled (q : Char) (content : List Char) : List Char :=
  content.flatMap fun c => if c = q then [c, c] else [c]

/-- The mark that opens and closes a tagged string. -/
def tagMark (tag : List Char) : List Char := '$' :: tag ++ ['$']

/-- The mark that closes a comment of several lines. -/
def blockMark : List Char := ['*', '/']

/-- A mark that is written behind a content occurs only there. -/
def ClosesOnce (mark content : List Char) : Prop :=
  ∀ t ∈ (content ++ mark).tails, mark <+: t → t = mark

instance (mark content : List Char) : Decidable (ClosesOnce mark content) :=
  inferInstanceAs (Decidable (∀ t ∈ (content ++ mark).tails, mark <+: t → t = mark))

/-- A part of a text that was written as one thing. -/
inductive Segment where
  /-- Code in which nothing else starts. -/
  | code (text : List Char) (plain : ∀ c ∈ text, c ∉ markChars)
  /-- A string in apostrophes. -/
  | quoted (content : List Char)
  /-- A string in dollar signs, with a tag or without. -/
  | tagged (tag content : List Char) (isTag : tag = [] ∨ isPlainWord tag = true)
      (closes : ClosesOnce (tagMark tag) content)
  /-- A name in double quotes. -/
  | name (content : List Char)
  /-- A comment that is closed. -/
  | block (content : List Char) (closes : ClosesOnce blockMark content)
  /-- A comment to the end of its line. -/
  | line (content : List Char) (oneLine : '\n' ∉ content)

namespace Segment

/-- The characters of a segment. -/
def text : Segment → List Char
  | code text _ => text
  | quoted content => apostrophe :: doubled apostrophe content ++ [apostrophe]
  | tagged tag content _ _ => tagMark tag ++ content ++ tagMark tag
  | name content => doubleQuote :: doubled doubleQuote content ++ [doubleQuote]
  | block content _ => '/' :: '*' :: content ++ blockMark
  | line content _ => '-' :: '-' :: content

/-- What masking is to show of a segment: empty quotes for a string, a blank for a comment, and a
name with its quotes, blanks around it and for all characters of it that are no name characters. -/
def masked : Segment → List Char
  | code text _ => text
  | quoted _ | tagged .. => [apostrophe, apostrophe]
  | name content => ' ' :: (name content).text.map nameCharOrBlank ++ [' ']
  | block .. | line .. => [' ']

/-- The pieces that a segment is to be cut into. -/
def pieces : Segment → List Lexeme
  | code text _ => text.map .ofChar
  | s@(quoted _) | s@(tagged ..) => [⟨.string, s.text⟩]
  | s@(name _) => [⟨.name, s.text⟩]
  | s@(block ..) | s@(line ..) => [⟨.comment, s.text⟩]

theorem flatMap_masked_pieces (s : Segment) : s.pieces.flatMap Lexeme.masked = s.masked := by
  cases s with
  | code text _ => exact flatMap_masked_ofChar text
  | _ => exact List.append_nil _

/-- The segment goes to the end of its line. -/
def isLine : Segment → Bool
  | line .. => true
  | _ => false

/-- The segment is a string. -/
def isString : Segment → Bool
  | quoted _ | tagged .. => true
  | _ => false

/-- The segment is a comment. -/
def isComment : Segment → Bool
  | block .. | line .. => true
  | _ => false

/-- Two segments differ in the contents of a string or a comment only. -/
def AgreesWith (s s' : Segment) : Prop :=
  s = s' ∨ (s.isString = true ∧ s'.isString = true) ∨ (s.isComment = true ∧ s'.isComment = true)

theorem masked_eq_of_isString {s : Segment} (h : s.isString = true) :
    s.masked = [apostrophe, apostrophe] := by
  cases s <;> first | rfl | cases h

theorem masked_eq_of_isComment {s : Segment} (h : s.isComment = true) : s.masked = [' '] := by
  cases s <;> first | rfl | cases h

/-- Masking is to show nothing of what such segments differ in. -/
theorem AgreesWith.masked_eq {s s' : Segment} (h : s.AgreesWith s') : s.masked = s'.masked := by
  rcases h with rfl | ⟨h, h'⟩ | ⟨h, h'⟩
  · rfl
  · rw [masked_eq_of_isString h, masked_eq_of_isString h']
  · rw [masked_eq_of_isComment h, masked_eq_of_isComment h']

end Segment

/-! ## Where quoted text and comments end -/

section Ends

variable {content mark rest : List Char}

/-- What is quoted ends at the first quote that is not doubled. -/
theorem closeQuoted_doubled {q : Char} (hrest : ∀ c ∈ rest.head?, c ≠ q) (content : List Char) :
    closeQuoted q (doubled q content ++ q :: rest) = some (doubled q content ++ [q], rest) := by
  induction content with
  | nil =>
    cases rest with
    | nil => simp [doubled, closeQuoted]
    | cons d rest =>
      have hd : d ≠ q := hrest d rfl
      simp [doubled, closeQuoted, hd]
  | cons c content ih =>
    have hcons : doubled q (c :: content) = (if c = q then [c, c] else [c]) ++ doubled q content :=
      rfl
    rw [hcons]
    by_cases hc : c = q
    · subst hc
      simp [closeQuoted, ih]
    · rw [if_neg hc, List.singleton_append, List.cons_append, closeQuoted.eq_def]
      simp [hc, ih]

/-- A mark that occurs only at the end is found there. -/
theorem through_of_closesOnce (hmark : mark ≠ []) (h : ClosesOnce mark content)
    (rest : List Char) :
    through mark (content ++ mark ++ rest) = some (content ++ mark, rest) := by
  suffices hend : through mark (content ++ mark) = some (content ++ mark, []) from
    through_append_of_eq_some rest hend
  induction content with
  | nil =>
    obtain ⟨m, mark, rfl⟩ := List.exists_cons_of_ne_nil hmark
    simp [through]
  | cons c content ih =>
    have hrest : ClosesOnce mark content := fun t ht => h t (by
      rw [List.mem_tails] at ht ⊢
      exact ht.trans (List.suffix_cons c (content ++ mark)))
    have hnot : mark.isPrefixOf (c :: (content ++ mark)) = false := by
      rw [Bool.eq_false_iff, Ne, List.isPrefixOf_iff_prefix]
      intro hprefix
      have hwhole := congrArg List.length (h _ (by simp) hprefix)
      simp only [List.length_cons, List.length_append] at hwhole
      omega
    rw [List.cons_append, through, hnot, ih hrest]
    rfl

theorem dollarTag?_tag {tag : List Char} (htag : tag = [] ∨ isPlainWord tag = true)
    (rest : List Char) : dollarTag? (tag ++ '$' :: rest) = some (tag, rest) := by
  have hword : ∀ c ∈ tag, isWordChar c = true := by
    rcases htag with rfl | htag
    · simp
    · exact isWordChar_of_isPlainWord htag
  have hdollar : isWordChar '$' = false := by decide
  have hisTag : isTag tag = true := by
    rcases htag with rfl | htag
    · rfl
    · cases tag with
      | nil => rfl
      | cons c tag =>
        simp only [isPlainWord, Bool.and_eq_true] at htag
        simp [isTag, htag.1]
  obtain ⟨htake, hdrop⟩ : (tag ++ '$' :: rest).takeWhile isWordChar = tag ∧
      (tag ++ '$' :: rest).dropWhile isWordChar = '$' :: rest :=
    takeWhile_run hword (by simp [hdollar])
  rw [dollarTag?, htake, hdrop]
  simp [hisTag]

/-- A tagged string ends with the mark that it starts with. -/
theorem closeDollar_tagged {tag : List Char} (htag : tag = [] ∨ isPlainWord tag = true)
    (h : ClosesOnce (tagMark tag) content) (rest : List Char) :
    closeDollar (tag ++ '$' :: (content ++ tagMark tag ++ rest)) =
      some (tag ++ '$' :: (content ++ tagMark tag), rest) := by
  have hmark : tagMark tag ≠ [] := List.cons_ne_nil _ _
  rw [closeDollar, dollarTag?_tag htag]
  show (through (tagMark tag) (content ++ tagMark tag ++ rest)).bind _ = _
  rw [through_of_closesOnce hmark h rest]
  rfl

end Ends

/-! ## Cutting a text -/

section Cutting

theorem scan_of_marked? {c : Char} {r rest : List Char} {l : Lexeme}
    (h : marked? c r = some (l, rest)) : scan (c :: r) = l :: scan rest := by
  rw [scan_cons, lexeme, h]
  rfl

/-- Code in which nothing starts is cut into its characters. -/
theorem scan_code {text : List Char} (h : ∀ c ∈ text, c ∉ markChars) (rest : List Char) :
    scan (text ++ rest) = text.map .ofChar ++ scan rest := by
  induction text with
  | nil => rfl
  | cons c text ih =>
    have hc := marked?_of_notMem (h c List.mem_cons_self) (text ++ rest)
    rw [List.cons_append, scan_cons, lexeme, hc, List.map_cons, List.cons_append,
      ← ih fun d hd => h d (List.mem_cons_of_mem c hd)]
    rfl

/-- The characters that part two segments. -/
def gapChars : List Char := [' ', '\n']

theorem notMem_markChars_of_mem_gapChars {c : Char} (h : c ∈ gapChars) : c ∉ markChars := by
  revert c
  decide

namespace Segment

variable {content rest : List Char}

theorem marked?_quoted (hrest : ∀ c ∈ rest.head?, c ≠ apostrophe) :
    marked? apostrophe (doubled apostrophe content ++ apostrophe :: rest) =
      some (⟨.string, (quoted content).text⟩, rest) := by
  simp [marked?, closeQuoted_doubled hrest content, text]

theorem marked?_tagged {tag : List Char} (isTag : tag = [] ∨ isPlainWord tag = true)
    (closes : ClosesOnce (tagMark tag) content) :
    marked? '$' (tag ++ '$' :: (content ++ tagMark tag ++ rest)) =
      some (⟨.string, (tagged tag content isTag closes).text⟩, rest) := by
  have hchar : '$' ≠ apostrophe := by decide
  have hend := closeDollar_tagged isTag closes rest
  simp only [marked?, if_neg hchar, if_pos, hend]
  simp [text, tagMark]

theorem marked?_name (hrest : ∀ c ∈ rest.head?, c ≠ doubleQuote) :
    marked? doubleQuote (doubled doubleQuote content ++ doubleQuote :: rest) =
      some (⟨.name, (name content).text⟩, rest) := by
  have hchar : doubleQuote ≠ apostrophe ∧ doubleQuote ≠ '$' := by decide
  simp [marked?, hchar, closeQuoted_doubled hrest content, text]

theorem marked?_block (closes : ClosesOnce blockMark content) :
    marked? '/' ('*' :: (content ++ blockMark ++ rest)) =
      some (⟨.comment, (block content closes).text⟩, rest) := by
  have hchar : '/' ≠ apostrophe ∧ '/' ≠ doubleQuote := by decide
  have hend : through ['*', '/'] (content ++ blockMark ++ rest) =
      some (content ++ blockMark, rest) :=
    through_of_closesOnce (List.cons_ne_nil _ _) closes rest
  simp only [marked?, hchar, if_false, hend]
  simp [text]

/-- A comment to the end of its line ends in front of a line feed. -/
theorem marked?_line (oneLine : '\n' ∉ content) (hrest : ∀ c ∈ rest.head?, c = '\n') :
    marked? '-' ('-' :: (content ++ rest)) =
      some (⟨.comment, (line content oneLine).text⟩, rest) := by
  have hchar : '-' ≠ apostrophe ∧ '-' ≠ doubleQuote := by decide
  have hrun : (content ++ rest).takeWhile (· != '\n') = content ∧
      (content ++ rest).dropWhile (· != '\n') = rest := by
    refine takeWhile_run (fun c hc => ?_) fun c hc => ?_
    · exact bne_iff_ne.2 fun heq => oneLine (heq ▸ hc)
    · simp [hrest c hc]
  simp [marked?, hchar, hrun, text]

/-- What a segment starts with marks the whole segment. -/
theorem scan_append_of_marked? {s : Segment} {c : Char} {r : List Char} {l : Lexeme}
    (h : marked? c r = some (l, rest)) (htext : s.text ++ rest = c :: r) (hpieces : s.pieces = [l]) :
    scan (s.text ++ rest) = s.pieces ++ scan rest := by
  rw [htext, scan_of_marked? h, hpieces]
  rfl

/-- **A segment is cut off where it ends**, if a gap follows or nothing, and a line feed behind a
comment to the end of its line. -/
theorem scan_append (s : Segment) (hgap : ∀ c ∈ rest.head?, c ∈ gapChars)
    (hline : s.isLine = true → ∀ c ∈ rest.head?, c = '\n') :
    scan (s.text ++ rest) = s.pieces ++ scan rest := by
  -- No gap starts with a quote, so that what is quoted does not go on behind its end.
  have hquote : apostrophe ∉ gapChars ∧ doubleQuote ∉ gapChars := by decide
  cases s with
  | code text plain => exact scan_code plain rest
  | quoted content =>
    have hend : ∀ c ∈ rest.head?, c ≠ apostrophe := fun c hc heq => hquote.1 (heq ▸ hgap c hc)
    exact scan_append_of_marked? (marked?_quoted hend) (by simp [text]) rfl
  | tagged tag content isTag closes =>
    exact scan_append_of_marked? (marked?_tagged isTag closes) (by simp [text, tagMark]) rfl
  | name content =>
    have hend : ∀ c ∈ rest.head?, c ≠ doubleQuote := fun c hc heq => hquote.2 (heq ▸ hgap c hc)
    exact scan_append_of_marked? (marked?_name hend) (by simp [text]) rfl
  | block content closes =>
    exact scan_append_of_marked? (marked?_block closes) (by simp [text]) rfl
  | line content oneLine =>
    exact scan_append_of_marked? (marked?_line oneLine (hline rfl)) rfl rfl

end Segment

end Cutting

/-! ## Texts -/

/-- Blanks and line feeds between two segments. -/
structure Gap where
  chars : List Char
  ne_nil : chars ≠ []
  mem_gapChars : ∀ c ∈ chars, c ∈ gapChars

/-- Segments with gaps in between; a comment to the end of its line is the last in its line. -/
inductive SegmentedText where
  | one (s : Segment)
  | cons (s : Segment) (gap : Gap) (endsLine : s.isLine = true → gap.chars.head? = some '\n')
      (rest : SegmentedText)

namespace SegmentedText

/-- The characters of a text. -/
def text : SegmentedText → List Char
  | one s => s.text
  | cons s gap _ rest => s.text ++ (gap.chars ++ rest.text)

/-- What masking is to show of a text. -/
def masked : SegmentedText → List Char
  | one s => s.masked
  | cons s gap _ rest => s.masked ++ (gap.chars ++ rest.masked)

/-- The pieces that a text is to be cut into. -/
def pieces : SegmentedText → List Lexeme
  | one s => s.pieces
  | cons s gap _ rest => s.pieces ++ (gap.chars.map .ofChar ++ rest.pieces)

/-- Two texts differ in the contents of strings and comments only. -/
inductive AgreesWith : SegmentedText → SegmentedText → Prop
  | one {s s' : Segment} (h : s.AgreesWith s') : AgreesWith (one s) (one s')
  | cons {s s' : Segment} {gap : Gap} {rest rest' : SegmentedText} {endsLine endsLine'}
      (h : s.AgreesWith s') (hrest : AgreesWith rest rest') :
      AgreesWith (cons s gap endsLine rest) (cons s' gap endsLine' rest')

theorem flatMap_masked_pieces (t : SegmentedText) : t.pieces.flatMap Lexeme.masked = t.masked := by
  induction t with
  | one s => exact s.flatMap_masked_pieces
  | cons s gap _ rest ih =>
    rw [pieces, List.flatMap_append, List.flatMap_append, s.flatMap_masked_pieces,
      flatMap_masked_ofChar, ih, masked]

theorem AgreesWith.masked_eq {t u : SegmentedText} (h : t.AgreesWith u) : t.masked = u.masked := by
  induction h with
  | one h => exact h.masked_eq
  | cons h _ ih => rw [masked, masked, h.masked_eq, ih]

/-- A text is cut where it was put together. -/
theorem scan_text (t : SegmentedText) : scan t.text = t.pieces := by
  -- A segment is cut off where the gap behind it starts, which is code, and then the rest is cut.
  induction t with
  | one s =>
    have hs : scan (s.text ++ []) = s.pieces ++ scan [] := s.scan_append (by simp) (by simp)
    have hnil : scan [] = [] := rfl
    rwa [List.append_nil, hnil, List.append_nil] at hs
  | cons s gap endsLine rest ih =>
    obtain ⟨c, r, hchars⟩ := List.exists_cons_of_ne_nil gap.ne_nil
    have hhead : (gap.chars ++ rest.text).head? = some c := by rw [hchars]; rfl
    have hgap : ∀ d ∈ (gap.chars ++ rest.text).head?, d ∈ gapChars := by
      rw [hhead]
      rintro d ⟨⟩
      exact gap.mem_gapChars c (by simp [hchars])
    have hline : s.isLine = true → ∀ d ∈ (gap.chars ++ rest.text).head?, d = '\n' := by
      intro hs
      have hc := endsLine hs
      rw [hchars] at hc
      rw [hhead]
      rintro d ⟨⟩
      exact Option.some.inj hc
    have hplain : ∀ d ∈ gap.chars, d ∉ markChars := fun d hd =>
      notMem_markChars_of_mem_gapChars (gap.mem_gapChars d hd)
    rw [text, s.scan_append hgap hline, scan_code hplain, ih, pieces]

theorem mask_text (t : SegmentedText) :
    mask (String.ofList t.text) = String.ofList t.masked := by
  rw [mask, String.toList_ofList, maskChars, scan_text, flatMap_masked_pieces]

/-- **Masking is exact.** A text made of segments is cut where it was put together, whatever the
strings, names and comments contain. Masking shows empty quotes for each string, a blank for each
comment, the characters of each name with blanks for those that are no name characters and around
it, and the code as it is. So it shows the same of texts that differ in the contents of strings and
comments only, and the check finds the same in them. -/
theorem mask_eq_masked (t : SegmentedText) :
    scan t.text = t.pieces ∧ mask (String.ofList t.text) = String.ofList t.masked ∧
    ∀ u, t.AgreesWith u →
      mask (String.ofList u.text) = mask (String.ofList t.text) ∧
      checkWords (mask (String.ofList u.text)).toList =
        checkWords (mask (String.ofList t.text)).toList := by
  refine ⟨t.scan_text, t.mask_text, fun u hu => ?_⟩
  have hmask : mask (String.ofList u.text) = mask (String.ofList t.text) := by
    rw [mask_text, mask_text, hu.masked_eq]
  exact ⟨hmask, by rw [hmask]⟩

/-- One blank. -/
def blankGap : Gap := ⟨[' '], by decide, by decide⟩

/-- One line feed, and a blank behind it. -/
def lineGap : Gap := ⟨['\n', ' '], by decide, by decide⟩

/-- Segments of all kinds, each of which holds what opens others. -/
def quotingText : SegmentedText :=
  cons (.code "SELECT".toList (by decide)) blankGap (by decide) <|
  cons (.quoted "it's \" $$ -- /*".toList) blankGap (by decide) <|
  cons (.tagged "a".toList "' $$ $b$ -- \" */ $".toList (by decide) (by decide)) lineGap
    (by decide) <|
  cons (.line "' /* \" $$ --".toList (by decide)) lineGap (by decide) <|
  cons (.block "/* ' -- \" $ *".toList (by decide)) lineGap (by decide) <|
  one (.name "drop \" ' $$".toList)

/-- The same with nothing in the strings and comments, and those of another kind. -/
def emptiedText : SegmentedText :=
  cons (.code "SELECT".toList (by decide)) blankGap (by decide) <|
  cons (.tagged [] [] (by decide) (by decide)) blankGap (by decide) <|
  cons (.quoted []) lineGap (by decide) <|
  cons (.block [] (by decide)) lineGap (by decide) <|
  cons (.line [] (by decide)) lineGap (by decide) <|
  one (.name "drop \" ' $$".toList)

theorem mask_eq_masked_quotingText :
    quotingText.AgreesWith emptiedText ∧
    mask (String.ofList quotingText.text) = "SELECT '' ''\n  \n  \n   drop          " ∧
    mask (String.ofList emptiedText.text) = mask (String.ofList quotingText.text) ∧
    checkWords (mask (String.ofList emptiedText.text)).toList = some (.word "DROP") := by
  have hagree : quotingText.AgreesWith emptiedText :=
    .cons (.inl rfl) <| .cons (.inr (.inl ⟨rfl, rfl⟩)) <| .cons (.inr (.inl ⟨rfl, rfl⟩)) <|
    .cons (.inr (.inr ⟨rfl, rfl⟩)) <| .cons (.inr (.inr ⟨rfl, rfl⟩)) <| .one (.inl rfl)
  obtain ⟨-, hexact, hsame⟩ := mask_eq_masked quotingText
  have hmask : mask (String.ofList quotingText.text) = "SELECT '' ''\n  \n  \n   drop          " :=
    hexact.trans (by decide +kernel)
  obtain ⟨hemptied, hcheck⟩ := hsame emptiedText hagree
  refine ⟨hagree, hmask, hemptied, ?_⟩
  rw [hcheck, hmask]
  decide +kernel

end SegmentedText

end ChartQuery.Sql
