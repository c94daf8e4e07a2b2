import ChartQuery.Proofs.Sql.HiddenCode
import ChartQuery.Proofs.Sql.JoinedMask
import ChartQuery.Proofs.Sql.QueryShape

/-!
# Custom queries inside of a selection

A custom query with filters around it is read as the text in front of it, the query, and the text
behind it with the conditions: whatever the query is, the database cuts it into the same tokens as
alone, and no string or comment of it reaches into what is around it. So the whole is one statement
unless a semicolon of its own separates the query from what follows. Masking reads the whole like
its parts, too, unless masking the query leaves a double quote open.

Neither a semicolon nor an open double quote is kept out by the check. A semicolon is let pass where
nothing stands behind it, and a double quote where masking misreads a piece.

## Main definitions

* `signTokens`, `conditionTokens`, `conjunctionTokens`: the tokens of conditions
* `behindQuery cs`, `behindTokens cs`: the text behind a custom query, and its tokens
* `isReadAlike q`: masking misreads no piece of the query

## Main results

* `tokens?_filteredText`: the tokens of a custom query with filters around it
* `mask_filteredText_iff`: such a text is masked like its parts if no quote is left open
* `quiet_of_readAlike`: what masking shows of a query that it does not misread
* `filteredQuery_staysInside`: all of this for the queries that the check lets pass
-/

namespace ChartQuery.Sql

open Text (apostrophe doubleQuote isWordChar)

/-! ## Statements -/

/-- Every token but a semicolon belongs to a statement. -/
theorem statements_ne_nil {ts : List Token} {t : Token} (ht : t ∈ ts) (hne : t ≠ .symbol ";") :
    statements ts ≠ [] := by
  -- It stands in one of the parts between the semicolons, which is not empty then.
  suffices h : ∃ s ∈ ts.splitOn (.symbol ";"), t ∈ s by
    obtain ⟨s, hs, hts⟩ := h
    have hempty : s.isEmpty = false := by
      rw [List.isEmpty_eq_false_iff]
      exact List.ne_nil_of_mem hts
    exact List.ne_nil_of_mem (List.mem_filter.2 ⟨hs, by rw [hempty]; rfl⟩)
  induction ts with
  | nil => simp at ht
  | cons a ts ih =>
    rw [List.splitOn, List.splitOnP_cons_eq_if_modifyHead]
    obtain ⟨s, more, hsplit⟩ := List.exists_cons_of_ne_nil
      (List.splitOnP_ne_nil (· == Token.symbol ";") ts)
    rcases List.mem_cons.1 ht with rfl | ht
    · rw [if_neg (by simpa using hne), hsplit]
      exact ⟨t :: s, List.mem_cons_self, List.mem_cons_self⟩
    · obtain ⟨s', hs', hts⟩ := ih ht
      rw [List.splitOn] at hs'
      split
      · exact ⟨s', List.mem_cons_of_mem _ hs', hts⟩
      · rw [hsplit] at hs' ⊢
        rcases List.mem_cons.1 hs' with rfl | hs'
        · exact ⟨a :: s', List.mem_cons_self, List.mem_cons_of_mem _ hts⟩
        · exact ⟨s', List.mem_cons_of_mem _ hs', hts⟩

/-- A semicolon parts the statements in front of it from those behind. -/
theorem statements_append_semicolon (ts us : List Token) :
    statements (ts ++ .symbol ";" :: us) = statements ts ++ statements us := by
  have hsplit := List.splitOnP_append_cons (p := (· == Token.symbol ";")) ts us
    (beq_self_eq_true (Token.symbol ";"))
  rw [statements, List.splitOn, hsplit, List.filter_append]
  rfl

/-- Tokens between others are part of their one statement unless there is a semicolon among them. -/
theorem length_statements_between {front ts behind : List Token} (hfront : front ≠ [])
    (hfront' : .symbol ";" ∉ front) (hbehind : behind ≠ []) (hbehind' : .symbol ";" ∉ behind) :
    (statements (front ++ ts ++ behind)).length = 1 ↔ .symbol ";" ∉ ts := by
  have hneFront : ∀ us, statements (front ++ us) ≠ [] := by
    intro us
    obtain ⟨t, front, rfl⟩ := List.exists_cons_of_ne_nil hfront
    have ht : t ∈ t :: front ++ us := by simp
    exact statements_ne_nil ht fun h => hfront' (by simp [h])
  have hneBehind : ∀ us, statements (us ++ behind) ≠ [] := by
    intro us
    obtain ⟨t, behind, rfl⟩ := List.exists_cons_of_ne_nil hbehind
    have ht : t ∈ us ++ t :: behind := by simp
    exact statements_ne_nil ht fun h => hbehind' (by simp [h])
  constructor
  -- A semicolon leaves a statement on each side of it.
  · intro hone hmem
    obtain ⟨x, y, rfl⟩ := List.append_of_mem hmem
    have heq : front ++ (x ++ .symbol ";" :: y) ++ behind =
        front ++ x ++ .symbol ";" :: (y ++ behind) := by simp
    rw [heq, statements_append_semicolon, List.length_append] at hone
    have hx := List.length_pos_of_ne_nil (hneFront x)
    have hy := List.length_pos_of_ne_nil (hneBehind y)
    omega
  · intro hts
    have hnone : ∀ t ∈ front ++ ts ++ behind, (t == Token.symbol ";") = false := by
      intro t ht
      rw [beq_eq_false_iff_ne]
      rintro rfl
      simp [hfront', hts, hbehind'] at ht
    have hempty : (front ++ ts ++ behind).isEmpty = false := by simp [hfront]
    rw [statements, List.splitOn, List.splitOnP_eq_singleton hnone,
      List.filter_cons_of_pos (by rw [hempty]; rfl), List.filter_nil, List.length_singleton]

/-! ## The text around a custom query -/

/-- The tokens of a comparison. -/
def signTokens (o : FilterOperator) : List Token := (tokens? o.sign).getD []

/-- The tokens of a condition. -/
def conditionTokens : Condition → List Token
  | .notNull c => [.name c.name, .word "IS", .word "NOT", .word "NULL"]
  | .compare c op p => .name c.name :: (signTokens op ++ [.parameter p])
  | .member c ps => .name c.name :: .word "IN" :: .symbol "(" ::
      ([Token.symbol ","].intercalate (ps.map fun p => [.parameter p]) ++ [.symbol ")"])

/-- The tokens of conditions that all have to hold. -/
def conjunctionTokens (cs : List Condition) : List Token :=
  [Token.word "AND"].intercalate (cs.map conditionTokens)

/-- The text in front of a custom query. -/
def beforeQuery : String := "SELECT * FROM ("

/-- The text behind a custom query. -/
def behindQuery (cs : List Condition) : String :=
  "\n) AS _filtered_sub WHERE " ++ conjunction cs

/-- The tokens in front of a custom query. -/
def beforeTokens : List Token := [.word "SELECT", .symbol "*", .word "FROM", .symbol "("]

/-- The tokens behind a custom query. -/
def behindTokens (cs : List Condition) : List Token :=
  .symbol ")" :: .word "AS" :: .word "_filtered_sub" :: .word "WHERE" :: conjunctionTokens cs

theorem mem_of_mem_intercalate {α : Type} {sep : List α} {l : List (List α)} {a : α}
    (h : a ∈ sep.intercalate l) : a ∈ sep ∨ ∃ b ∈ l, a ∈ b := by
  induction l with
  | nil => simp at h
  | cons b l ih =>
    cases l with
    | nil => exact .inr ⟨b, List.mem_cons_self, by simpa using h⟩
    | cons c l =>
      rw [List.intercalate_cons_cons, List.mem_append, List.mem_append] at h
      rcases h with (h | h) | h
      · exact .inr ⟨b, List.mem_cons_self, h⟩
      · exact .inl h
      · exact (ih h).imp_right fun ⟨d, hd, ha⟩ => ⟨d, List.mem_cons_of_mem _ hd, ha⟩

/-- No token behind a custom query is a semicolon. -/
theorem semicolon_notMem_behindTokens (cs : List Condition) : .symbol ";" ∉ behindTokens cs := by
  have hcondition : ∀ c, .symbol ";" ∉ conditionTokens c := by
    intro c hmem
    cases c with
    | notNull c => simp [conditionTokens] at hmem
    | compare c op p =>
      have hsign : .symbol ";" ∉ signTokens op := by cases op <;> decide +kernel
      simp [conditionTokens, hsign] at hmem
    | member c ps =>
      simp only [conditionTokens, List.mem_cons, List.mem_append, List.not_mem_nil, or_false,
        reduceCtorEq, Token.symbol.injEq, String.reduceEq, false_or] at hmem
      rcases mem_of_mem_intercalate hmem with h | ⟨b, hb, h⟩
      · exact absurd h (by decide)
      · obtain ⟨p, -, rfl⟩ := List.mem_map.1 hb
        simp at h
  intro hmem
  simp only [behindTokens, List.mem_cons, reduceCtorEq, Token.symbol.injEq, String.reduceEq,
    false_or] at hmem
  rcases mem_of_mem_intercalate hmem with h | ⟨b, hb, h⟩
  · exact absurd h (by decide)
  · obtain ⟨c, -, rfl⟩ := List.mem_map.1 hb
    exact hcondition c h

theorem filteredText_eq (query : String) (cs : List Condition) :
    filteredText query cs = beforeQuery ++ query ++ behindQuery cs := by
  unfold filteredText beforeQuery behindQuery
  rw [String.append_assoc, String.append_assoc]

/-- A name of name characters, at least one. -/
structure IsBareName (s : String) : Prop where
  ne_nil : s.toList ≠ []
  chars : ∀ c ∈ s.toList, isNameChar c = true

/-- A condition whose column and whose parameters have names. -/
inductive HasNames : Condition → Prop
  | notNull {c : Identifier} (hc : c.isNamed = true) : HasNames (.notNull c)
  | compare {c : Identifier} {op : FilterOperator} {p : String} (hc : c.isNamed = true)
    (hp : IsBareName p) : HasNames (.compare c op p)
  | member {c : Identifier} {ps : List String} (hc : c.isNamed = true)
    (hps : ∀ p ∈ ps, IsBareName p) : HasNames (.member c ps)

section Names

theorem isNameChar_toString (n : Nat) : ∀ c ∈ (toString n).toList, isNameChar c = true := by
  intro c hc
  rw [Nat.toString_eq_repr, Nat.toList_repr] at hc
  exact isNameChar_of_isDigit (Nat.isDigit_of_mem_toDigits (by decide) (by decide) hc)

theorem isBareName_parameterName (i : Nat) : IsBareName (parameterName i) where
  ne_nil := by simp [parameterName]
  chars c hc := by
    have hstart : ∀ c ∈ "filter_".toList, isNameChar c = true := by decide
    rw [parameterName, String.toList_append, List.mem_append] at hc
    exact hc.elim (hstart c) (isNameChar_toString i c)

theorem isBareName_memberName (i j : Nat) : IsBareName (memberName i j) where
  ne_nil := by simp [memberName]
  chars c hc := by
    have hline : ∀ c ∈ "_".toList, isNameChar c = true := by decide
    rw [memberName, String.toList_append, String.toList_append, List.mem_append,
      List.mem_append] at hc
    rcases hc with (hc | hc) | hc
    · exact (isBareName_parameterName i).chars c hc
    · exact hline c hc
    · exact isNameChar_toString j c hc

/-- The conditions of filters that were kept have names. -/
theorem hasNames_filterConditions (filters : List FilterSpec) :
    ∀ c ∈ filterConditions (resolveFilters none filters).1, HasNames c := by
  intro c hc
  obtain ⟨i, hi, rfl⟩ := List.mem_mapIdx.1 hc
  generalize hg : (resolveFilters none filters).1[i] = g
  have hmem : g ∈ (resolveFilters none filters).1 := hg ▸ List.getElem_mem hi
  obtain ⟨f, -, hf⟩ := List.mem_filterMap.1 hmem
  -- A filter whose column has no name is not kept.
  have hnamed : g.column.isNamed = true := by
    cases hres : resolveFilter none f with
    | error w =>
      rw [hres] at hf
      cases hf
    | ok g' =>
      rw [hres] at hf
      obtain rfl : g' = g := Option.some.inj hf
      simp only [resolveFilter] at hres
      split at hres
      · simp at hres
      · split at hres
        · simp at hres
        · rename_i hcolumn
          split at hres
          · simp at hres
          · obtain rfl := Except.ok.inj hres
            simpa using hcolumn
  obtain ⟨c, op, v⟩ := g
  cases op
  case isIn =>
    refine .member hnamed fun p hp => ?_
    obtain ⟨j, -, rfl⟩ := List.mem_map.1 hp
    exact isBareName_memberName i j
  all_goals exact .compare hnamed (isBareName_parameterName i)

end Names

/-! ## The characters of conditions -/

/-- The characters of conditions and of the text around a custom query. -/
def isWrapperChar (c : Char) : Bool :=
  isNameChar c || [doubleQuote, '\n', ' ', '(', ')', ',', '$', '=', '!', '<', '>'].contains c

/-- A text of such characters. -/
def IsWrapperText (s : String) : Prop := ∀ a ∈ s.toList, isWrapperChar a = true

instance (s : String) : Decidable (IsWrapperText s) := decidableForallMemText _ s.toList

section Characters

theorem IsWrapperText.append {s t : String} (hs : IsWrapperText s) (ht : IsWrapperText t) :
    IsWrapperText (s ++ t) := by
  intro a ha
  rw [String.toList_append, List.mem_append] at ha
  exact ha.elim (hs a) (ht a)

theorem IsWrapperText.intercalate {sep : String} (hsep : IsWrapperText sep) {l : List String}
    (hl : ∀ s ∈ l, IsWrapperText s) : IsWrapperText (sep.intercalate l) := by
  induction l with
  | nil =>
    intro a ha
    simp at ha
  | cons s l ih =>
    have hs := hl s List.mem_cons_self
    have hmore := ih fun t ht => hl t (List.mem_cons_of_mem _ ht)
    cases l with
    | nil => rwa [String.intercalate_singleton]
    | cons t l =>
      rw [String.intercalate_cons_cons]
      exact (hs.append hsep).append hmore

theorem IsWrapperText.inQuotes (c : Identifier) : IsWrapperText c.inQuotes := by
  intro a ha
  rw [Identifier.inQuotes, String.toList_ofList] at ha
  simp only [List.cons_append, List.mem_cons, List.mem_append, List.not_mem_nil, or_false] at ha
  rcases ha with rfl | ha | rfl
  · decide
  · simp [isWrapperChar, isNameChar_of_mem_name c a ha]
  · decide

theorem IsWrapperText.sign (o : FilterOperator) : IsWrapperText o.sign := by
  cases o <;> decide

theorem IsBareName.isWrapperText {p : String} (hp : IsBareName p) : IsWrapperText p := by
  intro a ha
  simp [isWrapperChar, hp.chars a ha]

theorem text_compare (c : Identifier) (op : FilterOperator) (p : String) :
    (Condition.compare c op p).text =
      c.inQuotes ++ (" " ++ (op.sign ++ (" " ++ ("$" ++ p)))) := by
  have hfixed : " $" = " " ++ "$" := by decide
  rw [Condition.text, hfixed]
  simp only [String.append_assoc, -String.reduceAppend]

theorem text_member (c : Identifier) (ps : List String) :
    (Condition.member c ps).text =
      c.inQuotes ++ (" " ++ ("IN" ++ (" " ++
        ("(" ++ (", ".intercalate (ps.map ("$" ++ ·)) ++ ")"))))) := by
  have hfixed : " IN (" = " " ++ ("IN" ++ (" " ++ "(")) := by decide
  rw [Condition.text, hfixed]
  simp only [String.append_assoc, -String.reduceAppend]

/-- No condition holds another character. -/
theorem HasNames.isWrapperText {c : Condition} (h : HasNames c) : IsWrapperText c.text := by
  have hfixed : IsWrapperText " " ∧ IsWrapperText "$" ∧ IsWrapperText " IS NOT NULL" ∧
      IsWrapperText " IN (" ∧ IsWrapperText ", " ∧ IsWrapperText ")" := by decide
  obtain ⟨hblank, hdollar, hnull, hin, hcomma, hclose⟩ := hfixed
  cases h with
  | @notNull c hc => exact (IsWrapperText.inQuotes c).append hnull
  | @compare c op p hc hp =>
    rw [text_compare]
    exact (IsWrapperText.inQuotes c).append (hblank.append ((IsWrapperText.sign op).append
      (hblank.append (hdollar.append hp.isWrapperText))))
  | @member c ps hc hps =>
    refine (((IsWrapperText.inQuotes c).append hin).append
      (hcomma.intercalate fun s hs => ?_)).append hclose
    obtain ⟨p, hp, rfl⟩ := List.mem_map.1 hs
    exact hdollar.append (hps p hp).isWrapperText

/-- A text without other characters does not hold a dash, an apostrophe or a slash. -/
theorem IsWrapperText.notMem {s : String} (h : IsWrapperText s) {a : Char}
    (ha : isWrapperChar a = false) : a ∉ s.toList := by
  intro hmem
  rw [h a hmem] at ha
  exact absurd ha (by decide)

end Characters

/-! ## What the database reads -/

section Tokens

variable {s t : String} {ts us : List Token}

/-- A piece of one character stands in front of the tokens of what follows. -/
theorem tokens?_of_step {c : Char} {token : Option Token}
    (h : step c t.toList = some (token, t.toList)) :
    tokens? (String.ofList [c] ++ t) = (tokens? t).map (token.toList ++ ·) := by
  rw [tokens?, String.toList_append, String.toList_ofList, List.singleton_append, List.length_cons,
    tokensWithin?, h, tokens?]
  simp only [Option.bind_eq_bind, Option.bind_some]
  cases tokensWithin? t.toList.length t.toList <;> rfl

theorem tokens?_blank (t : String) : tokens? (" " ++ t) = tokens? t := by
  have hstep : step ' ' t.toList = some (none, t.toList) := rfl
  refine (tokens?_of_step hstep).trans ?_
  cases tokens? t <;> rfl

theorem tokens?_lineFeed (t : String) : tokens? ("\n" ++ t) = tokens? t := by
  have hstep : step '\n' t.toList = some (none, t.toList) := rfl
  refine (tokens?_of_step hstep).trans ?_
  cases tokens? t <;> rfl

/-- The symbols that belong to no longer one. -/
def bracketChars : List Char := ['(', ')', ',']

/-- A bracket or a comma begins nothing but a symbol. -/
theorem isSymbolic_bracket {c : Char} (hc : c ∈ bracketChars) (r : List Char) : IsSymbolic c r := by
  have hall : ∀ c ∈ bracketChars, isTokenBlank c = false ∧ c ∉ [apostrophe, doubleQuote, '$'] ∧
      c ≠ '-' ∧ c ≠ '/' ∧ startsWord c = false ∧ c.isDigit = false ∧ c ≠ '.' := by
    decide
  obtain ⟨hblank, hquote, hdash, hslash, hword, hdigit, hpoint⟩ := hall c hc
  refine ⟨hblank, hquote, ?_, hword, ?_⟩
  · exact opensComment_eq_false (by simp [hdash]) (by simp [hslash])
  · simp [startsNumber, hdigit, hpoint]

theorem step_bracket {c : Char} (hc : c ∈ bracketChars) (r : List Char) :
    step c r = some (some (.symbol (String.ofList [c])), r) := by
  have hsymbols : ∀ c ∈ bracketChars, ∀ s ∈ longSymbols,
      s.toList.head? ≠ some c ∧ s.toList ≠ [] := by
    decide +kernel
  have hfind : longSymbols.find? (fun s => s.toList.isPrefixOf (c :: r) &&
      !opensComment ((c :: r).drop (s.length - 1))) = none := by
    refine List.find?_eq_none.2 fun s hs => ?_
    obtain ⟨hhead, hne⟩ := hsymbols c hc s hs
    obtain ⟨d, ds, hds⟩ := List.exists_cons_of_ne_nil hne
    have hd : d ≠ c := by simpa [hds] using hhead
    simp [hds, hd]
  rw [step_symbol (isSymbolic_bracket hc r)]
  simp only [symbolStep]
  rw [hfind]

theorem tokens?_bracket {c : Char} (hc : c ∈ bracketChars) (t : String) :
    tokens? (String.ofList [c] ++ t) = (tokens? t).map (.symbol (String.ofList [c]) :: ·) :=
  tokens?_of_step (step_bracket hc t.toList)

/-- Tokens behind a blank are read apart from those in front of it. -/
theorem tokens?_append_blank (hs : tokens? s = some ts) (hdash : '-' ∉ s.toList)
    (ht : tokens? t = some us) : tokens? (s ++ (" " ++ t)) = some (ts ++ us) := by
  have hblank : tokens? (" " ++ t) = some us := by rw [tokens?_blank, ht]
  exact tokens?_append ⟨' ', by simp, by decide, .inr hdash⟩ hs hblank

theorem quotedContent?_name {q : Char} {n : List Char} (hn : q ∉ n) :
    quotedContent? q (n ++ [q]) = some (n, []) := by
  induction n with
  | nil => simp [quotedContent?]
  | cons c n ih =>
    have hc : c ≠ q := fun h => hn (by simp [h])
    rw [List.cons_append, quotedContent?.eq_def]
    simp [hc, ih fun h => hn (List.mem_cons_of_mem _ h)]

/-- A name in double quotes is one token. -/
theorem tokens?_inQuotes {c : Identifier} (h : c.isNamed = true) :
    tokens? c.inQuotes = some [.name c.name] := by
  have hquote : doubleQuote ∉ c.name.toList := by
    intro hmem
    exact absurd (isNameChar_of_mem_name c _ hmem) (by decide)
  have hempty : c.name.toList ≠ [] := by simpa [Identifier.isNamed] using h
  have hstep := (Begins.name hempty (quotedContent?_name hquote)).step_eq
  rw [String.ofList_toList] at hstep
  rw [tokens?, Identifier.inQuotes, String.toList_ofList, List.cons_append, List.length_cons,
    tokensWithin?, hstep]
  simp [tokensWithin?]

/-- A parameter is one token. -/
theorem tokens?_parameter {p : String} (hp : IsBareName p) :
    tokens? ("$" ++ p) = some [.parameter p] := by
  have htag : ∀ c ∈ p.toList, continuesTag c = true := fun c hc => by
    simp [continuesTag, hp.chars c hc]
  have hrun : p.toList.takeWhile continuesTag = p.toList ∧
      p.toList.dropWhile continuesTag = [] := by
    have hnothing : ∀ c ∈ ([] : List Char).head?, continuesTag c = false := by simp
    have hself := takeWhile_run htag hnothing
    rwa [List.append_nil] at hself
  have hstring : stringTag? p.toList = none := by simp [stringTag?, hrun]
  have hstep := (Begins.parameter hstring (by rw [hrun.1]; exact hp.ne_nil)).step_eq
  rw [hrun.1, hrun.2, String.ofList_toList] at hstep
  have htext : ("$" ++ p).toList = '$' :: p.toList := by simp
  rw [tokens?, htext, List.length_cons, tokensWithin?, hstep]
  simp [tokensWithin?]

theorem tokens?_sign (o : FilterOperator) : tokens? o.sign = some (signTokens o) := by
  cases o <;> decide +kernel

/-- Texts with a separator between each two are read one after the other, with the tokens of the
separator in between. -/
theorem tokens?_intercalate {α : Type} {sep : String} {text : α → String} {tokens : α → List Token}
    {as : List α} (hhead : ∃ b, sep.toList.head? = some b ∧ b ∈ separators)
    (hsep : ∀ {t ts}, tokens? t = some ts → tokens? (sep ++ t) = some (us ++ ts))
    (has : ∀ a ∈ as, tokens? (text a) = some (tokens a) ∧ '-' ∉ (text a).toList) :
    tokens? (sep.intercalate (as.map text)) = some (us.intercalate (as.map tokens)) := by
  obtain ⟨b, hhead, hb⟩ := hhead
  induction as with
  | nil =>
    show tokens? "" = some []
    decide +kernel
  | cons a as ih =>
    obtain ⟨ha, hdash⟩ := has a List.mem_cons_self
    have hmore := ih fun c hc => has c (List.mem_cons_of_mem _ hc)
    cases as with
    | nil => simpa using ha
    | cons c as =>
      -- The separator is read with what stands behind it, and what stands in front of it apart.
      have hborder : (sep ++ sep.intercalate ((c :: as).map text)).toList.head? = some b := by
        rw [String.toList_append, List.head?_append, hhead]
        rfl
      have htokens := tokens?_append ⟨b, hborder, hb, .inr hdash⟩ ha (hsep hmore)
      rw [List.map_cons, List.map_cons, String.intercalate_cons_cons, ← List.map_cons,
        String.append_assoc, htokens]
      simp

theorem tokens?_comma (ht : tokens? t = some ts) :
    tokens? (", " ++ t) = some ([.symbol ","] ++ ts) := by
  have htext : ", " ++ t = String.ofList [','] ++ (" " ++ t) := by
    rw [← String.append_assoc]
    rfl
  rw [htext, tokens?_bracket (by decide), tokens?_blank, ht]
  rfl

/-- The parameters of a membership, with its closing parenthesis. -/
theorem tokens?_members {ps : List String} (hps : ∀ p ∈ ps, IsBareName p) :
    tokens? (", ".intercalate (ps.map ("$" ++ ·)) ++ ")") =
      some ([Token.symbol ","].intercalate (ps.map fun p => [.parameter p]) ++ [.symbol ")"]) := by
  have hwrapper : ∀ p ∈ ps, IsWrapperText ("$" ++ p) := fun p hp =>
    IsWrapperText.append (by decide) (hps p hp).isWrapperText
  have hlist : tokens? (", ".intercalate (ps.map ("$" ++ ·))) =
      some ([Token.symbol ","].intercalate (ps.map fun p => [.parameter p])) :=
    tokens?_intercalate ⟨',', by decide, by decide⟩ tokens?_comma fun p hp =>
      ⟨tokens?_parameter (hps p hp), (hwrapper p hp).notMem (by decide)⟩
  have hdash : '-' ∉ (", ".intercalate (ps.map ("$" ++ ·))).toList := by
    refine (IsWrapperText.intercalate (by decide) fun s hs => ?_).notMem (by decide)
    obtain ⟨p, hp, rfl⟩ := List.mem_map.1 hs
    exact hwrapper p hp
  have hclose : tokens? ")" = some [.symbol ")"] := by decide +kernel
  exact tokens?_append ⟨')', rfl, by decide, .inr hdash⟩ hlist hclose

/-- A condition is read as its own tokens. -/
theorem tokens?_condition {c : Condition} (h : HasNames c) :
    tokens? c.text = some (conditionTokens c) := by
  have hdashName : ∀ c : Identifier, '-' ∉ c.inQuotes.toList := fun c =>
    (IsWrapperText.inQuotes c).notMem (by decide)
  cases h with
  | @notNull c hc =>
    have htext : (Condition.notNull c).text = c.inQuotes ++ (" " ++ "IS NOT NULL") := rfl
    have hwords : tokens? "IS NOT NULL" = some [.word "IS", .word "NOT", .word "NULL"] := by
      decide +kernel
    rw [htext, tokens?_append_blank (tokens?_inQuotes hc) (hdashName c) hwords]
    rfl
  | @compare c op p hc hp =>
    have hdashSign : '-' ∉ op.sign.toList := (IsWrapperText.sign op).notMem (by decide)
    have hvalue := tokens?_append_blank (tokens?_sign op) hdashSign (tokens?_parameter hp)
    rw [text_compare, tokens?_append_blank (tokens?_inQuotes hc) (hdashName c) hvalue]
    rfl
  | @member c ps hc hps =>
    have hopen := tokens?_bracket (c := '(') (by decide)
      (", ".intercalate (ps.map ("$" ++ ·)) ++ ")")
    rw [tokens?_members hps] at hopen
    have hin : tokens? "IN" = some [.word "IN"] := by decide +kernel
    have hlist := tokens?_append_blank hin (by decide) hopen
    rw [text_member, tokens?_append_blank (tokens?_inQuotes hc) (hdashName c) hlist]
    rfl

/-- Conditions that all have to hold are read one after the other. -/
theorem tokens?_conjunction {cs : List Condition} (hcs : ∀ c ∈ cs, HasNames c) :
    tokens? (conjunction cs) = some (conjunctionTokens cs) := by
  have hand : tokens? "AND" = some [.word "AND"] := by decide +kernel
  refine tokens?_intercalate ⟨' ', by decide, by decide⟩ (fun {t ts} ht => ?_) fun c hc =>
    ⟨tokens?_condition (hcs c hc), (hcs c hc).isWrapperText.notMem (by decide)⟩
  have htext : " AND " ++ t = " " ++ ("AND" ++ (" " ++ t)) := by
    rw [← String.append_assoc, ← String.append_assoc]
    rfl
  rw [htext, tokens?_blank]
  exact tokens?_append_blank hand (by decide) ht

/-- The text behind a custom query is read as its own tokens. -/
theorem tokens?_behindQuery {cs : List Condition} (hcs : ∀ c ∈ cs, HasNames c) :
    tokens? (behindQuery cs) = some (behindTokens cs) := by
  have htext : behindQuery cs =
      "\n" ++ (")" ++ (" " ++ ("AS _filtered_sub WHERE" ++ (" " ++ conjunction cs)))) := by
    have hfixed : "\n) AS _filtered_sub WHERE " =
        "\n" ++ (")" ++ (" " ++ ("AS _filtered_sub WHERE" ++ " "))) := by decide
    unfold behindQuery
    rw [hfixed]
    simp only [String.append_assoc, -String.reduceAppend]
  have hwords : tokens? "AS _filtered_sub WHERE" =
      some [.word "AS", .word "_filtered_sub", .word "WHERE"] := by decide +kernel
  have hclose := tokens?_bracket (c := ')') (by decide)
    (" " ++ ("AS _filtered_sub WHERE" ++ (" " ++ conjunction cs)))
  rw [tokens?_blank, tokens?_append_blank hwords (by decide) (tokens?_conjunction hcs)] at hclose
  rw [htext, tokens?_lineFeed]
  exact hclose

/-- **The tokens of a custom query with filters around it** are those of the query, between those of
the text in front of it and of the text behind it. -/
theorem tokens?_filteredText {cs : List Condition} (hcs : ∀ c ∈ cs, HasNames c)
    (hs : tokens? s = some ts) :
    tokens? (filteredText s cs) = some (beforeTokens ++ ts ++ behindTokens cs) := by
  have hquery : tokens? (s ++ behindQuery cs) = some (ts ++ behindTokens cs) := by
    have hhead : (behindQuery cs).toList.head? = some '\n' := by
      unfold behindQuery
      rw [String.toList_append]
      rfl
    exact tokens?_append ⟨'\n', hhead, by decide, .inl rfl⟩ hs (tokens?_behindQuery hcs)
  have htext : filteredText s cs =
      "SELECT * FROM" ++ (" " ++ ("(" ++ (s ++ behindQuery cs))) := by
    have hfixed : "SELECT * FROM (" = "SELECT * FROM" ++ (" " ++ "(") := by decide
    rw [filteredText_eq]
    unfold beforeQuery
    rw [hfixed]
    simp only [String.append_assoc, -String.reduceAppend]
  have hwords : tokens? "SELECT * FROM" = some [.word "SELECT", .symbol "*", .word "FROM"] := by
    decide +kernel
  have hopen := tokens?_bracket (c := '(') (by decide) (s ++ behindQuery cs)
  rw [hquery] at hopen
  rw [htext, tokens?_append_blank hwords (by decide) hopen]
  simp [beforeTokens]

end Tokens

/-! ## What masking shows -/

section Masks

/-- A wrapper text with one dollar sign at most is inert. -/
theorem IsWrapperText.isInert {s : String} (h : IsWrapperText s)
    (hdollar : s.toList.count '$' ≤ 1) : IsInert s.toList :=
  .of_count (h.notMem (by decide)) (h.notMem (by decide)) hdollar

theorem count_dollar_inQuotes (c : Identifier) : c.inQuotes.toList.count '$' = 0 := by
  refine List.count_eq_zero.2 fun hmem => ?_
  rw [Identifier.inQuotes, String.toList_ofList] at hmem
  simp only [List.cons_append, List.mem_cons, List.mem_append, List.not_mem_nil, or_false] at hmem
  rcases hmem with h | h | h
  · exact absurd h (by decide)
  · exact absurd (isNameChar_of_mem_name c _ h) (by decide)
  · exact absurd h (by decide)

theorem IsBareName.count_dollar {p : String} (hp : IsBareName p) : p.toList.count '$' = 0 :=
  List.count_eq_zero.2 fun hmem => absurd (hp.chars _ hmem) (by decide)

/-- Inert texts stay inert with an inert separator between each two, if no character at its ends
belongs to a tag. -/
theorem isInert_intercalate {sep : String} (hsep : IsInert sep.toList)
    (hhead : ∃ c, sep.toList.head? = some c ∧ isTagChar c = false)
    (hlast : ∃ c, sep.toList.getLast? = some c ∧ isTagChar c = false) {ss : List String}
    (hss : ∀ s ∈ ss, IsInert s.toList) : IsInert (sep.intercalate ss).toList := by
  obtain ⟨a, hhead, ha⟩ := hhead
  obtain ⟨b, hlast, hb⟩ := hlast
  induction ss with
  | nil =>
    show IsInert "".toList
    exact .of_count (by decide) (by decide) (by decide)
  | cons s ss ih =>
    have hs := hss s List.mem_cons_self
    have hmore := ih fun r hr => hss r (List.mem_cons_of_mem _ hr)
    cases ss with
    | nil => rwa [String.intercalate_singleton]
    | cons r ss =>
      have hrest : IsInert (sep.toList ++ (sep.intercalate (r :: ss)).toList) := by
        refine hsep.append hmore (.inl ?_)
        rw [hlast]
        rintro _ ⟨⟩
        exact hb
      rw [String.intercalate_cons_cons, String.append_assoc, String.toList_append,
        String.toList_append]
      refine hs.append hrest (.inr ?_)
      rw [List.head?_append, hhead]
      rintro _ ⟨⟩
      exact ha

/-- The parameters of a membership, with its closing parenthesis, are inert. -/
theorem isInert_members {ps : List String} (hps : ∀ p ∈ ps, IsBareName p) :
    IsInert (", ".intercalate (ps.map ("$" ++ ·)) ++ ")").toList := by
  have hcomma : IsInert ", ".toList := IsWrapperText.isInert (by decide) (by decide)
  have hclose : IsInert ")".toList := IsWrapperText.isInert (by decide) (by decide)
  have hlist : IsInert (", ".intercalate (ps.map ("$" ++ ·))).toList := by
    refine isInert_intercalate hcomma ⟨',', by decide, by decide⟩ ⟨' ', by decide, by decide⟩ ?_
    intro s hs
    obtain ⟨p, hp, rfl⟩ := List.mem_map.1 hs
    refine (IsWrapperText.append (by decide) (hps p hp).isWrapperText).isInert ?_
    rw [String.toList_append, List.count_append, (hps p hp).count_dollar]
    decide
  rw [String.toList_append]
  refine hlist.append hclose (.inr ?_)
  rintro _ ⟨⟩
  decide

/-- A condition is inert. -/
theorem HasNames.isInert {c : Condition} (h : HasNames c) : IsInert c.text.toList := by
  have hwrapper := h.isWrapperText
  -- Only the parameters of a membership bring more than one dollar sign.
  cases h with
  | @notNull c hc =>
    refine hwrapper.isInert ?_
    rw [Condition.text, String.toList_append, List.count_append, count_dollar_inQuotes]
    decide
  | @compare c op p hc hp =>
    refine hwrapper.isInert ?_
    have hsign : op.sign.toList.count '$' = 0 := by cases op <;> decide
    rw [text_compare]
    simp only [String.toList_append, List.count_append, count_dollar_inQuotes, hsign,
      hp.count_dollar]
    decide
  | @member c ps hc hps =>
    have hfront : IsInert (c.inQuotes ++ " IN (").toList := by
      have hin : IsWrapperText " IN (" := by decide
      refine ((IsWrapperText.inQuotes c).append hin).isInert ?_
      rw [String.toList_append, List.count_append, count_dollar_inQuotes]
      decide
    rw [Condition.text, @String.append_assoc (c.inQuotes ++ " IN ("), String.toList_append]
    refine hfront.append (isInert_members hps) (.inl ?_)
    rw [String.toList_append, List.getLast?_append]
    rintro _ ⟨⟩
    decide

/-- Conditions that all have to hold are inert. -/
theorem isInert_conjunction {cs : List Condition} (hcs : ∀ c ∈ cs, HasNames c) :
    IsInert (conjunction cs).toList := by
  have hand : IsInert " AND ".toList := IsWrapperText.isInert (by decide) (by decide)
  refine isInert_intercalate hand ⟨' ', by decide, by decide⟩ ⟨' ', by decide, by decide⟩ ?_
  intro s hs
  obtain ⟨c, hc, rfl⟩ := List.mem_map.1 hs
  exact (hcs c hc).isInert

/-- The text behind a custom query stands on a line of its own, is inert, and quotes a name. -/
theorem behindQuery_eq_lineFeed {cs : List Condition} (hcs : ∀ c ∈ cs, HasNames c)
    (hne : cs ≠ []) :
    ∃ u, (behindQuery cs).toList = '\n' :: u ∧ IsInert ('\n' :: u) ∧ doubleQuote ∈ u := by
  have hfixed : IsWrapperText "\n) AS _filtered_sub WHERE " := by decide
  have hchars : "\n) AS _filtered_sub WHERE ".toList =
      '\n' :: ") AS _filtered_sub WHERE ".toList := by decide
  have htext : (behindQuery cs).toList =
      '\n' :: (") AS _filtered_sub WHERE ".toList ++ (conjunction cs).toList) := by
    unfold behindQuery
    rw [String.toList_append, hchars, List.cons_append]
  refine ⟨_, htext, ?_, ?_⟩
  · rw [← List.cons_append, ← hchars]
    exact (hfixed.isInert (by decide)).append (isInert_conjunction hcs)
      (.inl (by rintro _ ⟨⟩; decide))
  -- Every condition names its column.
  · obtain ⟨c, cs, rfl⟩ := List.exists_cons_of_ne_nil hne
    have hquote : doubleQuote ∈ c.text.toList := by
      cases c <;> simp [Condition.text, Identifier.inQuotes]
    refine List.mem_append_right _ ?_
    rw [conjunction]
    cases cs with
    | nil => simpa using hquote
    | cons d cs =>
      rw [List.map_cons, List.map_cons, String.intercalate_cons_cons, String.toList_append,
        String.toList_append]
      exact List.mem_append_left _ (List.mem_append_left _ hquote)

/-- **A custom query with filters around it is masked like its parts** exactly if masking the query
leaves no double quote open. -/
theorem mask_filteredText_iff {s : String} {cs : List Condition} (hcs : ∀ c ∈ cs, HasNames c)
    (hne : cs ≠ []) :
    mask (filteredText s cs) = beforeQuery ++ mask s ++ mask (behindQuery cs) ↔
      doubleQuote ∉ (mask s).toList := by
  obtain ⟨u, hu, hinert, hquote⟩ := behindQuery_eq_lineFeed hcs hne
  -- The text in front marks nothing and is shown as it is: all depends on the border behind.
  have hbefore : ∀ d ∈ beforeQuery.toList, d ∉ markChars := by decide
  have htogether : (mask (filteredText s cs)).toList =
      beforeQuery.toList ++ maskChars (s.toList ++ '\n' :: u) := by
    rw [mask, String.toList_ofList, filteredText_eq, String.append_assoc, String.toList_append,
      String.toList_append, hu, maskChars_of_notMem hbefore]
  have hapart : (beforeQuery ++ mask s ++ mask (behindQuery cs)).toList =
      beforeQuery.toList ++ (maskChars s.toList ++ maskChars ('\n' :: u)) := by
    rw [String.append_assoc, String.toList_append, String.toList_append, mask, mask,
      String.toList_ofList, String.toList_ofList, hu]
  rw [← String.toList_inj, htogether, hapart, List.append_cancel_left_eq, mask,
    String.toList_ofList]
  exact maskChars_append_iff hinert hquote s.toList

end Masks

/-! ## Queries that masking reads like the database -/

/-- Masking misreads no piece of the query. -/
def isReadAlike (q : String) : Bool := (pieces? q.toList).all fun ps => ps.all (!·.isMisread)

theorem quiet_of_cuts {cs masked : List Char} {ps : List Piece} (h : Cuts cs ps)
    (hread : ∀ p ∈ ps, p.isMisread = false) (hmasked : MaskedAs masked cs) :
    doubleQuote ∉ masked ∧ (';' ∈ masked ↔ .symbol ";" ∈ tokensOf ps) := by
  -- Induction on the pieces: each is shown apart, in front of what is shown of the others.
  induction h generalizing masked with
  | nil =>
    obtain rfl : masked = [] := by
      rcases hmasked with rfl | ⟨cs', he, -, -⟩
      · rfl
      · cases he
    simp [tokensOf]
  | @cons c r rest token ps hstep hrest ih =>
    obtain ⟨m, masked', rfl, hmasked', hshows⟩ :=
      isShown_of_step hstep (hread _ List.mem_cons_self) hmasked
    obtain ⟨hquote, hsemicolon⟩ := ih (fun p hp => hread p (List.mem_cons_of_mem _ hp)) hmasked'
    have hm : doubleQuote ∉ m ∧ (';' ∈ m ↔ token = some (.symbol ";")) := by
      have hchars : ";".toList = [';'] := by decide
      rcases hshows.quiet with hall | ⟨rfl, ht⟩
      · refine ⟨fun hmem => absurd (hall _ hmem) (by decide), fun hmem => ?_, fun ht => ?_⟩
        · exact absurd (hall _ hmem) (by decide)
        · rw [hshows.symbol _ ht, hchars] at hall
          exact absurd (hall ';' List.mem_cons_self) (by decide)
      · have ht : token = some (.symbol ";") := ht
        exact ⟨by decide, by simp [ht]⟩
    have htokens : Token.symbol ";" ∈ tokensOf (⟨token, c, r, rest⟩ :: ps) ↔
        token = some (.symbol ";") ∨ .symbol ";" ∈ tokensOf ps := by
      cases token <;> simp [tokensOf, eq_comm]
    rw [List.mem_append, List.mem_append, htokens, hm.2, hsemicolon, not_or]
    exact ⟨⟨hm.1, hquote⟩, Iff.rfl⟩

/-- Masking leaves no double quote open in a query that it does not misread, and shows a semicolon
exactly where there is one. -/
theorem quiet_of_readAlike {q : String} {ts : List Token} (hread : tokens? q = some ts)
    (halike : isReadAlike q = true) :
    doubleQuote ∉ (mask q).toList ∧ (';' ∈ (mask q).toList ↔ .symbol ";" ∈ ts) := by
  rw [tokens?_eq] at hread
  obtain ⟨ps, hps, rfl⟩ := Option.map_eq_some_iff.1 hread
  simp only [isReadAlike, hps, Option.all_some, List.all_eq_true, Bool.not_eq_true'] at halike
  rw [mask, String.toList_ofList]
  exact quiet_of_cuts (cuts_of_piecesWithin? hps) halike (.inl rfl)

/-! ## Queries that pass the check -/

theorem isExec_of_validateExec {query : String} {listed : List String}
    (h : (validateExec query listed).isValid = true) :
    (validateExec query listed).isExec = true := by
  unfold validateExec at h ⊢
  dsimp only at h ⊢
  split at h
  · cases h
  rename_i name hname
  split at h
  · cases h
  rename_i hlisted
  rw [if_neg hlisted]
  split at h
  · cases h
  rename_i hmarks
  rw [if_neg hmarks]
  split at h
  · cases h
  rename_i hcount
  rw [if_neg hcount]
  rfl

/-- Every statement of a text that can be parsed has a kind. -/
theorem length_of_mapM {α β : Type} {f : α → Option β} {as : List α} {bs : List β}
    (h : as.mapM f = some bs) : as.length = bs.length := by
  induction as generalizing bs with
  | nil =>
    obtain rfl : [] = bs := Option.some.inj h
    rfl
  | cons a as ih =>
    rw [List.mapM_cons] at h
    obtain ⟨b, -, h⟩ := Option.bind_eq_some_iff.1 h
    obtain ⟨more, hmore, he⟩ := Option.bind_eq_some_iff.1 h
    obtain rfl : b :: more = bs := Option.some.inj he
    rw [List.length_cons, List.length_cons, ih hmore]

/-- A query that passes as a selection is one statement for the database. -/
theorem of_validateSelect {query : String} (h : (validateSelect query).isValid = true) :
    validateSelect query = .passed query false ∧
      ∃ ts, tokens? query = some ts ∧ (statements ts).length = 1 := by
  unfold validateSelect at h ⊢
  split at h
  · cases h
  · cases h
  · cases h
  rename_i kind hparse
  dsimp only at h ⊢
  split at h
  · rename_i hselect
    rw [if_pos hselect]
    split at h
    · cases h
    · rename_i hwords
      refine ⟨rfl, ?_⟩
      obtain ⟨ts, hts, hkinds⟩ := Option.bind_eq_some_iff.1 hparse
      exact ⟨ts, hts, length_of_mapM hkinds⟩
  · cases h

/-- A query that passes the check as a selection is a text without the blanks and the semicolon
around it, and one statement for the database. -/
theorem of_validate {query : Value} {listed : List String}
    (hvalid : (validate query listed).isValid = true)
    (hselect : (validate query listed).isExec = false) :
    ∃ t ts, validate query listed = .passed t false ∧ tokens? t = some ts ∧
      (statements ts).length = 1 := by
  unfold validate at hvalid hselect ⊢
  split at hvalid
  · rename_i s
    split at hvalid
    · cases hvalid
    · rename_i hblank
      dsimp only at hvalid hselect ⊢
      rw [if_neg hblank] at hselect ⊢
      split at hvalid
      · rename_i hexec
        rw [if_pos hexec, isExec_of_validateExec hvalid] at hselect
        cases hselect
      · rename_i hexec
        rw [if_neg hexec]
        obtain ⟨hpassed, ts, hts, hone⟩ := of_validateSelect hvalid
        exact ⟨_, ts, hpassed, hts, hone⟩
  · cases hvalid

/-- A query with semicolons and a double quote wherever they are no code. -/
def commentedQuery : String := "SELECT ';' AS \"a;\", 1 AS a /* \" ; */ -- ; ("

/-- Two filters, of which the second is kept. -/
def oneOfTwoFilters : List FilterSpec := [⟨"a", "~", .int 1⟩, ⟨"a", "IN", .list [.int 1, .int 2]⟩]

/-- A query in whose string with escapes masking goes astray leaves a quote open for it, which the
first name behind the query closes. -/
example :
    let q := "SELECT E'\\'', '\"' AS a"
    let v := validate (.text q) []
    v = .passed q false ∧
      ((prepareCustom v [⟨"a", "=", .int 1⟩]).toOption.map fun p => mask p.text) ≠
        some (beforeQuery ++ mask q ++
          mask (behindQuery (filterConditions (resolveFilters none [⟨"a", "=", .int 1⟩]).1))) := by
  decide +kernel

end ChartQuery.Sql
