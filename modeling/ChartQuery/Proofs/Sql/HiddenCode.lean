import ChartQuery.Proofs.Sql.TwoReadings

/-!
# What masked text hides

The check of custom queries reads masked text, the database reads the query itself. Where the two
readings agree on every piece of the query, no refused word and no call of a refused function gets
past the check. Where they do not agree, one may.

## Main definitions

* `KeepsWordRules ts`: tokens without a refused word or a call of a refused function
* `isLegible q`: masking misreads no piece of the query, and hides no refused name in it

## Main results

* `keepsWordRules_of_checkWords`: the check of a legible query hides nothing
* `blindSpots_pass`: the check of other queries may hide something, in each of nine ways
-/

namespace ChartQuery.Sql

open Text (isWordChar isBlank)

/-! ## Legible queries -/

/-- The name that a token may call. -/
def Token.called? : Token → Option String
  | word s => some s
  | name s => some s
  | _ => none

/-- The tokens keep the rules on words: none of them is a refused word, and none in front of an
opening parenthesis names a refused function. -/
structure KeepsWordRules (ts : List Token) : Prop where
  words : ∀ w, .word w ∈ ts → isBlockedWord (capitals w.toList) = false
  calls : ∀ t f, [t, .symbol "("] <:+: ts → t.called? = some f →
    isBlockedFunction (capitals f.toList) = false

/-- The tokens of pieces. -/
def tokensOf (ps : List Piece) : List Token := ps.filterMap Piece.token

/-- A refused word that is no word of name characters. -/
def Piece.hidesWord (p : Piece) : Bool :=
  match p.token with
  | some (.word w) => isBlockedWord (capitals w.toList) && !isPlainWord w.toList
  | _ => false

/-- The pieces hold a call of a refused function whose name is no word of name characters, or which
a blank without any width keeps apart from its parenthesis. -/
def hidesCall : List Piece → Bool
  | [] => false
  | p :: ps =>
    ((p.token.bind Token.called?).any fun f =>
      isBlockedFunction (capitals f.toList) && (tokensOf ps).head? == some (.symbol "(") &&
        (!isPlainWord f.toList || (ps.takeWhile (·.token.isNone)).any Piece.isThin)) ||
      hidesCall ps

/-- Masking misreads no piece of the query, and hides no refused name in it. -/
def isLegible (q : String) : Bool :=
  (pieces? q.toList).all fun ps =>
    ps.all (fun p => !p.isMisread && !p.hidesWord) && !hidesCall ps

/-! ## Calls -/

theorem opensCall_append {m : List Char} (h : ∀ a ∈ m, isBlank a = true) (cs : List Char) :
    opensCall (m ++ cs) = opensCall cs := by
  rw [opensCall, opensCall, List.dropWhile_append_of_pos h]

theorem opensCall_paren {m : List Char} (h : m.head? = some '(') (cs : List Char) :
    opensCall (m ++ cs) = true := by
  cases m with
  | nil => simp at h
  | cons c m =>
    obtain rfl : c = '(' := Option.some.inj h
    have hblank : isBlank '(' = false := by decide
    simp [opensCall, hblank]

/-- Where a parenthesis comes next, behind pieces that count for nothing and no blank without width
among them, the masked text opens a call. -/
theorem opensCall_of_cuts {cs masked : List Char} {ps : List Piece} (h : Cuts cs ps)
    (hread : ∀ p ∈ ps, p.isMisread = false)
    (hparen : (tokensOf ps).head? = some (.symbol "("))
    (hthin : (ps.takeWhile (·.token.isNone)).any Piece.isThin = false)
    (hmasked : MaskedAs masked cs) : opensCall masked = true := by
  -- Induction on the pieces up to the parenthesis, in front of which masking shows blanks only.
  induction h generalizing masked with
  | nil => simp [tokensOf] at hparen
  | @cons c r rest token ps hstep _ ih =>
    obtain ⟨m, masked', rfl, hmasked', hshows⟩ :=
      isShown_of_step hstep (hread _ List.mem_cons_self) hmasked
    cases token with
    | none =>
      rw [List.takeWhile_cons_of_pos rfl, List.any_cons, Bool.or_eq_false_iff] at hthin
      rw [opensCall_append (hshows.gap rfl hthin.1)]
      exact ih (fun p hp => hread p (List.mem_cons_of_mem _ hp)) hparen hthin.2 hmasked'
    | some t =>
      obtain rfl : t = .symbol "(" := by simpa [tokensOf] using hparen
      obtain rfl := hshows.symbol "(" rfl
      exact opensCall_paren rfl _

/-! ## The check of legible queries -/

theorem head?_of_maskedAs {masked cs : List Char} {a : Char} (h : MaskedAs masked cs)
    (ha : masked.head? = some a) (hw : isWordChar a = true) : cs.head? = some a := by
  rcases h with rfl | ⟨cs', rfl, hnewline, rfl⟩
  · exact head?_maskChars ha hw
  · obtain rfl := hnewline a (head?_maskChars ha hw)
    exact absurd hw (by decide)

theorem keepsWordRules_cons {token : Option Token} {ts : List Token} (h : KeepsWordRules ts)
    (hword : ∀ w, token = some (.word w) → isBlockedWord (capitals w.toList) = false)
    (hcall : ∀ t f, token = some t → t.called? = some f → ts.head? = some (.symbol "(") →
      isBlockedFunction (capitals f.toList) = false) :
    KeepsWordRules (token.toList ++ ts) := by
  cases token with
  | none => exact h
  | some t =>
    refine ⟨fun w hw => ?_, fun t' f hinfix hf => ?_⟩
    · rcases List.mem_cons.1 hw with hw | hw
      · exact hword w (by rw [hw])
      · exact h.words w hw
    · rcases List.infix_cons_iff.1 hinfix with ⟨u, hu⟩ | hinfix
      · obtain ⟨rfl, rfl⟩ := List.cons.inj hu
        exact hcall t' f rfl hf rfl
      · exact h.calls t' f hinfix hf

theorem startsWord_of_isPlainWord {c : Char} {w : List Char} (h : isPlainWord (c :: w) = true) :
    startsWord c = true := by
  simp only [isPlainWord, Bool.and_eq_true] at h
  simp [startsWord, h.1.1, h.1.2]

section Passing

variable {pre m masked' cs : List Char} {p : Piece}

/-- No word in the text behind what a piece shows, and none in front of a word, runs into it; so the
check has seen the word. -/
theorem checkWords_word {w : String} (hcheck : checkWords (pre ++ (m ++ masked')) = none)
    (hmasked : MaskedAs (m ++ masked') cs) (hmasked' : MaskedAs masked' p.rest)
    (hedge : (∀ b ∈ cs.head?, startsWord b = false) ∨ ∀ a ∈ pre.getLast?, isWordChar a = false)
    (hshows : Shows p m) (ht : p.token = some (.word w)) (hw : isPlainWord w.toList = true) :
    isBlockedWord (capitals w.toList) = false ∧
      (isBlockedFunction (capitals w.toList) = true → opensCall masked' = false) := by
  obtain ⟨rfl, hrest⟩ := hshows.word w ht
  refine checkWords_run hcheck hw ?_ fun b hb => ?_
  -- Had the text in front shown a word character, the piece would not begin with a word.
  · rcases hedge with hedge | hedge
    · intro a _
      obtain ⟨c, u, hc⟩ := List.exists_cons_of_ne_nil (ne_nil_of_isPlainWord hw)
      have hword : isWordChar c = true := isWordChar_of_isPlainWord hw c (by simp [hc])
      have hfalse := hedge c (head?_of_maskedAs hmasked (by simp [hc]) hword)
      rw [hc] at hw
      rw [startsWord_of_isPlainWord hw] at hfalse
      exact absurd hfalse (by decide)
    · exact hedge
  -- A word character behind the word would continue it for the database as well.
  · by_contra hword
    have hword : isWordChar b = true := by simpa using hword
    have hfalse := hrest b (head?_of_maskedAs hmasked' hb hword)
    rw [continuesWord_of_continuesTag (continuesTag_of_isWordChar hword)] at hfalse
    exact absurd hfalse (by decide)

theorem checkWords_name {f : String} (hcheck : checkWords (pre ++ (m ++ masked')) = none)
    (hshows : Shows p m) (ht : p.token = some (.name f)) (hf : isPlainWord f.toList = true) :
    isBlockedFunction (capitals f.toList) = true → opensCall masked' = false := by
  obtain rfl := hshows.name f ht (isNameChar_of_isPlainWord hf)
  have hcheck' :
      checkWords ((pre ++ [' ', ' ']) ++ (f.toList ++ ([' ', ' '] ++ masked'))) = none := by
    simpa using hcheck
  have hblank : ∀ a ∈ [' ', ' '], isBlank a = true :=
    List.all_eq_true.1 (by decide : [' ', ' '].all isBlank = true)
  intro hblocked
  rw [← opensCall_append hblank]
  refine (checkWords_run hcheck' hf ?_ ?_).2 hblocked
  · simp
    decide
  · simp
    decide

end Passing

theorem keepsWordRules_of_cuts (pre : List Char) {masked cs : List Char} {ps : List Piece}
    (h : Cuts cs ps)
    (hread : ∀ p ∈ ps, p.isMisread = false) (hwords : ∀ p ∈ ps, p.hidesWord = false)
    (hcalls : hidesCall ps = false) (hmasked : MaskedAs masked cs)
    (hedge : (∀ b ∈ cs.head?, startsWord b = false) ∨ ∀ a ∈ pre.getLast?, isWordChar a = false)
    (hcheck : checkWords (pre ++ masked) = none) : KeepsWordRules (tokensOf ps) := by
  -- Induction on the pieces: what masking has shown of those before this one is `pre`, which does
  -- not run into a word.
  induction h generalizing pre masked with
  | nil => exact ⟨by simp [tokensOf], by simp [tokensOf]⟩
  | @cons c r rest token ps hstep hrest ih =>
    obtain ⟨m, masked', rfl, hmasked', hshows⟩ :=
      isShown_of_step hstep (hread _ List.mem_cons_self) hmasked
    have hread' : ∀ p ∈ ps, p.isMisread = false := fun p hp => hread p (List.mem_cons_of_mem _ hp)
    have hedge' : (∀ b ∈ rest.head?, startsWord b = false) ∨
        ∀ a ∈ (pre ++ m).getLast?, isWordChar a = false := by
      rcases hshows.edge with he | ⟨a, ha, haw⟩
      · exact .inl he
      · refine .inr fun b hb => ?_
        rw [List.getLast?_append, ha] at hb
        obtain rfl : a = b := Option.some.inj hb
        exact haw
    rw [hidesCall, Bool.or_eq_false_iff] at hcalls
    have hrules := ih (pre ++ m) hread' (fun p hp => hwords p (List.mem_cons_of_mem _ hp))
      hcalls.2 hmasked' hedge' (by rwa [List.append_assoc])
    have htokens : tokensOf (⟨token, c, r, rest⟩ :: ps) = token.toList ++ tokensOf ps := by
      cases token <;> rfl
    rw [htokens]
    refine keepsWordRules_cons hrules (fun w hw => ?_) fun t f ht hf hparen => ?_
    -- a refused word is a plain one, so that the check has seen it
    · by_contra hblocked
      have hblocked : isBlockedWord (capitals w.toList) = true := by simpa using hblocked
      have hplain : isPlainWord w.toList = true := by
        simpa [Piece.hidesWord, hw, hblocked] using hwords _ List.mem_cons_self
      have hseen := (checkWords_word hcheck hmasked hmasked' hedge hshows hw hplain).1
      rw [hblocked] at hseen
      exact absurd hseen (by decide)
    -- a call of a refused function has a plain name, and masking shows its parenthesis behind it
    · by_contra hblocked
      have hblocked : isBlockedFunction (capitals f.toList) = true := by simpa using hblocked
      have hclear : isPlainWord f.toList = true ∧
          (ps.takeWhile (·.token.isNone)).any Piece.isThin = false := by
        simpa [ht, hf, hparen, hblocked] using hcalls.1
      have hopens := opensCall_of_cuts hrest hread' hparen hclear.2 hmasked'
      have hseen : opensCall masked' = false := by
        cases t with
        | word s =>
          obtain rfl : s = f := Option.some.inj hf
          exact (checkWords_word hcheck hmasked hmasked' hedge hshows ht hclear.1).2 hblocked
        | name s =>
          obtain rfl : s = f := Option.some.inj hf
          exact checkWords_name hcheck hshows ht hclear.1 hblocked
        | _ => simp [Token.called?] at hf
      rw [hopens] at hseen
      exact absurd hseen (by decide)

/-- **The check of a legible query hides nothing.** Where masking misreads no piece of a query, a
query whose masked text passes the check holds, as the database reads it, no refused word and no
call of a refused function. -/
theorem keepsWordRules_of_checkWords (q : String) (ts : List Token) (hread : tokens? q = some ts)
    (hcheck : checkWords (mask q).toList = none) (hlegible : isLegible q = true) :
    KeepsWordRules ts := by
  rw [tokens?_eq] at hread
  obtain ⟨ps, hps, rfl⟩ := Option.map_eq_some_iff.1 hread
  rw [mask, String.toList_ofList] at hcheck
  simp only [isLegible, hps, Option.all_some, Bool.and_eq_true, List.all_eq_true,
    Bool.not_eq_true'] at hlegible
  obtain ⟨hpieces, hcalls⟩ := hlegible
  exact keepsWordRules_of_cuts [] (cuts_of_piecesWithin? hps)
    (fun p hp => (hpieces p hp).1) (fun p hp => (hpieces p hp).2) hcalls (.inl rfl)
    (.inr (by simp)) hcheck

/-- A query with refused words and calls wherever they are no code. -/
def quotingQuery : String :=
  "SELECT \"drops\", 'getenv(', E'\\tdrop', $q$ glob( $q$, a$b, /* drop */ 1.5e-3 FROM t -- drop\r\n"

theorem keepsWordRules_of_checkWords_quotingQuery :
    checkWords (mask quotingQuery).toList = none ∧ isLegible quotingQuery = true ∧
      ∃ ts, tokens? quotingQuery = some ts ∧ KeepsWordRules ts := by
  have hcheck : checkWords (mask quotingQuery).toList = none := by decide +kernel
  have hlegible : isLegible quotingQuery = true := by decide +kernel
  have hread : (tokens? quotingQuery).isSome = true := by decide +kernel
  obtain ⟨ts, hts⟩ := Option.isSome_iff_exists.1 hread
  exact ⟨hcheck, hlegible, ts, hts, keepsWordRules_of_checkWords _ ts hts hcheck hlegible⟩

/-! ## Blind spots -/

/-- A token that names something refused: a refused word, or a refused function in front of an
opening parenthesis. -/
def Token.isRefused (t : Token) (next : Option Token) : Bool :=
  (match t with
    | .word w => isBlockedWord (capitals w.toList)
    | _ => false) ||
  (next == some (.symbol "(") && t.called?.any fun f => isBlockedFunction (capitals f.toList))

/-- Some token names something refused. -/
def holdsRefused : List Token → Bool
  | [] => false
  | t :: ts => t.isRefused ts.head? || holdsRefused ts

theorem not_keepsWordRules_of_holdsRefused {ts : List Token} (h : holdsRefused ts = true) :
    ¬ KeepsWordRules ts := by
  induction ts with
  | nil => simp [holdsRefused] at h
  | cons t ts ih =>
    intro hrules
    rw [holdsRefused, Bool.or_eq_true] at h
    rcases h with h | h
    -- the first token is refused, as a word or as the name of a call; or one behind it is
    · rcases (Bool.or_eq_true _ _).mp h with h | h
      · cases t with
        | word w => exact absurd (hrules.words w List.mem_cons_self) (by simp [h])
        | _ => simp at h
      · rw [Bool.and_eq_true, beq_iff_eq] at h
        obtain ⟨hnext, hcall⟩ := h
        obtain ⟨f, hf, hblocked⟩ := (Option.any_eq_true _ _).1 hcall
        obtain ⟨ts, rfl⟩ := List.head?_eq_some_iff.1 hnext
        exact absurd (hrules.calls t f ⟨[], ts, rfl⟩ hf) (by simp [hblocked])
    · refine ih h ⟨fun w hw => hrules.words w (List.mem_cons_of_mem _ hw), fun t f hinfix => ?_⟩
      exact hrules.calls t f (List.infix_cons hinfix)

/-- Queries that are misread, or in which a refused name is hidden, each in one of nine ways. -/
def blindSpots : List String := [
  -- a string with escapes, a dollar sign within a word, a comment within a comment
  "SELECT E'\\'' || getenv('HOME') --'",
  "SELECT a$$, getenv('HOME'), b$$ FROM t",
  "SELECT /* /* */ ' */ getenv('HOME') --'",
  -- a carriage return in a line, a tag of foreign letters, a number in front of a word
  "SELECT 1 --\r, getenv('HOME')",
  "SELECT $é$ ' $é$, getenv('HOME') --'",
  "SELECT 1drop",
  -- a foreign letter in a word, a blank in a name, a blank without width
  "SELECT sp_é",
  "SELECT * FROM \"read_x y\"('a')",
  "SELECT getenv\u200B('HOME')"]

/-- The check lets every blind spot pass: where a query is not legible, nothing follows from it. -/
theorem blindSpots_pass :
    ∀ q ∈ blindSpots, checkWords (mask q).toList = none ∧
      ∃ ts, tokens? q = some ts ∧ ¬ KeepsWordRules ts := by
  have hall : ∀ q ∈ blindSpots, checkWords (mask q).toList = none ∧
      (tokens? q).any holdsRefused = true := by
    decide +kernel
  intro q hq
  obtain ⟨hcheck, hany⟩ := hall q hq
  obtain ⟨ts, hts, hrefused⟩ := (Option.any_eq_true _ _).1 hany
  exact ⟨hcheck, ts, hts, not_keepsWordRules_of_holdsRefused hrefused⟩

theorem escapedQuote_hidesCode :
    ∃ q ts, tokens? q = some ts ∧ checkWords (mask q).toList = none ∧ ¬ KeepsWordRules ts := by
  obtain ⟨hcheck, ts, hts, hrefused⟩ := blindSpots_pass _ List.mem_cons_self
  exact ⟨_, ts, hts, hcheck, hrefused⟩

end ChartQuery.Sql
