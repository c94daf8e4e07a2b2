import ChartQuery.Sql.Validation
import ChartQuery.Proofs.Sql.MaskedText
import ChartQuery.Proofs.Text.Capitals

/-!
# Files read in place of tables

A database reads a file where a query gives a string in place of the name of a table. Masking leaves
two quotes of the string, and a blank of each comment, so that the check finds the word in front of
the string and what stands between them. It wants to see a blank there. A word that the string
follows at once is therefore not found, though the database needs no blank either.

## Main definitions

* `Lexeme.IsGap`: a piece that parts a word from what follows, and counts for nothing
* `ReplacementScan`: a text in which a string stands in place of the name of a table

## Main results

* `opensString_quotes`: a string is found behind blanks, and not without them
* `replacementScan_isRefused`: the check finds the string exactly if something parts it from the
  word in front, and then refuses the query
-/

namespace ChartQuery.Sql

open Text (apostrophe isWordChar isBlank blankCodes mem_blankCodes_of_isBlank)

/-! ## Characters -/

/-- No blank is a word character. -/
theorem isWordChar_of_isBlank {c : Char} (h : isBlank c = true) : isWordChar c = false := by
  have hall : ∀ n ∈ blankCodes, isWordChar (Char.ofNat n) = false := by decide +kernel
  rw [← Char.ofNat_toNat c]
  exact hall _ (mem_blankCodes_of_isBlank h)

/-- What is compared as a name character is a word character. -/
theorem isWordChar_of_foldLetter {c : Char} (h : isNameChar (foldLetter c) = true) :
    isWordChar c = true := by
  rw [foldLetter] at h
  split at h
  · rename_i hcode
    have hall : ∀ n ∈ [0x130, 0x131], isWordChar (Char.ofNat n) = true := by decide +kernel
    rw [← Char.ofNat_toNat c]
    exact hall _ (by simpa using hcode)
  · apply isWordChar_of_isNameChar
    by_cases hlower : c.isLower = true
    · have hrange := Text.isLower_iff.1 hlower
      have hascii : c.toNat < 128 := by omega
      have hletter : c.isAlphanum = true := by
        show (c.isUpper || c.isLower || c.isDigit) = true
        simp [hlower]
      simp [isNameChar, hascii, hletter]
    · rwa [Text.toUpper_of_not_isLower hlower] at h

theorem foldLetter_eq_toUpper {c : Char} (h : isNameChar c.toUpper = true) :
    foldLetter c = c.toUpper := by
  refine if_neg fun hcode => ?_
  have hall : ∀ n ∈ [0x130, 0x131], isNameChar (Char.ofNat n).toUpper = false := by decide +kernel
  rw [← Char.ofNat_toNat c, hall _ (by simpa using hcode)] at h
  cases h

/-! ## Words that introduce a source -/

/-- The words that introduce a source of rows. -/
def sourceWords : List (List Char) := ["FROM".toList, "JOIN".toList]

theorem introducesSource_iff {run : List Char} :
    introducesSource run = true ↔ run.map foldLetter ∈ sourceWords := by
  simp [introducesSource, sourceWords]

theorem isNameChar_of_mem_sourceWords {w : List Char} (h : w ∈ sourceWords) :
    ∀ c ∈ w, isNameChar c = true := by
  revert w
  decide

/-- A run that introduces a source of rows consists of word characters. -/
theorem isWordChar_of_introducesSource {run : List Char} (h : introducesSource run = true) :
    ∀ c ∈ run, isWordChar c = true := fun _ hc =>
  isWordChar_of_foldLetter
    (isNameChar_of_mem_sourceWords (introducesSource_iff.1 h) _ (List.mem_map_of_mem hc))

/-- The two words introduce a source of rows in any case of their letters. -/
theorem introducesSource_of_toUpper {run : List Char} (h : run.map Char.toUpper ∈ sourceWords) :
    introducesSource run = true := by
  have hfold : run.map foldLetter = run.map Char.toUpper := List.map_congr_left fun c hc =>
    foldLetter_eq_toUpper (isNameChar_of_mem_sourceWords h _ (List.mem_map_of_mem hc))
  rwa [introducesSource_iff, hfold]

/-! ## Pieces -/

/-- A character of code. -/
def Lexeme.ofChar (c : Char) : Lexeme := ⟨.code, [c]⟩

/-- A blank of code or a comment. -/
inductive Lexeme.IsGap : Lexeme → Prop
  | blank {c : Char} (h : isBlank c = true) : Lexeme.IsGap (.ofChar c)
  | comment (text : List Char) : Lexeme.IsGap ⟨.comment, text⟩

/-- Code is scanned character by character. -/
theorem eq_ofChar_of_mem_scan {cs : List Char} {l : Lexeme} (h : l ∈ scan cs)
    (hcode : l.kind = .code) : ∃ c, l = .ofChar c := by
  rw [scan] at h
  generalize cs.length = fuel at h
  -- On the fuel: behind a piece the scan goes on with what the piece left, not with a tail.
  induction fuel generalizing cs with
  | zero => cases cs <;> cases h
  | succ fuel ih =>
    cases cs with
    | nil => cases h
    | cons c r =>
      rcases List.mem_cons.1 h with rfl | h
      · cases hm : marked? c r with
        | none => exact ⟨c, by rw [lexeme, hm]; rfl⟩
        | some p =>
          rw [lexeme, hm] at hcode
          exact absurd hcode (kind_of_marked? hm)
      · exact ih h

/-- What masking shows of a piece that is no code ends with a quote or a blank. -/
theorem getLast?_masked {l : Lexeme} (h : l.kind ≠ .code) :
    ∃ a, l.masked.getLast? = some a ∧ isWordChar a = false := by
  obtain ⟨kind, text⟩ := l
  cases kind with
  | code => exact absurd rfl h
  | string => exact ⟨apostrophe, rfl, by decide⟩
  | name => exact ⟨' ', List.getLast?_concat, by decide⟩
  | comment => exact ⟨' ', rfl, by decide⟩

/-- Masking shows no word character last, if no character of code is one there. -/
theorem getLast?_flatMap_masked {cs : List Char} {before behind : List Lexeme}
    (hscan : scan cs = before ++ behind)
    (hlast : ∀ c, before.getLast? = some (.ofChar c) → isWordChar c = false) :
    ∀ a ∈ (before.flatMap Lexeme.masked).getLast?, isWordChar a = false := by
  rcases List.eq_nil_or_concat before with rfl | ⟨front, l, rfl⟩
  · simp
  · have hmem : l ∈ scan cs := by simp [hscan]
    have hshown : ∃ a, l.masked.getLast? = some a ∧ isWordChar a = false := by
      by_cases hcode : l.kind = .code
      · obtain ⟨c, rfl⟩ := eq_ofChar_of_mem_scan hmem hcode
        exact ⟨c, rfl, hlast c (by simp)⟩
      · exact getLast?_masked hcode
    obtain ⟨a, ha, hword⟩ := hshown
    simp [ha, hword]

theorem flatMap_masked_ofChar (cs : List Char) :
    (cs.map Lexeme.ofChar).flatMap Lexeme.masked = cs := by
  rw [List.flatMap_map]
  exact List.flatMap_singleton' cs

/-- Masking shows blanks of what parts a word from a string, and at least one. -/
theorem Lexeme.IsGap.masked {l : Lexeme} (h : l.IsGap) :
    l.masked ≠ [] ∧ ∀ a ∈ l.masked, isBlank a = true := by
  have hspace : isBlank ' ' = true := by decide
  cases h with
  | @blank c hc => exact ⟨List.cons_ne_nil _ _, fun a ha => List.mem_singleton.1 ha ▸ hc⟩
  | comment text => exact ⟨List.cons_ne_nil _ _, fun a ha => List.mem_singleton.1 ha ▸ hspace⟩

/-- Masking shows nothing but blanks of such pieces, and none only where there are no pieces. -/
theorem flatMap_masked_gap {gap : List Lexeme} (h : ∀ l ∈ gap, l.IsGap) :
    (∀ a ∈ gap.flatMap Lexeme.masked, isBlank a = true) ∧
      (gap.flatMap Lexeme.masked ≠ [] ↔ gap ≠ []) := by
  constructor
  · intro a ha
    obtain ⟨l, hl, ha⟩ := List.mem_flatMap.1 ha
    exact (h l hl).masked.2 a ha
  · cases gap with
    | nil => simp
    | cons l gap => simp [(h l List.mem_cons_self).masked.1]

/-! ## The check -/

/-- A string is found behind blanks, and not without them. -/
theorem opensString_quotes {blanks : List Char} (h : ∀ a ∈ blanks, isBlank a = true)
    (rest : List Char) :
    opensString (blanks ++ apostrophe :: apostrophe :: rest) = true ↔ blanks ≠ [] := by
  have hquote : isBlank apostrophe = false := by decide
  cases blanks with
  | nil => simp [opensString, hquote]
  | cons c blanks =>
    have hrest : (blanks ++ apostrophe :: apostrophe :: rest).dropWhile isBlank =
        apostrophe :: apostrophe :: rest :=
      (takeWhile_run (fun a ha => h a (List.mem_cons_of_mem c ha)) (by simp [hquote])).2
    simp [opensString, h c List.mem_cons_self, hrest]

/-- A query with a string in place of the name of a table is refused, for this or an earlier
breach of the rules. -/
theorem checkWords_of_opensString {cs : List Char} {run : List Char × List Char}
    (hrun : run ∈ wordRuns cs) (hsource : introducesSource run.1 = true)
    (hstring : opensString run.2 = true) :
    ∃ fault, checkWords cs = some fault ∧ fault ≠ .tooManySelects := by
  -- The rules are checked in order, so that an earlier breach is reported in place of this one.
  simp only [checkWords]
  split
  · exact ⟨_, rfl, by simp⟩
  · split
    · exact ⟨_, rfl, by simp⟩
    · refine ⟨.readsFile, if_pos (List.any_eq_true.2 ⟨run, hrun, ?_⟩), by simp⟩
      simp [hsource, hstring]

/-! ## Strings in place of tables -/

/-- A text in which a word that introduces a source of rows stands in code, whole and in any case of
its letters, and a string behind it, with nothing but blanks and comments between the two. -/
structure ReplacementScan (cs : List Char) where
  before : List Lexeme
  word : List Char
  gap : List Lexeme
  literal : List Char
  behind : List Lexeme
  scan_eq : scan cs =
    before ++ (word.map .ofChar ++ (gap ++ ⟨.string, literal⟩ :: behind))
  starts : ∀ c, before.getLast? = some (.ofChar c) → isWordChar c = false
  word_mem : word.map Char.toUpper ∈ sourceWords
  parts : ∀ l ∈ gap, l.IsGap

namespace ReplacementScan

variable {cs : List Char}

/-- What masking shows behind the word. -/
def rest (s : ReplacementScan cs) : List Char :=
  s.gap.flatMap Lexeme.masked ++ apostrophe :: apostrophe :: s.behind.flatMap Lexeme.masked

theorem maskChars_eq (s : ReplacementScan cs) :
    maskChars cs = s.before.flatMap Lexeme.masked ++ (s.word ++ s.rest) := by
  rw [maskChars, s.scan_eq, List.flatMap_append, List.flatMap_append, flatMap_masked_ofChar,
    List.flatMap_append, List.flatMap_cons]
  rfl

/-- What masking shows behind the word starts with a blank or a quote. -/
theorem head?_rest (s : ReplacementScan cs) : ∀ c ∈ s.rest.head?, isWordChar c = false := by
  intro c hc
  have hblank := (flatMap_masked_gap s.parts).1
  rw [rest] at hc
  cases hgap : s.gap.flatMap Lexeme.masked with
  | nil =>
    rw [hgap] at hc
    obtain rfl : apostrophe = c := by simpa using hc
    decide
  | cons d gap =>
    rw [hgap] at hc hblank
    obtain rfl : d = c := by simpa using hc
    exact isWordChar_of_isBlank (hblank d List.mem_cons_self)

/-- The word is one of the runs of the masked text. -/
theorem mem_wordRuns_maskChars (s : ReplacementScan cs) :
    (s.word, s.rest) ∈ wordRuns (maskChars cs) := by
  have hne : s.word ≠ [] := by
    intro hnil
    have hmem := s.word_mem
    rw [hnil] at hmem
    revert hmem
    decide
  -- What masking shows on both sides of the word is no part of a word, so that its run is whole.
  rw [s.maskChars_eq]
  exact mem_wordRuns hne (isWordChar_of_introducesSource (introducesSource_of_toUpper s.word_mem))
    (getLast?_flatMap_masked s.scan_eq s.starts) s.head?_rest

end ReplacementScan

/-- **A string in place of a table is refused if something parts it from the word in front.** In
every query text in which a string follows a word that introduces a source of rows, with nothing but
blanks and comments between the two, the check finds the word, and it finds the string behind the
word exactly if there is at least one blank or comment. It refuses the query then. -/
theorem replacementScan_isRefused (q : String) (s : ReplacementScan q.toList) :
    (s.word, s.rest) ∈ wordRuns (mask q).toList ∧ introducesSource s.word = true ∧
    (opensString s.rest = true ↔ s.gap ≠ []) ∧
    (s.gap ≠ [] →
      ∃ fault, checkWords (mask q).toList = some fault ∧ fault ≠ .tooManySelects) := by
  have hmask : (mask q).toList = maskChars q.toList := String.toList_ofList
  have hrun := s.mem_wordRuns_maskChars
  have hsource := introducesSource_of_toUpper s.word_mem
  obtain ⟨hblank, hne⟩ := flatMap_masked_gap s.parts
  have hstring : opensString s.rest = true ↔ s.gap ≠ [] :=
    (opensString_quotes hblank _).trans hne
  rw [hmask]
  exact ⟨hrun, hsource, hstring, fun hgap =>
    checkWords_of_opensString hrun hsource (hstring.2 hgap)⟩

/-- A query that reads a file, with two comments and a line feed in front of its path. -/
def commentedScan : ReplacementScan "SELECT 1 from/* ' */\n-- \"\n$f$/etc/passwd$f$, t".toList where
  before := "SELECT 1 ".toList.map .ofChar
  word := "from".toList
  gap := [⟨.comment, "/* ' */".toList⟩, .ofChar '\n', ⟨.comment, "-- \"".toList⟩, .ofChar '\n']
  literal := "$f$/etc/passwd$f$".toList
  behind := ", t".toList.map .ofChar
  scan_eq := by decide +kernel
  starts := by
    intro c hc
    obtain rfl : ' ' = c := by simpa [Lexeme.ofChar] using hc
    decide
  word_mem := by decide
  parts := by
    have hline : isBlank '\n' = true := by decide
    simp [Lexeme.IsGap.comment, Lexeme.IsGap.blank hline]

theorem replacementScan_isRefused_commentedScan :
    commentedScan.gap ≠ [] ∧ ∃ fault,
      checkWords (mask "SELECT 1 from/* ' */\n-- \"\n$f$/etc/passwd$f$, t").toList = some fault ∧
        fault ≠ .tooManySelects := by
  have hgap : commentedScan.gap ≠ [] := List.cons_ne_nil _ _
  exact ⟨hgap, (replacementScan_isRefused _ commentedScan).2.2.2 hgap⟩

/-- A query that reads a file whose path follows at once. -/
def adjoinedScan : ReplacementScan "SELECT * FROM'/etc/passwd'".toList where
  before := "SELECT * ".toList.map .ofChar
  word := "FROM".toList
  gap := []
  literal := "'/etc/passwd'".toList
  behind := []
  scan_eq := by decide +kernel
  starts := by
    intro c hc
    obtain rfl : ' ' = c := by simpa [Lexeme.ofChar] using hc
    decide
  word_mem := by decide
  parts := by simp

/-- A query with a string directly behind the word passes the check, though it consists of the same
tokens as one with a blank between the two, which is refused. -/
theorem adjoinedScan_passes :
    adjoinedScan.gap = [] ∧
    checkWords (mask "SELECT * FROM'/etc/passwd'").toList = none ∧
    validate (.text "SELECT * FROM'/etc/passwd'") [] =
      .passed "SELECT * FROM'/etc/passwd'" false ∧
    tokens? "SELECT * FROM'/etc/passwd'" = tokens? "SELECT * FROM '/etc/passwd'" ∧
    checkWords (mask "SELECT * FROM '/etc/passwd'").toList = some .readsFile := by
  refine ⟨rfl, ?_⟩
  decide +kernel

end ChartQuery.Sql
