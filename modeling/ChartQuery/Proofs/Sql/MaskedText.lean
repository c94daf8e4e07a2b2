import ChartQuery.Sql.Words
import Mathlib.Data.List.TakeWhile

/-!
# What masking shows

Masking goes through a query text piece by piece, so the masked text of what is left to read is
masked text again. The words of a text are its longest runs of word characters: a run that ends on
both sides is found wherever it stands, so that a text that passes the check holds no run which the
rules on words refuse.

## Main results

* `maskChars_cons`: masking shows the piece in front, then what is left
* `maskChars_code`: characters that mark nothing are shown as they are
* `mem_wordRuns`: a run of word characters that ends on both sides is found
* `checkWords_run`: no run of a text that passes the check is a refused word, nor a refused function
  that is called
-/

namespace ChartQuery.Sql

open Text (apostrophe doubleQuote isWordChar isBlank)

/-- What holds of the characters of a text is decided along the text: characters are finitely many
too, but far too many to try them all. -/
instance decidableForallMemText (p : Char → Prop) [DecidablePred p] (cs : List Char) :
    Decidable (∀ c ∈ cs, p c) :=
  List.decidableBAll p cs

/-! ## Masking piece by piece -/

theorem scanWithin_eq {fuel fuel' : Nat} {cs : List Char} (h : cs.length ≤ fuel)
    (h' : cs.length ≤ fuel') : scanWithin fuel cs = scanWithin fuel' cs := by
  -- Every piece takes a character at least, so that the fuel of the text is enough.
  induction fuel generalizing fuel' cs with
  | zero =>
    obtain rfl := List.length_eq_zero_iff.1 (Nat.le_zero.1 h)
    cases fuel' <;> rfl
  | succ fuel ih =>
    cases cs with
    | nil => cases fuel' <;> rfl
    | cons c r =>
      have hr := lexeme_rest_length c r
      simp only [List.length_cons] at h h'
      obtain ⟨fuel', rfl⟩ : ∃ n, fuel' = n + 1 := ⟨fuel' - 1, by omega⟩
      rw [scanWithin, scanWithin, @ih fuel' (lexeme c r).2 (by omega) (by omega)]

theorem scan_cons (c : Char) (r : List Char) :
    scan (c :: r) = (lexeme c r).1 :: scan (lexeme c r).2 := by
  have hr := lexeme_rest_length c r
  rw [scan, List.length_cons, scanWithin, scan, scanWithin_eq hr (Nat.le_refl _)]

/-- Masking shows the piece in front, then what is left. -/
theorem maskChars_cons (c : Char) (r : List Char) :
    maskChars (c :: r) = (lexeme c r).1.masked ++ maskChars (lexeme c r).2 := by
  rw [maskChars, scan_cons, List.flatMap_cons, maskChars]

theorem maskChars_of_marked? {c : Char} {r rest : List Char} {l : Lexeme}
    (h : marked? c r = some (l, rest)) : maskChars (c :: r) = l.masked ++ maskChars rest := by
  rw [maskChars_cons, lexeme, h]
  rfl

theorem maskChars_of_not_marked? {c : Char} {r : List Char} (h : marked? c r = none) :
    maskChars (c :: r) = c :: maskChars r := by
  rw [maskChars_cons, lexeme, h]
  rfl

/-- Characters that mark nothing are shown as they are. -/
theorem maskChars_code {text rest : List Char}
    (h : ∀ u c v, text = u ++ c :: v → marked? c (v ++ rest) = none) :
    maskChars (text ++ rest) = text ++ maskChars rest := by
  induction text with
  | nil => rfl
  | cons c text ih =>
    have hc := h [] c text rfl
    rw [List.cons_append, maskChars_of_not_marked? hc, List.cons_append,
      ih fun u d v hv => h (c :: u) d v (by rw [hv, List.cons_append])]

/-- The characters that may start a string, a quoted name or a comment. -/
def markChars : List Char := [apostrophe, '$', doubleQuote, '-', '/']

theorem marked?_of_notMem {c : Char} (h : c ∉ markChars) (r : List Char) : marked? c r = none := by
  simp only [markChars, List.mem_cons, not_or] at h
  simp [marked?, h]

theorem kind_of_marked? {c : Char} {r rest : List Char} {l : Lexeme}
    (h : marked? c r = some (l, rest)) : l.kind ≠ .code := by
  unfold marked? at h
  repeat' split at h
  all_goals
    first
    | obtain ⟨⟨b, t⟩, -, he⟩ := Option.map_eq_some_iff.1 h
      simp only [Prod.mk.injEq] at he
      simp [← he.1]
    | (simp only [Option.some.injEq, Prod.mk.injEq] at h
       simp [← h.1])
    | simp at h

/-- What masking shows of a piece that is no code starts with a quote or a blank. -/
theorem head?_masked {l : Lexeme} (h : l.kind ≠ .code) :
    ∃ a, l.masked.head? = some a ∧ isWordChar a = false := by
  obtain ⟨kind, text⟩ := l
  cases kind with
  | code => exact absurd rfl h
  | string => exact ⟨apostrophe, rfl, by decide⟩
  | name => exact ⟨' ', rfl, by decide⟩
  | comment => exact ⟨' ', rfl, by decide⟩

/-- A word character comes first after masking only where it comes first in the text. -/
theorem head?_maskChars {cs : List Char} {a : Char} (h : (maskChars cs).head? = some a)
    (hw : isWordChar a = true) : cs.head? = some a := by
  cases cs with
  | nil => simp [maskChars, scan, scanWithin] at h
  | cons c r =>
    cases hm : marked? c r with
    | none =>
      rw [maskChars_of_not_marked? hm] at h
      simpa using h
    | some p =>
      obtain ⟨b, hb, hbw⟩ := head?_masked (kind_of_marked? hm)
      rw [maskChars_of_marked? hm, List.head?_append, hb] at h
      obtain rfl : b = a := by simpa using h
      rw [hw] at hbw
      exact absurd hbw (by decide)

/-! ## Runs of word characters -/

theorem wordRunsWithin_eq {fuel fuel' : Nat} {cs : List Char} (h : cs.length ≤ fuel)
    (h' : cs.length ≤ fuel') : wordRunsWithin fuel cs = wordRunsWithin fuel' cs := by
  induction fuel generalizing fuel' cs with
  | zero =>
    obtain rfl := List.length_eq_zero_iff.1 (Nat.le_zero.1 h)
    cases fuel' <;> rfl
  | succ fuel ih =>
    cases cs with
    | nil => cases fuel' <;> rfl
    | cons c r =>
      have hr := (List.dropWhile_suffix isWordChar (l := r)).length_le
      simp only [List.length_cons] at h h'
      obtain ⟨fuel', rfl⟩ : ∃ n, fuel' = n + 1 := ⟨fuel' - 1, by omega⟩
      rw [wordRunsWithin, wordRunsWithin]
      split
      · rw [@ih fuel' (r.dropWhile isWordChar) (by omega) (by omega)]
      · exact ih (by omega) (by omega)

theorem wordRuns_cons (c : Char) (r : List Char) :
    wordRuns (c :: r) =
      if isWordChar c then
        (c :: r.takeWhile isWordChar, r.dropWhile isWordChar) :: wordRuns (r.dropWhile isWordChar)
      else wordRuns r := by
  have hr := (List.dropWhile_suffix isWordChar (l := r)).length_le
  rw [wordRuns, List.length_cons, wordRunsWithin, wordRunsWithin_eq hr (Nat.le_refl _)]
  rfl

theorem takeWhile_run {p : Char → Bool} {w post : List Char} (hw : ∀ c ∈ w, p c = true)
    (hpost : ∀ c ∈ post.head?, p c = false) :
    (w ++ post).takeWhile p = w ∧ (w ++ post).dropWhile p = post := by
  rw [List.takeWhile_append_of_pos hw, List.dropWhile_append_of_pos hw]
  cases post with
  | nil => simp
  | cons c r =>
    have hc : p c = false := hpost c rfl
    simp [hc]

/-- A run of word characters that ends on both sides is found, wherever it stands. -/
theorem mem_wordRuns {w pre post : List Char} (hne : w ≠ []) (hw : ∀ c ∈ w, isWordChar c = true)
    (hpre : ∀ c ∈ pre.getLast?, isWordChar c = false)
    (hpost : ∀ c ∈ post.head?, isWordChar c = false) :
    (w, post) ∈ wordRuns (pre ++ (w ++ post)) := by
  -- Induction on the length of the text in front: a run within it, or one character, is passed over.
  induction hn : pre.length using Nat.strongRecOn generalizing pre with
  | ind n ih =>
    cases pre with
    | nil =>
      obtain ⟨c, w, rfl⟩ := List.exists_cons_of_ne_nil hne
      have hrun := takeWhile_run (fun d hd => hw d (List.mem_cons_of_mem _ hd)) hpost
      rw [List.nil_append, List.cons_append, wordRuns_cons, if_pos (hw c List.mem_cons_self),
        hrun.1, hrun.2]
      exact List.mem_cons_self
    | cons c pre =>
      have hlast : ∀ d ∈ pre.getLast?, isWordChar d = false := fun d hd =>
        hpre d (by rw [List.getLast?_cons, hd]; rfl)
      rw [List.cons_append, wordRuns_cons]
      split
      · rename_i hc
        -- The run in front ends within `pre`, whose last character is no word character.
        have hdrop : pre.dropWhile isWordChar ≠ [] := by
          intro hnil
          have hall := List.dropWhile_eq_nil_iff.1 hnil
          have hmem : (c :: pre).getLast (List.cons_ne_nil _ _) ∈ c :: pre := List.getLast_mem _
          have hfalse := hpre _ (List.getLast?_eq_some_getLast (List.cons_ne_nil c pre))
          rcases List.mem_cons.1 hmem with h | h
          · rw [h, hc] at hfalse
            exact absurd hfalse (by decide)
          · rw [hall _ h] at hfalse
            exact absurd hfalse (by decide)
        have hempty : (pre.dropWhile isWordChar).isEmpty = false := by
          rwa [List.isEmpty_eq_false_iff]
        have hlen := (List.dropWhile_suffix isWordChar (l := pre)).length_le
        rw [List.dropWhile_append, hempty]
        have hshorter : (pre.dropWhile isWordChar).length < n := by
          simp [← hn]
          omega
        refine List.mem_cons_of_mem _ (ih _ hshorter (fun d hd => hlast d ?_) rfl)
        rw [← List.takeWhile_append_dropWhile (p := isWordChar) (l := pre),
          List.getLast?_append, hd]
        rfl
      · exact ih pre.length (by simp [← hn]) hlast rfl

/-! ## What passes the check -/

theorem isWordChar_of_isNameChar {c : Char} (h : isNameChar c = true) : isWordChar c = true := by
  obtain ⟨hc, hname⟩ := (Bool.and_eq_true _ _).mp h
  rw [Text.isWordChar, if_pos (of_decide_eq_true hc)]
  exact hname

theorem ne_nil_of_isPlainWord {w : List Char} (h : isPlainWord w = true) : w ≠ [] := by
  rintro rfl
  simp [isPlainWord] at h

theorem isNameChar_of_isPlainWord {w : List Char} (h : isPlainWord w = true) :
    ∀ c ∈ w, isNameChar c = true := by
  cases w with
  | nil => simp
  | cons c w =>
    simp only [isPlainWord, Bool.and_eq_true, List.all_eq_true] at h
    intro d hd
    rcases List.mem_cons.1 hd with rfl | hd
    · exact h.1.1
    · exact h.2 d hd

theorem isWordChar_of_isPlainWord {w : List Char} (h : isPlainWord w = true) :
    ∀ c ∈ w, isWordChar c = true := fun c hc =>
  isWordChar_of_isNameChar (isNameChar_of_isPlainWord h c hc)

/-- The first breach of the rules is none where there is no breach. -/
theorem checkWords_eq_none {cs : List Char} (h : checkWords cs = none) :
    ∀ w ∈ words cs, isBlockedWord w.1 = false ∧
      (isBlockedFunction w.1 = true → opensCall w.2 = false) := by
  simp only [checkWords] at h
  cases hword : (words cs).find? fun w => isBlockedWord w.1 with
  | some w => simp [hword] at h
  | none =>
  cases hfunction : (words cs).find? fun w => isBlockedFunction w.1 && opensCall w.2 with
  | some f => simp [hword, hfunction] at h
  | none =>
  intro w hw
  have hw' := List.find?_eq_none.1 hword w hw
  have hf' := List.find?_eq_none.1 hfunction w hw
  refine ⟨by simpa using hw', fun hf => ?_⟩
  simpa [hf] using hf'

/-- No run of a text that passes the check is a refused word, nor a refused function that is
called. -/
theorem checkWords_run {w pre post : List Char} (hcheck : checkWords (pre ++ (w ++ post)) = none)
    (hw : isPlainWord w = true) (hpre : ∀ c ∈ pre.getLast?, isWordChar c = false)
    (hpost : ∀ c ∈ post.head?, isWordChar c = false) :
    isBlockedWord (capitals w) = false ∧
      (isBlockedFunction (capitals w) = true → opensCall post = false) := by
  have hrun := mem_wordRuns (ne_nil_of_isPlainWord hw) (isWordChar_of_isPlainWord hw) hpre hpost
  refine checkWords_eq_none hcheck (capitals w, post) (List.mem_map.2 ⟨(w, post), ?_, rfl⟩)
  exact List.mem_filter.2 ⟨hrun, hw⟩

end ChartQuery.Sql
