import ChartQuery.Proofs.Sql.FilteredText
import ChartQuery.Proofs.Sql.ReplacementScans
import ChartQuery.Proofs.Text.Capitals

/-!
# Words that execute procedures

A text is gone through in runs of characters of words. That a run is the word for the execution of a
procedure is said of the text itself, by what stands around it; and so is what the name behind the
word is, as far as characters of names go.

## Main definitions

* `IsExecutingWord`: a whole word of a text that executes a procedure
* `IsNameBehind`: the name behind blanks, and where it ends
* `NamesProcedure`: a text that starts with the execution of a procedure

## Main results

* `wordRuns_induction`: texts are empty, start with no word, or start with a whole one
* `execCount_append`: whole words are counted on both sides of a border between words
* `IsExecutingWord.unique`: where one word is counted, there is but one
* `execTarget?_eq_some_iff`: the name that is found is the one that the text starts with
-/

namespace ChartQuery.Sql

open Text (isBlank isWordChar trimFront trimBlanks)

/-! ## Whole words -/

/-- The run is the word that executes a procedure, short or long, in letters of any case. -/
def executes (run : List Char) : Bool :=
  let w := run.map Char.toUpper
  w == "EXEC".toList || w == "EXECUTE".toList

/-- A whole word of a text that executes a procedure, between what stands in front of it and what
stands behind. -/
structure IsExecutingWord (cs pre w post : List Char) : Prop where
  text : cs = pre ++ (w ++ post)
  executes : executes w = true
  front : ∀ c ∈ pre.getLast?, isWordChar c = false
  back : ∀ c ∈ post.head?, isWordChar c = false

theorem isNameChar_of_toUpper {c : Char} (h : isNameChar c.toUpper = true) :
    isNameChar c = true := by
  by_cases hlower : c.isLower = true
  · have hrange := Text.isLower_iff.1 hlower
    have hlt : c.toNat < 128 := by omega
    have halpha : c.isAlpha = true := Bool.or_eq_true_iff.2 (.inr hlower)
    simp [isNameChar, hlt, Char.isAlphanum, halpha]
  · rwa [Text.toUpper_of_not_isLower hlower] at h

theorem isNameChar_of_executes {w : List Char} (h : executes w = true) :
    ∀ c ∈ w, isNameChar c = true := by
  have hnames : ∀ d ∈ "EXECUTE".toList, isNameChar d = true := by decide
  intro c hc
  refine isNameChar_of_toUpper (hnames _ ?_)
  have hmem : c.toUpper ∈ w.map Char.toUpper := List.mem_map_of_mem hc
  simp only [executes, Bool.or_eq_true, beq_iff_eq] at h
  rcases h with h | h
  · rw [h] at hmem
    exact List.mem_of_mem_take (i := 4) hmem
  · rwa [h] at hmem

theorem ne_nil_of_executes {w : List Char} (h : executes w = true) : w ≠ [] := by
  rintro rfl
  exact absurd h (by decide)

/-! ## Runs of words -/

theorem wordRuns_nil : wordRuns [] = [] := rfl

theorem wordRuns_skip {c : Char} (hc : isWordChar c = false) (r : List Char) :
    wordRuns (c :: r) = wordRuns r := by
  rw [wordRuns_cons, hc]
  rfl

theorem wordRuns_run {w post : List Char} (hne : w ≠ []) (hw : ∀ c ∈ w, isWordChar c = true)
    (hpost : ∀ c ∈ post.head?, isWordChar c = false) :
    wordRuns (w ++ post) = (w, post) :: wordRuns post := by
  obtain ⟨c, w, rfl⟩ := List.exists_cons_of_ne_nil hne
  obtain ⟨htake, hdrop⟩ := takeWhile_run (fun d hd => hw d (List.mem_cons_of_mem c hd)) hpost
  rw [List.cons_append, wordRuns_cons, if_pos (hw c List.mem_cons_self), htake, hdrop]

/-- What holds of the empty text, and of a text where it holds behind a character between words or
behind a whole run of word characters, holds of every text. -/
theorem wordRuns_induction {P : List Char → Prop} (nil : P [])
    (skip : ∀ c r, isWordChar c = false → P r → P (c :: r))
    (run : ∀ w post, w ≠ [] → (∀ c ∈ w, isWordChar c = true) →
      (∀ c ∈ post.head?, isWordChar c = false) → P post → P (w ++ post)) (cs : List Char) :
    P cs := by
  induction hn : cs.length using Nat.strongRecOn generalizing cs with
  | ind n ih =>
    cases cs with
    | nil => exact nil
    | cons c r =>
      rw [List.length_cons] at hn
      by_cases hc : isWordChar c = true
      · have hrest : P (r.dropWhile isWordChar) := by
          have hlen := (List.dropWhile_suffix isWordChar (l := r)).length_le
          exact ih _ (by omega) _ rfl
        have hend : ∀ d ∈ (r.dropWhile isWordChar).head?, isWordChar d = false := by
          intro d hd
          have hnot := List.head?_dropWhile_not isWordChar r
          rwa [hd] at hnot
        rw [← List.takeWhile_append_dropWhile (p := isWordChar) (l := r)]
        refine run (c :: r.takeWhile isWordChar) _ (List.cons_ne_nil _ _) ?_ hend hrest
        intro d hd
        rcases List.mem_cons.1 hd with rfl | hd
        · exact hc
        · exact List.mem_takeWhile_imp hd
      · exact skip c r (by simpa using hc) (ih r.length (by omega) r rfl)

/-- Every run that is found stands in the text, between characters of no word. -/
theorem exists_of_mem_wordRuns {cs w post : List Char} (h : (w, post) ∈ wordRuns cs) :
    ∃ pre, cs = pre ++ (w ++ post) ∧ (∃ c ∈ w.head?, isWordChar c = true) ∧
      (∀ c ∈ pre.getLast?, isWordChar c = false) ∧ ∀ c ∈ post.head?, isWordChar c = false := by
  induction cs using wordRuns_induction with
  | nil => exact absurd h (List.not_mem_nil)
  | skip c r hc ih =>
    rw [wordRuns_skip hc] at h
    obtain ⟨pre, rfl, hw, hfront, hback⟩ := ih h
    refine ⟨c :: pre, rfl, hw, ?_, hback⟩
    cases pre with
    | nil => simpa using hc
    | cons d pre => exact hfront
  | run v rest hne hv hrest ih =>
    rw [wordRuns_run hne hv hrest] at h
    rcases List.mem_cons.1 h with heq | h
    · obtain ⟨rfl, rfl⟩ := Prod.mk.inj heq
      obtain ⟨c, w, rfl⟩ := List.exists_cons_of_ne_nil hne
      exact ⟨[], rfl, ⟨c, rfl, hv c List.mem_cons_self⟩, by simp, hrest⟩
    · obtain ⟨pre, rfl, hw, hfront, hback⟩ := ih h
      refine ⟨v ++ pre, by simp, hw, ?_, hback⟩
      cases pre with
      | nil =>
        -- The run found would go on the one in front of it.
        obtain ⟨c, hc, hword⟩ := hw
        have hhead : (w ++ post).head? = some c := by rw [List.head?_append, hc]; rfl
        exact absurd (hrest c hhead) (by simp [hword])
      | cons d pre =>
        rw [List.getLast?_append_of_ne_nil _ (List.cons_ne_nil d pre)]
        exact hfront

theorem execCount_eq (cs : List Char) :
    execCount cs = (wordRuns cs).countP fun r => executes r.1 := rfl

theorem execCount_skip {c : Char} (hc : isWordChar c = false) (r : List Char) :
    execCount (c :: r) = execCount r := by
  rw [execCount_eq, wordRuns_skip hc, ← execCount_eq]

theorem execCount_run {w post : List Char} (hne : w ≠ []) (hw : ∀ c ∈ w, isWordChar c = true)
    (hpost : ∀ c ∈ post.head?, isWordChar c = false) :
    execCount (w ++ post) = execCount post + if executes w then 1 else 0 := by
  rw [execCount_eq, wordRuns_run hne hw hpost, List.countP_cons, ← execCount_eq]

/-- Words are counted on both sides of a border that no word reaches over. -/
theorem execCount_append {xs ys : List Char}
    (hborder : (∀ c ∈ xs.getLast?, isWordChar c = false) ∨ ∀ c ∈ ys.head?, isWordChar c = false) :
    execCount (xs ++ ys) = execCount xs + execCount ys := by
  induction xs using wordRuns_induction with
  | nil => simp [execCount_eq, wordRuns_nil]
  | skip c r hc ih =>
    have hr := ih (hborder.imp_left fun hlast d hd => hlast d (by rw [List.getLast?_cons, hd]; rfl))
    rw [List.cons_append, execCount_skip hc, execCount_skip hc, hr]
  | run w post hne hw hpost ih =>
    have hrun := execCount_run hne hw hpost
    cases post with
    | nil =>
      -- The border comes right behind the run, which ends with a word character.
      have hlast := List.getLast?_eq_some_getLast hne
      rw [List.append_nil] at hborder hrun ⊢
      have hys : ∀ c ∈ ys.head?, isWordChar c = false := by
        refine hborder.resolve_left fun h => ?_
        exact absurd (h _ hlast) (by simp [hw _ (List.getLast_mem hne)])
      have hempty : execCount [] = 0 := rfl
      rw [execCount_run hne hw hys, hrun]
      omega
    | cons d post =>
      have hrest := ih (hborder.imp_left fun hlast c hc => hlast c (by
        rwa [List.getLast?_append_of_ne_nil _ (List.cons_ne_nil d post)]))
      have hwhole : execCount (w ++ (d :: post ++ ys)) =
          execCount (d :: post ++ ys) + if executes w then 1 else 0 :=
        execCount_run hne hw hpost
      rw [List.append_assoc, hwhole, hrest, hrun]
      omega

/-- A whole word is counted. -/
theorem IsExecutingWord.mem_wordRuns {cs pre w post : List Char}
    (h : IsExecutingWord cs pre w post) :
    (w, post) ∈ (wordRuns cs).filter fun r => Sql.executes r.1 := by
  refine List.mem_filter.2 ⟨?_, h.executes⟩
  rw [h.text]
  refine Sql.mem_wordRuns (ne_nil_of_executes h.executes) ?_ h.front h.back
  exact fun c hc => isWordChar_of_isNameChar (isNameChar_of_executes h.executes c hc)

/-- Without whole words there is nothing to count. -/
theorem execCount_eq_zero {cs : List Char} (h : ∀ pre w post, ¬ IsExecutingWord cs pre w post) :
    execCount cs = 0 := by
  refine List.countP_eq_zero.2 fun ⟨w, post⟩ hmem hexec => ?_
  obtain ⟨pre, htext, -, hfront, hback⟩ := exists_of_mem_wordRuns hmem
  exact h pre w post ⟨htext, hexec, hfront, hback⟩

/-- Where no more than one word is counted, all whole words are the same. -/
theorem IsExecutingWord.unique {cs pre w post pre' w' post' : List Char} (hcount : execCount cs ≤ 1)
    (h : IsExecutingWord cs pre w post) (h' : IsExecutingWord cs pre' w' post') :
    (pre, w, post) = (pre', w', post') := by
  rw [execCount_eq, List.countP_eq_length_filter] at hcount
  have hsame : (w, post) = (w', post') := by
    have hmem := h.mem_wordRuns
    have hmem' := h'.mem_wordRuns
    cases hruns : (wordRuns cs).filter fun r => Sql.executes r.1 with
    | nil => exact absurd (hruns ▸ hmem) List.not_mem_nil
    | cons run more =>
      rw [hruns, List.length_cons] at hcount
      obtain rfl : more = [] := List.length_eq_zero_iff.1 (by omega)
      rw [hruns, List.mem_singleton] at hmem hmem'
      rw [hmem, hmem']
  obtain ⟨rfl, rfl⟩ := Prod.mk.inj hsame
  have hpre : pre = pre' := List.append_cancel_right (h.text.symm.trans h'.text)
  rw [hpre]

/-! ## The name behind the word -/

theorem afterWord?_eq_some_iff {word : String} {cs rest : List Char} :
    afterWord? word cs = some rest ↔ ∃ w, cs = w ++ rest ∧ w.map Char.toUpper = word.toList := by
  simp only [afterWord?, beq_iff_eq, Option.ite_none_right_eq_some, Option.some.injEq]
  constructor
  · rintro ⟨hword, rfl⟩
    exact ⟨cs.take word.length, (List.take_append_drop _ _).symm, hword⟩
  · rintro ⟨w, rfl, hword⟩
    have hlen : word.length = w.length := by
      rw [← String.length_toList, ← hword, List.length_map]
    rw [hlen, List.take_left, List.drop_left]
    exact ⟨hword, rfl⟩

/-- The text goes on with blanks and a name, behind which no further character of a name comes. -/
structure IsNameBehind (cs gap : List Char) (name : String) (rest : List Char) : Prop where
  text : cs = gap ++ (name.toList ++ rest)
  gap_ne_nil : gap ≠ []
  isBlank_gap : ∀ c ∈ gap, isBlank c = true
  name_ne : name ≠ ""
  name_chars : ∀ c ∈ name.toList, isProcedureChar c = true
  ended : ∀ c ∈ rest.head?, isProcedureChar c = false

theorem not_isBlank_of_isProcedureChar {c : Char} (h : isProcedureChar c = true) :
    isBlank c = false := by
  rw [Bool.eq_false_iff]
  intro hblank
  have hword := isWordChar_of_isBlank hblank
  simp only [isProcedureChar, Bool.or_eq_true, beq_iff_eq] at h
  rcases h with (((h | rfl) | rfl) | rfl) | h
  · rw [isWordChar_of_isNameChar h] at hword
    contradiction
  · exact absurd hblank (by decide)
  · exact absurd hblank (by decide)
  · exact absurd hblank (by decide)
  · have hblanks := Text.mem_blankCodes_of_isBlank hblank
    simp only [List.contains_cons, List.contains_nil, Bool.or_false, Bool.or_eq_true,
      beq_iff_eq] at h
    rcases h with h | h | h | h <;> rw [h] at hblanks <;> exact absurd hblanks (by decide)

/-- What is found is the name that the text goes on with. -/
theorem exists_isNameBehind {cs : List Char} {name : String} (h : nameAfter? cs = some name) :
    ∃ gap rest, IsNameBehind cs gap name rest := by
  unfold nameAfter? at h
  split at h
  · rename_i c r
    split at h
    · rename_i hc
      split at h
      · contradiction
      · rename_i hne
        obtain rfl := Option.some.inj h
        refine ⟨c :: r.takeWhile isBlank, (r.dropWhile isBlank).dropWhile isProcedureChar, ?_,
          List.cons_ne_nil _ _, ?_, ?_, ?_, ?_⟩
        · rw [String.toList_ofList, List.takeWhile_append_dropWhile, List.cons_append,
            List.takeWhile_append_dropWhile]
        · intro d hd
          rcases List.mem_cons.1 hd with rfl | hd
          · exact hc
          · exact List.mem_takeWhile_imp hd
        · intro hempty
          exact hne (by rw [← String.toList_ofList (l := List.takeWhile _ _), hempty]; rfl)
        · rw [String.toList_ofList]
          exact fun d hd => List.mem_takeWhile_imp hd
        · intro d hd
          have hnot := List.head?_dropWhile_not isProcedureChar (r.dropWhile isBlank)
          rwa [hd] at hnot
    · contradiction
  · contradiction

/-- The name that the text goes on with is found. -/
theorem IsNameBehind.nameAfter?_eq {cs gap rest : List Char} {name : String}
    (h : IsNameBehind cs gap name rest) : nameAfter? cs = some name := by
  obtain ⟨c, gap, rfl⟩ := List.exists_cons_of_ne_nil h.gap_ne_nil
  have hne : name.toList ≠ [] := fun hnil => h.name_ne (String.toList_eq_nil_iff.1 hnil)
  -- The gap ends where the name starts, since no character of a name is blank.
  have hhead : ∀ d ∈ (name.toList ++ rest).head?, isBlank d = false := by
    obtain ⟨e, es, he⟩ := List.exists_cons_of_ne_nil hne
    intro d hd
    rw [he] at hd
    obtain rfl : e = d := by simpa using hd
    exact not_isBlank_of_isProcedureChar (h.name_chars e (by simp [he]))
  rw [h.text, List.cons_append, nameAfter?, if_pos (h.isBlank_gap c List.mem_cons_self),
    (takeWhile_run (fun d hd => h.isBlank_gap d (List.mem_cons_of_mem c hd)) hhead).2,
    (takeWhile_run h.name_chars h.ended).1]
  split
  · rename_i hnil
    exact absurd hnil hne
  · rw [String.ofList_toList]

theorem nameAfter?_eq_some_iff {cs : List Char} {name : String} :
    nameAfter? cs = some name ↔ ∃ gap rest, IsNameBehind cs gap name rest :=
  ⟨exists_isNameBehind, fun ⟨_, _, h⟩ => h.nameAfter?_eq⟩

/-- The text starts with the word that executes a procedure, and goes on with the name of one. -/
def NamesProcedure (cs : List Char) (name : String) : Prop :=
  ∃ word behind, executes word = true ∧ cs = word ++ behind ∧
    ∃ gap rest, IsNameBehind behind gap name rest

/-- The short word does not go on as the long one where a blank comes behind it. -/
theorem afterWord?_execute_of_exec {w behind : List Char} (hw : w.map Char.toUpper = "EXEC".toList)
    (hblank : ∀ c ∈ behind.head?, isBlank c = true) : afterWord? "EXECUTE" (w ++ behind) = none := by
  refine Option.eq_none_iff_forall_ne_some.2 fun rest hrest => ?_
  obtain ⟨long, htext, hlong⟩ := afterWord?_eq_some_iff.1 hrest
  have hletter : (behind.map Char.toUpper).head? = some 'U' := by
    have hcapitals := congrArg (fun cs => (cs.map Char.toUpper).drop 4) htext
    simp only [List.map_append, hw, hlong] at hcapitals
    have hdrop : ("EXEC".toList ++ behind.map Char.toUpper).drop 4 = behind.map Char.toUpper := rfl
    rw [← hdrop, hcapitals]
    rfl
  cases behind with
  | nil => cases hletter
  | cons c behind =>
    have hupper : c.toUpper = 'U' := by simpa using hletter
    have hname : isNameChar c = true := isNameChar_of_toUpper (by rw [hupper]; decide)
    have hnot := isWordChar_of_isBlank (hblank c rfl)
    rw [isWordChar_of_isNameChar hname] at hnot
    contradiction

/-- The name that is found is the one that the text starts with. -/
theorem execTarget?_eq_some_iff {cs : List Char} {name : String} :
    execTarget? cs = some name ↔ NamesProcedure cs name := by
  rw [execTarget?, Option.or_eq_some_iff]
  constructor
  · rintro (h | ⟨-, h⟩)
    all_goals
      obtain ⟨behind, hafter, hname⟩ := Option.bind_eq_some_iff.1 h
      obtain ⟨w, htext, hw⟩ := afterWord?_eq_some_iff.1 hafter
      exact ⟨w, behind, by simp [executes, hw], htext, nameAfter?_eq_some_iff.1 hname⟩
  · rintro ⟨w, behind, hexec, rfl, gap, rest, hname⟩
    have hafter : nameAfter? behind = some name := nameAfter?_eq_some_iff.2 ⟨gap, rest, hname⟩
    simp only [executes, Bool.or_eq_true, beq_iff_eq] at hexec
    rcases hexec with hshort | hlong
    · have hblank : ∀ c ∈ behind.head?, isBlank c = true := by
        intro c hc
        rw [hname.text, List.head?_append_of_ne_nil _ hname.gap_ne_nil] at hc
        exact hname.isBlank_gap c (List.mem_of_mem_head? hc)
      refine .inr ⟨by rw [afterWord?_execute_of_exec hshort hblank]; rfl, ?_⟩
      exact Option.bind_eq_some_iff.2 ⟨behind, afterWord?_eq_some_iff.2 ⟨w, rfl, hshort⟩, hafter⟩
    · exact .inl
        (Option.bind_eq_some_iff.2 ⟨behind, afterWord?_eq_some_iff.2 ⟨w, rfl, hlong⟩, hafter⟩)

end ChartQuery.Sql
