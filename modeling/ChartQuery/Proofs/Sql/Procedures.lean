import ChartQuery.Proofs.Sql.ExecutingWords

/-!
# Listed procedures

The execution of a procedure passes the check if the name behind the word for it, as far as
characters of names go, is that of a listed procedure, in whichever spelling, and if the text holds
no comment, no second statement and no second such word. What counts is said of the text, apart from
how the check goes through it; and for names that end where they stop, behind a blank, the spelling
makes no difference.

## Main definitions

* `TrimsTo`: a query without the blanks and the semicolon around it
* `Spells`: the ways to spell the name of a procedure

## Main results

* `validateExec_eq_passed_iff`: an execution passes for the name that it starts with
* `cutBack_append`: a text is trimmed behind its name
* `validate_procedures`: which executions pass, and that all spellings of a name are one
-/

namespace ChartQuery.Sql

open Text (isBlank isWordChar trim trimEnd trimBack trimFront trimBlanks upper upperChar)

/-! ## Passing -/

/-- No mark that the execution of a procedure may not contain stands in the text. -/
def HasNoMark (cs : List Char) : Prop := ∀ m ∈ execMarks, ¬ m.toList <:+: cs

theorem any_execMarks_eq_false_iff {cs : List Char} :
    (execMarks.any fun m => (through m.toList cs).isSome) = false ↔ HasNoMark cs := by
  have hne : ∀ m ∈ execMarks, m.toList ≠ [] := by decide
  rw [List.any_eq_false]
  refine forall₂_congr fun m hm => ?_
  rw [← through_eq_none_iff (hne m hm), Option.isSome_iff_ne_none, not_not]

/-- An execution passes, as it is, exactly if its name is listed in its bare form and the text has
neither marks nor a second word that executes. -/
theorem validateExec_eq_passed_iff {t : String} {listed : List String} :
    ((validateExec t listed).isValid = true ↔ validateExec t listed = .passed t true) ∧
    ((validateExec t listed).isValid = true ↔
      ∃ name, NamesProcedure t.toList name ∧ procedureName name ∈ listed ∧ HasNoMark t.toList ∧
        execCount t.toList ≤ 1) := by
  simp only [← execTarget?_eq_some_iff, ← any_execMarks_eq_false_iff, validateExec]
  cases execTarget? t.toList with
  | none => simp [Validation.refused, Validation.passed]
  | some name =>
    simp only [Option.some.injEq, exists_eq_left', List.contains_iff_mem, Bool.not_eq_true',
      ← Bool.not_eq_true]
    split
    · rename_i hunlisted
      simp [hunlisted, Validation.refused, Validation.passed]
    rename_i hlisted
    split
    · rename_i hmarks
      simp [hmarks, Validation.refused, Validation.passed]
    rename_i hmarks
    split
    · rename_i hcount
      simp [Validation.refused, Validation.passed, Nat.not_le.2 hcount]
    · rename_i hcount
      simp [Validation.passed, not_not.1 hlisted, hmarks, Nat.not_lt.1 hcount]

/-! ## Trimming -/

/-- What trimming the back of a query leaves: neither blanks nor one semicolon at the end. -/
def cutBack (cs : List Char) : List Char :=
  match (trimBack cs).reverse with
  | ';' :: r => trimBack r.reverse
  | _ => trimBack cs

theorem cutBack_semicolon {cs r : List Char} (h : (trimBack cs).reverse = ';' :: r) :
    cutBack cs = trimBack r.reverse := by
  rw [cutBack, h]
  rfl

theorem cutBack_other {cs : List Char} (h : ∀ r, (trimBack cs).reverse ≠ ';' :: r) :
    cutBack cs = trimBack cs := by
  rw [cutBack]
  split
  · rename_i r heq
    exact absurd heq (h r)
  · rfl

theorem toList_trimQuery (s : String) : (trimQuery s).toList = cutBack (trimFront s.toList) := by
  have htrim : (trim s).toList = trimBack (trimFront s.toList) := String.toList_ofList
  unfold trimQuery
  dsimp only
  split
  · rename_i r hr
    rw [htrim] at hr
    rw [cutBack_semicolon hr, trimEnd, String.toList_ofList, String.toList_ofList]
  · rename_i hr
    rw [htrim] at hr
    rw [cutBack_other hr, htrim]

theorem trimBack_append {xs ys : List Char} (h : ∃ c ∈ xs.getLast?, isBlank c = false) :
    trimBack (xs ++ ys) = xs ++ trimBack ys := by
  obtain ⟨c, hlast, hc⟩ := h
  have hxs : xs.reverse.dropWhile isBlank = xs.reverse := by
    rw [← List.head?_reverse] at hlast
    obtain ⟨r, hr⟩ := List.head?_eq_some_iff.1 hlast
    simp [hr, hc]
  rw [trimBack, trimBack, List.reverse_append, List.dropWhile_append]
  split
  · rename_i hempty
    rw [hxs, List.isEmpty_iff.1 hempty]
    simp
  · simp

/-- A text is trimmed behind any part of it that ends with neither a blank nor a semicolon. -/
theorem cutBack_append {xs ys : List Char} (h : ∃ c ∈ xs.getLast?, isBlank c = false ∧ c ≠ ';') :
    cutBack (xs ++ ys) = xs ++ cutBack ys := by
  obtain ⟨c, hlast, hc, hsemicolon⟩ := h
  have hback : ∀ zs, trimBack (xs ++ zs) = xs ++ trimBack zs :=
    fun zs => trimBack_append ⟨c, hlast, hc⟩
  cases hys : (trimBack ys).reverse with
  | nil =>
    have hnil : trimBack ys = [] := List.reverse_eq_nil_iff.1 hys
    have hcut : cutBack ys = trimBack ys := cutBack_other (by simp [hys])
    rw [hcut, cutBack_other, hback]
    intro r hr
    rw [hback, hnil, List.append_nil] at hr
    rw [← List.head?_reverse, hr] at hlast
    exact hsemicolon (Option.some.inj hlast).symm
  | cons d r =>
    have hxys : (trimBack (xs ++ ys)).reverse = d :: (r ++ xs.reverse) := by
      rw [hback, List.reverse_append, hys, List.cons_append]
    by_cases hd : d = ';'
    · rw [hd] at hys hxys
      rw [cutBack_semicolon hys, cutBack_semicolon hxys, List.reverse_append, List.reverse_reverse, hback]
    · have hcut : cutBack ys = trimBack ys := cutBack_other (by simp [hys, hd])
      rw [hcut, cutBack_other (by simp [hxys, hd]), hback]

theorem exists_trimBack (cs : List Char) :
    ∃ back, cs = trimBack cs ++ back ∧ (∀ c ∈ back, isBlank c = true) ∧
      ∀ c ∈ (trimBack cs).getLast?, isBlank c = false := by
  refine ⟨(cs.reverse.takeWhile isBlank).reverse, ?_, ?_, ?_⟩
  · rw [trimBack, ← List.reverse_append, List.takeWhile_append_dropWhile, List.reverse_reverse]
  · intro c hc
    exact List.mem_takeWhile_imp (List.mem_reverse.1 hc)
  · intro c hc
    rw [trimBack, List.getLast?_reverse] at hc
    exact Text.not_isBlank_of_head?_dropWhile hc

/-- The text is what is left of a query without the blanks around it and one semicolon at its
end. -/
structure TrimsTo (q t : List Char) : Prop where
  text : ∃ front back, q = front ++ (t ++ back) ∧ (∀ c ∈ front, isBlank c = true) ∧
    (∀ c ∈ back, isBlank c = true ∨ c = ';') ∧ back.count ';' ≤ 1
  front : ∀ c ∈ t.head?, isBlank c = false
  back : ∀ c ∈ t.getLast?, isBlank c = false

/-- Trimming the back takes blanks off, and one semicolon among them. -/
theorem exists_cutBack (cs : List Char) :
    ∃ back, cs = cutBack cs ++ back ∧ (∀ c ∈ back, isBlank c = true ∨ c = ';') ∧
      back.count ';' ≤ 1 ∧ ∀ c ∈ (cutBack cs).getLast?, isBlank c = false := by
  have hcount : ∀ blanks : List Char, (∀ c ∈ blanks, isBlank c = true) → blanks.count ';' = 0 :=
    fun blanks h => List.count_eq_zero.2 fun hmem => absurd (h _ hmem) (by decide)
  obtain ⟨back, htext, hback, hlast⟩ := exists_trimBack cs
  by_cases hends : ∃ r, (trimBack cs).reverse = ';' :: r
  · obtain ⟨r, hr⟩ := hends
    rw [cutBack_semicolon hr]
    have htrim : trimBack cs = r.reverse ++ [';'] := by
      rw [← List.reverse_reverse (trimBack cs), hr, List.reverse_cons]
    obtain ⟨inner, hinner, hblank, hend⟩ := exists_trimBack r.reverse
    refine ⟨inner ++ ';' :: back, ?_, ?_, ?_, hend⟩
    · calc cs = trimBack cs ++ back := htext
        _ = trimBack r.reverse ++ inner ++ [';'] ++ back := by rw [htrim, ← hinner]
        _ = trimBack r.reverse ++ (inner ++ ';' :: back) := by simp
    · intro c hc
      rcases List.mem_append.1 hc with hc | hc
      · exact .inl (hblank c hc)
      · rcases List.mem_cons.1 hc with rfl | hc
        · exact .inr rfl
        · exact .inl (hback c hc)
    · rw [List.count_append, List.count_cons, hcount inner hblank, hcount back hback]
      simp
  · rw [cutBack_other (not_exists.1 hends)]
    exact ⟨back, htext, fun c hc => .inl (hback c hc), by rw [hcount back hback]; omega, hlast⟩

theorem trimsTo_trimQuery (q : String) : TrimsTo q.toList (trimQuery q).toList := by
  rw [toList_trimQuery]
  obtain ⟨back, htext, hback, hcount, hlast⟩ := exists_cutBack (trimFront q.toList)
  have hsplit := List.takeWhile_append_dropWhile (p := isBlank) (l := q.toList)
  refine ⟨⟨q.toList.takeWhile isBlank, back, ?_, fun c hc => List.mem_takeWhile_imp hc, hback,
    hcount⟩, ?_, hlast⟩
  · rw [← htext]
    exact hsplit.symm
  · intro c hc
    have hhead : (trimFront q.toList).head? = some c := by
      rw [htext, List.head?_append, hc]
      rfl
    exact Text.not_isBlank_of_head?_dropWhile hhead

/-! ## Spellings -/

/-- A part of a name: name characters, and not a word that executes. -/
structure IsNamePart (w : List Char) : Prop where
  chars : ∀ c ∈ w, isNameChar c = true
  not_executes : executes w = false

/-- The ways to write a part of a name: as it is, or in brackets. -/
inductive WritesPart (w : List Char) : List Char → Prop
  | bare : WritesPart w w
  | bracketed : WritesPart w ('[' :: (w ++ [']']))

/-- The ways to spell the name of a procedure: in letters of any case, behind any number of further
parts with full stops, and with each of the parts in brackets or not. -/
inductive Spells (p : List Char) : List Char → Prop
  | name {w cs : List Char} (hcase : w.map Char.toUpper = p.map Char.toUpper) (hw : IsNamePart w)
      (hcs : WritesPart w cs) : Spells p cs
  | qualified {w cs rest : List Char} (hw : IsNamePart w) (hcs : WritesPart w cs)
      (hrest : Spells p rest) : Spells p (cs ++ '.' :: rest)

section Spellings

variable {p w cs : List Char}

theorem isProcedureChar_of_isNameChar {c : Char} (h : isNameChar c = true) :
    isProcedureChar c = true := by
  simp [isProcedureChar, h]

theorem WritesPart.chars (hw : IsNamePart w) (h : WritesPart w cs) :
    ∀ c ∈ cs, isProcedureChar c = true := by
  have hchars : ∀ c ∈ w, isProcedureChar c = true := fun c hc =>
    isProcedureChar_of_isNameChar (hw.chars c hc)
  cases h with
  | bare => exact hchars
  | bracketed =>
    intro c hc
    simp only [List.mem_cons, List.mem_append, List.not_mem_nil, or_false] at hc
    rcases hc with rfl | hc | rfl
    · decide
    · exact hchars c hc
    · decide

theorem Spells.chars (h : Spells p cs) : ∀ c ∈ cs, isProcedureChar c = true := by
  induction h with
  | name _ hw hcs => exact hcs.chars hw
  | qualified hw hcs _ ih =>
    intro c hc
    rcases List.mem_append.1 hc with hc | hc
    · exact hcs.chars hw c hc
    · rcases List.mem_cons.1 hc with rfl | hc
      · decide
      · exact ih c hc

theorem Spells.ne_nil (hp : p ≠ []) (h : Spells p cs) : cs ≠ [] := by
  cases h with
  | name hcase _ hcs =>
    cases hcs with
    | bare =>
      rintro rfl
      exact hp (List.map_eq_nil_iff.1 hcase.symm)
    | bracketed => exact List.cons_ne_nil _ _
  | qualified => simp

/-- A name that has a spelling is one of them. -/
theorem Spells.self (h : Spells p cs) (hp : ∀ c ∈ p, isNameChar c = true) : Spells p p := by
  induction h with
  | name hcase hw _ =>
    have hexec : executes p = false := by rw [executes, ← hcase, ← executes, hw.not_executes]
    exact .name rfl ⟨hp, hexec⟩ .bare
  | qualified _ _ _ ih => exact ih

/-! ### The bare form -/

/-- The characters that are not dropped from the bare form of a name. -/
def isBareChar (c : Char) : Bool := c != '[' && c != ']'

theorem isBareChar_of_isNameChar {c : Char} (h : isNameChar c = true) :
    isBareChar c = true ∧ c ≠ '.' := by
  rw [isBareChar, Bool.and_eq_true, bne_iff_ne, bne_iff_ne]
  refine ⟨⟨?_, ?_⟩, ?_⟩
  all_goals
    rintro rfl
    exact absurd h (by decide)

theorem WritesPart.filter_isBareChar (hw : IsNamePart w) (h : WritesPart w cs) :
    cs.filter isBareChar = w := by
  have hkept : w.filter isBareChar = w :=
    List.filter_eq_self.2 fun c hc => (isBareChar_of_isNameChar (hw.chars c hc)).1
  cases h with
  | bare => exact hkept
  | bracketed =>
    have hopen : isBareChar '[' = false := rfl
    have hclose : isBareChar ']' = false := rfl
    simp [hkept, hopen, hclose]

theorem lastPart_append (xs ys : List Char) : lastPart (xs ++ '.' :: ys) = lastPart ys := by
  rw [lastPart, lastPart, List.reverse_append, List.reverse_cons, List.append_assoc]
  congr 1
  rw [List.takeWhile_append]
  split
  · rename_i hall
    rw [(List.takeWhile_sublist _).eq_of_length hall]
    simp
  · rfl

theorem lastPart_eq_self (hw : IsNamePart w) : lastPart w = w := by
  have hkept : w.reverse.takeWhile (· != '.') = w.reverse := by
    refine List.takeWhile_eq_self_iff.2 fun c hc => ?_
    rw [bne_iff_ne]
    exact (isBareChar_of_isNameChar (hw.chars c (List.mem_reverse.1 hc))).2
  rw [lastPart, hkept, List.reverse_reverse]

/-- What is left of a spelling is the name itself, in letters of any case. -/
theorem Spells.lastPart_filter (h : Spells p cs) :
    ∃ w, lastPart (cs.filter isBareChar) = w ∧ IsNamePart w ∧
      w.map Char.toUpper = p.map Char.toUpper := by
  induction h with
  | name hcase hw hcs =>
    rw [hcs.filter_isBareChar hw]
    exact ⟨_, lastPart_eq_self hw, hw, hcase⟩
  | @qualified w cs rest hw hcs _ ih =>
    have hstop : (cs ++ '.' :: rest).filter isBareChar = w ++ '.' :: rest.filter isBareChar := by
      rw [List.filter_append, hcs.filter_isBareChar hw]
      rfl
    rw [hstop, lastPart_append]
    exact ih

theorem upper_trim_of_isNameChar (hw : ∀ c ∈ w, isNameChar c = true) :
    upper (trim (String.ofList w)) = String.ofList (w.map Char.toUpper) := by
  have hblank : ∀ c ∈ w, isBlank c = false := fun c hc =>
    not_isBlank_of_isProcedureChar (isProcedureChar_of_isNameChar (hw c hc))
  have htrim : trimBlanks w = w := Text.trimBlanks_eq_self
    (fun c hc => hblank c (List.mem_of_mem_head? hc)) fun c hc =>
      hblank c (List.mem_of_getLast? hc)
  have hupper : w.flatMap upperChar = w.map Char.toUpper := by
    rw [← List.flatMap_singleton' (w.map Char.toUpper), List.flatMap_map]
    refine List.flatMap_congr fun c hc => ?_
    have hascii : c.toNat < 128 := by
      have := hw c hc
      simp only [isNameChar, Bool.and_eq_true, decide_eq_true_eq] at this
      exact this.1
    rw [upperChar, if_pos hascii]
  rw [trim, upper, String.toList_ofList, String.toList_ofList, htrim, hupper]

/-- All spellings of a name have one bare form, the name in capitals. -/
theorem Spells.procedureName (h : Spells p cs) :
    procedureName (String.ofList cs) = String.ofList (p.map Char.toUpper) := by
  obtain ⟨w, hlast, hw, hcase⟩ := h.lastPart_filter
  have hbare : (fun c => c != '[' && c != ']') = isBareChar := rfl
  rw [Sql.procedureName, String.toList_ofList, hbare, hlast, upper_trim_of_isNameChar hw.chars,
    hcase]

/-! ### Words -/

theorem execCount_part (hw : IsNamePart w) : execCount w = 0 := by
  by_cases hne : w = []
  · rw [hne]
    rfl
  · have hrun : execCount (w ++ []) = execCount [] + if executes w then 1 else 0 :=
      execCount_run hne (fun c hc => isWordChar_of_isNameChar (hw.chars c hc)) (by simp)
    rw [List.append_nil, hw.not_executes] at hrun
    exact hrun

theorem WritesPart.execCount (hw : IsNamePart w) (h : WritesPart w cs) : execCount cs = 0 := by
  cases h with
  | bare => exact execCount_part hw
  | bracketed =>
    have hclose : Sql.execCount [']'] = 0 := rfl
    rw [execCount_skip (by decide), execCount_append (.inr (by simpa using by decide)),
      execCount_part hw, hclose]

/-- No spelling of a name holds a word that executes. -/
theorem Spells.execCount (h : Spells p cs) : execCount cs = 0 := by
  induction h with
  | name _ hw hcs => exact hcs.execCount hw
  | qualified hw hcs _ ih =>
    rw [execCount_append (.inr (by simpa using by decide)), hcs.execCount hw,
      execCount_skip (by decide), ih]

end Spellings

/-! ## The check -/

theorem validate_of_execTarget {s : String} {listed : List String}
    (hblank : Text.isBlankText s = false) (htarget : (execTarget? (trimQuery s).toList).isSome) :
    validate (.text s) listed = validateExec (trimQuery s) listed := by
  simp [validate, hblank, htarget]

/-- What passes as an execution is a text that passes without the blanks and the semicolon around
it. -/
theorem exists_of_validate_isExec {query : Value} {listed : List String}
    (hvalid : (validate query listed).isValid = true)
    (hexec : (validate query listed).isExec = true) :
    ∃ q, query = .text q ∧ (validateExec (trimQuery q) listed).isValid = true ∧
      validate query listed = validateExec (trimQuery q) listed := by
  unfold validate at hvalid hexec ⊢
  split at hvalid
  · rename_i q
    split at hvalid
    · cases hvalid
    rename_i hblank
    dsimp only at hvalid hexec ⊢
    rw [if_neg hblank] at hexec ⊢
    split at hvalid
    · rename_i htarget
      rw [if_pos htarget]
      exact ⟨q, rfl, hvalid, rfl⟩
    · rename_i htarget
      rw [if_neg htarget, (of_validateSelect hvalid).1] at hexec
      cases hexec
  · cases hvalid

theorem mem_procedureNames {raw : List String} {n : String} :
    n ∈ procedureNames raw ↔ n ≠ "" ∧ ∃ r ∈ raw, procedureName r = n := by
  simp only [procedureNames, List.mem_eraseDups, List.mem_filter, List.mem_map, Bool.not_eq_true',
    String.isEmpty_eq_false_iff]
  exact and_comm

/-- A procedure that is listed in some spelling is listed by its bare name. -/
theorem mem_procedureNames_of_spells {raw : List String} {p : List Char} (hp : p ≠ []) {r : String}
    (hr : r ∈ raw) (h : Spells p r.toList) :
    String.ofList (p.map Char.toUpper) ∈ procedureNames raw := by
  have hbare := h.procedureName
  rw [String.ofList_toList] at hbare
  refine mem_procedureNames.2 ⟨fun hempty => hp ?_, r, hr, hbare⟩
  have hnil : p.map Char.toUpper = [] := by
    rw [← String.toList_ofList (l := p.map Char.toUpper), hempty]
    rfl
  exact List.map_eq_nil_iff.1 hnil

/-- A text that names a procedure starts with the word that executes. -/
theorem NamesProcedure.exists_isExecutingWord {cs : List Char} {name : String}
    (h : NamesProcedure cs name) : ∃ w post, IsExecutingWord cs [] w post := by
  obtain ⟨w, behind, hexec, htext, gap, rest, hbehind⟩ := h
  refine ⟨w, behind, htext, hexec, by simp, fun c hc => isWordChar_of_isBlank ?_⟩
  rw [hbehind.text, List.head?_append_of_ne_nil _ hbehind.gap_ne_nil] at hc
  exact hbehind.isBlank_gap c (List.mem_of_mem_head? hc)

theorem NamesProcedure.unique {cs : List Char} {n n' : String} (h : NamesProcedure cs n)
    (h' : NamesProcedure cs n') : n = n' :=
  Option.some.inj ((execTarget?_eq_some_iff.2 h).symm.trans (execTarget?_eq_some_iff.2 h'))

/-- The text that executes a procedure with the given arguments. -/
def execution (name : List Char) (arguments : String) : String :=
  "EXEC " ++ String.ofList name ++ " " ++ arguments

/-- What stands in front of the name. -/
def executionFront : List Char := ['E', 'X', 'E', 'C', ' ']

theorem toList_execution (name : List Char) (arguments : String) :
    (execution name arguments).toList = executionFront ++ (name ++ ' ' :: arguments.toList) := by
  have hfront : "EXEC ".toList = executionFront := rfl
  have hblank : " ".toList = [' '] := rfl
  simp only [execution, String.toList_append, hfront, hblank, String.toList_ofList,
    List.append_assoc, List.singleton_append]

section Executions

variable {p cs : List Char} {a : String} {raw : List String}

/-- Trimming cuts off nothing in front of the arguments. -/
theorem toList_trimQuery_execution (hp : p ≠ []) (h : Spells p cs) :
    (trimQuery (execution cs a)).toList =
      executionFront ++ cs ++ cutBack (' ' :: a.toList) := by
  have hfront : trimFront (execution cs a).toList = executionFront ++ cs ++ ' ' :: a.toList := by
    rw [toList_execution, trimFront, List.append_assoc]
    exact List.dropWhile_cons_of_neg (by decide)
  rw [toList_trimQuery, hfront]
  refine cutBack_append ⟨cs.getLast (h.ne_nil hp), ?_, ?_⟩
  · rw [List.getLast?_append_of_ne_nil _ (h.ne_nil hp)]
    exact List.getLast?_eq_some_getLast (h.ne_nil hp)
  · have hlast := h.chars _ (List.getLast_mem (h.ne_nil hp))
    refine ⟨not_isBlank_of_isProcedureChar hlast, ?_⟩
    intro heq
    rw [heq] at hlast
    exact absurd hlast (by decide)

/-- What is left of the arguments starts with the blank in front of them, if anything is left. -/
theorem cutBack_arguments (a : String) :
    cutBack (' ' :: a.toList) <+: ' ' :: a.toList ∧
      ∀ c ∈ (cutBack (' ' :: a.toList)).head?, c = ' ' := by
  obtain ⟨back, htext, -⟩ := exists_cutBack (' ' :: a.toList)
  have hstart : cutBack (' ' :: a.toList) <+: ' ' :: a.toList := ⟨back, htext.symm⟩
  refine ⟨hstart, fun c hc => ?_⟩
  obtain ⟨r, hr⟩ := List.head?_eq_some_iff.1 hc
  rw [hr] at hstart
  exact (List.cons_prefix_cons.1 hstart).1

/-- Where the arguments hold neither marks nor the word that executes, what is left of them does not
either. -/
theorem harmless_arguments (hmarks : HasNoMark a.toList)
    (hwords : ∀ pre w post, ¬ IsExecutingWord a.toList pre w post) :
    HasNoMark (cutBack (' ' :: a.toList)) ∧ execCount (cutBack (' ' :: a.toList)) = 0 := by
  obtain ⟨back, htext, hback, -⟩ := exists_cutBack (' ' :: a.toList)
  constructor
  · have hblank : ∀ m ∈ execMarks, m.toList ≠ [] ∧ ' ' ∉ m.toList := by decide
    intro m hm hinfix
    have hwhole : m.toList <:+: ' ' :: a.toList :=
      hinfix.trans (cutBack_arguments a).1.isInfix
    rcases List.infix_cons_iff.1 hwhole with hstart | hinside
    · obtain ⟨c, r, hc⟩ := List.exists_cons_of_ne_nil (hblank m hm).1
      rw [hc, List.cons_prefix_cons] at hstart
      refine (hblank m hm).2 ?_
      rw [hc, hstart.1]
      exact List.mem_cons_self
    · exact hmarks m hm hinside
  · have hnone : execCount (' ' :: a.toList) = 0 := by
      rw [execCount_skip (by decide), execCount_eq_zero hwords]
    have hborder : ∀ c ∈ back.head?, isWordChar c = false := by
      intro c hc
      rcases hback c (List.mem_of_mem_head? hc) with hc | rfl
      · exact isWordChar_of_isBlank hc
      · decide
    rw [htext, execCount_append (.inr hborder)] at hnone
    omega

/-- No character of a name belongs to a mark, so that marks stand in the arguments only. -/
theorem hasNoMark_execution_iff {rest : List Char} (h : Spells p cs)
    (hrest : ∀ c ∈ rest.head?, c = ' ') :
    HasNoMark (executionFront ++ cs ++ rest) ↔ HasNoMark rest := by
  have hmarks : ∀ m ∈ execMarks, ∃ c ∈ m.toList, isProcedureChar c = false ∧ c ≠ ' ' := by
    simp only [execMarks, List.forall_mem_cons]
    exact ⟨⟨'-', by decide⟩, ⟨'/', by decide⟩, ⟨';', by decide⟩, ⟨'$', by decide⟩, by simp⟩
  have hblank : ∀ m ∈ execMarks, ' ' ∉ m.toList := by decide
  have hword : ∀ c ∈ executionFront, isProcedureChar c = true ∨ c = ' ' := by decide
  refine forall₂_congr fun m hm => not_congr ⟨fun hinfix => ?_, fun hinfix => ?_⟩
  · by_contra hnot
    refine not_infix_append ?_ hnot (.inr fun c hc => ?_) hinfix
    · intro hinside
      obtain ⟨c, hc, hchar, hne⟩ := hmarks m hm
      rcases List.mem_append.1 (hinside.subset hc) with hc | hc
      · rcases hword c hc with h' | h'
        · exact absurd h' (by simp [hchar])
        · exact hne h'
      · exact absurd (h.chars c hc) (by simp [hchar])
    · rw [hrest c hc]
      exact hblank m hm
  · exact hinfix.trans (List.suffix_append _ _).isInfix

/-- Apart from the word in front, the words that execute stand in the arguments only. -/
theorem execCount_execution {rest : List Char} (h : Spells p cs)
    (hrest : ∀ c ∈ rest.head?, c = ' ') :
    execCount (executionFront ++ cs ++ rest) = 1 + execCount rest := by
  have hword : Sql.execCount executionFront = 1 := rfl
  rw [execCount_append, execCount_append, h.execCount, hword]
  · refine .inl fun c hc => ?_
    obtain rfl : ' ' = c := Option.some.inj hc
    decide
  · refine .inr fun c hc => ?_
    rw [hrest c hc]
    rfl

/-- An execution names the procedure as it is spelled. -/
theorem namesProcedure_execution (hp : p ≠ []) (h : Spells p cs) :
    NamesProcedure (trimQuery (execution cs a)).toList (String.ofList cs) := by
  refine ⟨['E', 'X', 'E', 'C'], ' ' :: (cs ++ cutBack (' ' :: a.toList)), rfl, ?_, [' '],
    cutBack (' ' :: a.toList), ⟨?_, by simp, by simpa using by decide, ?_, ?_, ?_⟩⟩
  · rw [toList_trimQuery_execution hp h]
    rfl
  · rw [String.toList_ofList]
    rfl
  · intro hempty
    exact h.ne_nil hp (by rw [← String.toList_ofList (l := cs), hempty]; rfl)
  · rw [String.toList_ofList]
    exact h.chars
  · intro c hc
    rw [(cutBack_arguments a).2 c hc]
    decide

/-- Whether an execution passes depends on the name, however it is spelled, and on what is left of
the arguments. -/
theorem isValid_execution_iff (hp : p ≠ []) (h : Spells p cs) :
    (validate (.text (execution cs a)) (procedureNames raw)).isValid = true ↔
      String.ofList (p.map Char.toUpper) ∈ procedureNames raw ∧
        HasNoMark (cutBack (' ' :: a.toList)) ∧ execCount (cutBack (' ' :: a.toList)) = 0 := by
  have htext := toList_trimQuery_execution (a := a) hp h
  have hnames := namesProcedure_execution (a := a) hp h
  obtain ⟨-, hrest⟩ := cutBack_arguments a
  have hblank : Text.isBlankText (execution cs a) = false := by
    rw [Text.isBlankText, toList_execution]
    exact List.all_eq_false.2 ⟨'E', List.mem_cons_self, by decide⟩
  have htarget := Option.isSome_of_eq_some (execTarget?_eq_some_iff.2 hnames)
  rw [validate_of_execTarget hblank htarget, validateExec_eq_passed_iff.2]
  have hcount : execCount (trimQuery (execution cs a)).toList ≤ 1 ↔
      execCount (cutBack (' ' :: a.toList)) = 0 := by
    rw [htext, execCount_execution h hrest]
    omega
  rw [hcount]
  rw [htext, hasNoMark_execution_iff h hrest, ← htext]
  constructor
  · rintro ⟨name, hname, hlisted, hmarks, hzero⟩
    rw [← hnames.unique hname, h.procedureName] at hlisted
    exact ⟨hlisted, hmarks, hzero⟩
  · rintro ⟨hlisted, hmarks, hzero⟩
    exact ⟨_, hnames, by rwa [h.procedureName], hmarks, hzero⟩

end Executions

/-- **Executions pass for listed procedures, in every spelling.** What passes as an execution is a
query without the blanks and the semicolon around it; it starts with the word that executes and a
name, as far as characters of names go, whose bare form is that of a listed name; and it holds no
mark, and that word once. A name behind which a blank stands passes or not in whichever spelling, and
it passes if it is listed in some spelling and the arguments hold neither marks nor the word. -/
theorem validate_procedures (raw : List String) :
    (∀ query : Value, (validate query (procedureNames raw)).isValid = true →
      (validate query (procedureNames raw)).isExec = true →
      ∃ q t name, query = .text q ∧ validate query (procedureNames raw) = .passed t true ∧
        TrimsTo q.toList t.toList ∧ NamesProcedure t.toList name ∧
        (∃ r ∈ raw, procedureName r = procedureName name) ∧ HasNoMark t.toList ∧
        ∃! w : List Char × List Char × List Char, IsExecutingWord t.toList w.1 w.2.1 w.2.2) ∧
    ∀ p : List Char, p ≠ [] → (∀ c ∈ p, isNameChar c = true) → ∀ cs : List Char, Spells p cs →
      ∀ a : String,
      (validate (.text (execution cs a)) (procedureNames raw)).isValid =
        (validate (.text (execution p a)) (procedureNames raw)).isValid ∧
      ((∃ r ∈ raw, Spells p r.toList) → HasNoMark a.toList →
        (∀ pre w post, ¬ IsExecutingWord a.toList pre w post) →
        (validate (.text (execution cs a)) (procedureNames raw)).isValid = true) := by
  refine ⟨fun query hvalid hexec => ?_, fun p hp hname cs hcs a => ⟨?_, ?_⟩⟩
  · obtain ⟨q, hq, hpass, heq⟩ := exists_of_validate_isExec hvalid hexec
    obtain ⟨name, hnames, hlisted, hmarks, hcount⟩ := validateExec_eq_passed_iff.2.1 hpass
    refine ⟨q, trimQuery q, name, hq, heq.trans (validateExec_eq_passed_iff.1.1 hpass),
      trimsTo_trimQuery q, hnames, (mem_procedureNames.1 hlisted).2, hmarks, ?_⟩
    obtain ⟨word, behind, hfirst⟩ := hnames.exists_isExecutingWord
    exact ⟨([], word, behind), hfirst, fun w hw => hw.unique hcount hfirst⟩
  · have hself : Spells p p := hcs.self hname
    rw [Bool.eq_iff_iff, isValid_execution_iff hp hcs, isValid_execution_iff hp hself]
  · rintro ⟨r, hr, hspelled⟩ hmarks hwords
    have hlisted := mem_procedureNames_of_spells hp hr hspelled
    exact (isValid_execution_iff hp hcs).2 ⟨hlisted, harmless_arguments hmarks hwords⟩

/-- A listed procedure, in brackets behind the name of a schema. -/
def salesReport : List String := ["[dbo].[sp_SalesReport]"]

theorem validate_procedures_salesReport :
    (∃ t name, validate (.text " execute\tReports.dbo.[SP_SALESREPORT] 2024 ; ")
        (procedureNames salesReport) = .passed t true ∧ NamesProcedure t.toList name ∧
      ∃ r ∈ salesReport, procedureName r = procedureName name) ∧
    (validate (.text (execution "[dbo].Sp_salesreport".toList "@Year = 2024"))
      (procedureNames salesReport)).isValid = true := by
  have hparts : ∀ w ∈ ["dbo".toList, "sp_SalesReport".toList, "Sp_salesreport".toList],
      (∀ c ∈ w, isNameChar c = true) ∧ executes w = false := by decide +kernel
  have hpart : ∀ w ∈ ["dbo".toList, "sp_SalesReport".toList, "Sp_salesreport".toList],
      IsNamePart w := fun w hw => ⟨(hparts w hw).1, (hparts w hw).2⟩
  obtain ⟨hpassed, hspellings⟩ := validate_procedures salesReport
  constructor
  · obtain ⟨q, t, name, -, ht, -, hname, hlisted, -⟩ :=
      hpassed (.text " execute\tReports.dbo.[SP_SALESREPORT] 2024 ; ") (by decide +kernel)
        (by decide +kernel)
    exact ⟨t, name, ht, hname, hlisted⟩
  · have hname : Spells "sp_SalesReport".toList "Sp_salesreport".toList :=
      .name (by decide +kernel) (hpart _ (by simp)) .bare
    have hspelled : Spells "sp_SalesReport".toList
        ('[' :: ("dbo".toList ++ [']']) ++ '.' :: "Sp_salesreport".toList) :=
      .qualified (hpart _ (by simp)) .bracketed hname
    have hlisted : Spells "sp_SalesReport".toList
        ('[' :: ("dbo".toList ++ [']']) ++ '.' :: '[' :: ("sp_SalesReport".toList ++ [']'])) :=
      .qualified (hpart _ (by simp)) .bracketed (.name rfl (hpart _ (by simp)) .bracketed)
    have hwords : ∀ pre w post, ¬ IsExecutingWord "@Year = 2024".toList pre w post := by
      intro pre w post hw
      have hnone : (wordRuns "@Year = 2024".toList).filter (fun r => executes r.1) = [] := by
        decide +kernel
      exact absurd (hnone ▸ hw.mem_wordRuns) List.not_mem_nil
    have hmarks : HasNoMark "@Year = 2024".toList := by
      unfold HasNoMark
      decide +kernel
    exact (hspellings "sp_SalesReport".toList (by decide +kernel)
      (hpart "sp_SalesReport".toList (by simp)).chars _ hspelled "@Year = 2024").2
        ⟨_, List.mem_singleton.2 rfl, hlisted⟩ hmarks hwords

/-- Characters of names end before letters beyond ASCII, so that a procedure passes whose name starts
with that of a listed one and goes on with such a letter. -/
theorem longerName_passes :
    validate (.text "EXEC sp_SalesReport\u00e9") (procedureNames salesReport) =
      .passed "EXEC sp_SalesReport\u00e9" true ∧
    procedureName "sp_SalesReport\u00e9" ∉ procedureNames salesReport := by
  decide +kernel

end ChartQuery.Sql
