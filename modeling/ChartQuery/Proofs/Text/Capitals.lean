import ChartQuery.Text.Blank
import ChartQuery.Text.Uppercase
import Mathlib.Data.List.Flatten
import Mathlib.Data.Nat.Bitwise

/-!
# Capital forms stay as they are

No capital form is a letter with a capital of its own, and none is blank. So a text that was trimmed
and put into capitals is not changed by trimming it and putting it into capitals once more.

The tables of letters are compared as sets of code points, each set a number with one bit for each
of its elements.

## Main definitions

* `Text.letterCodes`, `Text.capitalCodes`: the letters of the tables, and what becomes of them
* `Text.codeSet`: a list of code points as a set

## Main results

* `Text.isCapitalOf_of_mem_upperChar`: the characters of a capital form are their own capital forms
* `Text.upper_trim_upper_trim`: trimmed capitals stay as they are
-/

namespace ChartQuery.Text

/-! ## Sets of code points -/

/-- A list of code points as a set: the number whose bits stand for its elements. -/
def codeSet (ns : List Nat) : Nat := ns.foldr (fun n set => set ||| 1 <<< n) 0

theorem testBit_codeSet {ns : List Nat} {n : Nat} : (codeSet ns).testBit n = true ↔ n ∈ ns := by
  induction ns with
  | nil => simp [codeSet]
  | cons m ns ih =>
    have hbit : (1 <<< m).testBit n = decide (m = n) := by
      rw [Nat.one_shiftLeft, Nat.testBit_two_pow]
    show (codeSet ns ||| 1 <<< m).testBit n = true ↔ n ∈ m :: ns
    rw [Nat.testBit_or, hbit, Bool.or_eq_true, ih, decide_eq_true_eq, List.mem_cons]
    constructor
    · rintro (h | h)
      · exact .inr h
      · exact .inl h.symm
    · rintro (h | h)
      · exact .inr h.symm
      · exact .inl h

/-- Sets without a common bit have no common element. -/
theorem not_mem_of_codeSet {ns ms : List Nat} (h : codeSet ns &&& codeSet ms = 0) {n : Nat}
    (hn : n ∈ ns) : n ∉ ms := by
  intro hm
  have hbit : (codeSet ns &&& codeSet ms).testBit n = true := by
    rw [Nat.testBit_and, testBit_codeSet.2 hn, testBit_codeSet.2 hm]
    rfl
  rw [h, Nat.zero_testBit] at hbit
  contradiction

/-! ## The tables -/

/-- The letters of a run. -/
def CaseRun.codes (r : CaseRun) : List Nat :=
  List.range' r.first ((r.last - r.first) / r.step + 1) r.step

theorem CaseRun.mem_codes_of_covers {r : CaseRun} {n : Nat} (h : r.covers n = true) :
    n ∈ r.codes := by
  simp only [covers, Bool.and_eq_true, decide_eq_true_eq, beq_iff_eq] at h
  obtain ⟨⟨hfirst, hlast⟩, hstep⟩ := h
  rw [codes, List.mem_range']
  refine ⟨(n - r.first) / r.step, ?_, ?_⟩
  · exact Nat.lt_succ_of_le (Nat.div_le_div_right (by omega))
  · rw [Nat.mul_div_cancel' (Nat.dvd_of_mod_eq_zero hstep)]
    omega

/-- The letters with a capital form of their own: those of ASCII and those of the tables. -/
def letterCodes : List Nat :=
  List.range' 0x61 26 ++ (capitalSequences.map (·.1) ++ capitalRuns.flatMap CaseRun.codes)

/-- The characters of the capital forms in the tables. -/
def capitalCodes : List Nat :=
  capitalSequences.flatMap (·.2) ++
    capitalRuns.flatMap fun r => r.codes.map fun (n : Nat) => (n + r.shift).toNat

/-- The blank characters. -/
def blankCodes : List Nat :=
  List.range' 9 5 ++ (List.range' 28 5 ++ (List.range' 0x2000 11 ++
    [0x85, 0xA0, 0x1680, 0x2028, 0x2029, 0x202F, 0x205F, 0x3000]))

/-- No capital form holds a letter with a capital form of its own, or a blank. -/
theorem codeSet_capitalCodes_and :
    codeSet capitalCodes &&& codeSet (letterCodes ++ blankCodes) = 0 := by
  -- Compared as numbers: there are too many pairs of elements to look at each.
  decide +kernel

/-- The code point of a character that is made from a code point, or zero if there is none. -/
theorem toNat_ofNat_or (n : Nat) : (Char.ofNat n).toNat = n ∨ (Char.ofNat n).toNat = 0 := by
  by_cases h : n.isValidChar
  · have hn : Char.ofNat n = Char.ofNatAux n h := dif_pos h
    rw [hn]
    exact .inl rfl
  · have hn : Char.ofNat n = '\x00' := dif_neg h
    rw [hn]
    exact .inr rfl

theorem mem_blankCodes_of_isBlank {c : Char} (h : isBlank c = true) : c.toNat ∈ blankCodes := by
  simp only [isBlank, Bool.or_eq_true, Bool.and_eq_true, decide_eq_true_eq, beq_iff_eq] at h
  simp only [blankCodes, List.mem_append, List.mem_range'_1, List.mem_cons, List.not_mem_nil]
  omega

/-- No blank stands among the printed characters of ASCII. -/
theorem place_of_mem_blankCodes : ∀ n ∈ blankCodes, n ≤ 0x20 ∨ 0x85 ≤ n := by
  decide

/-! ## Letters of ASCII -/

theorem isLower_iff {c : Char} : c.isLower = true ↔ 0x61 ≤ c.toNat ∧ c.toNat ≤ 0x7A := by
  show (decide (c.val ≥ 0x61) && decide (c.val ≤ 0x7A)) = true ↔ _
  simp only [Bool.and_eq_true, decide_eq_true_eq, ge_iff_le, UInt32.le_iff_toNat_le]
  rfl

theorem toUpper_of_not_isLower {c : Char} (h : ¬ c.isLower = true) : c.toUpper = c :=
  dif_neg fun hc => h (isLower_iff.2 hc)

/-- A capital of ASCII lies 32 places in front of its small letter. -/
theorem toNat_toUpper_of_isLower {c : Char} (h : c.isLower = true) :
    c.toUpper.toNat + 0x20 = c.toNat := by
  obtain ⟨hfirst, hlast⟩ := isLower_iff.1 h
  -- There are twenty-six of them.
  have hcases : ∀ n ∈ List.range' 0x61 26, (Char.ofNat n).toUpper.toNat + 0x20 = n := by
    decide
  have hchar : Char.ofNat c.toNat = c := Char.ofNat_toNat c
  have hcode := hcases c.toNat (List.mem_range'_1.2 (by omega))
  rwa [hchar] at hcode

/-! ## Capital forms -/

/-- A character that is no letter with a capital form of its own. -/
theorem upperChar_of_not_mem {c : Char} (h : c.toNat ∉ letterCodes) : upperChar c = [c] := by
  simp only [letterCodes, List.mem_append, not_or] at h
  obtain ⟨hascii, hsequences, hruns⟩ := h
  rw [upperChar]
  split
  · rw [toUpper_of_not_isLower]
    intro hlower
    have hrange := isLower_iff.1 hlower
    exact hascii (List.mem_range'_1.2 (by omega))
  · have hlookup : capitalSequences.lookup c.toNat = none := by
      rw [List.lookup_eq_none_iff]
      intro e he
      exact bne_iff_ne.2 fun heq => hsequences (heq ▸ List.mem_map_of_mem he)
    have hfind : capitalRuns.find? (·.covers c.toNat) = none := by
      rw [List.find?_eq_none]
      intro r hr hcovers
      exact hruns (List.mem_flatMap.2 ⟨r, hr, CaseRun.mem_codes_of_covers hcovers⟩)
    rw [hlookup, hfind]

/-- The character is its own capital form, and it is blank only if it comes from this one. -/
def IsCapitalOf (c d : Char) : Prop := upperChar d = [d] ∧ (isBlank d = true → d = c)

theorem isCapitalOf_of_not_isBlank {c d : Char} (h : upperChar d = [d])
    (hblank : ¬ isBlank d = true) : IsCapitalOf c d :=
  ⟨h, fun hd => absurd hd hblank⟩

theorem mem_capitalSequences_of_lookup {n : Nat} {cs : List Nat}
    (h : capitalSequences.lookup n = some cs) : (n, cs) ∈ capitalSequences := by
  obtain ⟨before, behind, hsplit, -⟩ := List.lookup_eq_some_iff.1 h
  rw [hsplit]
  exact List.mem_append_right _ List.mem_cons_self

/-- The characters of the tables are capitals. -/
theorem isCapitalOf_of_mem_capitalCodes {n : Nat} (hn : n ∈ capitalCodes) (c : Char) :
    IsCapitalOf c (Char.ofNat n) := by
  have hcodes : (Char.ofNat n).toNat ∉ letterCodes ++ blankCodes := by
    rcases toNat_ofNat_or n with h | h
    · rw [h]
      exact not_mem_of_codeSet codeSet_capitalCodes_and hn
    · rw [h]
      decide +kernel
  rw [List.mem_append, not_or] at hcodes
  apply isCapitalOf_of_not_isBlank (upperChar_of_not_mem hcodes.1)
  exact fun hblank => hcodes.2 (mem_blankCodes_of_isBlank hblank)

/-- The capitals of ASCII are capitals, and what has none stays as it is. -/
theorem isCapitalOf_toUpper {c : Char} (hascii : c.toNat < 128) : IsCapitalOf c c.toUpper := by
  by_cases hlower : c.isLower = true
  · have hcode := toNat_toUpper_of_isLower hlower
    have hrange := isLower_iff.1 hlower
    apply isCapitalOf_of_not_isBlank
    · rw [upperChar, if_pos (by omega), toUpper_of_not_isLower]
      rw [isLower_iff]
      omega
    · intro hblank
      have hplace := place_of_mem_blankCodes _ (mem_blankCodes_of_isBlank hblank)
      omega
  -- What has no capital may be blank, but is itself then.
  · have hself := toUpper_of_not_isLower hlower
    rw [hself]
    refine ⟨?_, fun _ => rfl⟩
    rw [upperChar, if_pos hascii, hself]

/-- **The characters of a capital form are their own capital forms.** None of them is blank, unless
the form is that of a blank. -/
theorem isCapitalOf_of_mem_upperChar {c d : Char} (h : d ∈ upperChar c) : IsCapitalOf c d := by
  by_cases hascii : c.toNat < 128
  · rw [upperChar, if_pos hascii, List.mem_singleton] at h
    rw [h]
    exact isCapitalOf_toUpper hascii
  -- Beyond ASCII the form is that of a sequence or of a run, or the character stands in no table.
  cases hlookup : capitalSequences.lookup c.toNat with
  | some cs =>
    rw [upperChar, if_neg hascii, hlookup] at h
    obtain ⟨n, hn, rfl⟩ := List.mem_map.1 h
    apply isCapitalOf_of_mem_capitalCodes
    exact List.mem_append_left _ (List.mem_flatMap.2
      ⟨_, mem_capitalSequences_of_lookup hlookup, hn⟩)
  | none =>
    cases hfind : capitalRuns.find? (·.covers c.toNat) with
    | some r =>
      rw [upperChar, if_neg hascii, hlookup] at h
      simp only [hfind, List.mem_singleton] at h
      rw [h]
      apply isCapitalOf_of_mem_capitalCodes
      have hcovers : r.covers c.toNat = true := by
        have hsome := List.find?_some hfind
        exact hsome
      have hcode := CaseRun.mem_codes_of_covers hcovers
      exact List.mem_append_right _ (List.mem_flatMap.2
        ⟨r, List.mem_of_find?_eq_some hfind, List.mem_map.2 ⟨_, hcode, rfl⟩⟩)
    | none =>
      have hself : upperChar c = [c] := by rw [upperChar, if_neg hascii, hlookup, hfind]
      rw [hself, List.mem_singleton] at h
      rw [h]
      exact ⟨hself, fun _ => rfl⟩

/-! ## Trimmed capitals -/

/-- Capitals stay as they are. -/
theorem upper_upper (s : String) : upper (upper s) = upper s := by
  have hself : ∀ {ds : List Char}, (∀ d ∈ ds, upperChar d = [d]) → ds.flatMap upperChar = ds := by
    intro ds hds
    induction ds with
    | nil => rfl
    | cons d ds ih =>
      have hrest : ∀ e ∈ ds, upperChar e = [e] := fun e he => hds e (List.mem_cons_of_mem d he)
      rw [List.flatMap_cons, hds d List.mem_cons_self, ih hrest]
      rfl
  rw [upper, upper, String.toList_ofList, hself]
  intro d hd
  obtain ⟨c, -, hc⟩ := List.mem_flatMap.1 hd
  exact (isCapitalOf_of_mem_upperChar hc).1

/-- Every character has a capital form. -/
theorem upperChar_ne_nil (c : Char) : upperChar c ≠ [] := by
  have hsequences : ∀ e ∈ capitalSequences, e.2 ≠ [] := by decide
  rw [upperChar]
  split
  · exact List.cons_ne_nil _ _
  · split
    · rename_i cs hlookup
      have hmem := mem_capitalSequences_of_lookup hlookup
      exact fun h => hsequences _ hmem (List.map_eq_nil_iff.1 h)
    · split
      · exact List.cons_ne_nil _ _
      · exact List.cons_ne_nil _ _

/-- The capital form of a character that is not blank holds no blank. -/
theorem not_isBlank_of_mem_upperChar {c d : Char} (hc : isBlank c = false)
    (hd : d ∈ upperChar c) : isBlank d = false := by
  rw [← Bool.not_eq_true]
  intro hblank
  have hsame := (isCapitalOf_of_mem_upperChar hd).2 hblank
  rw [hsame, hc] at hblank
  contradiction

/-- The first capital is that of the first character, at whichever end one starts. -/
theorem not_isBlank_of_findSome? {get : List Char → Option Char}
    (hmem : ∀ {l c}, get l = some c → c ∈ l) (hsome : ∀ {l}, l ≠ [] → (get l).isSome)
    {cs : List Char} (hfirst : ∀ c, cs.head? = some c → isBlank c = false) {d : Char}
    (hd : cs.findSome? (fun c => get (upperChar c)) = some d) : isBlank d = false := by
  cases cs with
  | nil => cases hd
  | cons c cs =>
    obtain ⟨e, he⟩ := Option.isSome_iff_exists.1 (hsome (upperChar_ne_nil c))
    rw [List.findSome?_cons, he] at hd
    obtain rfl := Option.some.inj hd
    exact not_isBlank_of_mem_upperChar (hfirst c rfl) (hmem he)

/-- Capitals of a trimmed text are trimmed. -/
theorem trimBlanks_flatMap_upperChar (cs : List Char) :
    trimBlanks ((trimBlanks cs).flatMap upperChar) = (trimBlanks cs).flatMap upperChar := by
  apply trimBlanks_eq_self
  · intro d hd
    rw [List.head?_flatMap] at hd
    apply not_isBlank_of_findSome? List.mem_of_head? List.isSome_head?.2 _ hd
    exact fun c => not_isBlank_of_head?_trimBlanks
  · intro d hd
    rw [List.getLast?_flatMap] at hd
    apply not_isBlank_of_findSome? List.mem_of_getLast? List.getLast?_isSome.2 _ hd
    intro c hc
    rw [List.head?_reverse] at hc
    exact not_isBlank_of_getLast?_trimBlanks hc

/-- **Trimmed capitals stay as they are.** -/
theorem upper_trim_upper_trim (s : String) : upper (trim (upper (trim s))) = upper (trim s) := by
  have htrim : trim (upper (trim s)) = upper (trim s) := by
    simp only [trim, upper, String.toList_ofList]
    rw [trimBlanks_flatMap_upperChar]
  rw [htrim, upper_upper]

end ChartQuery.Text
