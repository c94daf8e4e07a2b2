import ChartQuery.Number.Decimal
import ChartQuery.Proofs.Number.NearestWhole
import Mathlib.Data.List.TakeWhile

/-!
# Whole numbers read as doubles

The decimal text of a whole number, read as a double, is the double nearest to that number.

## Main results

* `toList_toString`: the characters of the decimal text of a whole number
* `readBinary64?_toString`: what the text of a whole number is read as
-/

namespace ChartQuery

/-! ## Characters of a whole number -/

/-- The decimal text of a whole number has a minus sign in front of negative digits. -/
theorem toList_toString (n : Int) :
    (toString n).toList = (if n < 0 then ['-'] else []) ++ Nat.toDigits 10 n.natAbs := by
  rw [Int.toString_eq_repr, Int.repr_eq_if]
  by_cases h : n < 0
  · have habs : (-n).toNat = n.natAbs := by omega
    rw [if_neg (by omega), if_pos h, String.toList_append, Nat.toList_repr, habs]
    rfl
  · have habs : n.toNat = n.natAbs := by omega
    rw [if_pos (by omega), if_neg h, Nat.toList_repr, habs]
    rfl

theorem isDigit_of_mem_digits {m : Nat} {c : Char} (h : c ∈ Nat.toDigits 10 m) :
    c.isDigit = true :=
  Nat.isDigit_of_mem_toDigits (by omega) (by omega) h

theorem digits_ne_nil (m : Nat) : Nat.toDigits 10 m ≠ [] := by
  have := Nat.length_toDigits_pos (b := 10) (n := m)
  intro h
  simp [h] at this

/-- Digits are read as the number that they write. -/
theorem digitsValue_toDigits (m : Nat) : digitsValue (Nat.toDigits 10 m) = m :=
  Nat.ofDigitChars_ten_toDigits

/-! ## Reading -/

/-- A character of a whole number is taken as it stands. -/
structure IsPlainMark (c : Char) : Prop where
  notBlank : isNumberBlank c = false
  ascii : asciiDigit c = c
  notUnderscore : c ≠ '_'

theorem IsPlainMark.of_isDigit {c : Char} (h : c.isDigit = true) : IsPlainMark c := by
  have hrange := Text.toNat_of_isDigit h
  refine ⟨?_, ?_, ?_⟩
  · simp only [isNumberBlank, Text.isBlank]
    simp
    omega
  · have hvalue := Text.digitValue?_of_isDigit (by omega) h
    have hsum : 0x30 + (c.toNat - 0x30) = c.toNat := by omega
    simp only [asciiDigit, hvalue, hsum, Char.ofNat_toNat]
  · rintro rfl
    simp at hrange

theorem IsPlainMark.minus : IsPlainMark '-' := ⟨by decide, by decide, by decide⟩

theorem dropUnderscores?_eq_self {cs : List Char} (h : ∀ c ∈ cs, c ≠ '_') (afterDigit : Bool) :
    dropUnderscores? afterDigit cs = some cs := by
  induction cs generalizing afterDigit with
  | nil => rfl
  | cons c cs ih =>
    have hc : c ≠ '_' := h c (by simp)
    have hcs : ∀ d ∈ cs, d ≠ '_' := fun d hd => h d (by simp [hd])
    simp [dropUnderscores?, hc, ih hcs]

/-- A text of such characters is prepared already. -/
theorem numberChars?_eq_self {s : String} (h : ∀ c ∈ s.toList, IsPlainMark c) :
    numberChars? s = some s.toList := by
  have drop_eq : ∀ {cs : List Char}, (∀ c ∈ cs, IsPlainMark c) →
      cs.dropWhile isNumberBlank = cs := by
    intro cs hcs
    cases cs with
    | nil => rfl
    | cons c cs => simp [(hcs c (by simp)).notBlank]
  have map_eq : s.toList.map asciiDigit = s.toList :=
    (List.map_congr_left fun c hc => (h c hc).ascii).trans (List.map_id _)
  have hreverse : ∀ c ∈ s.toList.reverse, IsPlainMark c := by simpa using h
  simp only [numberChars?, drop_eq h, drop_eq hreverse, List.reverse_reverse, map_eq]
  exact dropUnderscores?_eq_self (fun c hc => (h c hc).notUnderscore) false

theorem readSign_digits (negative : Bool) {ds : List Char} (hds : ∀ c ∈ ds, c.isDigit = true) :
    readSign ((if negative then ['-'] else []) ++ ds) = (negative, ds) := by
  cases negative with
  | true => rfl
  | false =>
    cases ds with
    | nil => rfl
    | cons d ds =>
      have hd := hds d (by simp)
      have hminus : d ≠ '-' := by
        rintro rfl
        simp at hd
      have hplus : d ≠ '+' := by
        rintro rfl
        simp at hd
      simp [readSign, hminus, hplus]

/-- Digits alone are read as the decimal that they write. -/
theorem readMagnitude?_digits (negative : Bool) {ds : List Char}
    (hds : ∀ c ∈ ds, c.isDigit = true) (hne : ds ≠ []) :
    readMagnitude? negative ds = some (Binary64.ofDecimal negative (digitsValue ds) 0) := by
  have htake : ds.takeWhile Char.isDigit = ds := List.takeWhile_eq_self_iff.mpr hds
  have hdrop : ds.dropWhile Char.isDigit = [] := List.dropWhile_eq_nil_iff.mpr hds
  simp [readMagnitude?, htake, hdrop, hne, readExponent?]

/-- Digits are none of the words for what is no finite number. -/
theorem ofList_map_toLower_ne {d : Char} (hd : d.isDigit = true) (ds : List Char) {w : String}
    (hw : ∀ c ∈ w.toList.head?, c.isDigit = false) :
    String.ofList ((d :: ds).map Char.toLower) ≠ w := by
  rintro rfl
  have hlower : d.toLower = d := by
    have hrange := Text.toNat_of_isDigit hd
    refine dif_neg fun h => ?_
    have hge : 65 ≤ d.toNat := UInt32.le_iff_toNat_le.1 h.1
    omega
  simp [hlower, hd] at hw

theorem readBinary64Chars?_digits (negative : Bool) {ds : List Char}
    (hds : ∀ c ∈ ds, c.isDigit = true) (hne : ds ≠ []) :
    readBinary64Chars? ((if negative then ['-'] else []) ++ ds) =
      some (Binary64.ofDecimal negative (digitsValue ds) 0) := by
  obtain ⟨d, rest, rfl⟩ := List.exists_cons_of_ne_nil hne
  have hd := hds d (by simp)
  have hinf := ofList_map_toLower_ne hd rest (w := "inf") (by simp)
  have hinfinity := ofList_map_toLower_ne hd rest (w := "infinity") (by simp)
  have hnan := ofList_map_toLower_ne hd rest (w := "nan") (by simp)
  simp only [readBinary64Chars?, readSign_digits negative hds, hinf, hinfinity, hnan, if_false,
    Bool.or_false, decide_false]
  exact readMagnitude?_digits negative hds hne

/-- The double nearest to a whole number of at most 64 binary digits. -/
theorem ofDecimal_zero_exponent {n : Int} (hn : n.natAbs < 2 ^ 64) :
    Binary64.ofDecimal (n < 0) n.natAbs 0 = Binary64.ofInt n := by
  rw [Binary64.ofInt_eq hn]
  by_cases hzero : n.natAbs = 0
  · have : n = 0 := by omega
    subst this
    simp [Binary64.ofDecimal, Binary64.nearestNat_of_le]
  · have hlength : (toString n.natAbs).length ≤ 20 := by
      rw [Nat.toString_eq_repr, ← String.length_toList, Nat.toList_repr,
        Nat.length_toDigits_le_iff (by omega) (by omega)]
      omega
    simp only [Binary64.ofDecimal, hzero, if_false]
    -- With so few digits the number is neither infinite nor zero without being divided.
    rw [if_neg (by omega), if_neg (by omega)]
    simp [Binary64.ofQuotient_mul_one _ hn]

/-- The text of a whole number is read as the double nearest to it. -/
theorem readBinary64?_toString {n : Int} (hn : n.natAbs < 2 ^ 64) :
    readBinary64? (toString n) = some (Binary64.ofInt n) := by
  have hdigits : ∀ c ∈ Nat.toDigits 10 n.natAbs, c.isDigit = true :=
    fun c hc => isDigit_of_mem_digits hc
  have hplain : ∀ c ∈ (toString n).toList, IsPlainMark c := by
    rw [toList_toString]
    intro c hc
    rcases List.mem_append.1 hc with hc | hc
    · have : c = '-' := by
        split at hc <;> simp_all
      exact this ▸ IsPlainMark.minus
    · exact IsPlainMark.of_isDigit (hdigits c hc)
  rw [readBinary64?, numberChars?_eq_self hplain, toList_toString]
  have := readBinary64Chars?_digits (n < 0) hdigits (digits_ne_nil _)
  rw [digitsValue_toDigits, ofDecimal_zero_exponent hn] at this
  simpa using this

end ChartQuery
