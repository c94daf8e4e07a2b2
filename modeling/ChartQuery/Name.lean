import ChartQuery.Value.Text

/-!
# Names of columns and tables

A name is made safe by keeping only its ASCII letters, digits and underscores. An identifier is a
name so cleaned: whatever it was made from, it cannot carry punctuation into query text.

## Main definitions

* `isNameChar c`: the character may stand in a name
* `clean s`: the characters of a text that may stand in a name
* `Identifier`: a cleaned name
* `ColumnSet`: the cleaned names of the columns of a table, and which of them hold doubles

## Main results

* `Identifier.ofText_name`: cleaning a cleaned name changes nothing
* `ColumnSet.mem_ofNames`: the members of a column set are the cleaned names that are not empty
-/

namespace ChartQuery

/-- An ASCII letter or digit, or the underscore. -/
def isNameChar (c : Char) : Bool :=
  c.toNat < 128 && (c.isAlphanum || c == '_')

theorem isNameChar_of_isDigit {c : Char} (h : c.isDigit = true) : isNameChar c = true := by
  have hlt : c.toNat < 128 := by
    simp only [Char.isDigit, Bool.and_eq_true, decide_eq_true_eq, UInt32.le_iff_toNat_le] at h
    exact Nat.lt_of_le_of_lt h.2 (by decide)
  simp [isNameChar, hlt, Char.isAlphanum, h]

/-- The characters of a text that may stand in a name. -/
def clean (s : String) : String := String.ofList (s.toList.filter isNameChar)

theorem clean_chars (s : String) : ∀ c ∈ (clean s).toList, isNameChar c = true := by
  intro c hc
  simp only [clean, String.toList_ofList, List.mem_filter] at hc
  exact hc.2

@[simp] theorem clean_clean (s : String) : clean (clean s) = clean s := by
  simp [clean, List.filter_filter]

/-- A text of name characters is its own cleaned form. -/
theorem clean_eq_self {s : String} (h : ∀ c ∈ s.toList, isNameChar c = true) : clean s = s := by
  rw [clean, List.filter_eq_self.2 h, String.ofList_toList]

/-! ## Identifiers -/

/-- A cleaned name. -/
structure Identifier where
  name : String
  clean_name : clean name = name
  deriving DecidableEq

namespace Identifier

/-- The identifier of a text. -/
def ofText (s : String) : Identifier := ⟨clean s, clean_clean s⟩

/-- The text of a value of any kind, of which names are made; null has none. -/
def sourceText : Value → String
  | .null => ""
  | v => v.plain

/-- The identifier of a value. -/
def ofValue (v : Value) : Identifier := ofText (sourceText v)

/-- Cleaning a cleaned name changes nothing. -/
@[simp] theorem ofText_name (i : Identifier) : ofText i.name = i := by
  cases i with
  | mk name h => simp [ofText, h]

@[simp] theorem ofText_text_name (s : String) : (ofText s).name = clean s := rfl

/-- The identifier has a name. -/
def isNamed (i : Identifier) : Bool := !i.name.isEmpty

/-- The identifier in double quotes, as query text shows it. -/
def inQuotes (i : Identifier) : String :=
  String.ofList (Text.doubleQuote :: i.name.toList ++ [Text.doubleQuote])

end Identifier

/-! ## Column sets -/

/-- The cleaned names of the columns of a table, each once, and which of them hold doubles. -/
structure ColumnSet where
  names : List String
  floats : List String
  deriving DecidableEq, Repr

namespace ColumnSet

/-- The column set of raw names; names that are empty when cleaned are left out. -/
def ofNames (raw : List String) (rawFloats : List String) : ColumnSet :=
  let names := ((raw.map clean).filter (!·.isEmpty)).eraseDups
  ⟨names, ((rawFloats.map clean).filter names.contains).eraseDups⟩

/-- The name, once cleaned, is that of a column. -/
def isColumn (c : ColumnSet) (raw : String) : Bool :=
  !(clean raw).isEmpty && c.names.contains (clean raw)

/-- The name, once cleaned, is that of a column of doubles. -/
def isFloat (c : ColumnSet) (raw : String) : Bool := c.floats.contains (clean raw)

/-- The members of a column set are the cleaned names that are not empty. -/
theorem mem_ofNames {raw rawFloats : List String} {n : String} :
    n ∈ (ofNames raw rawFloats).names ↔ n ≠ "" ∧ ∃ r ∈ raw, clean r = n := by
  simp only [ofNames, List.mem_eraseDups, List.mem_filter, List.mem_map, Bool.not_eq_true',
    String.isEmpty_eq_false_iff]
  constructor
  · rintro ⟨⟨r, hr, rfl⟩, hn⟩
    exact ⟨hn, r, hr, rfl⟩
  · rintro ⟨hn, r, hr, rfl⟩
    exact ⟨⟨r, hr, rfl⟩, hn⟩

end ColumnSet

end ChartQuery
