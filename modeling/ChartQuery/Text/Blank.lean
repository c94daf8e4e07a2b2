/-!
# Blank characters

The blank characters of Unicode, and the trimming of a text.

## Main definitions

* `isBlank c`: the character is white space, a separator included
* `trim s`: the text without the blanks at its ends

## Main results

* `trimBlanks_eq_self`: a text that neither starts nor ends with a blank is its own trimmed form
* `not_isBlank_of_head?_trimBlanks`, `not_isBlank_of_getLast?_trimBlanks`: a trimmed text is such
-/

namespace ChartQuery.Text

/-- White space: the control separators, the spaces of every width, the line and paragraph
separators. -/
def isBlank (c : Char) : Bool :=
  let n := c.toNat
  (9 ≤ n && n ≤ 13) || (28 ≤ n && n ≤ 32) || n == 0x85 || n == 0xA0 || n == 0x1680 ||
    (0x2000 ≤ n && n ≤ 0x200A) || n == 0x2028 || n == 0x2029 || n == 0x202F || n == 0x205F ||
    n == 0x3000

/-! ## Trimming -/

/-- The characters without the blanks in front. -/
def trimFront (cs : List Char) : List Char := cs.dropWhile isBlank

/-- The characters without the blanks at the back. -/
def trimBack (cs : List Char) : List Char := (cs.reverse.dropWhile isBlank).reverse

/-- The characters without the blanks at either end. -/
def trimBlanks (cs : List Char) : List Char := trimBack (trimFront cs)

/-- The text without the blanks at its ends. -/
def trim (s : String) : String := String.ofList (trimBlanks s.toList)

/-- The text without the blanks at its end. -/
def trimEnd (s : String) : String := String.ofList (trimBack s.toList)

/-- The text holds nothing but blanks. -/
def isBlankText (s : String) : Bool := s.toList.all isBlank

/-- A text that neither starts nor ends with a blank is its own trimmed form. -/
theorem trimBlanks_eq_self {cs : List Char} (hfront : ∀ c, cs.head? = some c → isBlank c = false)
    (hback : ∀ c, cs.getLast? = some c → isBlank c = false) : trimBlanks cs = cs := by
  have drop_eq : ∀ {ds : List Char}, (∀ c, ds.head? = some c → isBlank c = false) →
      ds.dropWhile isBlank = ds := by
    intro ds h
    cases ds with
    | nil => rfl
    | cons d r => simp [h d rfl]
  rw [trimBlanks, trimFront, drop_eq hfront, trimBack, drop_eq, List.reverse_reverse]
  intro c hc
  rw [List.head?_reverse] at hc
  exact hback c hc

theorem not_isBlank_of_head?_dropWhile {cs : List Char} {c : Char}
    (h : (cs.dropWhile isBlank).head? = some c) : isBlank c = false := by
  have hnot := List.head?_dropWhile_not isBlank cs
  rwa [h] at hnot

/-- A trimmed text does not end with a blank. -/
theorem not_isBlank_of_getLast?_trimBlanks {cs : List Char} {c : Char}
    (h : (trimBlanks cs).getLast? = some c) : isBlank c = false := by
  rw [trimBlanks, trimBack, List.getLast?_reverse] at h
  exact not_isBlank_of_head?_dropWhile h

/-- A trimmed text does not start with a blank. -/
theorem not_isBlank_of_head?_trimBlanks {cs : List Char} {c : Char}
    (h : (trimBlanks cs).head? = some c) : isBlank c = false := by
  obtain ⟨rest, hrest⟩ := List.head?_eq_some_iff.1 h
  -- What stays in front of the blanks at the back starts as the text before they were dropped.
  obtain ⟨dropped, hdropped⟩ := List.dropWhile_suffix isBlank (l := (trimFront cs).reverse)
  have hsplit : trimFront cs = trimBlanks cs ++ dropped.reverse := by
    rw [← List.reverse_reverse (trimFront cs), ← hdropped, List.reverse_append]
    rfl
  have hfront : (cs.dropWhile isBlank).head? = some c := by
    show (trimFront cs).head? = some c
    rw [hsplit, hrest]
    rfl
  exact not_isBlank_of_head?_dropWhile hfront

end ChartQuery.Text
