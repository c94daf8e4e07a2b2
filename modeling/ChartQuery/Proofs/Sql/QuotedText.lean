import ChartQuery.Name
import ChartQuery.Text.Quoted
import Mathlib.Data.List.Chain

/-!
# Text in which quotes hold names only

Query text puts every name into double quotes. A text is harmless when its quotes hold nothing but
name characters, and no semicolon and no mark of a comment stands anywhere in it. Harmless texts can
be joined, and what stands outside of their quotes is joined with them.

## Main definitions

* `QuotesOnlyNames cs`: the double quotes of a text stand around runs of name characters
* `outsideQuotes cs`: the text without its quoted runs
* `IsHarmless cs`: quotes hold names only, and nothing ends a statement or starts a comment

## Main results

* `outsideQuotes_append`: what stands outside of the quotes of joined texts
* `IsHarmless.append`: harmless texts can be joined
* `IsHarmless.no_comment`: no mark of a comment occurs in a harmless text
-/

namespace ChartQuery.Sql

open Text (doubleQuote)

/-! ## Quoted runs -/

/-- The double quotes of a text stand around runs of name characters. -/
inductive QuotesOnlyNames : List Char → Prop
  | nil : QuotesOnlyNames []
  | char {c : Char} {cs : List Char} (hc : c ≠ doubleQuote) (h : QuotesOnlyNames cs) :
    QuotesOnlyNames (c :: cs)
  | name {n cs : List Char} (hn : ∀ c ∈ n, isNameChar c = true) (h : QuotesOnlyNames cs) :
    QuotesOnlyNames (doubleQuote :: (n ++ doubleQuote :: cs))

/-- The characters of a text that stand outside of double quotes; `inside` tells whether the text
starts between them. -/
def outsideFrom : Bool → List Char → List Char
  | _, [] => []
  | inside, c :: cs =>
    if c = doubleQuote then outsideFrom (!inside) cs
    else if inside then outsideFrom inside cs else c :: outsideFrom inside cs

/-- The characters of a text that stand outside of double quotes. -/
def outsideQuotes (cs : List Char) : List Char := outsideFrom false cs

theorem isNameChar_doubleQuote : isNameChar doubleQuote = false := by decide

theorem outsideFrom_name {n : List Char} (hn : ∀ c ∈ n, isNameChar c = true) (cs : List Char) :
    outsideFrom true (n ++ doubleQuote :: cs) = outsideQuotes cs := by
  induction n with
  | nil => simp [outsideFrom, outsideQuotes]
  | cons c n ih =>
    have hc : c ≠ doubleQuote := fun h => by
      have := hn c List.mem_cons_self
      rw [h, isNameChar_doubleQuote] at this
      exact absurd this (by decide)
    rw [List.cons_append, outsideFrom, if_neg hc, if_pos rfl]
    exact ih fun d hd => hn d (List.mem_cons_of_mem _ hd)

theorem outsideQuotes_char {c : Char} (hc : c ≠ doubleQuote) (cs : List Char) :
    outsideQuotes (c :: cs) = c :: outsideQuotes cs := by
  simp [outsideQuotes, outsideFrom, hc]

theorem outsideQuotes_name {n : List Char} (hn : ∀ c ∈ n, isNameChar c = true)
    (cs : List Char) :
    outsideQuotes (doubleQuote :: (n ++ doubleQuote :: cs)) = outsideQuotes cs := by
  rw [outsideQuotes, outsideFrom, if_pos rfl]
  exact outsideFrom_name hn cs

namespace QuotesOnlyNames

theorem append {a b : List Char} (ha : QuotesOnlyNames a) (hb : QuotesOnlyNames b) :
    QuotesOnlyNames (a ++ b) := by
  induction ha with
  | nil => exact hb
  | char hc _ ih => exact .char hc ih
  | name hn _ ih =>
    rw [List.cons_append, List.append_assoc]
    exact .name hn ih

end QuotesOnlyNames

/-- What stands outside of the quotes of joined texts. -/
theorem outsideQuotes_append {a : List Char} (ha : QuotesOnlyNames a) (b : List Char) :
    outsideQuotes (a ++ b) = outsideQuotes a ++ outsideQuotes b := by
  induction ha with
  | nil => rfl
  | char hc _ ih => rw [List.cons_append, outsideQuotes_char hc, outsideQuotes_char hc, ih,
      List.cons_append]
  | name hn _ ih =>
    rw [List.cons_append, List.append_assoc, List.cons_append, outsideQuotes_name hn,
      outsideQuotes_name hn, ih]

theorem isNameChar_of_mem_name (i : Identifier) : ∀ c ∈ i.name.toList, isNameChar c = true := by
  rw [← i.clean_name]
  exact clean_chars i.name

/-- Outside of its quotes a name has no text. -/
theorem outsideQuotes_inQuotes (i : Identifier) : outsideQuotes i.inQuotes.toList = [] := by
  rw [Identifier.inQuotes, String.toList_ofList]
  exact outsideQuotes_name (isNameChar_of_mem_name i) []

/-! ## Harmless text -/

/-- Quotes hold names only, no character ends a statement, and no two start a comment. That no dash
comes last allows another text behind this one. -/
structure IsHarmless (cs : List Char) : Prop where
  quotes : QuotesOnlyNames cs
  no_semicolon : ';' ∉ cs
  no_slash : '/' ∉ cs
  dashes : cs.IsChain fun a b => ¬ (a = '-' ∧ b = '-')
  last : ∀ c ∈ cs.getLast?, c ≠ '-'

/-- The character neither quotes, nor ends a statement, nor takes part in the mark of a comment. -/
def isPlainChar (c : Char) : Bool :=
  c != doubleQuote && c != ';' && c != '/' && c != '-'

namespace IsHarmless

variable {a b : List Char}

/-- Dashes are no matter where there are none. -/
theorem dashes_of_notMem (h : '-' ∉ a) : a.IsChain fun c d => ¬ (c = '-' ∧ d = '-') := by
  refine List.Pairwise.isChain (List.pairwise_iff_forall_sublist.2 fun {c d} hs hd => ?_)
  exact h (hd.1 ▸ hs.subset List.mem_cons_self)

theorem of_plain (h : a.all isPlainChar = true) : IsHarmless a := by
  have hne : ∀ c ∈ a, c ≠ doubleQuote ∧ c ≠ ';' ∧ c ≠ '/' ∧ c ≠ '-' := by
    intro c hc
    have := List.all_eq_true.1 h c hc
    simpa [isPlainChar, and_assoc] using this
  refine ⟨?_, fun h => (hne _ h).2.1 rfl, fun h => (hne _ h).2.2.1 rfl,
    dashes_of_notMem fun h => (hne _ h).2.2.2 rfl,
    fun c hc => (hne c (List.mem_of_getLast? hc)).2.2.2⟩
  clear h
  induction a with
  | nil => exact .nil
  | cons c a ih =>
    exact .char (hne c List.mem_cons_self).1 (ih fun d hd => hne d (List.mem_cons_of_mem _ hd))

theorem append (ha : IsHarmless a) (hb : IsHarmless b) : IsHarmless (a ++ b) where
  quotes := ha.quotes.append hb.quotes
  no_semicolon := by simp [ha.no_semicolon, hb.no_semicolon]
  no_slash := by simp [ha.no_slash, hb.no_slash]
  dashes := ha.dashes.append hb.dashes fun c hc _ _ hd => ha.last c hc hd.1
  last c hc := by
    rw [List.getLast?_append] at hc
    -- The last character is that of the second text, unless it is empty.
    cases hb' : b.getLast? with
    | none => exact ha.last c (by simpa [hb'] using hc)
    | some d => exact hb.last c (by simpa [hb'] using hc)

/-- A name in double quotes is harmless. -/
theorem inQuotes (i : Identifier) : IsHarmless i.inQuotes.toList := by
  have hn := isNameChar_of_mem_name i
  have hmem : ∀ c ∈ doubleQuote :: (i.name.toList ++ [doubleQuote]),
      c = doubleQuote ∨ isNameChar c = true := by
    intro c hc
    rcases List.mem_cons.1 hc with hc | hc
    · exact .inl hc
    · rcases List.mem_append.1 hc with hc | hc
      · exact .inr (hn c hc)
      · exact .inl (List.mem_singleton.1 hc)
  -- Neither a semicolon nor a slash nor a dash is a quote or a name character.
  have hnot : ∀ c, c ≠ doubleQuote → isNameChar c = false →
      c ∉ doubleQuote :: (i.name.toList ++ [doubleQuote]) := fun c hq hf hc => by
    rcases hmem c hc with h | h
    · exact hq h
    · exact absurd (hf ▸ h) (by decide)
  have hdash := hnot '-' (by decide) (by decide)
  rw [Identifier.inQuotes, String.toList_ofList]
  exact ⟨.name hn .nil, hnot _ (by decide) (by decide), hnot _ (by decide) (by decide),
    dashes_of_notMem hdash, fun c hc hd => hdash (hd ▸ List.mem_of_getLast? hc)⟩

/-- One dash in front of other characters is harmless. -/
theorem of_dash_plain (h : a.all isPlainChar = true) (hne : a ≠ []) : IsHarmless ('-' :: a) := by
  have ha := of_plain h
  have hdash : '-' ∉ a := fun hmem => absurd (List.all_eq_true.1 h _ hmem) (by decide)
  refine ⟨.char (by decide) ha.quotes, by simp [ha.no_semicolon], by simp [ha.no_slash],
    ha.dashes.cons fun c hc hd => hdash (hd.2 ▸ List.mem_of_mem_head? hc), fun c hc => ?_⟩
  rw [List.getLast?_cons_of_ne_nil hne] at hc
  exact ha.last c hc

theorem digits_plain (n : Nat) : (toString n).toList.all isPlainChar = true := by
  refine List.all_eq_true.2 fun c hc => ?_
  rw [Nat.toString_eq_repr, Nat.toList_repr] at hc
  have hd := Nat.isDigit_of_mem_toDigits (by decide) (by decide) hc
  have hne : ∀ d : Char, d.isDigit = false → c ≠ d := fun d hd' h => by
    rw [h, hd'] at hd
    exact absurd hd (by decide)
  simp [isPlainChar, hne doubleQuote (by decide), hne ';' (by decide), hne '/' (by decide),
    hne '-' (by decide)]

/-- A whole number is harmless, its sign included: a digit follows it. -/
theorem wholeNumber (n : Int) : IsHarmless (toString n).toList := by
  rw [Int.toString_eq_repr, Int.repr_eq_if]
  split
  · exact of_plain (digits_plain _)
  -- the sign of a negative number
  · have hne : (-n).toNat.repr.toList ≠ [] := by
      rw [Nat.toList_repr]
      exact List.ne_nil_of_length_pos Nat.length_toDigits_pos
    rw [String.toList_append]
    exact of_dash_plain (digits_plain _) hne

/-- No mark of a comment occurs in a harmless text. -/
theorem no_comment (h : IsHarmless a) : ¬ ['-', '-'] <:+: a ∧ ¬ ['/', '*'] <:+: a := by
  constructor
  · intro hi
    have hpair : ['-', '-'].IsChain fun a b => ¬ (a = '-' ∧ b = '-') :=
      List.IsChain.infix h.dashes hi
    exact List.isChain_pair.1 hpair ⟨rfl, rfl⟩
  · intro hi
    exact h.no_slash (hi.subset List.mem_cons_self)

end IsHarmless

end ChartQuery.Sql
