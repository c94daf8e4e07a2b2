import ChartQuery.Local.Pattern
import Mathlib.Data.List.Forall2

/-!
# What patterns mean

A pattern fits a text exactly if the text can be cut into as many pieces as the pattern has
characters, so that each character stands for its piece: a percent sign for any piece, the empty one
included, an underscore for one character, and every other character for itself. There may be many
such cuts, and whether there is one is decided without looking for it: each part of the pattern
marks, from the last part on, all the ends of the text that the rest of the pattern fits.

## Main definitions

* `StandsFor c piece`: a character of a pattern stands for a piece of a text
* `CanBeCut pattern text`: the text can be cut into pieces for the characters of the pattern
* `Marks P text ends`: the marked ones are the ends of the text with a property

## Main results

* `Marks.fitPart`: one more part marks the ends that begin with a piece for it
* `marks_fittingEnds`: a pattern marks the ends that can be cut for it
* `likeText_iff_exists_pieces`: which texts fit a pattern
-/

namespace ChartQuery

/-! ## Pieces -/

/-- A character of a pattern stands for a piece of a text. -/
inductive StandsFor : Char → List Char → Prop
  | anyText (piece : List Char) : StandsFor '%' piece
  | anyChar (c : Char) : StandsFor '_' [c]
  | itself {c : Char} : c ≠ '%' → c ≠ '_' → StandsFor c [c]

/-- A text can be cut into pieces for the characters of a pattern. -/
def CanBeCut (pattern text : List Char) : Prop :=
  ∃ pieces : List (List Char), pieces.flatten = text ∧ List.Forall₂ StandsFor pattern pieces

section Pieces

variable {c : Char} {pattern text piece : List Char}

/-- Nothing else than a percent sign stands for anything else than one character. -/
theorem standsFor_iff :
    StandsFor c piece ↔ c = '%' ∨ ∃ d, piece = [d] ∧ (PatternPart.ofChar c).admits d = true := by
  constructor
  · intro h
    cases h with
    | anyText => exact .inl rfl
    | anyChar d => exact .inr ⟨d, rfl, rfl⟩
    | itself htext hchar =>
      exact .inr ⟨c, rfl, by simp [PatternPart.ofChar, PatternPart.admits, htext, hchar]⟩
  · rintro (rfl | ⟨d, rfl, hd⟩)
    · exact .anyText piece
    · by_cases htext : c = '%'
      · exact htext ▸ .anyText [d]
      by_cases hchar : c = '_'
      · exact hchar ▸ .anyChar d
      obtain rfl : d = c := by simpa [PatternPart.ofChar, PatternPart.admits, htext, hchar] using hd
      exact .itself htext hchar

theorem canBeCut_nil_iff : CanBeCut [] text ↔ text = [] := by
  simp [CanBeCut, List.forall₂_nil_left_iff, eq_comm]

/-- The first character of a pattern takes the piece in front. -/
theorem canBeCut_cons_iff : CanBeCut (c :: pattern) text ↔
    ∃ piece rest, piece ++ rest = text ∧ StandsFor c piece ∧ CanBeCut pattern rest := by
  constructor
  · rintro ⟨pieces, rfl, hpieces⟩
    obtain ⟨piece, others, hpiece, hothers, rfl⟩ := List.forall₂_cons_left_iff.1 hpieces
    exact ⟨piece, others.flatten, rfl, hpiece, others, rfl, hothers⟩
  · rintro ⟨piece, _, rfl, hpiece, others, rfl, hothers⟩
    exact ⟨piece :: others, rfl, .cons hpiece hothers⟩

end Pieces

/-! ## Marked ends -/

/-- The marked ones among the ends of a text, from the whole text on, are those with a property. -/
inductive Marks (P : List Char → Prop) : List Char → List Bool → Prop
  | nil {marked : Bool} : (marked = true ↔ P []) → Marks P [] [marked]
  | cons {c : Char} {text : List Char} {marked : Bool} {ends : List Bool} :
      (marked = true ↔ P (c :: text)) → Marks P text ends → Marks P (c :: text) (marked :: ends)

namespace Marks

variable {P Q : List Char → Prop} {text : List Char} {ends : List Bool}

/-- The first end is the whole text. -/
theorem headD_iff (h : Marks P text ends) : ends.headD false = true ↔ P text := by
  cases h with
  | nil hb => exact hb
  | cons hb _ => exact hb

theorem congr (h : Marks P text ends) (hPQ : ∀ t, P t ↔ Q t) : Marks Q text ends :=
  funext (fun t => propext (hPQ t)) ▸ h

/-- Every end from which a marked one is reached is marked. -/
theorem markedFrom (h : Marks P text ends) :
    Marks (fun t => ∃ piece rest, piece ++ rest = t ∧ P rest) text (markedFrom ends) := by
  induction h with
  | nil hb => exact .nil (by simpa [List.append_eq_nil_iff] using hb)
  | @cons c text b ends hb _ ih =>
    refine .cons ?_ ih
    change (b || (ChartQuery.markedFrom ends).headD false) = true ↔ _
    -- A piece in front is empty, or it begins with the first character.
    rw [Bool.or_eq_true, hb, ih.headD_iff]
    constructor
    · rintro (hP | ⟨piece, rest, rfl, hP⟩)
      · exact ⟨[], c :: text, rfl, hP⟩
      · exact ⟨c :: piece, rest, rfl, hP⟩
    · rintro ⟨_ | ⟨d, piece⟩, rest, hcut, hP⟩
      · obtain rfl : rest = c :: text := hcut
        exact .inl hP
      · exact .inr ⟨piece, rest, (List.cons.inj hcut).2, hP⟩

/-- An end is marked if it begins with a character of a kind and the next end was marked. -/
theorem zipWith (h : Marks P text ends) (admits : Char → Bool) :
    Marks (fun t => ∃ d rest, d :: rest = t ∧ admits d = true ∧ P rest) text
      (List.zipWith (fun d fits => admits d && fits) text ends.tail ++ [false]) := by
  induction h with
  | nil => exact .nil (by simp)
  | @cons c text b ends _ hrest ih =>
    have hhead := hrest.headD_iff
    cases ends with
    | nil => cases hrest
    | cons marked ends => exact .cons (by simpa using and_congr_right fun _ => hhead) ih

/-- **One more part of a pattern marks the ends that begin with a piece for it**, behind which the
rest of the pattern fits. -/
theorem fitPart (h : Marks P text ends) (c : Char) :
    Marks (fun t => ∃ piece rest, piece ++ rest = t ∧ StandsFor c piece ∧ P rest) text
      (fitPart text (PatternPart.ofChar c) ends) := by
  by_cases htext : c = '%'
  · subst htext
    exact h.markedFrom.congr fun t => by simp [standsFor_iff]
  · have hpart : ChartQuery.fitPart text (PatternPart.ofChar c) ends =
        List.zipWith (fun d fits => (PatternPart.ofChar c).admits d && fits) text ends.tail ++
          [false] := by
      by_cases hchar : c = '_' <;> simp [PatternPart.ofChar, htext, hchar, ChartQuery.fitPart]
    rw [hpart]
    refine (h.zipWith _).congr fun t => ?_
    simp only [standsFor_iff, htext, false_or]
    constructor
    · rintro ⟨d, rest, rfl, hd, hP⟩
      exact ⟨[d], rest, rfl, ⟨d, rfl, hd⟩, hP⟩
    · rintro ⟨_, rest, rfl, ⟨d, rfl, hd⟩, hP⟩
      exact ⟨d, rest, rfl, hd, hP⟩

end Marks

/-- The empty pattern marks the end behind the last character only. -/
theorem marks_replicate (text : List Char) :
    Marks (· = []) text (List.replicate text.length false ++ [true]) := by
  induction text with
  | nil => exact .nil (by simp)
  | cons c text ih => exact .cons (by simp) ih

/-- A pattern marks the ends that can be cut for it. -/
theorem marks_fittingEnds (text pattern : List Char) :
    Marks (CanBeCut pattern) text (fittingEnds text (pattern.map PatternPart.ofChar)) := by
  induction pattern with
  | nil => exact (marks_replicate text).congr fun t => canBeCut_nil_iff.symm
  | cons c pattern ih => exact (ih.fitPart c).congr fun t => canBeCut_cons_iff.symm

/-- **A text fits a pattern exactly if it can be cut into pieces**, one for each character of the
pattern: any piece for a percent sign, one character for an underscore, and for every other
character itself. -/
theorem likeText_iff_exists_pieces (pattern text : String) :
    likeText pattern text = true ↔ ∃ pieces : List (List Char),
      pieces.flatten = text.toList ∧ List.Forall₂ StandsFor pattern.toList pieces :=
  (marks_fittingEnds text.toList pattern.toList).headD_iff

/-- Several percent signs, a line break, and characters that are marks elsewhere. -/
example : likeText "%(_.%\n%]" "a((*.?\nb\n]" = true := by decide

end ChartQuery
