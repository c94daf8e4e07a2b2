/-!
# Patterns for text

In a pattern a percent sign stands for any text, an underscore for any one character, and every
other character for itself, in its own case.

## Main definitions

* `PatternPart`: what one character of a pattern stands for
* `likeText pattern text`: the whole text fits the pattern
-/

namespace ChartQuery

/-- What one character of a pattern stands for. -/
inductive PatternPart where
  | anyText
  | anyChar
  | exactly (c : Char)
  deriving DecidableEq, Repr

namespace PatternPart

/-- What a character of a pattern stands for. -/
def ofChar (c : Char) : PatternPart :=
  if c = '%' then anyText else if c = '_' then anyChar else exactly c

/-- The part stands for the character. -/
def admits : PatternPart → Char → Bool
  | anyText, _ => true
  | anyChar, _ => true
  | exactly d, c => c == d

end PatternPart

/-! ## The ends of a text

Whether a pattern fits is decided for all ends of a text at once: the first answer is about the
whole text, the next one about the text without its first character, and the last one about the
empty text. -/

/-- At each end, whether one of the ends from there on is marked. -/
def markedFrom (ends : List Bool) : List Bool :=
  ends.foldr (fun marked rest => (marked || rest.headD false) :: rest) []

/-- The ends that fit a pattern with one more part in front. -/
def fitPart (text : List Char) : PatternPart → List Bool → List Bool
  | .anyText, ends => markedFrom ends
  | part, ends => List.zipWith (fun c fits => part.admits c && fits) text ends.tail ++ [false]

/-- The ends of a text that fit a pattern. -/
def fittingEnds (text : List Char) (pattern : List PatternPart) : List Bool :=
  pattern.foldr (fitPart text) (List.replicate text.length false ++ [true])

/-- The whole text fits the pattern. -/
def likeText (pattern text : String) : Bool :=
  (fittingEnds text.toList (pattern.toList.map PatternPart.ofChar)).headD false

end ChartQuery
