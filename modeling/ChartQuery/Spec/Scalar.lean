import ChartQuery.Number.Decimal
import ChartQuery.Number.Whole
import ChartQuery.Spec.Issue

/-!
# Reading the parts of a request

Texts, whole numbers, truth values and lists of a request are read with some leniency: a whole
number may be a text or a double without fraction, and a truth value a word.

## Main definitions

* `checkText`, `checkInt`, `checkBool`, `checkList`: the readers
-/

namespace ChartQuery

open Text (isBlank)

/-- A text. -/
def checkText : Value → Checked String
  | .text s => .ok s
  | _ => .issue .notText

/-- A list whose items are read one by one. -/
def checkList {α : Type} (check : Value → Checked α) : Value → Checked (List α)
  | .list vs => Checked.items check 0 vs
  | _ => .issue .notList

/-- Null, or what a reader reads. -/
def checkOptional {α : Type} (check : Value → Checked α) : Value → Checked (Option α)
  | .null => .ok none
  | v => (check v).map some

/-- A row of imported data. -/
def checkRecord : Value → Checked Record
  | .object fs => .ok fs
  | _ => .issue .notObject

/-! ## Whole numbers -/

/-- Why a text writes no whole number. -/
inductive WholeFault where
  | malformed
  | tooLong
  deriving DecidableEq, Repr

/-- The whole number of an optional minus sign and digits without zeros in front of them. Sign and
digits together are at most as many as a whole number may be written with. -/
def plainInt? (cs : List Char) : Except WholeFault Int :=
  let negative := cs.head? == some '-'
  let digits := if negative then cs.drop 1 else cs
  let run := digits.takeWhile Char.isDigit
  if run.head? = some '0' then (if digits = ['0'] then .ok 0 else .error .malformed)
  else if maxIntDigits < run.length + (if negative then 1 else 0) then .error .tooLong
  else if run.isEmpty || run.length ≠ digits.length then .error .malformed
  else .ok (if negative then -(digitsValue digits : Int) else digitsValue digits)

/-- The characters of a number without the zeros in front of it, whatever underscores stand among
them. The last of the zeros stays where nothing or a point follows; a minus sign may follow. -/
def withoutZeros? : List Char → Option (List Char)
  | '0' :: r =>
    let zeros := '0' :: r.takeWhile fun c => c == '0' || c == '_'
    match r.dropWhile fun c => c == '0' || c == '_' with
    | [] => some zeros.getLast?.toList
    | '.' :: rest => some (zeros.getLast?.toList ++ '.' :: rest)
    | c :: rest => if c.isDigit || c == '-' then some (c :: rest) else none
  | c :: r => if c.isDigit then some (c :: r) else none
  | [] => none

/-- The characters of a number, without a plus sign and without the zeros in front of it. -/
def withoutFront? : List Char → Option (List Char)
  | '+' :: '-' :: _ => none
  | '+' :: r => withoutZeros? r
  | '-' :: r => (withoutZeros? r).map ('-' :: ·)
  | r => withoutZeros? r

/-- The characters of a whole number without a fraction of zeros. -/
def withoutFraction (cs : List Char) : List Char :=
  match cs.dropWhile (· != '.') with
  | '.' :: c :: r => if (c :: r).all (· == '0') then cs.takeWhile (· != '.') else cs
  | _ => cs

/-- No two underscores stand side by side. -/
def hasSingleUnderscores : List Char → Bool
  | '_' :: '_' :: _ => false
  | _ :: r => hasSingleUnderscores r
  | [] => true

/-- The characters of a whole number without single underscores inside it. -/
def withoutUnderscores (cs : List Char) : List Char :=
  if cs.head? == some '_' || cs.getLast? == some '_' || !hasSingleUnderscores cs then cs
  else cs.filter (· != '_')

/-- The whole number written by a text: a sign, digits with single underscores between them, and a
fraction of zeros. -/
def requestInt? (s : String) : Except WholeFault Int :=
  let front := s.toList.dropWhile isNumberBlank
  let cs := (front.reverse.dropWhile isNumberBlank).reverse
  match plainInt? cs with
  | .error .malformed =>
    match withoutFront? cs with
    | some cs => plainInt? (withoutUnderscores (withoutFraction cs))
    | none => .error .malformed
  | result => result

/-- A whole number: a number, a truth value, a double without fraction, or a text of one. -/
def checkInt : Value → Checked Int
  | .int n => .ok n
  | .bool b => .ok (if b then 1 else 0)
  | .float x =>
    match x.truncate? with
    | none => .issue .notFinite
    | some n =>
      if !x.isWhole then .issue .integerFraction
      else if n.natAbs < 9223372036854775808 then .ok n
      else .issue .integerSize
  | .text s =>
    match requestInt? s with
    | .ok n => .ok n
    | .error .malformed => .issue .integerText
    | .error .tooLong => .issue .integerSize
  | _ => .issue .notInteger

/-! ## Truth values -/

/-- The words for true. -/
def trueWords : List String := ["1", "t", "true", "y", "yes", "on"]

/-- The words for false. -/
def falseWords : List String := ["0", "f", "false", "n", "no", "off"]

/-- The truth value of a whole number, which is a word of 64 bits. -/
def boolOfInt (n : Int) : Checked Bool :=
  if n = 0 then .ok false
  else if n = 1 then .ok true
  else if isSignedWord n then .issue .booleanText
  else .issue .notBoolean

/-- A truth value: itself, zero or one, or a word for it. -/
def checkBool : Value → Checked Bool
  | .bool b => .ok b
  | .int n => boolOfInt n
  | .float x =>
    match x.truncate? with
    | some n => if x.isWhole then boolOfInt n else .issue .notBoolean
    | none => .issue .notBoolean
  | .text s =>
    let w := String.ofList (s.toList.map Char.toLower)
    if trueWords.contains w then .ok true
    else if falseWords.contains w then .ok false
    else .issue .booleanText
  | _ => .issue .notBoolean

end ChartQuery
