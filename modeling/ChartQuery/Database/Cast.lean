import ChartQuery.Database.ColumnType
import ChartQuery.Database.DateText
import ChartQuery.Number.Whole
import ChartQuery.Value.Compare

/-!
# Values of other types

A database makes a value of one type a value of another: a text is read as what it writes, numbers
are rounded to the places that their type has, and anything can be written as a text.

## Main definitions

* `ColumnType.read?`: the value of a type that a text writes
* `ColumnType.cast?`: a value made one of a type
* `ColumnType.store`: a value as a column of a type holds it
-/

namespace ChartQuery

open Written (isSpace)

/-! ## Numbers as texts -/

/-- The characters of a text without the white space around them. -/
def withoutSpaces (s : String) : List Char :=
  ((s.toList.dropWhile isSpace).reverse.dropWhile isSpace).reverse

/-- A decimal number: its sign, its digits without the point, and the place of the last one. -/
def decimalParts? (s : String) : Option (Bool × Nat × Int) := do
  let (negative, r) := readSign (← dropUnderscores? false (withoutSpaces s))
  let whole := r.takeWhile Char.isDigit
  let rest := r.dropWhile Char.isDigit
  let (fraction, rest) := match rest with
    | '.' :: r => (r.takeWhile Char.isDigit, r.dropWhile Char.isDigit)
    | r => ([], r)
  if whole.isEmpty && fraction.isEmpty then none
  else
    let e ← readExponent? rest
    let digits := digitsValue (whole ++ fraction)
    if digits = 0 || e < -400 then some (negative, 0, 0)
    else if 400 < e then none
    else some (negative, digits, e - fraction.length)

/-- A quotient rounded to the nearest whole number, a half away from zero. -/
def roundAway (n d : Nat) : Nat := (2 * n + d) / (2 * d)

/-- The digits of a number at a scale. -/
def atScale (digits : Nat) (exponent : Int) (scale : Nat) : Nat :=
  let e := exponent + scale
  if 0 ≤ e then digits * Nat.pow 10 e.toNat else roundAway digits (Nat.pow 10 (-e).toNat)

/-- The number that a text writes, at a scale. -/
def readAtScale? (scale : Nat) (s : String) : Option Int :=
  (decimalParts? s).map fun (negative, digits, exponent) =>
    let n : Int := atScale digits exponent scale
    if negative then -n else n

/-- The value of a digit of a base. -/
def digitInBase? (base : Nat) (c : Char) : Option Nat :=
  (Text.hexValue? c).filter (· < base)

/-- The value of digits of a base behind the value of others; single underscores may stand between
them. -/
def digitsInBase? (base : Nat) (afterDigit : Bool) (n : Nat) : List Char → Option Nat
  | [] => if afterDigit then some n else none
  | c :: r =>
    match digitInBase? base c with
    | some d => digitsInBase? base true (n * base + d) r
    | none => if c = '_' && afterDigit then digitsInBase? base false n r else none

/-- The whole number that a text writes: a decimal that is rounded, or digits of base 16 or 2 behind
their mark. -/
def readWhole? (s : String) : Option Int :=
  match s.toList.dropWhile isSpace with
  | '0' :: mark :: r =>
    if mark = 'x' || mark = 'X' then (digitsInBase? 16 false 0 r).map Int.ofNat
    else if mark = 'b' || mark = 'B' then (digitsInBase? 2 false 0 r).map Int.ofNat
    else readAtScale? 0 s
  | _ => readAtScale? 0 s

/-- The double that a text writes. -/
def readDouble? (s : String) : Option Binary64 := do
  let cs ← dropUnderscores? false (withoutSpaces s)
  readBinary64Chars? (if cs.head? = some '+' then cs.drop 1 else cs)

/-- The words for truth values. -/
def truthWords : List (String × Bool) :=
  [("true", true), ("t", true), ("1", true), ("yes", true), ("y", true), ("false", false),
    ("f", false), ("0", false), ("no", false), ("n", false)]

namespace ColumnType

/-! ## Whole numbers and decimals -/

/-- The whole number lies in the range of a type of whole numbers. -/
def isInRange : ColumnType → Int → Bool
  | integer, n => -2147483648 ≤ n && n < 2147483648
  | bigint, n => isSignedWord n
  | hugeint, n => n.natAbs < 170141183460469231731687303715884105728
  | _, _ => false

/-- A whole number as a value of a type of whole numbers. -/
def whole? (t : ColumnType) (n : Int) : Option Value :=
  if t.isInRange n then some (.int n) else none

/-- Digits as a decimal, if they are not more than its width. -/
def decimal? (width scale : Nat) (digits : Int) : Option Value :=
  if digits.natAbs < Nat.pow 10 width then some (.decimal digits scale) else none

/-! ## Texts -/

/-- The value of a type that a text writes. -/
def read? : ColumnType → String → Option Value
  | integer, s => readWhole? s >>= whole? integer
  | bigint, s => readWhole? s >>= whole? bigint
  | hugeint, s => readWhole? s >>= whole? hugeint
  | double, s => (readDouble? s).map .float
  | single, s => (readDouble? s).map fun x => .float x.toSingle
  | varchar, s => some (.text s)
  | date, s => (DayText.read? s).map DayText.value
  | timestamp, s => (ClockTime.read? s >>= ClockTime.timestamp?).map .timestamp
  | boolean, s => (truthWords.lookup (Text.asciiLower s)).map .bool
  | decimal w scale, s => readAtScale? scale s >>= decimal? w scale
  | other _, _ => none

end ColumnType

/-! ## Writing -/

/-- The digits of a fraction without the zeros at its end. -/
def withoutFinalZeros (s : String) : String :=
  String.ofList (s.toList.reverse.dropWhile (· == '0')).reverse

open CalendarDate (padded) in
/-- A timestamp as a text: a fraction only if it is not zero, and no offset. -/
def Timestamp.storedText (t : Timestamp) : String :=
  t.date.isoText ++ " " ++ padded 2 t.hour ++ ":" ++ padded 2 t.minute ++ ":" ++
    padded 2 t.second ++
    (if t.micro = 0 then "" else "." ++ withoutFinalZeros (padded 6 t.micro))

/-- The characters for which a text stands in quotes within another value. -/
def markedChars : List Char :=
  ['(', ')', ',', ':', '=', '[', ']', '"', Text.apostrophe, Text.backslash, '\x7b', '\x7d']

/-- A text as it stands within another value: in quotes where it could be misread. -/
def nestedText (s : String) : String :=
  let cs := s.toList
  let isMarked (c : Char) : Bool := c == Text.apostrophe || c == Text.backslash
  if cs.isEmpty || cs.head? == some ' ' || cs.getLast? == some ' ' || cs.any markedChars.contains ||
      Text.asciiLower s == "null" then
    String.ofList (Text.apostrophe ::
      cs.flatMap (fun c => if isMarked c then [Text.backslash, c] else [c]) ++ [Text.apostrophe])
  else s

namespace Value

mutual

/-- A value as a text. -/
def storedText : Value → String
  | null => "NULL"
  | bool b => if b then "true" else "false"
  | timestamp t => t.storedText
  | list items => "[" ++ ", ".intercalate (storedTexts items) ++ "]"
  | object fields => "\x7b" ++ ", ".intercalate (storedFields fields) ++ "\x7d"
  | v => v.plain

/-- The items of a list as texts. -/
def storedTexts : List Value → List String
  | [] => []
  | text s :: vs => nestedText s :: storedTexts vs
  | v :: vs => storedText v :: storedTexts vs

/-- The fields of an object as texts. -/
def storedFields : List (String × Value) → List String
  | [] => []
  | (k, text s) :: fs => (Text.quoted k ++ ": " ++ nestedText s) :: storedFields fs
  | (k, v) :: fs => (Text.quoted k ++ ": " ++ storedText v) :: storedFields fs

end

/-- The timestamp in universal time that a value is, or begins with. -/
def universal? : Value → Option Timestamp
  | date d => some (.midnight d)
  | timestamp t => (Timestamp.ofClockMicros? t.instant).toOption
  | _ => none

end Value

/-! ## Casts -/

namespace ColumnType

/-- A whole number made a value of a type. -/
def ofInt? (t : ColumnType) (n : Int) : Option Value :=
  match t with
  | integer | bigint | hugeint => t.whole? n
  | double => some (.float (.ofInt n))
  | single => some (.float (Binary64.ofInt n).toSingle)
  | boolean => some (.bool (n != 0))
  | decimal w s => decimal? w s (n * Nat.pow 10 s)
  | varchar => some (.text (toString n))
  | date | timestamp | other _ => none

/-- A double made a value of a type. -/
def ofDouble? (t : ColumnType) (x : Binary64) : Option Value :=
  match t with
  | integer | bigint | hugeint => x.round? >>= t.whole?
  | double => some (.float x)
  | single => some (.float x.toSingle)
  | boolean => some (.bool !x.isZero)
  | decimal w s => (x.scaled s).round? >>= decimal? w s
  | varchar => some (.text x.text)
  | date | timestamp | other _ => none

/-- A decimal made a value of a type. -/
def ofDecimal? (t : ColumnType) (digits : Int) (places : Nat) : Option Value :=
  let rounded (scale : Nat) : Int :=
    let n : Int := atScale digits.natAbs (-(places : Int)) scale
    if digits < 0 then -n else n
  let x := Binary64.ofDecimal (digits < 0) digits.natAbs (-(places : Int))
  match t with
  | integer | bigint | hugeint => t.whole? (rounded 0)
  | double => some (.float x)
  | single => some (.float x.toSingle)
  | boolean => some (.bool (digits != 0))
  | decimal w s => decimal? w s (rounded s)
  | varchar => some (.text (decimalText digits places))
  | date | timestamp | other _ => none

/-- A value made one of a type. -/
def cast? (t : ColumnType) (v : Value) : Option Value :=
  match v with
  | .null => some .null
  | .text s => t.read? s
  | .bool b => if t = varchar then some (.text (Value.bool b).storedText) else
    t.ofInt? (if b then 1 else 0)
  | .int n => t.ofInt? n
  | .float x => t.ofDouble? x
  | .decimal digits scale => t.ofDecimal? digits scale
  | v =>
    match t with
    | date => v.universal?.map fun t => .date t.date
    | timestamp => v.universal?.map .timestamp
    | varchar => some (.text v.storedText)
    | _ => none

/-- A value as a column of a type holds it; null where it is no such value. -/
def store (t : ColumnType) (v : Value) : Value :=
  match t with
  | other _ => v
  | t => (t.cast? v).getD .null

end ColumnType

end ChartQuery
