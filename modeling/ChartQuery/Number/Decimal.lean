import ChartQuery.Number.Binary64
import ChartQuery.Text.Blank
import ChartQuery.Text.Digit

/-!
# Decimal texts of numbers

Numbers are read from decimal texts with digits of any script, single underscores between digits
and blanks around them, and a double is written with the fewest digits that read back as it.

## Main definitions

* `readInt? s`: the whole number written by a text
* `readBinary64? s`: the double nearest to the decimal written by a text
* `Binary64.shortest m`: the fewest digits, and their exponent, that read back as `m` units
* `Binary64.text x`: the written form of a double
-/

namespace ChartQuery

open Text

/-! ## Preparing a text -/

/-- Blanks allowed around a number: every blank but the four control separators. -/
def isNumberBlank (c : Char) : Bool :=
  isBlank c && !(28 ≤ c.toNat && c.toNat ≤ 31)

/-- A digit of any script as its ASCII digit. -/
def asciiDigit (c : Char) : Char :=
  match digitValue? c with
  | some d => Char.ofNat (0x30 + d)
  | none => c

/-- Removes the underscores of a number, each of which has to stand between two digits. -/
def dropUnderscores? : Bool → List Char → Option (List Char)
  | _, [] => some []
  | afterDigit, c :: r =>
    if c = '_' then
      match r with
      | d :: _ => if afterDigit && d.isDigit then dropUnderscores? false r else none
      | [] => none
    else (dropUnderscores? c.isDigit r).map (c :: ·)

/-- The characters of a number without blanks around it, digits of other scripts and
underscores. -/
def numberChars? (s : String) : Option (List Char) :=
  let front := s.toList.dropWhile isNumberBlank
  let core := (front.reverse.dropWhile isNumberBlank).reverse
  dropUnderscores? false (core.map asciiDigit)

/-- The value of a row of ASCII digits. -/
def digitsValue (cs : List Char) : Nat :=
  cs.foldl (fun n c => 10 * n + (c.toNat - 0x30)) 0

/-- A sign in front, and the rest. -/
def readSign : List Char → Bool × List Char
  | '-' :: r => (true, r)
  | '+' :: r => (false, r)
  | r => (false, r)

/-! ## Whole numbers -/

/-- The most digits a whole number may be written with. -/
def maxIntDigits : Nat := 4300

/-- The whole number written by a text. -/
def readInt? (s : String) : Option Int := do
  let (negative, digits) := readSign (← numberChars? s)
  if digits.isEmpty || !digits.all Char.isDigit || maxIntDigits < digits.length then none
  else
    let n := digitsValue digits
    some (if negative then -(n : Int) else n)

/-! ## Doubles -/

/-- The double nearest to `digits · 10 ^ exponent`. -/
def Binary64.ofDecimal (negative : Bool) (digits : Nat) (exponent : Int) : Binary64 :=
  if digits = 0 then .finite negative 0
  else
    let size := (toString digits).length + exponent
    if 400 < size then .infinite negative
    else if size < -400 then .finite negative 0
    else if 0 ≤ exponent then
      ofQuotient negative (digits * Nat.pow 10 exponent.toNat * one) 1
    else ofQuotient negative (digits * one) (Nat.pow 10 (-exponent).toNat)

/-- The exponent at the end of a decimal: none written is zero. -/
def readExponent? : List Char → Option Int
  | [] => some 0
  | e :: r =>
    if e = 'e' || e = 'E' then
      let (negative, digits) := readSign r
      if digits.isEmpty || !digits.all Char.isDigit then none
      else
        let n := digitsValue digits
        some (if negative then -(n : Int) else n)
    else none

/-- The magnitude of a decimal: digits, a point, digits and an exponent. -/
def readMagnitude? (negative : Bool) (cs : List Char) : Option Binary64 :=
  let whole := cs.takeWhile Char.isDigit
  let rest := cs.dropWhile Char.isDigit
  let (fraction, rest) := match rest with
    | '.' :: r => (r.takeWhile Char.isDigit, r.dropWhile Char.isDigit)
    | r => ([], r)
  if whole.isEmpty && fraction.isEmpty then none
  else (readExponent? rest).map fun e =>
    Binary64.ofDecimal negative (digitsValue (whole ++ fraction)) (e - fraction.length)

/-- The double written by prepared characters: a decimal, an infinity or not a number. -/
def readBinary64Chars? (cs : List Char) : Option Binary64 :=
  let (negative, r) := readSign cs
  let word := String.ofList (r.map Char.toLower)
  if word = "inf" || word = "infinity" then some (.infinite negative)
  else if word = "nan" then some .nan
  else readMagnitude? negative r

/-- The double nearest to the decimal written by a text. -/
def readBinary64? (s : String) : Option Binary64 :=
  numberChars? s >>= readBinary64Chars?

/-! ## Writing -/

namespace Binary64

/-- The exponent of the leading decimal digit of a positive number of units. -/
def leadingExponent (units : Nat) : Int :=
  (toString (units * Nat.pow 10 400 / one)).length - 1 - 400

/-- The number of units that stand at the decimal place `p`, rounded down, and twice the comparison
of the rest with half a place. -/
def atPlace (units : Nat) (p : Int) : Nat × Ordering :=
  let (n, d) :=
    if 0 ≤ p then (units, one * Nat.pow 10 p.toNat) else (units * Nat.pow 10 (-p).toNat, one)
  (n / d, compare (2 * (n % d)) d)

/-- The neighbour of a number of units on the decimal grid of place `p` that reads back as it: of
two the nearer, of two equally near the even one. -/
def readsBack? (units : Nat) (p : Int) : Option Nat :=
  let (q, half) := atPlace units p
  let back (k : Nat) : Bool := ofDecimal false k p == .finite false units
  let upperFirst := half == .gt || (half == .eq && q % 2 == 1)
  match back q, back (q + 1) with
  | true, true => some (if upperFirst then q + 1 else q)
  | true, false => some q
  | false, true => some (q + 1)
  | false, false => none

/-- The fewest digits that read back as a number of units, with the exponent of the last one. -/
def shortest (units : Nat) : Nat × Int :=
  let top := leadingExponent units
  let places := (List.range 17).map fun (k : Nat) => top - (k : Int)
  match places.findSome? fun p => (readsBack? units p).map (·, p) with
  | some r => r
  | none => ((atPlace units (top - 16)).1, top - 16)

/-- Digits and exponent with the zeros at the end moved into the exponent. -/
def stripZeros : Nat → Nat → Int → Nat × Int
  | 0, digits, exponent => (digits, exponent)
  | fuel + 1, digits, exponent =>
    if digits % 10 = 0 && digits ≠ 0 then stripZeros fuel (digits / 10) (exponent + 1)
    else (digits, exponent)

/-- The exponents of a leading digit between which a number is written without an exponent. -/
def isPositional (exponent : Int) : Bool := -4 ≤ exponent && exponent < 16

/-- The exponent mark: a sign and at least two digits. -/
def exponentText (e : Int) : String :=
  let digits := toString e.natAbs
  let padded := if digits.length < 2 then "0" ++ digits else digits
  (if e < 0 then "e-" else "e+") ++ padded

/-- A magnitude written with its shortest digits. -/
def magnitudeText (units : Nat) : String :=
  let (digits, exponent) :=
    let (d, e) := shortest units
    stripZeros 20 d e
  let ds := toString digits
  let lead := exponent + ds.length - 1
  let zeros (n : Int) : String := String.ofList (List.replicate n.toNat '0')
  if isPositional lead then
    if 0 ≤ exponent then ds ++ zeros exponent ++ ".0"
    else if 0 ≤ lead then
      let cut := (lead + 1).toNat
      String.ofList (ds.toList.take cut) ++ "." ++ String.ofList (ds.toList.drop cut)
    else "0." ++ zeros (-lead - 1) ++ ds
  else
    let rest := String.ofList (ds.toList.drop 1)
    String.ofList (ds.toList.take 1) ++ (if rest.isEmpty then "" else "." ++ rest) ++
      exponentText lead

/-- The written form of a double: the fewest digits that read back, at least one of them after the
point, with an exponent below 0.0001 and from 10¹⁶ on. -/
def text : Binary64 → String
  | .nan => "nan"
  | .infinite a => if a then "-inf" else "inf"
  | .finite a 0 => if a then "-0.0" else "0.0"
  | .finite a m => (if a then "-" else "") ++ magnitudeText m

end Binary64

end ChartQuery
