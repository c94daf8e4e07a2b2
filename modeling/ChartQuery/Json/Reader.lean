import ChartQuery.Text.Digit
import ChartQuery.Value.Basic

/-!
# Reading JSON

A JSON text is read into a value. Whole numbers have any size, numbers with a fraction or an
exponent are doubles, the words `NaN` and `Infinity` are accepted, and of two equal keys the later
value counts. A text that is no JSON is refused at the place where reading cannot go on. Reading may
be limited in the digits of whole numbers and in the depth of values, and ends where it meets more.

## Main definitions

* `Json.Limits`: how many digits and which depth are read
* `Json.Fault`: why a text is not read
* `Json.read limits s`: the value of a JSON text, or the fault

Every reader works on the characters that are left.
-/

namespace ChartQuery.Json

/-- How many digits of a whole number and which depth of a value are read; none is no limit. -/
structure Limits where
  digits : Option Nat
  depth : Option Nat
  deriving DecidableEq, Repr

/-- No limits. -/
def Limits.none : Limits := ⟨.none, .none⟩

/-- The limits of what the service reads. -/
def Limits.usual : Limits := ⟨some maxIntDigits, some 950⟩

/-- Why a text is not read: it is no JSON from some place on, or exceeds a limit. A place is given
by the number of characters, in a reader by that of the characters left. -/
inductive Fault where
  | malformed (characters : Nat)
  | tooManyDigits
  | tooDeep
  deriving DecidableEq, Repr

/-- A reader: the characters left before to a result and the characters left after, or the fault. -/
abbrev Reader (α : Type) := List Char → Except Fault (α × List Char)

/-- A fault in front of the given characters. -/
def faultAt {α : Type} (cs : List Char) : Except Fault α := .error (.malformed cs.length)

/-- The value lies within a limit. -/
def isWithin (n : Nat) : Option Nat → Bool
  | some most => n ≤ most
  | none => true

/-- White space of JSON. -/
def isSpace (c : Char) : Bool := c == ' ' || c == '\t' || c == '\n' || c == '\r'

/-- Skips white space. -/
def skipSpaces (cs : List Char) : List Char := cs.dropWhile isSpace

/-! ## Strings -/

/-- The number written by four hexadecimal digits that do not end the text. -/
def fourHex? : List Char → Option (Nat × List Char)
  | a :: b :: c :: d :: r => do
    if r.isEmpty then none
    else
      let a ← Text.hexValue? a
      let b ← Text.hexValue? b
      let c ← Text.hexValue? c
      let d ← Text.hexValue? d
      some (((a * 16 + b) * 16 + c) * 16 + d, r)
  | _ => none

/-- The character of a code unit; half of a pair alone stands for the replacement character. -/
def unitChar (n : Nat) : Char :=
  if 0xD800 ≤ n && n < 0xE000 then Char.ofNat 0xFFFD else Char.ofNat n

/-- The character of an escape by number, after its letter: one unit or a pair of them. -/
def unicodeEscape? (cs : List Char) : Option (Except Fault (Char × List Char)) :=
  match fourHex? cs with
  | none => none
  | some (high, r) =>
    if 0xD800 ≤ high && high < 0xDC00 then
      match r with
      | a :: u :: r' =>
        if a.toNat = 0x5C && u = 'u' && 5 ≤ r'.length then
          match fourHex? r' with
          | some (low, rest) =>
            if 0xDC00 ≤ low && low < 0xE000 then
              some (.ok (Char.ofNat (0x10000 + (high - 0xD800) * 0x400 + (low - 0xDC00)), rest))
            else some (.ok (unitChar high, r))
          | none => some (faultAt (u :: r'))
        else some (.ok (unitChar high, r))
      | _ => some (.ok (unitChar high, r))
    else some (.ok (unitChar high, r))

/-- The character that a single-letter escape stands for. -/
def plainEscape? (c : Char) : Option Char :=
  if c.toNat = 0x22 || c.toNat = 0x5C || c = '/' then some c
  else if c = 'b' then some (Char.ofNat 8)
  else if c = 'f' then some (Char.ofNat 12)
  else if c = 'n' then some (Char.ofNat 10)
  else if c = 'r' then some (Char.ofNat 13)
  else if c = 't' then some (Char.ofNat 9)
  else none

/-- The rest of a string behind its opening quote, of which `start` characters were left;
`done` holds the characters read, the last one first. -/
def stringRest (start : Nat) : Nat → List Char → Reader String
  | 0, _, _ => .error (.malformed start)
  | _ + 1, _, [] => .error (.malformed start)
  | fuel + 1, done, c :: r =>
    if c.toNat = 0x22 then .ok (String.ofList done.reverse, r)
    else if c.toNat ≤ 0x1F then faultAt (c :: r)
    else if c.toNat = 0x5C then
      match r with
      | [] => .error (.malformed start)
      | e :: r' =>
        if e = 'u' then
          match unicodeEscape? r' with
          | some (.ok (x, rest)) => stringRest start fuel (x :: done) rest
          | some (.error fault) => .error fault
          | none => faultAt (e :: r')
        else match plainEscape? e with
          | some x => stringRest start fuel (x :: done) r'
          | none => faultAt (c :: r)
    else stringRest start fuel (c :: done) r

/-- A string behind its opening quote. -/
def readString : Reader String := fun cs =>
  stringRest (cs.length + 1) (cs.length + 1) [] cs

/-! ## Numbers -/

/-- The digits of the whole part of a number: a single zero, or a row that starts otherwise. -/
def wholeDigits? : List Char → Option (List Char × List Char)
  | [] => none
  | c :: r =>
    if c = '0' then some ([c], r)
    else if c.isDigit then
      some (c :: r.takeWhile Char.isDigit, r.dropWhile Char.isDigit)
    else none

/-- A fraction: a point with at least one digit behind it. -/
def fractionDigits : List Char → List Char × List Char
  | '.' :: r =>
    match r.takeWhile Char.isDigit with
    | [] => ([], '.' :: r)
    | ds => (ds, r.dropWhile Char.isDigit)
  | cs => ([], cs)

/-- An exponent: its mark, a sign and at least one digit. -/
def exponentPart (cs : List Char) : Option Int × List Char :=
  match cs with
  | [] => (none, cs)
  | e :: r =>
    if e = 'e' || e = 'E' then
      let (negative, r) := readSign r
      match r.takeWhile Char.isDigit with
      | [] => (none, cs)
      | ds =>
        let n := digitsValue ds
        (some (if negative then -(n : Int) else n), r.dropWhile Char.isDigit)
    else (none, cs)

/-- A number; `start` are the characters left in front of its sign. -/
def readNumber (limits : Limits) (start : List Char) (negative : Bool) : Reader Value := fun cs =>
  match wholeDigits? cs with
  | none => faultAt start
  | some (whole, rest) =>
    let (fraction, rest) := fractionDigits rest
    let (exponent, rest) := exponentPart rest
    if fraction.isEmpty && exponent.isNone then
      if isWithin whole.length limits.digits then
        let n := digitsValue whole
        .ok (.int (if negative then -(n : Int) else n), rest)
      else .error .tooManyDigits
    else
      .ok (.float (Binary64.ofDecimal negative (digitsValue (whole ++ fraction))
        (exponent.getD 0 - fraction.length)), rest)

/-! ## Values -/

/-- The words that stand for values. -/
def words : List (String × Value) :=
  [("null", .null), ("true", .bool true), ("false", .bool false), ("NaN", .float .nan),
    ("Infinity", .float (.infinite false)), ("-Infinity", .float (.infinite true))]

/-- The value of a word in front. -/
def readWord? (cs : List Char) : Option (Value × List Char) :=
  words.findSome? fun (w, v) =>
    if w.toList.isPrefixOf cs then some (v, cs.drop w.length) else none

mutual

/-- A value in front, at a depth that starts with one. -/
def readValue (limits : Limits) (depth : Nat) : Nat → Reader Value
  | 0, cs => faultAt cs
  | fuel + 1, cs =>
    match cs with
    | [] => faultAt cs
    | c :: r =>
      if c.toNat = 0x22 then (readString r).map fun (s, rest) => (.text s, rest)
      else if c.toNat = 0x7B then
        let r := skipSpaces r
        if !isWithin depth limits.depth then .error .tooDeep
        else match r with
          | [] => faultAt r
          | d :: r' =>
            if d.toNat = 0x7D then .ok (.object [], r')
            else (readFields limits (depth + 1) fuel [] r).map fun (fs, rest) => (.object fs, rest)
      else if c = '[' then
        let r := skipSpaces r
        if !isWithin depth limits.depth then .error .tooDeep
        else match r with
          | [] => faultAt r
          | d :: r' =>
            if d = ']' then .ok (.list [], r')
            else (readItems limits (depth + 1) fuel r).map fun (xs, rest) => (.list xs, rest)
      else match readWord? cs with
        | some w => .ok w
        | none => if c = '-' then readNumber limits cs true r else readNumber limits cs false cs

/-- The items of a list up to its end. -/
def readItems (limits : Limits) (depth : Nat) : Nat → Reader (List Value)
  | 0, cs => faultAt cs
  | fuel + 1, cs => do
    let (v, rest) ← readValue limits depth fuel cs
    let rest := skipSpaces rest
    match rest with
    | ']' :: r => .ok ([v], r)
    | ',' :: r =>
      let (vs, rest) ← readItems limits depth fuel (skipSpaces r)
      .ok (v :: vs, rest)
    | _ => faultAt rest

/-- The fields of an object up to its end. -/
def readFields (limits : Limits) (depth : Nat) : Nat → Record → Reader Record
  | 0, _, cs => faultAt cs
  | fuel + 1, done, cs =>
    match cs with
    | [] => faultAt cs
    | c :: r =>
      if c.toNat ≠ 0x22 then faultAt cs
      else do
        let (key, rest) ← readString r
        let rest := skipSpaces rest
        match rest with
        | ':' :: r =>
          let (v, rest) ← readValue limits depth fuel (skipSpaces r)
          let rest := skipSpaces rest
          let done := done.put key v
          match rest with
          | ',' :: r => readFields limits depth fuel done (skipSpaces r)
          | d :: r => if d.toNat = 0x7D then .ok (done, r) else faultAt rest
          | [] => faultAt rest
        | _ => faultAt rest

end

/-- The value of a JSON text, or why it is not read. -/
def read (limits : Limits) (s : String) : Except Fault Value :=
  let cs := s.toList
  let result : Except Fault Value := do
    let (v, rest) ← readValue limits 1 (cs.length + 1) (skipSpaces cs)
    let rest := skipSpaces rest
    if rest.isEmpty then .ok v else faultAt rest
  result.mapError fun
    | .malformed left => .malformed (cs.length - left)
    | fault => fault

end ChartQuery.Json
