import ChartQuery.Entries
import ChartQuery.Text.Digit
import ChartQuery.Text.Utf8

/-!
# The query of a request

A query is a row of fields, divided by ampersands, each a name and a value divided by the first
equals sign. A plus sign stands for a space, and a percent sign with two hexadecimal digits for a
byte.

## Main definitions

* `Http.unescape`: the text that an escaped text stands for
* `Http.queryFields`: the fields of a query
* `Http.queryField?`: the value of a field; of several of one name the last counts
-/

namespace ChartQuery.Http

/-- A part of an escaped text: a byte of an encoding, or a character as it stands. -/
inductive Piece where
  | byte (n : Nat)
  | char (c : Char)

/-- A character as it stands: ASCII is its own byte; of any other, which a query should not hold,
the bytes of its encoding are taken for one character each. -/
def plainPieces (c : Char) : List Piece :=
  if c.toNat < 0x80 then [.byte c.toNat] else (Text.toUtf8 c).map fun b => .char (Char.ofNat b)

/-- The parts of an escaped text. -/
def pieces : List Char → List Piece
  | [] => []
  | [c] => plainPieces c
  | [c, d] => plainPieces c ++ plainPieces d
  | c :: a :: b :: rest =>
    if c = '%' then
      match Text.hexValue? a, Text.hexValue? b with
      | some x, some y => .byte (x * 16 + y) :: pieces rest
      | _, _ => plainPieces c ++ pieces (a :: b :: rest)
    else plainPieces c ++ pieces (a :: b :: rest)

/-- The characters of parts: bytes in a row are read together, of which those that came before are
given, the last one first. -/
def joinPieces (run : List Nat) : List Piece → List Char
  | [] => Text.ofUtf8 run.reverse
  | .byte b :: ps => joinPieces (b :: run) ps
  | .char c :: ps => Text.ofUtf8 run.reverse ++ c :: joinPieces [] ps

/-- The text that an escaped text stands for. -/
def unescape (cs : List Char) : String :=
  String.ofList (joinPieces [] (pieces (cs.map fun c => if c = '+' then ' ' else c)))

/-! ## Fields -/

/-- A field: what stands before the first equals sign, and what stands behind it. -/
def queryFieldOf (s : String) : String × String :=
  let cs := s.toList
  (unescape (cs.takeWhile (· ≠ '=')), unescape ((cs.dropWhile (· ≠ '=')).drop 1))

/-- The fields of a query; an empty one counts for nothing. -/
def queryFields (query : String) : Entries String :=
  ((query.splitOn "&").filter fun s => !s.isEmpty).map queryFieldOf

/-- The value of a field; of several of one name the last counts. -/
def queryField? (query name : String) : Option String := (queryFields query).reverse.lookup name

end ChartQuery.Http
