import ChartQuery.Text.Utf8

/-!
# Encodings of a text

Bytes are read in UTF-8, unless null bytes among the first of them show that every character takes
two or four bytes.

## Main definitions

* `Text.Encoding`: how bytes encode characters
* `Text.Encoding.ofBytes`: the encoding that the first bytes show
* `Text.decode?`: the characters of bytes, if they are the encoding of any
-/

namespace ChartQuery.Text

/-- How bytes encode characters: in units of one, two or four bytes, the greater ones with the most
significant byte first or last. -/
inductive Encoding where
  | utf8
  | utf16 (mostFirst : Bool)
  | utf32 (mostFirst : Bool)
  deriving DecidableEq, Repr

/-- The encoding that the first bytes show, when the first characters are ASCII. -/
def Encoding.ofBytes : List Nat → Encoding
  | [a, b] => if a = 0 then utf16 true else if b = 0 then utf16 false else utf8
  | a :: b :: c :: d :: _ =>
    if a = 0 then (if b = 0 then utf32 true else utf16 true)
    else if b = 0 then (if c = 0 && d = 0 then utf32 false else utf16 false)
    else utf8
  | _ => utf8

/-- The numbers of units of two bytes; none for an odd number of bytes. -/
def pairs? (mostFirst : Bool) : List Nat → Option (List Nat)
  | [] => some []
  | [_] => none
  | a :: b :: bs =>
    (pairs? mostFirst bs).map ((if mostFirst then a * 256 + b else b * 256 + a) :: ·)

/-- The numbers of units of four bytes. -/
def quads? (mostFirst : Bool) (bs : List Nat) : Option (List Nat) :=
  (pairs? mostFirst bs).bind joined
where
  /-- The numbers of two units each. -/
  joined : List Nat → Option (List Nat)
    | [] => some []
    | [_] => none
    | a :: b :: ns =>
      (joined ns).map ((if mostFirst then a * 65536 + b else b * 65536 + a) :: ·)

/-- The number is half of a pair of units. -/
def isHalf (n : Nat) : Bool := 0xD800 ≤ n && n < 0xE000

/-- The character of a number; what is half of a pair alone stands for the replacement character. -/
def unitChar (n : Nat) : Char := if isHalf n then replacement else Char.ofNat n

/-- The characters of units of two bytes. -/
def ofUnits : List Nat → List Char
  | a :: b :: ns =>
    if a < 0xDC00 && isHalf a && 0xDC00 ≤ b && isHalf b then
      Char.ofNat (0x10000 + (a - 0xD800) * 0x400 + (b - 0xDC00)) :: ofUnits ns
    else unitChar a :: ofUnits (b :: ns)
  | [a] => [unitChar a]
  | [] => []

/-- The mark that may stand in front of a text in UTF-8. -/
def byteOrderMark : Char := Char.ofNat 0xFEFF

/-- The characters behind a mark in front. -/
def withoutMark : List Char → List Char
  | c :: cs => if c = byteOrderMark then cs else c :: cs
  | [] => []

/-- The characters of bytes, if they are the encoding of any. -/
def decode? (bs : List Nat) : Option (List Char) :=
  match Encoding.ofBytes bs with
  | .utf8 => some (withoutMark (ofUtf8 bs))
  | .utf16 mostFirst => (pairs? mostFirst bs).map ofUnits
  | .utf32 mostFirst =>
    (quads? mostFirst bs).bind fun ns =>
      if ns.all (· < 0x110000) then some (ns.map unitChar) else none

end ChartQuery.Text
