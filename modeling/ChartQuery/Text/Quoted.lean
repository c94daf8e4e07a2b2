import ChartQuery.Text.Printable

/-!
# Quoted text

A text in quotes, every unprintable character written as an escape. Apostrophes enclose it, unless
it contains an apostrophe and no double quote.

## Main definitions

* `escapeChar quote c`: the written form of one character inside quotes
* `quoted s`: the text in quotes
* `inApostrophes s`: the text in apostrophes, as it is
-/

namespace ChartQuery.Text

/-- The apostrophe. -/
def apostrophe : Char := Char.ofNat 0x27

/-- The double quote. -/
def doubleQuote : Char := Char.ofNat 0x22

/-- The backslash. -/
def backslash : Char := Char.ofNat 0x5C

/-- The hexadecimal digits of a number, at least `width` of them. -/
def hexDigits (width n : Nat) : List Char :=
  let ds := Nat.toDigits 16 n
  List.replicate (width - ds.length) '0' ++ ds

/-- The written form of one character inside quotes. -/
def escapeChar (quote c : Char) : List Char :=
  let n := c.toNat
  if c = quote || c = backslash then [backslash, c]
  else if n = 10 then [backslash, 'n']
  else if n = 13 then [backslash, 'r']
  else if n = 9 then [backslash, 't']
  else if isPrintable c then [c]
  else if n < 0x100 then backslash :: 'x' :: hexDigits 2 n
  else if n < 0x10000 then backslash :: 'u' :: hexDigits 4 n
  else backslash :: 'U' :: hexDigits 8 n

/-- The quote that encloses a text. -/
def enclosingQuote (cs : List Char) : Char :=
  if cs.contains apostrophe && !cs.contains doubleQuote then doubleQuote else apostrophe

/-- The text in quotes. -/
def quoted (s : String) : String :=
  let cs := s.toList
  let q := enclosingQuote cs
  String.ofList (q :: cs.flatMap (escapeChar q) ++ [q])

/-- The text in apostrophes, as messages show it; nothing in it is escaped. -/
def inApostrophes (s : String) : String := String.ofList (apostrophe :: s.toList ++ [apostrophe])

end ChartQuery.Text
