import ChartQuery.Sql.Lexeme
import ChartQuery.Number.Decimal
import ChartQuery.Text.Digit

/-!
# The database's reading of query text

The database cuts a query text into words, quoted names, strings, numbers, parameters and symbols;
comments, which may nest, fall out. It refuses a text in which a string, a quoted name or a comment
is not closed, or a quoted name is empty.

## Main definitions

* `Token`: a token of the database
* `tokens? s`: the tokens of a query text
* `statements ts`: the statements of a text, separated by semicolons
-/

namespace ChartQuery.Sql

open Text (apostrophe doubleQuote backslash hexValue?)

/-- A token of the database. -/
inductive Token where
  /-- A keyword or an unquoted name. -/
  | word (s : String)
  | name (s : String)
  | string (s : String)
  | number (s : String)
  /-- A parameter, without its dollar sign. -/
  | parameter (s : String)
  | symbol (s : String)
  deriving DecidableEq, Repr

/-! ## Characters -/

/-- The blanks between tokens: white space of ASCII, and the spaces of every width, those without
any width among them. -/
def isTokenBlank (c : Char) : Bool :=
  let n := c.toNat
  n == 32 || (9 ≤ n && n ≤ 13) || n == 0xA0 || (0x2000 ≤ n && n ≤ 0x200D) || n == 0x202F ||
    n == 0x205F || n == 0x2060 || n == 0x3000 || n == 0xFEFF

/-- The character ends a line. -/
def endsLine (c : Char) : Bool := c == '\n' || c == '\x0d'

/-- The character lies beyond ASCII and is no blank. -/
def isForeign (c : Char) : Bool := 128 ≤ c.toNat && !isTokenBlank c

/-- The character starts an unquoted name. -/
def startsWord (c : Char) : Bool := (isNameChar c && !c.isDigit) || isForeign c

/-- The character continues an unquoted name. -/
def continuesWord (c : Char) : Bool := isNameChar c || c == '$' || isForeign c

/-- The character continues the tag of a string in dollar tags. -/
def continuesTag (c : Char) : Bool := isNameChar c || isForeign c

/-! ## Strings and comments -/

/-- The content of a quoted text, a doubled quote standing for one, and the rest. -/
def quotedContent? (q : Char) : List Char → Option (List Char × List Char)
  | [] => none
  | c :: r =>
    if c = q then
      match r with
      | [] => some ([], [])
      | d :: r' =>
        if d = q then (quotedContent? q r').map fun (body, rest) => (q :: body, rest)
        else some ([], d :: r')
    else (quotedContent? q r).map fun (body, rest) => (c :: body, rest)

/-- The letters behind a backslash that stand for a control character. -/
def controlLetters : List (Char × Char) :=
  [('b', '\x08'), ('f', '\x0c'), ('n', '\n'), ('r', '\x0d'), ('t', '\t')]

/-- The character of a number in a base of at most sixteen, of at least one and at most `most`
digits in front, and the rest. -/
def numberedChar? (base most : Nat) (cs : List Char) : Option (Char × List Char) :=
  let isDigit (c : Char) : Bool := (hexValue? c).any (· < base)
  let digits := (cs.takeWhile isDigit).take most
  if digits.isEmpty then none
  else
    let n := digits.foldl (fun n c => base * n + (hexValue? c).getD 0) 0
    some (Char.ofNat n, cs.drop digits.length)

/-- The character that stands behind a backslash: a control character, one given by its number, or
itself; and the rest. -/
def escapedChar (c : Char) (r : List Char) : Char × List Char :=
  let numbered := if c = 'x' then numberedChar? 16 2 r
    else if c = 'u' then numberedChar? 16 4 r
    else if c = 'U' then numberedChar? 16 8 r
    else numberedChar? 8 3 (c :: r)
  numbered.getD ((controlLetters.lookup c).getD c, r)

/-- The content of a string with escapes, of at most `fuel` characters, and the rest. -/
def escapedContent? : Nat → List Char → Option (List Char × List Char)
  | 0, _ => none
  | _, [] => none
  | fuel + 1, c :: r =>
    let goOn (d : Char) (rest : List Char) : Option (List Char × List Char) :=
      (escapedContent? fuel rest).map fun (body, rest) => (d :: body, rest)
    if c = backslash then
      match r with
      | [] => none
      | d :: r' => goOn (escapedChar d r').1 (escapedChar d r').2
    else if c = apostrophe then
      match r with
      | [] => some ([], [])
      | d :: r' => if d = apostrophe then goOn d r' else some ([], r)
    else goOn c r

/-- The rest behind a comment of which `depth` levels are open. -/
def closeComment : Nat → List Char → Option (List Char)
  | 0, cs => some cs
  | _ + 1, [] => none
  | _ + 1, [_] => none
  | depth + 1, c :: d :: r =>
    if c = '*' && d = '/' then closeComment depth r
    else if c = '/' && d = '*' then closeComment (depth + 2) r
    else closeComment (depth + 1) (d :: r)

/-- The tag of a string in dollar tags behind its first dollar sign, and the rest behind the
second. -/
def stringTag? (r : List Char) : Option (List Char × List Char) :=
  let tag := r.takeWhile continuesTag
  match r.dropWhile continuesTag with
  | '$' :: rest => if tag.head?.all startsWord then some (tag, rest) else none
  | _ => none

/-! ## Tokens -/

/-- The symbols of several characters, the longer ones first. -/
def longSymbols : List String :=
  ["->>", "!~~", "!=", "<>", ">=", "<=", "||", "::", "==", "->", "=>", ":=", "//", "**", "<<", ">>",
    "!~", "~~", "@>", "<@", "&&", "^@"]

/-- What stands in front of a text: a token, or a piece that counts for nothing. -/
abbrev Step := Option (Option Token × List Char)

/-- A word, or a string with escapes, in front. -/
def wordStep (c : Char) (r : List Char) : Step :=
  let w := c :: r.takeWhile continuesWord
  let rest := r.dropWhile continuesWord
  match rest with
  | q :: rest' =>
    if q = apostrophe && (w == ['e'] || w == ['E']) then
      (escapedContent? (rest'.length + 1) rest').map fun (body, rest) =>
        (some (.string (String.ofList body)), rest)
    else some (some (.word (String.ofList w)), rest)
  | [] => some (some (.word (String.ofList w)), [])

/-- A string in dollar tags, a parameter, or the dollar sign itself, in front. -/
def dollarStep (r : List Char) : Step :=
  match stringTag? r with
  | some (tag, rest) =>
    let mark := '$' :: tag ++ ['$']
    (through mark rest).map fun (body, rest) =>
      (some (.string (String.ofList (body.take (body.length - mark.length)))), rest)
  | none =>
    match r.takeWhile continuesTag with
    | [] => some (some (.symbol "$"), r)
    | p => some (some (.parameter (String.ofList p)), r.dropWhile continuesTag)

/-- Digits in front, with single underscores between them, and the rest. -/
def digitRun : Bool → List Char → List Char × List Char
  | _, [] => ([], [])
  | afterDigit, c :: r =>
    if c.isDigit || (c == '_' && afterDigit && r.head?.any Char.isDigit) then
      let (digits, rest) := digitRun c.isDigit r
      (c :: digits, rest)
    else ([], c :: r)

/-- An exponent in front, if there is one, and the rest. -/
def exponentRun (cs : List Char) : List Char × List Char :=
  match cs with
  | [] => ([], [])
  | e :: r =>
    let sign := r.take 1 |>.filter fun s => s == '+' || s == '-'
    let (digits, rest) := digitRun false (r.drop sign.length)
    if (e == 'e' || e == 'E') && !digits.isEmpty then (e :: sign ++ digits, rest) else ([], cs)

/-- A number in front: digits, a point, digits and an exponent. -/
def numberStep (cs : List Char) : Step :=
  let (whole, rest) := digitRun false cs
  let (fraction, rest) := match rest with
    | '.' :: r => ('.' :: (digitRun false r).1, (digitRun false r).2)
    | r => ([], r)
  let (exponent, rest) := exponentRun rest
  some (some (.number (String.ofList (whole ++ fraction ++ exponent))), rest)

/-- The text starts with the mark of a comment. -/
def opensComment : List Char → Bool
  | '-' :: '-' :: _ => true
  | '/' :: '*' :: _ => true
  | _ => false

/-- A symbol in front, as long as there is one that does not reach into a comment. -/
def symbolStep (c : Char) (r : List Char) : Step :=
  let fits (s : String) : Bool :=
    s.toList.isPrefixOf (c :: r) && !opensComment ((c :: r).drop (s.length - 1))
  match longSymbols.find? fits with
  | some s => some (some (.symbol s), (c :: r).drop s.length)
  | none => some (some (.symbol (String.ofList [c])), r)

/-- The token in front of a text that starts with a character, if it is closed. -/
def step (c : Char) (r : List Char) : Step :=
  if isTokenBlank c then some (none, r)
  else if c = apostrophe then
    (quotedContent? apostrophe r).map fun (body, rest) =>
      (some (.string (String.ofList body)), rest)
  else if c = doubleQuote then
    (quotedContent? doubleQuote r).bind fun (body, rest) =>
      if body.isEmpty then none else some (some (.name (String.ofList body)), rest)
  else if c = '-' && r.head? == some '-' then some (none, r.dropWhile (!endsLine ·))
  else if c = '/' && r.head? == some '*' then (closeComment 1 (r.drop 1)).map (none, ·)
  else if c = '$' then dollarStep r
  else if startsWord c then wordStep c r
  else if c.isDigit || (c == '.' && r.head?.any Char.isDigit) then numberStep (c :: r)
  else symbolStep c r

/-- The tokens of a text of at most `fuel` characters. -/
def tokensWithin? : Nat → List Char → Option (List Token)
  | _, [] => some []
  | 0, _ :: _ => none
  | fuel + 1, c :: r => do
    let (token, rest) ← step c r
    let more ← tokensWithin? fuel rest
    some (token.toList ++ more)

/-- The tokens of a query text, unless a string, a name or a comment is not closed. -/
def tokens? (s : String) : Option (List Token) := tokensWithin? s.toList.length s.toList

/-! ## Statements -/

/-- The statements of a text: the tokens between semicolons, where there are any. -/
def statements (ts : List Token) : List (List Token) :=
  (ts.splitOn (.symbol ";")).filter (!·.isEmpty)

end ChartQuery.Sql
