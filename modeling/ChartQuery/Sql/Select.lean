import ChartQuery.Database.Catalog
import ChartQuery.Sql.Statement

/-!
# Plain statements

The statements that a database carries out for a text are plain ones: the selection of columns, or
of fixed values, from one table or from another selection, under conditions that all have to hold;
and the creation and removal of a table. A fixed value is shown under the text with which it is
written, unless it is given another name.

## Main definitions

* `Term`, `SelectItem`, `Select`: selections
* `Statement`: selections, and what else a database does
* `readSelect?`, `readStatement?`: the statement of a list of tokens
-/

namespace ChartQuery.Sql

/-! ## Syntax -/

/-- A fixed value, a parameter or a column. -/
inductive Term where
  | literal (v : Value) (text : String)
  | parameter (name : String)
  | column (qualifiers : List String) (name : String)

/-- What a selection shows: all columns, or a term under a name. -/
inductive SelectItem where
  | all (qualifiers : List String)
  | term (t : Term) (givenName : Option String)

/-- A condition of a selection. -/
inductive Clause where
  | isNull (t : Term) (negated : Bool)
  | compare (op : FilterOperator) (l r : Term)
  | member (l : Term) (rs : List Term)

/-- A selection of columns from nothing, from a table or from another selection. -/
inductive Select where
  | fromNothing (items : List SelectItem) (conditions : List Clause)
  | fromTable (items : List SelectItem) (schema : Option String) (table : String)
    (givenName : Option String) (conditions : List Clause)
  | fromSelect (items : List SelectItem) (inner : Select) (givenName : Option String)
    (conditions : List Clause)

/-- What a database does for a text. -/
inductive Statement where
  | select (s : Select)
  | create (schema : Option String) (table : String) (columns : List Column) (unlessThere : Bool)
  | drop (schema : Option String) (table : String) (ifThere : Bool)

/-! ## Reading terms -/

/-- What stands in front of a list of tokens, and the rest. -/
abbrev Reads (α : Type) := List Token → Option (α × List Token)

/-- A given keyword in front. -/
def keyword? (w : String) : Reads Unit
  | t :: rest => if isKeyword w t then some ((), rest) else none
  | [] => none

/-- A given symbol in front. -/
def symbol? (s : String) : Reads Unit
  | .symbol s' :: rest => if s' = s then some ((), rest) else none
  | _ => none

/-- A token with a property in front, as it is spelled. -/
def spelled? (has : Token → Bool) : Reads String
  | t :: rest => if has t then some (t.spelling, rest) else none
  | [] => none

/-- A name in front. -/
def name? : Reads String := spelled? Token.isName

/-- A name, or a string in its place, in front. -/
def nameOrString? (ts : List Token) : Option (String × List Token) :=
  match ts with
  | .string s :: rest => some (s, rest)
  | ts => spelled? Token.isLabel ts

/-- The names in front behind full stops. -/
def namesBehindStops : List Token → List String × List Token
  | .symbol "." :: t :: rest =>
    if t.isLabel then
      let (names, rest) := namesBehindStops rest
      (t.spelling :: names, rest)
    else ([], .symbol "." :: t :: rest)
  | ts => ([], ts)

/-- A name in front, with its qualifiers. -/
def qualifiedName? (ts : List Token) : Option ((List String × String) × List Token) := do
  let (n, rest) ← name? ts
  let (names, rest) := namesBehindStops rest
  some (((n :: names).dropLast, (n :: names).getLastD n), rest)

/-- The name of a table in front, with that of its schema if it is given. -/
def tableName? (ts : List Token) : Option ((Option String × String) × List Token) := do
  let ((qualifiers, n), rest) ← qualifiedName? ts
  match qualifiers with
  | [] => some ((none, n), rest)
  | [schema] => some ((some schema, n), rest)
  | _ => none

/-- A whole number as a value: beyond all types of whole numbers it is a text. -/
def wholeValue (n : Int) : Value :=
  if n.natAbs < 340282366920938463463374607431768211456 then .int n else .text (toString n)

/-- The value of a number as it is written: a whole number, a decimal, or a double where it has an
exponent or too many digits. -/
def numberValue? (negative : Bool) (s : String) : Option Value :=
  let cs := s.toList.filter (· != '_')
  let sign (n : Nat) : Int := if negative then -(n : Int) else n
  let digits := cs.filter (· != '.')
  if cs.all Char.isDigit then some (wholeValue (sign (digitsValue cs)))
  else if digits.all Char.isDigit && digits.length ≤ 38 then
    some (.decimal (sign (digitsValue digits)) ((cs.dropWhile (· != '.')).length - 1))
  else (readBinary64Chars? (if negative then '-' :: cs else cs)).map .float

/-- A text in apostrophes, those inside of it doubled. -/
def stringText (s : String) : String :=
  let doubled := s.toList.flatMap fun c => if c = Text.apostrophe then [c, c] else [c]
  String.ofList (Text.apostrophe :: doubled ++ [Text.apostrophe])

/-- A fixed value written behind the name of its type. -/
def typedLiteral? (type : ColumnType) (s : String) : Option Term :=
  (type.read? s).map fun v => .literal v ("CAST(" ++ stringText s ++ " AS " ++ type.name ++ ")")

/-- A fixed value in front that is a word, alone or with a text behind it. -/
def wordLiteral? (w : String) (rest : List Token) : Option (Term × List Token) :=
  match w, rest with
  | "NULL", rest => some (.literal .null "NULL", rest)
  | "TRUE", rest => some (.literal (.bool true) "true", rest)
  | "FALSE", rest => some (.literal (.bool false) "false", rest)
  | "DATE", .string s :: rest => (typedLiteral? .date s).map (·, rest)
  | "TIMESTAMP", .string s :: rest => (typedLiteral? .timestamp s).map (·, rest)
  | _, _ => none

/-- A column in front. -/
def column? (ts : List Token) : Option (Term × List Token) := do
  let ((qualifiers, n), rest) ← qualifiedName? ts
  if (symbol? "(" rest).isSome then none else some (.column qualifiers n, rest)

/-- A term in front, in at most `fuel` pairs of parentheses. -/
def termWithin? : Nat → Reads Term
  | _, .number s :: rest => (numberValue? false s).map fun v => (.literal v s, rest)
  | _, .symbol "-" :: .number s :: rest =>
    (numberValue? true s).map fun v => (.literal v ("-" ++ s), rest)
  | _, .symbol "+" :: .number s :: rest =>
    (numberValue? false s).map fun v => (.literal v ("(+(" ++ s ++ "))"), rest)
  | _, .string s :: rest => some (.literal (.text s) (stringText s), rest)
  | _, .parameter p :: rest => some (.parameter p, rest)
  | fuel + 1, .symbol "(" :: rest => do
    let (t, rest) ← termWithin? fuel rest
    let (_, rest) ← symbol? ")" rest
    some (t, rest)
  | _, t :: rest =>
    match t.keyword?.bind fun w => wordLiteral? w rest with
    | some found => some found
    | none => column? (t :: rest)
  | _, [] => none

/-- A term in front. -/
def term? (ts : List Token) : Option (Term × List Token) := termWithin? ts.length ts

/-! ## Reading lists -/

/-- What stands behind a comma in a list of at most `fuel` items, and the rest. -/
def listOf? {α : Type} (item : Reads α) : Nat → Reads (List α)
  | 0, _ => none
  | fuel + 1, ts => do
    let (a, rest) ← item ts
    match symbol? "," rest with
    | some (_, rest') =>
      let (as, rest'') ← listOf? item fuel rest'
      some (a :: as, rest'')
    | none => some ([a], rest)

/-! ## Reading selections -/

/-- The name that something is given, if it is given one: any name behind the keyword, and without
it one with a property. -/
def givenName? (has : Token → Bool) (ts : List Token) : Option (Option String × List Token) :=
  match keyword? "AS" ts with
  | some (_, rest) => (nameOrString? rest).map fun (n, rest) => (some n, rest)
  | none =>
    match spelled? has ts with
    | some (n, rest) => some (some n, rest)
    | none => some (none, ts)

/-- All columns in front, of everything or of what has a name. -/
def star? (ts : List Token) : Option (List String × List Token) :=
  match symbol? "*" ts with
  | some (_, rest) => some ([], rest)
  | none => do
    let (n, rest) ← name? ts
    let (names, rest) := namesBehindStops rest
    let (_, rest) ← symbol? "." rest
    let (_, rest) ← symbol? "*" rest
    some (n :: names, rest)

/-- An item of a selection in front. -/
def selectItem? (ts : List Token) : Option (SelectItem × List Token) :=
  match star? ts with
  | some (qualifiers, rest) => some (.all qualifiers, rest)
  | none => do
    let (t, rest) ← term? ts
    let (a, rest) ← givenName? Token.isBareLabel rest
    some (.term t a, rest)

/-- The comparison of a symbol. -/
def comparison? : String → Option FilterOperator
  | "=" | "==" => some .eq
  | "!=" | "<>" => some .ne
  | ">" => some .gt
  | "<" => some .lt
  | ">=" => some .ge
  | "<=" => some .le
  | _ => none

/-- A condition in front. -/
def clause? (ts : List Token) : Option (Clause × List Token) := do
  let (l, rest) ← term? ts
  match rest with
  | .symbol s :: rest =>
    let op ← comparison? s
    let (r, rest) ← term? rest
    some (.compare op l r, rest)
  | t :: rest =>
    if isKeyword "LIKE" t then
      let (r, rest) ← term? rest
      some (.compare .like l r, rest)
    else if isKeyword "IS" t then
      match keyword? "NOT" rest with
      | some (_, rest) => (keyword? "NULL" rest).map fun (_, rest) => (.isNull l true, rest)
      | none => (keyword? "NULL" rest).map fun (_, rest) => (.isNull l false, rest)
    else if isKeyword "IN" t then
      let (_, rest) ← symbol? "(" rest
      let (rs, rest) ← listOf? term? rest.length rest
      let (_, rest) ← symbol? ")" rest
      some (.member l rs, rest)
    else none
  | [] => none

/-- At most `fuel` conditions in front that all have to hold, some of them in parentheses. -/
def conjunction? : Nat → Reads (List Clause)
  | 0, _ => none
  | fuel + 1, ts => do
    let (cs, rest) ← match clause? ts with
      | some (c, rest) => some ([c], rest)
      | none => do
        let (_, rest) ← symbol? "(" ts
        let (cs, rest) ← conjunction? fuel rest
        let (_, rest) ← symbol? ")" rest
        some (cs, rest)
    match keyword? "AND" rest with
    | some (_, rest) => (conjunction? fuel rest).map fun (more, rest) => (cs ++ more, rest)
    | none => some (cs, rest)

/-- The conditions in front, if there are any. -/
def conditions? (ts : List Token) : Option (List Clause × List Token) :=
  match keyword? "WHERE" ts with
  | some (_, rest) => conjunction? rest.length rest
  | none => some ([], ts)

/-- A selection in front, with at most `fuel` others inside of one another. -/
def readSelect? : Nat → Reads Select
  | 0, _ => none
  | fuel + 1, ts => do
    let (_, rest) ← keyword? "SELECT" ts
    let (items, rest) ← listOf? selectItem? rest.length rest
    match keyword? "FROM" rest with
    | none =>
      let (conditions, rest) ← conditions? rest
      some (.fromNothing items conditions, rest)
    | some (_, rest) =>
      match symbol? "(" rest with
      | some (_, rest) =>
        let (inner, rest) ← readSelect? fuel rest
        let (_, rest) ← symbol? ")" rest
        let (given, rest) ← givenName? Token.isName rest
        let (conditions, rest) ← conditions? rest
        some (.fromSelect items inner given conditions, rest)
      | none =>
        let ((schema, table), rest) ← tableName? rest
        let (given, rest) ← givenName? Token.isName rest
        let (conditions, rest) ← conditions? rest
        some (.fromTable items schema table given conditions, rest)

/-! ## Reading other statements -/

/-- The tokens up to the comma or the parenthesis that ends a column, and the rest. -/
def columnTokens : Nat → List Token → List Token × List Token
  | _, [] => ([], [])
  | depth, t :: rest =>
    if depth = 0 && (t == .symbol "," || t == .symbol ")") then ([], t :: rest)
    else
      let depth := if t == .symbol "(" then depth + 1
        else if t == .symbol ")" then depth - 1 else depth
      let (front, rest) := columnTokens depth rest
      (t :: front, rest)

/-- The type that tokens write: a word, and the sizes behind it; brackets make it a list. -/
def typeOfTokens : List Token → ColumnType
  | .word w :: .symbol "(" :: .number a :: .symbol "," :: .number b :: _ =>
    .ofName (w ++ "(" ++ a ++ "," ++ b ++ ")")
  | .word w :: .symbol "(" :: .number a :: _ => .ofName (w ++ "(" ++ a ++ ")")
  | .word w :: .symbol "[" :: _ =>
    if (ColumnType.ofName w).isKnown then .other "LIST" else .ofName w
  | .word w :: _ => .ofName w
  | _ => .other ""

/-- The words that begin a constraint on the rows of a new table. -/
def constraintWords : List String := ["PRIMARY", "UNIQUE", "CHECK", "FOREIGN", "CONSTRAINT"]

/-- A column of a new table in front, or a constraint, which is none. -/
def newColumn? (ts : List Token) : Option (Option Column × List Token) :=
  if (ts.head?.bind Token.keyword?).any constraintWords.contains then
    some (none, (columnTokens 0 ts).2)
  else do
    let (n, rest) ← name? ts
    let (type, rest) := columnTokens 0 rest
    if type.isEmpty then none else some (some ⟨n, typeOfTokens type⟩, rest)

/-- Keywords in front, one after the other. -/
def keywords? : List String → Reads Unit
  | [], ts => some ((), ts)
  | w :: ws, ts => do
    let (_, rest) ← keyword? w ts
    keywords? ws rest

/-- Whether keywords stand in front, and what stands behind them. -/
def optionally (ws : List String) (ts : List Token) : Bool × List Token :=
  match keywords? ws ts with
  | some (_, rest) => (true, rest)
  | none => (false, ts)

/-- The creation of a table. -/
def readCreate? (ts : List Token) : Option Statement := do
  let (_, rest) ← keywords? ["CREATE", "TABLE"] ts
  let (unlessThere, rest) := optionally ["IF", "NOT", "EXISTS"] rest
  let ((schema, table), rest) ← tableName? rest
  let (_, rest) ← symbol? "(" rest
  let (columns, rest) ← listOf? newColumn? rest.length rest
  let (_, rest) ← symbol? ")" rest
  if rest.isEmpty then some (.create schema table (columns.filterMap id) unlessThere) else none

/-- The removal of a table. -/
def readDrop? (ts : List Token) : Option Statement := do
  let (_, rest) ← keywords? ["DROP", "TABLE"] ts
  let (ifThere, rest) := optionally ["IF", "EXISTS"] rest
  let ((schema, table), rest) ← tableName? rest
  if rest.isEmpty then some (.drop schema table ifThere) else none

/-- The statement of a list of tokens. -/
def readStatement? (ts : List Token) : Option Statement :=
  match readSelect? ts.length ts with
  | some (s, []) => some (.select s)
  | some _ => none
  | none => (readCreate? ts).or (readDrop? ts)

/-- The parameters among tokens. -/
def parametersOf (ts : List Token) : List String :=
  (ts.filterMap fun
    | .parameter p => some p
    | _ => none).eraseDups

end ChartQuery.Sql
