import ChartQuery.Sql.Keyword

/-!
# Grammars

A grammar says which lists of tokens have a form. Its rules may refer to one another by name. Of two
forms the first one that fits is taken, and a repeated form as often as it fits.

## Main definitions

* `Grammar`: a form of lists of tokens
* `Grammar.rest?`: what a form leaves of a list of tokens
* `Grammar.accepts`: a list of tokens has a form
-/

namespace ChartQuery.Sql

/-- A form of lists of tokens over rules with names. -/
inductive Grammar (ρ : Type) where
  | nothing
  /-- A token with a property. -/
  | token (has : Token → Bool)
  /-- No token, in front of tokens with a property. -/
  | before (has : List Token → Bool)
  /-- A form and then another one. -/
  | both (first second : Grammar ρ)
  /-- A form, or another one where the first does not fit. -/
  | either (first second : Grammar ρ)
  /-- A form as often as it fits, where it fits no empty list. -/
  | many (item : Grammar ρ)
  | rule (name : ρ)

namespace Grammar

variable {ρ : Type}

/-- What a form leaves of a list of tokens, by at most `fuel` nested steps; none if it does not
fit. -/
def rest? (rules : ρ → Grammar ρ) : Nat → Grammar ρ → List Token → Option (List Token)
  | 0, _, _ => none
  | _ + 1, nothing, ts => some ts
  | _ + 1, token _, [] => none
  | _ + 1, token has, t :: ts => if has t then some ts else none
  | _ + 1, before has, ts => if has ts then some ts else none
  | fuel + 1, both g h, ts =>
    match rest? rules fuel g ts with
    | some rest => rest? rules fuel h rest
    | none => none
  | fuel + 1, either g h, ts =>
    match rest? rules fuel g ts with
    | some rest => some rest
    | none => rest? rules fuel h ts
  | fuel + 1, many g, ts =>
    match rest? rules fuel g ts with
    | some rest => rest? rules fuel (many g) rest
    | none => some ts
  | fuel + 1, rule r, ts => rest? rules fuel (rules r) ts

/-- A list of tokens has a form. -/
def accepts (rules : ρ → Grammar ρ) (g : Grammar ρ) (ts : List Token) : Bool :=
  rest? rules (100 * ts.length + 100) g ts == some []

/-! ## Forms -/

/-- No list has this form. -/
def never : Grammar ρ := token fun _ => false

/-- Forms one behind the other. -/
def inTurn (gs : List (Grammar ρ)) : Grammar ρ := gs.foldr both nothing

/-- The first form that fits. -/
def oneOf (gs : List (Grammar ρ)) : Grammar ρ := gs.foldr either never

/-- A form, or nothing where it does not fit. -/
def optional (g : Grammar ρ) : Grammar ρ := either g nothing

/-- A form once or more often. -/
def atLeastOnce (g : Grammar ρ) : Grammar ρ := both g (many g)

/-- A keyword. -/
def keyword (w : String) : Grammar ρ := token (isKeyword w)

/-- Keywords one behind the other. -/
def keywords (ws : List String) : Grammar ρ := inTurn (ws.map keyword)

/-- One of several keywords. -/
def anyKeyword (ws : List String) : Grammar ρ := token fun t => t.keyword?.any ws.contains

/-- A symbol. -/
def symbol (s : String) : Grammar ρ := token (· == .symbol s)

/-- One of several symbols. -/
def anySymbol (ss : List String) : Grammar ρ :=
  token fun
    | .symbol s => ss.contains s
    | _ => false

/-- A string. -/
def string : Grammar ρ :=
  token fun
    | .string _ => true
    | _ => false

/-- A number. -/
def number : Grammar ρ :=
  token fun
    | .number _ => true
    | _ => false

/-- The name of a column or of a table. -/
def name : Grammar ρ := token Token.isName

/-- A name where nothing but a name can stand. -/
def label : Grammar ρ := token Token.isLabel

/-- A form between parentheses. -/
def inParentheses (g : Grammar ρ) : Grammar ρ := inTurn [symbol "(", g, symbol ")"]

/-- A form, and more of them behind commas; the last comma may have nothing behind it. -/
def listOf (g : Grammar ρ) : Grammar ρ :=
  inTurn [g, many (both (symbol ",") g), optional (symbol ",")]

end Grammar

end ChartQuery.Sql
