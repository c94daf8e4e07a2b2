import ChartQuery.Sql.Grammar.Basic

/-!
# The grammar of selections

A selection names what it shows, the tables from which it is taken, and conditions on their rows;
selections may be combined, ordered and cut. They stand in one another wherever a table or a value
can stand in parentheses.

## Main definitions

* `SelectRule`: the rules of the grammar
* `SelectRule.form`: what each of them says
* `isSelection`: a statement selects rows
-/

namespace ChartQuery.Sql

/-- The rules of the grammar of selections. -/
inductive SelectRule where
  /-- Selections, combined, ordered and cut, behind named subqueries. -/
  | selection
  /-- One selection. -/
  | core
  /-- The order of the result and the number of its rows. -/
  | modifiers
  /-- The names of subqueries, with the subqueries. -/
  | subqueries
  /-- Conditions joined by `AND` and `OR`. -/
  | expression
  /-- Operands with operators between and behind them. -/
  | comparison
  /-- An operand with the signs in front and the marks behind it. -/
  | piece
  | operand
  /-- The content of parentheses that stand for a value. -/
  | inner
  | arguments
  | ordering
  | typeName
  /-- A table, with those joined to it. -/
  | table
  | join
  | source
  /-- Any tokens, their parentheses closed. -/
  | anything
  deriving DecidableEq, Repr

namespace SelectRule

open Grammar

/-! ## What stands in front -/

/-- A selection begins here. -/
def opensSelection : List Token → Bool
  | t :: rest =>
    t.keyword?.any fun w =>
      ["SELECT", "WITH", "FROM", "TABLE", "DESCRIBE", "SHOW", "SUMMARIZE", "PIVOT", "UNPIVOT",
        "PIVOT_WIDER", "PIVOT_LONGER"].contains w ||
      (w == "VALUES" && rest.head? == some (.symbol "("))
  | [] => false

/-- A selection begins here behind parentheses. -/
def opensNested (ts : List Token) : Bool :=
  ts.head? == some (.symbol "(") && opensSelection (ts.dropWhile (· == .symbol "("))

/-- A name stands here with one of some symbols behind it. -/
def opensNamed (symbols : List String) : List Token → Bool
  | t :: .symbol s :: _ => t.isLabel && symbols.contains s
  | _ => false

/-- More selections that are combined with one in front, and the modifiers of all of them. -/
def combined : Grammar SelectRule :=
  both (many (inTurn [anyKeyword ["UNION", "EXCEPT", "INTERSECT"],
    optional (anyKeyword ["ALL", "DISTINCT"]), optional (keywords ["BY", "NAME"]), rule core]))
    (rule modifiers)

/-- A selection, or something else: what stands in front tells. Something else may begin with a
selection in parentheses, with which others are combined. -/
def selectionOr (g : Grammar SelectRule) : Grammar SelectRule :=
  oneOf [both (before opensSelection) (rule selection),
    inTurn [before opensNested, g, combined],
    both (before fun ts => !opensSelection ts && !opensNested ts) g]

/-! ## Names -/

/-- Names with full stops between them. -/
def path : Grammar SelectRule := both name (many (both (symbol ".") label))

/-- The name of a function, with those of its schemas in front. -/
def functionPath : Grammar SelectRule :=
  both (token Token.isFunctionName) (many (both (symbol ".") label))

/-- A name in parentheses, or several. -/
def nameList : Grammar SelectRule := inParentheses (listOf label)

/-- The name that a value is given. -/
def columnAlias : Grammar SelectRule :=
  either (both (keyword "AS") (either label string)) (token Token.isBareLabel)

/-- The name that a table is given, and those of its columns. -/
def tableAlias : Grammar SelectRule :=
  both (either (both (keyword "AS") (either label string)) (either name string))
    (optional (inParentheses (listOf (both label (optional (rule typeName))))))

/-! ## Stars -/

/-- What a star leaves out or shows in another way. -/
def starTail : Grammar SelectRule :=
  many (oneOf [both (keyword "EXCLUDE") (either nameList path),
    both (anyKeyword ["REPLACE", "RENAME"])
      (inParentheses (listOf (inTurn [rule expression, keyword "AS", label]))),
    both (anyKeyword ["LIKE", "ILIKE", "GLOB"]) (rule piece)])

/-- All columns. -/
def star : Grammar SelectRule := both (symbol "*") starTail

/-! ## Operands -/

/-- The units of intervals. -/
def intervalUnits : List String :=
  let units := ["YEAR", "MONTH", "DAY", "HOUR", "MINUTE", "SECOND", "MILLISECOND", "MICROSECOND",
    "WEEK", "QUARTER", "DECADE", "CENTURY", "CENTURIE", "MILLENNIUM", "MILLENNIA"]
  units ++ units.map (· ++ "S")

/-- The functions whose arguments stand between words. -/
def wordedFunctions : List String := ["EXTRACT", "SUBSTRING", "OVERLAY", "TRIM"]

/-- What may stand behind the arguments of a function. -/
def callTail : Grammar SelectRule :=
  inTurn [optional (both (keywords ["WITHIN", "GROUP"]) (inParentheses (rule anything))),
    optional (both (keyword "FILTER")
      (inParentheses (both (optional (keyword "WHERE")) (rule expression)))),
    optional (both (keyword "OVER") (either (inParentheses (rule anything)) name))]

/-- A call of a function. -/
def call : Grammar SelectRule :=
  inTurn [before fun ts =>
      !(ts.head?.bind Token.keyword?).any ("TRY_CAST" :: "EXISTS" :: wordedFunctions).contains,
    functionPath, inParentheses (rule arguments), callTail]

/-- A call of a function whose arguments stand between words. -/
def wordedCall : Grammar SelectRule :=
  both (anyKeyword wordedFunctions) (inParentheses (inTurn
    [optional (anyKeyword ["BOTH", "LEADING", "TRAILING"]), optional (listOf (rule expression)),
      many (both (anyKeyword ["FROM", "FOR", "PLACING"]) (listOf (rule expression)))]))

/-- A choice between values. -/
def choice : Grammar SelectRule :=
  inTurn [keyword "CASE", optional (rule expression),
    atLeastOnce (inTurn [keyword "WHEN", rule expression, keyword "THEN", rule expression]),
    optional (both (keyword "ELSE") (rule expression)), keyword "END"]

/-- Values in square brackets, or the values of an expression for the items of a list. -/
def brackets : Grammar SelectRule :=
  let comprehension := inTurn [keyword "FOR", listOf name, keyword "IN", rule expression,
    optional (both (keyword "IF") (rule expression))]
  let more := both (many (both (symbol ",") (rule expression))) (optional (symbol ","))
  inTurn [symbol "[", optional (both (rule expression) (either comprehension more)), symbol "]"]

/-- Values under keys. -/
def braces : Grammar SelectRule :=
  inTurn [symbol "\x7b", optional (listOf (inTurn
    [rule expression, symbol ":", rule expression])), symbol "\x7d"]

/-- A length of time. -/
def interval : Grammar SelectRule :=
  inTurn [keyword "INTERVAL", oneOf [string, number, inParentheses (rule expression)],
    optional (anyKeyword intervalUnits)]

/-- A string behind the name of its type. -/
def typedString : Grammar SelectRule :=
  inTurn [functionPath, optional (inParentheses (listOf number)), string]

/-- A parameter, by name or by place. -/
def parameter : Grammar SelectRule :=
  either (token fun
    | .parameter _ => true
    | _ => false) (both (symbol "?") (optional number))

/-- The columns of a table, or one of them. -/
def columns : Grammar SelectRule :=
  both path (optional (inTurn [symbol ".", symbol "*", starTail]))

/-- The symbols between two operands. -/
def binarySymbols : List String :=
  ["=", "==", "<", ">", "<=", ">=", "!=", "<>", "+", "-", "*", "/", "%", "^", "||", "->", "->>",
    "//", "**", "<<", ">>", "&", "|", "&&", "@>", "<@", "~", "!~", "~~", "!~~", "^@"]

/-- An operator behind an operand, with what else it takes. -/
def operatorTail : Grammar SelectRule :=
  let quantified := both (anyKeyword ["ANY", "ALL", "SOME"]) (inParentheses (rule inner))
  let negatable (g : Grammar SelectRule) := both (optional (keyword "NOT")) g
  oneOf [both (anySymbol binarySymbols) (either quantified (rule piece)),
    inTurn [keyword "IS", optional (keyword "NOT"),
      either (anyKeyword ["NULL", "TRUE", "FALSE", "UNKNOWN"])
        (both (keywords ["DISTINCT", "FROM"]) (rule piece))],
    anyKeyword ["ISNULL", "NOTNULL"],
    keywords ["NOT", "NULL"],
    negatable (both (keyword "IN") (rule piece)),
    negatable (inTurn [keyword "BETWEEN", optional (anyKeyword ["SYMMETRIC", "ASYMMETRIC"]),
      rule comparison, keyword "AND", rule comparison]),
    negatable (inTurn [either (anyKeyword ["LIKE", "ILIKE", "GLOB"]) (keywords ["SIMILAR", "TO"]),
      either quantified (rule piece), optional (both (keyword "ESCAPE") (rule piece))]),
    both (keyword "OVERLAPS") (rule piece)]

/-- A mark behind an operand: a cast, a collation, a time zone, an item or a field. -/
def mark : Grammar SelectRule :=
  oneOf [both (symbol "::") (rule typeName),
    both (keyword "COLLATE") path,
    both (keywords ["AT", "TIME", "ZONE"]) (rule operand),
    inTurn [symbol "[", optional (rule expression),
      many (both (symbol ":") (optional (either (rule expression) (symbol "-")))), symbol "]"],
    inTurn [symbol ".", label, optional (inParentheses (rule arguments))]]

/-! ## Selections -/

/-- What a selection shows. -/
def target : Grammar SelectRule :=
  oneOf [star,
    inTurn [before (opensNamed [":"]), label, symbol ":", rule expression],
    both (rule expression) (optional columnAlias)]

/-- How many rows are drawn at random. -/
def sample : Grammar SelectRule :=
  let amount := both number (optional (either (symbol "%") (anyKeyword ["PERCENT", "ROWS"])))
  either (both amount (optional (inParentheses (rule anything))))
    (both name (optional (inParentheses (rule anything))))

/-- The conditions on the rows of a selection, and their groups. -/
def clauses : Grammar SelectRule :=
  let group := oneOf [both (keywords ["GROUPING", "SETS"]) (inParentheses (rule anything)),
    both (symbol "(") (symbol ")"), rule expression]
  inTurn [optional (both (keyword "WHERE") (rule expression)),
    optional (both (keywords ["GROUP", "BY"]) (either (keyword "ALL") (listOf group))),
    optional (both (keyword "HAVING") (rule expression)),
    optional (both (keyword "WINDOW")
      (listOf (inTurn [name, keyword "AS", inParentheses (rule anything)]))),
    optional (both (keyword "QUALIFY") (rule expression)),
    optional (both (keywords ["USING", "SAMPLE"]) sample)]

/-- The word for a selection and what it shows. -/
def shown : Grammar SelectRule :=
  let distinct := both (keyword "DISTINCT")
    (optional (both (keyword "ON") (inParentheses (listOf (rule expression)))))
  inTurn [keyword "SELECT", optional (either distinct (keyword "ALL")), listOf target]

/-- The tables of a selection. -/
def tables : Grammar SelectRule := both (keyword "FROM") (listOf (rule table))

/-- A subquery under a name. -/
def namedSubquery : Grammar SelectRule :=
  let changing := both (anyKeyword ["INSERT", "UPDATE", "DELETE", "MERGE"]) (rule anything)
  inTurn [either name string, optional nameList,
    optional (both (keywords ["USING", "KEY"]) nameList), keyword "AS",
    optional (both (optional (keyword "NOT")) (keyword "MATERIALIZED")),
    inParentheses (either (rule selection) changing)]

/-! ## Tables -/

/-- What says which rows of two tables belong together. -/
def joinCondition : Grammar SelectRule :=
  either (both (keyword "ON") (rule expression)) (both (keyword "USING") nameList)

/-- The kinds of joins. -/
def joinKind : Grammar SelectRule :=
  either (both (anyKeyword ["LEFT", "RIGHT", "FULL"]) (optional (keyword "OUTER")))
    (anyKeyword ["INNER", "SEMI", "ANTI"])

/-- Rows given by their values. -/
def valueRows : Grammar SelectRule :=
  both (keyword "VALUES") (listOf (inParentheses (listOf (rule expression))))

/-- What each rule of the grammar says. -/
def form : SelectRule → Grammar SelectRule
  | selection =>
    inTurn [optional (rule subqueries), rule core, combined]
  | core =>
    oneOf [inTurn [shown, optional tables, clauses],
      inTurn [tables, optional shown, clauses],
      valueRows,
      both (keyword "TABLE") path,
      both (anyKeyword ["DESCRIBE", "SHOW", "SUMMARIZE", "PIVOT", "UNPIVOT", "PIVOT_WIDER",
        "PIVOT_LONGER"]) (rule anything),
      inParentheses (rule selection)]
  | modifiers =>
    let limit := inTurn [keyword "LIMIT", either (keyword "ALL")
      (both (rule expression) (optional (either (symbol "%") (keyword "PERCENT"))))]
    let offset := inTurn [keyword "OFFSET", rule expression, optional (anyKeyword ["ROW", "ROWS"])]
    let fetch := inTurn [keyword "FETCH", anyKeyword ["FIRST", "NEXT"], optional (rule expression),
      anyKeyword ["ROW", "ROWS"], keyword "ONLY"]
    inTurn [optional (both (keywords ["ORDER", "BY"]) (rule ordering)),
      optional (oneOf [both limit (optional offset),
        both offset (optional (either limit fetch)), fetch])]
  | subqueries =>
    both (keyword "WITH") (either (both (keyword "RECURSIVE") (listOf namedSubquery))
      (listOf namedSubquery))
  | expression =>
    let negated := both (many (keyword "NOT")) (rule comparison)
    both negated (many (both (anyKeyword ["AND", "OR"]) negated))
  | comparison => both (rule piece) (many operatorTail)
  | piece =>
    inTurn [many (anySymbol ["-", "+", "~", "!", "@"]), rule operand, many mark]
  | operand =>
    oneOf [number, string, parameter, both (symbol "#") number,
      anyKeyword ["TRUE", "FALSE", "NULL", "DEFAULT"],
      inParentheses (rule inner), brackets, braces, choice,
      both (anyKeyword ["CAST", "TRY_CAST"])
        (inParentheses (inTurn [rule expression, keyword "AS", rule typeName])),
      both (keyword "EXISTS") (inParentheses (rule selection)),
      both (keyword "ARRAY") (either brackets (inParentheses (rule selection))),
      inTurn [keyword "LAMBDA", listOf name, symbol ":", rule expression],
      both (keyword "MAP") braces,
      interval, typedString, wordedCall, call, columns]
  | inner => selectionOr (listOf (rule expression))
  | arguments =>
    let named := inTurn [before (opensNamed [":=", "=>"]), label, anySymbol [":=", "=>"]]
    let argument := either star
      (inTurn [optional (keyword "VARIADIC"), optional named, rule expression])
    inTurn [optional (anyKeyword ["DISTINCT", "ALL"]), optional (listOf argument),
      optional (both (keywords ["ORDER", "BY"]) (rule ordering)),
      optional (both (anyKeyword ["IGNORE", "RESPECT"]) (keyword "NULLS"))]
  | ordering =>
    let direction := both (optional (anyKeyword ["ASC", "DESC"]))
      (optional (both (keyword "NULLS") (anyKeyword ["FIRST", "LAST"])))
    either (both (keyword "ALL") direction) (listOf (both (rule expression) direction))
  | typeName =>
    inTurn [functionPath, optional (anyKeyword ["PRECISION", "VARYING"]),
      optional (inParentheses (rule anything)),
      many (inTurn [symbol "[", optional number, symbol "]"]),
      optional (both (anyKeyword ["WITH", "WITHOUT"]) (keywords ["TIME", "ZONE"]))]
  | table => both (rule source) (many (rule join))
  | join =>
    oneOf [inTurn [anyKeyword ["CROSS", "POSITIONAL"], keyword "JOIN", rule source],
      inTurn [keyword "NATURAL", optional joinKind, keyword "JOIN", rule source],
      inTurn [optional (keyword "ASOF"), optional joinKind, keyword "JOIN", rule source,
        many (rule join), joinCondition],
      inTurn [anyKeyword ["PIVOT", "UNPIVOT"],
        optional (both (anyKeyword ["INCLUDE", "EXCLUDE"]) (keyword "NULLS")),
        inParentheses (rule anything), optional tableAlias]]
  | source =>
    let sampled := optional (inTurn [keyword "TABLESAMPLE", sample,
      optional (both (keyword "REPEATABLE") (inParentheses number))])
    let lateral := optional (keyword "LATERAL")
    oneOf [inTurn [lateral, inParentheses (selectionOr (listOf (rule table))), optional tableAlias,
        sampled],
      inTurn [before opensSelection, valueRows, optional tableAlias],
      inTurn [before (opensNamed [":"]), label, symbol ":", rule source],
      inTurn [lateral, functionPath, inParentheses (rule arguments),
        optional (keywords ["WITH", "ORDINALITY"]), optional tableAlias, sampled],
      inTurn [either path string, optional (both (keyword "AT") (inParentheses (rule anything))),
        optional tableAlias, sampled]]
  | anything =>
    many (either (token fun t => t != .symbol "(" && t != .symbol ")")
      (inParentheses (rule anything)))

end SelectRule

/-- A statement selects rows. -/
def isSelection (ts : List Token) : Bool := Grammar.accepts SelectRule.form (.rule .selection) ts

end ChartQuery.Sql
