import ChartQuery.Sql.Grammar.Select

/-!
# Statements as the database parses them

The database parses a text into statements, or refuses it. A statement selects rows, or does
something else.

## Main definitions

* `StatementKind`: whether a statement selects rows
* `statementKind? ts`: the kind of a statement, if it can be parsed
* `parse? s`: the statements of a text with their kinds, if all of them can be parsed
-/

namespace ChartQuery.Sql

/-- Whether a statement selects rows or does something else. -/
inductive StatementKind where
  | select
  | other
  deriving DecidableEq, Repr

/-! ## Parentheses -/

/-- The depth of parentheses behind a token, if none is closed that was not opened. -/
def depthAfter (depth : Nat) : Token → Option Nat
  | .symbol "(" => some (depth + 1)
  | .symbol ")" => if depth = 0 then none else some (depth - 1)
  | _ => some depth

/-- Every parenthesis is closed. -/
def isBalanced (ts : List Token) : Bool := ts.foldlM depthAfter 0 == some 0

/-! ## Statements that select nothing -/

/-- The words that start a statement which does not select rows, each with the number of tokens that
have to follow it at least. -/
def otherWords : List (String × Nat) :=
  [("INSERT", 3), ("UPDATE", 5), ("DELETE", 2), ("MERGE", 5), ("CREATE", 2), ("DROP", 2),
    ("ALTER", 3), ("TRUNCATE", 1), ("COPY", 3), ("ATTACH", 1), ("DETACH", 1), ("PRAGMA", 1),
    ("INSTALL", 1), ("LOAD", 1), ("BEGIN", 0), ("START", 1), ("COMMIT", 0), ("END", 0),
    ("ROLLBACK", 0), ("ABORT", 0), ("EXPLAIN", 1), ("CALL", 1), ("SET", 2), ("RESET", 1),
    ("DESC", 0), ("USE", 1), ("EXECUTE", 1), ("PREPARE", 3), ("DEALLOCATE", 1), ("EXPORT", 2),
    ("IMPORT", 2), ("VACUUM", 0), ("ANALYZE", 0), ("ANALYSE", 0), ("CHECKPOINT", 0), ("FORCE", 1),
    ("COMMENT", 5)]

/-- The words that have to follow the first one of a statement. -/
def followingWords : List (String × List String) :=
  [("INSERT", ["INTO", "OR"]), ("DELETE", ["FROM"]), ("MERGE", ["INTO"]), ("EXPORT", ["DATABASE"]),
    ("IMPORT", ["DATABASE"]), ("START", ["TRANSACTION"]), ("COMMENT", ["ON"]),
    ("FORCE", ["INSTALL", "CHECKPOINT"])]

/-- The words that do not end a statement. -/
def danglingWords : List String :=
  ["FROM", "WHERE", "AND", "OR", "NOT", "BY", "AS", "IN", "LIKE", "INTO", "SET", "TABLE", "ON",
    "USING", "SELECT"]

/-- The statement does something else than select rows. -/
def isOtherStatement (ts : List Token) : Bool :=
  match ts with
  | [] => false
  | t :: rest =>
    t.keyword?.any fun w =>
      (otherWords.lookup w).any (decide <| · ≤ rest.length) &&
      (followingWords.lookup w).all (fun ws => (rest.head?.bind Token.keyword?).any ws.contains) &&
      !(ts.getLast?.bind Token.keyword?).any danglingWords.contains

/-- What stands behind the named subqueries of a statement. -/
def behindSubqueries? (ts : List Token) : Option (List Token) :=
  Grammar.rest? SelectRule.form (100 * ts.length + 100) (.rule .subqueries) ts

/-- The words that change data behind named subqueries. -/
def changingWords : List String := ["INSERT", "UPDATE", "DELETE", "MERGE"]

/-- The statement changes data behind named subqueries. -/
def changesBehindSubqueries (ts : List Token) : Bool :=
  match behindSubqueries? ts with
  | some rest =>
    (rest.head?.bind Token.keyword?).any changingWords.contains && isOtherStatement rest
  | none => false

/-! ## Kinds -/

/-- The kind of a statement, if it can be parsed. -/
def statementKind? (ts : List Token) : Option StatementKind :=
  if !isBalanced ts then none
  else if isSelection ts then some .select
  else if isOtherStatement ts || changesBehindSubqueries ts then some .other
  else none

/-- The kinds of the statements of a text, if all of them can be parsed. -/
def parse? (s : String) : Option (List StatementKind) :=
  tokens? s >>= fun ts => (statements ts).mapM statementKind?

end ChartQuery.Sql
