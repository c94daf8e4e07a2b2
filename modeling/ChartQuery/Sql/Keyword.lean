import ChartQuery.Sql.Token
import ChartQuery.Sql.Words

/-!
# Keywords

Some words of query text are keywords, in letters of any case. A keyword may still name a column, a
table or a function where its class allows it; behind `AS` or a full stop any word is a name.

## Main definitions

* `Token.keyword?`: the capitals of a word
* `reservedWords`, `joiningWords`, `typeWords`: the classes of keywords
* `Token.isName`, `Token.isFunctionName`, `Token.isLabel`: the tokens that are names
-/

namespace ChartQuery.Sql

/-- The capitals of a token that is a word. -/
def Token.keyword? : Token → Option String
  | .word w => some (capitals w.toList)
  | _ => none

/-- The token is a given keyword. -/
def isKeyword (w : String) (t : Token) : Bool := t.keyword? == some w

/-! ## Classes -/

/-- The words that are no names unless in quotes. -/
def reservedWords : List String :=
  ["ALL", "ANALYSE", "ANALYZE", "AND", "ANY", "ARRAY", "AS", "ASC", "ASYMMETRIC", "BOTH", "CASE",
    "CAST", "CHECK", "COLLATE", "COLUMN", "CONSTRAINT", "CREATE", "DEFAULT", "DEFERRABLE", "DESC",
    "DESCRIBE", "DISTINCT", "DO", "ELSE", "END", "EXCEPT", "FALSE", "FETCH", "FOR", "FOREIGN",
    "FROM", "GROUP", "HAVING", "IN", "INITIALLY", "INTERSECT", "INTO", "LAMBDA", "LATERAL",
    "LEADING", "LIMIT", "NOT", "NULL", "OFFSET", "ON", "ONLY", "OR", "ORDER", "PIVOT",
    "PIVOT_LONGER", "PIVOT_WIDER", "PLACING", "PRIMARY", "QUALIFY", "REFERENCES", "RETURNING",
    "SELECT", "SHOW", "SOME", "SUMMARIZE", "SYMMETRIC", "TABLE", "THEN", "TO", "TRAILING", "TRUE",
    "UNION", "UNIQUE", "UNPIVOT", "USING", "VARIADIC", "WHEN", "WHERE", "WINDOW", "WITH"]

/-- The words that name functions, but neither columns nor tables: those that join or compare. -/
def joiningWords : List String :=
  ["ANTI", "ASOF", "AT", "AUTHORIZATION", "BINARY", "COLLATION", "CONCURRENTLY", "CROSS", "FREEZE",
    "FULL", "GLOB", "ILIKE", "INNER", "IS", "ISNULL", "JOIN", "LEFT", "LIKE", "NATURAL", "NOTNULL",
    "OUTER", "OVERLAPS", "POSITIONAL", "RIGHT", "SEMI", "SIMILAR", "TABLESAMPLE", "VERBOSE"]

/-- The words that name columns and tables, and types or functions of a form of their own. -/
def typeWords : List String :=
  ["BETWEEN", "BIGINT", "BIT", "BOOLEAN", "CHAR", "CHARACTER", "COALESCE", "COLUMNS", "DEC",
    "DECIMAL", "EXISTS", "EXTRACT", "FLOAT", "GENERATED", "GROUPING", "GROUPING_ID", "INOUT", "INT",
    "INTEGER", "INTERVAL", "MAP", "NATIONAL", "NCHAR", "NONE", "NULLIF", "NUMERIC", "OUT",
    "OVERLAY", "POSITION", "PRECISION", "REAL", "ROW", "SETOF", "SMALLINT", "STRUCT", "SUBSTRING",
    "TIME", "TIMESTAMP", "TREAT", "TRIM", "TRY_CAST", "VALUES", "VARCHAR"]

namespace Token

/-- The token names columns and tables. -/
def isName (t : Token) : Bool :=
  match t with
  | .name _ => true
  | t => t.keyword?.any fun w => !reservedWords.contains w && !joiningWords.contains w

/-- The token names functions. -/
def isFunctionName (t : Token) : Bool :=
  match t with
  | .name _ => true
  | t => t.keyword?.any fun w => !reservedWords.contains w

/-- The token is a name where nothing but a name can stand. -/
def isLabel (t : Token) : Bool :=
  match t with
  | .name _ | .word _ => true
  | _ => false

/-- The token names a column where a clause could begin as well. -/
def isBareLabel (t : Token) : Bool :=
  match t with
  | .name _ => true
  | t => t.keyword?.any fun w =>
    !reservedWords.contains w && !joiningWords.contains w && !typeWords.contains w

/-- The spelling of a name. -/
def spelling : Token → String
  | .word s | .name s | .string s | .number s | .parameter s | .symbol s => s

end Token

end ChartQuery.Sql
