import ChartQuery.Text.Blank
import ChartQuery.Text.Uppercase

/-!
# Types of the columns of a database

A column of a database has a type, under which it is reported. Some types have several names.

## Main definitions

* `ColumnType`: the types
* `ColumnType.name`, `ColumnType.ofName`: their names
* `ColumnType.holdsDoubles`, `ColumnType.holdsNumbers`, `ColumnType.holdsDates`: families of types
-/

namespace ChartQuery

/-- The type of a column. -/
inductive ColumnType where
  | integer
  | bigint
  | hugeint
  | double
  | single
  | varchar
  | date
  | timestamp
  | boolean
  | decimal (width scale : Nat)
  | other (name : String)
  deriving DecidableEq, Repr

namespace ColumnType

/-! ## Names -/

/-- The name under which a type is reported. -/
def name : ColumnType → String
  | integer => "INTEGER"
  | bigint => "BIGINT"
  | hugeint => "HUGEINT"
  | double => "DOUBLE"
  | single => "FLOAT"
  | varchar => "VARCHAR"
  | date => "DATE"
  | timestamp => "TIMESTAMP"
  | boolean => "BOOLEAN"
  | decimal w s => "DECIMAL(" ++ toString w ++ "," ++ toString s ++ ")"
  | other name => name

/-- Types by their plain names. -/
def plainNames : List (String × ColumnType) :=
  [("INTEGER", integer), ("INT", integer), ("INT4", integer), ("SIGNED", integer),
    ("BIGINT", bigint), ("INT8", bigint), ("LONG", bigint), ("HUGEINT", hugeint),
    ("INT128", hugeint), ("DOUBLE", double), ("FLOAT8", double), ("FLOAT", single),
    ("REAL", single), ("FLOAT4", single), ("VARCHAR", varchar), ("TEXT", varchar),
    ("STRING", varchar), ("CHAR", varchar), ("BPCHAR", varchar), ("DATE", date),
    ("TIMESTAMP", timestamp), ("DATETIME", timestamp), ("BOOLEAN", boolean), ("BOOL", boolean),
    ("LOGICAL", boolean), ("DECIMAL", decimal 18 3), ("NUMERIC", decimal 18 3),
    ("DEC", decimal 18 3)]

/-- The type of a name with sizes in parentheses behind it: the width and the scale of a decimal, or
the length of a text, which does not count. -/
def sized? (s : String) : Option ColumnType :=
  match s.splitOn "(" with
  | [word, rest] =>
    match plainNames.lookup word.trimAscii.toString, rest.splitOn ")" with
    | some varchar, [_, _] => some varchar
    | some (decimal _ _), [inside, _] =>
      match (inside.splitOn ",").map fun part => part.trimAscii.toString.toNat? with
      | [some w] => some (decimal w 0)
      | [some w, some s] => some (decimal w s)
      | _ => none
    | _, _ => none
  | _ => none

/-- The type of a name in letters of any case. -/
def ofName (s : String) : ColumnType :=
  let w := Text.upper (Text.trim s)
  ((plainNames.lookup w).or (sized? w)).getD (other w)

/-- The columns of this type hold doubles. -/
def holdsDoubles : ColumnType → Bool
  | double | single => true
  | _ => false

/-- The columns of this type hold numbers or truth values. -/
def holdsNumbers : ColumnType → Bool
  | integer | bigint | hugeint | double | single | boolean | decimal _ _ => true
  | _ => false

/-- The columns of this type hold dates, with or without a time of day. -/
def holdsDates : ColumnType → Bool
  | date | timestamp => true
  | _ => false

/-- The names of the types whose values are not compared here. -/
def otherNames : List String :=
  ["TINYINT", "SMALLINT", "INT1", "INT2", "SHORT", "UTINYINT", "USMALLINT", "UINTEGER", "UBIGINT",
    "UHUGEINT", "BLOB", "BYTEA", "BINARY", "VARBINARY", "BIT", "BITSTRING", "TIME", "TIMETZ",
    "INTERVAL", "UUID", "GUID", "JSON", "TIMESTAMPTZ", "TIMESTAMP_S", "TIMESTAMP_MS",
    "TIMESTAMP_NS", "TIMESTAMP_US", "NVARCHAR", "ENUM", "STRUCT", "ROW", "MAP", "UNION",
    "VARIANT", "BIGNUM", "VARINT", "LIST"]

/-- The database has such a type. -/
def isKnown : ColumnType → Bool
  | other name => otherNames.contains name
  | decimal w s => 1 ≤ w && w ≤ 38 && s ≤ w
  | _ => true

end ColumnType

end ChartQuery
