import ChartQuery.Database.Cast
import ChartQuery.Name
import ChartQuery.Sql.Query

/-!
# Databases and their catalogs

A database holds tables under the names of their schemas. The catalog finds a table by its exact
name; of several schemas with a table of that name the first one counts. Query text finds tables and
columns in letters of any case.

## Main definitions

* `Table`, `Database`: tables and databases
* `Database.listing`: all tables, by schema and name
* `Database.find?`, `Database.columnsOf`: what the catalog finds
* `Database.named?`, `columnNamed?`: what query text finds

## Main results

* `Database.find?_name`: the table that is found has the name asked for
-/

namespace ChartQuery

/-- A column of a table. -/
structure Column where
  name : String
  type : ColumnType
  deriving DecidableEq, Repr

/-- A table: its columns, and its rows in the order in which they were inserted. -/
structure Table where
  schema : String
  name : String
  columns : List Column
  rows : List (List Value)

/-- The schema of tables that name none. -/
def mainSchema : String := "main"

/-- A table of rows of values of any kinds. -/
def Table.ofRows (schema name : String) (columns : List Column) (rows : List (List Value)) :
    Table :=
  ⟨schema, name, columns, rows.map fun row => List.zipWith (fun c v => c.type.store v) columns row⟩

/-- The rows of a table as records. -/
def Table.records (t : Table) : List Record := t.rows.map ((t.columns.map (·.name)).zip ·)

/-- The names of a table as the catalog spells them. -/
def Table.ref (t : Table) : TableRef := ⟨t.schema, t.name⟩

/-- A database. -/
structure Database where
  tables : List Table

namespace Database

/-- A database without tables. -/
def empty : Database := ⟨[]⟩

/-- The order of tables in listings. -/
def listedBefore (t u : Table) : Bool :=
  (compare t.schema u.schema).then (compare t.name u.name) != .gt

/-- All tables, by schema and name. -/
def listing (d : Database) : List Table := d.tables.mergeSort listedBefore

/-- The table of a name, in the first schema that has one. -/
def find? (d : Database) (name : String) : Option Table := d.listing.find? fun t => t.name == name

/-- The table that is found has the name asked for. -/
theorem find?_name {d : Database} {name : String} {t : Table} (h : d.find? name = some t) :
    t.name = name := by
  simpa using List.find?_some h

/-- The columns of a table of exactly these names. -/
def columnsOf (d : Database) (ref : TableRef) : List Column :=
  ((d.tables.find? fun t => t.ref == ref).map (·.columns)).getD []

/-- The cleaned names of columns, and which of them hold doubles. -/
def columnSet (columns : List Column) : ColumnSet :=
  .ofNames (columns.map (·.name)) ((columns.filter (·.type.holdsDoubles)).map (·.name))

/-- Two names are the same in letters of any case. -/
def sameName (a b : String) : Bool := Text.asciiLower a == Text.asciiLower b

/-- The table that query text finds under a schema and a name. -/
def named? (d : Database) (schema name : String) : Option Table :=
  d.tables.find? fun t => sameName t.schema schema && sameName t.name name

/-- The database with one more table. -/
def insert (d : Database) (t : Table) : Database := ⟨d.tables ++ [t]⟩

/-- The database without a table. -/
def erase (d : Database) (ref : TableRef) : Database := ⟨d.tables.filter fun t => t.ref != ref⟩

end Database

/-- The position of the column that query text finds under a name. -/
def columnNamed? (columns : List Column) (name : String) : Option Nat :=
  columns.findIdx? fun c => Database.sameName c.name name

end ChartQuery
