import ChartQuery.Database.Aggregate
import ChartQuery.Database.Comparison
import ChartQuery.Rows.Grouping
import ChartQuery.Rows.Ordering

/-!
# The rows of a chart query

A chart query selects rows of one table, groups them, aggregates each group, orders the result and
cuts it to a number of rows. It fails where it names what the database does not hold, where types do
not fit, and where a text is no value of the type it is compared with.

## Main definitions

* `Expr.evaluate?`: the value of an expression in a row
* `Condition.bind?`: a condition over the columns of a table
* `groupsOver t q parameters`: the groups of the rows that a query selects
* `answerFrom t q groups`: the rows that a query makes of groups
* `answerOver t q parameters`, `Database.answer d q parameters`: the rows of a query

## Main results

* `evaluateDate_date`: a date is its own date
-/

namespace ChartQuery

open Sql

/-! ## Expressions -/

/-- The day of a value, null where it has none. -/
def dayOf? : Value → Option DayText
  | .date d => some (.day d.year d.month d.day)
  | .timestamp t => some (.day t.date.year t.date.month t.date.day)
  | .text s => DayText.read? s
  | _ => none

/-- The date of a value; null if it has none. -/
def evaluateDate (v : Value) : Value := ((dayOf? v).map DayText.value).getD .null

/-- A date is its own date. -/
@[simp] theorem evaluateDate_date (d : CalendarDate) : evaluateDate (.date d) = .date d := by
  have h : d.year ≠ 0 := by
    have := d.valid.1.1
    omega
  simp [evaluateDate, dayOf?, DayText.value, CalendarDate.of?_self, h]

/-- The text of the date of a value at the resolution of years or months. -/
def evaluateDatePart (monthly : Bool) (v : Value) : Value :=
  ((dayOf? v).map fun d => .text (d.partText monthly)).getD .null

/-- The value of a column in a row; none if the table has no such column. -/
def cell? (columns : List Column) (row : List Value) (c : Identifier) : Option Value :=
  (columnNamed? columns c.name).map fun i => row.getD i .null

/-- The value of an expression over a group of rows, which all agree on what is no aggregate; none
if it names no column or does not fit its type. -/
def Sql.Expr.evaluate? (columns : List Column) (rows : List (List Value)) : Expr → Option Value
  | .column c => cell? columns (rows.headD []) c
  | .date c => (cell? columns (rows.headD []) c).map evaluateDate
  | .datePart c monthly => (cell? columns (rows.headD []) c).map (evaluateDatePart monthly)
  | .aggregate f c => do
    let i ← columnNamed? columns c.name
    let column ← columns[i]?
    aggregateColumn? f column.type (rows.map fun row => row.getD i .null)

/-- The name of a selected expression in the result. -/
def Sql.Item.outputName (columns : List Column) (item : Item) : String :=
  match item.givenName, item.expr with
  | some a, _ => a.name
  | none, .column c =>
    (((columnNamed? columns c.name).bind fun i => columns[i]?).map (·.name)).getD c.name
  | none, e => e.text

/-! ## Conditions -/

/-- A column as an operand. -/
def operandOf? (columns : List Column) (c : Identifier) : Option Operand := do
  let i ← columnNamed? columns c.name
  let column ← columns[i]?
  some (.cell i column.type)

/-- A condition over the columns of a table with the values of its parameters. -/
def Sql.Condition.bind? (columns : List Column) (parameters : Entries Value) :
    Condition → Option Test
  | .notNull c => (operandOf? columns c).map .notNull
  | .compare c op p => do
    some (.compare op (← operandOf? columns c) (.fixed (← parameters.lookup p)))
  | .member c ps => do
    some (.member (← operandOf? columns c) (← ps.mapM fun p => (parameters.lookup p).map .fixed))

/-! ## Queries -/

/-- The values tie one by one; null ties with null only. -/
def sameValues (vs ws : List Value) : Bool :=
  (vs.zip ws).all fun (v, w) => SortKey.compare ⟨"", false⟩ v w == .eq

/-- The groups of rows by expressions; without expressions all rows are one group. -/
def groupTableRows (columns : List Column) (exprs : List Expr) (rows : List (List Value)) :
    List (List (List Value)) :=
  if exprs.isEmpty then [rows]
  else (groupRows sameValues
    (fun row => exprs.map fun e => (e.evaluate? columns [row]).getD .null) rows).map (·.2)

/-- What is there, or the failure of the database. -/
def orFail {α : Type} : Option α → Except ExecutionFault α
  | some a => .ok a
  | none => .error .database

/-- The groups of the rows of a table that a query selects. -/
def groupsOver (t : Table) (q : Query) (parameters : Entries Value) :
    Except ExecutionFault (List (List (List Value))) := do
  let tests ← orFail (q.conditions.mapM (·.bind? t.columns parameters))
  let rows ← selectRows tests t.rows
  .ok (groupTableRows t.columns q.groupBy rows)

/-- The rows that a query makes of groups of the rows of a table: one row for each group, in order,
as many as asked for. -/
def answerFrom (t : Table) (q : Query) (groups : List (List (List Value))) :
    Except ExecutionFault (List Record) := do
  let _ ← orFail (q.items.mapM fun i => i.expr.evaluate? t.columns [])
  let _ ← orFail (q.groupBy.mapM fun e => e.evaluate? t.columns [])
  let names := q.items.map (·.outputName t.columns)
  let results ← groups.mapM fun group => do
    let values ← orFail (q.items.mapM fun i => i.expr.evaluate? t.columns group)
    .ok (names.zip values)
  let keys : List SortKey := q.orderBy.map fun o =>
    ⟨names.getD (o.position - 1) "", o.descending⟩
  .ok ((sortRows keys results).take q.limit.toNat)

/-- The rows of a query over a table. -/
def answerOver (t : Table) (q : Query) (parameters : Entries Value) :
    Except ExecutionFault (List Record) := do
  answerFrom t q (← groupsOver t q parameters)

/-- The rows of a query; a name without schema is sought in the main one. -/
def Database.answer (d : Database) (q : Query) (parameters : Entries Value) :
    Except ExecutionFault (List Record) :=
  let schema := if q.schema.isNamed then q.schema.name else mainSchema
  match d.named? schema q.table.name with
  | some t => answerOver t q parameters
  | none => .error .database

end ChartQuery
