import ChartQuery.Plan.Basic

/-!
# Chart queries

The query of a chart aggregates the rows of one table. It is built from a plan as a value, and
written as text with every name in double quotes and every filter value as a parameter.

## Main definitions

* `TableRef`: a table under its schema
* `Expr`, `Condition`, `OrderItem`, `Query`: queries
* `Query.ofPlan`: the query of a plan
* `planParameters`: the values bound to its parameters
* `Query.text`: the written form
-/

namespace ChartQuery

/-- A table under its schema, as the catalog spells them. -/
structure TableRef where
  schema : String
  table : String
  deriving DecidableEq, Repr

/-- The table in double quotes, behind its schema if that has a name. -/
def TableRef.qualified (t : TableRef) : String :=
  let schema := Identifier.ofText t.schema
  let table := Identifier.ofText t.table
  if schema.isNamed then schema.inQuotes ++ "." ++ table.inQuotes else table.inQuotes

namespace Sql

/-! ## Syntax -/

/-- A function of a group of values. -/
inductive AggregateFn where
  | plain (a : Aggregation)
  /-- The compensated sum. -/
  | compensated
  deriving DecidableEq, Repr

/-- An expression over a row or a group of rows. -/
inductive Expr where
  | column (c : Identifier)
  /-- The date of a column, null where there is none. -/
  | date (c : Identifier)
  /-- The date of a column as text, at the resolution of years or months. -/
  | datePart (c : Identifier) (monthly : Bool)
  | aggregate (f : AggregateFn) (c : Identifier)
  deriving DecidableEq

/-- A selected expression, under a name of its own or that of its column. -/
structure Item where
  expr : Expr
  givenName : Option Identifier
  deriving DecidableEq

/-- A condition on a row; values are named by parameters. -/
inductive Condition where
  | notNull (c : Identifier)
  | compare (c : Identifier) (op : FilterOperator) (parameter : String)
  | member (c : Identifier) (parameters : List String)
  deriving DecidableEq

/-- A position among the selected expressions by which to order, nulls last. -/
structure OrderItem where
  position : Nat
  descending : Bool
  deriving DecidableEq, Repr

/-- A query that aggregates the rows of one table. -/
structure Query where
  items : List Item
  schema : Identifier
  table : Identifier
  conditions : List Condition
  groupBy : List Expr
  orderBy : List OrderItem
  limit : Int
  deriving DecidableEq

/-! ## From plans to queries -/

/-- The expression of the horizontal axis at its resolution. -/
def axisExpr (x : Identifier) : Option Resolution → Expr
  | none => .column x
  | some .day => .date x
  | some .month => .datePart x true
  | some .year => .datePart x false

/-- The function that aggregates a column. -/
def aggregateFn (p : ChartPlan) (c : Identifier) : AggregateFn :=
  if p.aggregation = .sum && p.compensated.contains c then .compensated else .plain p.aggregation

/-- The name of the parameter of a filter. -/
def parameterName (index : Nat) : String := "filter_" ++ toString index

/-- The name of the parameter of one of the values of a filter. -/
def memberName (index item : Nat) : String := parameterName index ++ "_" ++ toString item

/-- The condition of a filter. -/
def filterCondition (f : PlanFilter) (index : Nat) : Condition :=
  match f.operator with
  | .isIn => .member f.column ((List.range f.values.length).map (memberName index))
  | op => .compare f.column op (parameterName index)

/-- The parameters of a filter with their values. -/
def filterParameters (f : PlanFilter) (index : Nat) : List (String × Value) :=
  match f.operator with
  | .isIn => ((List.range f.values.length).map (memberName index)).zip f.values
  | _ => [(parameterName index, f.value)]

/-- The conditions of filters. -/
def filterConditions (fs : List PlanFilter) : List Condition :=
  fs.mapIdx fun i f => filterCondition f i

/-- The parameters of filters with their values. -/
def filtersParameters (fs : List PlanFilter) : List (String × Value) :=
  (fs.mapIdx fun i f => filterParameters f i).flatten

/-- The expressions by which a plan groups. -/
def groupExprs (p : ChartPlan) : List Expr :=
  (p.xAxis.map fun x => axisExpr x p.resolution).toList ++ p.groupBy.map .column

/-- The selected expressions of a plan. -/
def planItems (p : ChartPlan) : List Item :=
  (p.xAxis.map fun x => ⟨axisExpr x p.resolution, some x⟩).toList ++
    p.groupBy.map (fun g => ⟨.column g, none⟩) ++
    (p.drillDownLabel.map fun d => ⟨.aggregate (.plain .max) d, some d⟩).toList ++
    p.yAxis.map fun y => ⟨.aggregate (aggregateFn p y) y, some y⟩

/-- The position of a column in the result, from one. No column is shown twice by a plan that comes
out of a specification, so that its first position is its only one. -/
def positionOf (p : ChartPlan) (c : Identifier) : Nat := p.outputColumns.idxOf c + 1

/-- The order of a plan: the column asked for, then every other key, each once. -/
def planOrder (p : ChartPlan) : List OrderItem :=
  (p.orderBy.map fun c => ⟨positionOf p c, p.descending⟩).toList ++
    p.trailingKeys.map fun k => ⟨positionOf p k, false⟩

/-- The query of a plan over a table. -/
def Query.ofPlan (p : ChartPlan) (t : TableRef) : Query where
  items := planItems p
  schema := .ofText t.schema
  table := .ofText t.table
  conditions := (p.xAxis.map Condition.notNull).toList ++ filterConditions p.filters
  groupBy := groupExprs p
  orderBy := planOrder p
  limit := p.limit

/-- The values bound to the parameters of a plan's query. -/
def planParameters (p : ChartPlan) : List (String × Value) := filtersParameters p.filters

/-! ## Writing -/

/-- The name of a function of a group. -/
def AggregateFn.name : AggregateFn → String
  | plain a => a.name
  | compensated => "fsum"

/-- The text of an expression. -/
def Expr.text : Expr → String
  | column c => c.inQuotes
  | date c => "TRY_CAST(" ++ c.inQuotes ++ " AS DATE)"
  | datePart c monthly =>
    "strftime(TRY_CAST(" ++ c.inQuotes ++ " AS DATE), " ++
      (if monthly then "'%Y-%m'" else "'%Y'") ++ ")"
  | aggregate f c => f.name ++ "(" ++ c.inQuotes ++ ")"

/-- The text of a selected expression. -/
def Item.text (i : Item) : String :=
  match i.givenName with
  | some a => i.expr.text ++ " AS " ++ a.inQuotes
  | none => i.expr.text

/-- The text of a condition. -/
def Condition.text : Condition → String
  | notNull c => c.inQuotes ++ " IS NOT NULL"
  | compare c op p => c.inQuotes ++ " " ++ op.sign ++ " $" ++ p
  | member c ps => c.inQuotes ++ " IN (" ++ ", ".intercalate (ps.map ("$" ++ ·)) ++ ")"

/-- The text of a position by which to order. -/
def OrderItem.text (o : OrderItem) : String :=
  toString o.position ++ (if o.descending then " DESC" else " ASC") ++ " NULLS LAST"

/-- The text of conditions that all have to hold. -/
def conjunction (cs : List Condition) : String := " AND ".intercalate (cs.map Condition.text)

/-- A clause, if it has any content. -/
def clause (keyword : String) (content : List String) (separator : String) : String :=
  if content.isEmpty then "" else " " ++ keyword ++ " " ++ separator.intercalate content

/-- The text of the table of a query. -/
def Query.tableText (q : Query) : String :=
  if q.schema.isNamed then q.schema.inQuotes ++ "." ++ q.table.inQuotes else q.table.inQuotes

/-- The text of a query. -/
def Query.text (q : Query) : String :=
  "SELECT " ++ ", ".intercalate (q.items.map Item.text) ++ " FROM " ++ q.tableText ++
    clause "WHERE" (q.conditions.map Condition.text) " AND " ++
    clause "GROUP BY" (q.groupBy.map Expr.text) ", " ++
    clause "ORDER BY" (q.orderBy.map OrderItem.text) ", " ++
    " LIMIT " ++ toString q.limit

end Sql

end ChartQuery
