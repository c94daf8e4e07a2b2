import ChartQuery.Plan.Basic
import ChartQuery.Spec.Basic
import ChartQuery.Error

/-!
# From specifications to plans

A specification is checked against the columns of its rows. A horizontal axis that does not exist,
or the lack of any vertical one, is an error; every other part that is not valid is dropped with a
warning.

## Main definitions

* `RowLimits`: how many rows a chart has at most, and when nothing is asked for
* `limitOf`: the number of rows of a chart
* `resolveFilters`: the conditions on columns that exist
* `planBeside`, `resolvePlan`: the plan of a specification

## Main results

* `limitOf_le`: no chart has more rows than the most
-/

namespace ChartQuery

/-! ## Number of rows -/

/-- How many rows a chart has when nothing is asked for, and at most. -/
structure RowLimits where
  usual : Int
  most : Int
  deriving DecidableEq, Repr

/-- Fifty rows, and at most ten thousand. -/
def RowLimits.standard : RowLimits := ⟨50, 10000⟩

/-- The most rows: those asked for by a caller, unless there are none. -/
def RowLimits.cap (limits : RowLimits) : Option Int → Int
  | some m => if m = 0 then limits.most else m
  | none => limits.most

/-- How many rows of a custom query are read: the most, or all of them where the most is zero. A
negative most, which is no number of rows, reads none. -/
def RowLimits.read? (limits : RowLimits) : Option Nat :=
  if limits.most = 0 then none else some limits.most.toNat

/-- The number of rows of a chart: as many as asked for, the usual number if none are, and never
more than the most. -/
def limitOf (limits : RowLimits) (asked maxRows : Option Int) : Int :=
  let n := asked.getD 0
  min (if n ≤ 0 then limits.usual else n) (limits.cap maxRows)

/-- No chart has more rows than the most. -/
theorem limitOf_le (limits : RowLimits) (asked maxRows : Option Int) :
    limitOf limits asked maxRows ≤ limits.cap maxRows := by
  simp only [limitOf]
  omega

/-- A number of rows that is infinite. -/
inductive InfiniteLimit where
  | infinite
  deriving DecidableEq, Repr

/-- The number of rows asked for by a value of any kind; what is no number asks for none. -/
def askedRows : Value → Except InfiniteLimit (Option Int)
  | .int n => .ok (some n)
  | .bool b => .ok (some (if b then 1 else 0))
  | .float (.infinite _) => .error .infinite
  | .float x => .ok x.truncate?
  | .text s => .ok (readInt? s)
  | _ => .ok none

/-- The names by which to group given by a value: a text alone, or the items of a list that are not
empty; none if the value holds no items. -/
def groupEntries? : Value → Option (List Value)
  | .text s => some (if s.isEmpty then [] else [.text s])
  | .list items => some (items.filter Value.isTruthy)
  | .object fields => some ((fields.map fun f => Value.text f.1).filter Value.isTruthy)
  | v => if v.isTruthy then none else some []

/-! ## Filters -/

/-- The condition of a specified one, or why it is dropped. Without columns every name counts as one
that exists. -/
def resolveFilter (columns : Option ColumnSet) (f : FilterSpec) : Except Warning PlanFilter :=
  match FilterOperator.ofSign? f.operator with
  | none => .error (.filterOperator f.field f.operator)
  | some op =>
    let column := Identifier.ofText f.field
    if !column.isNamed || columns.any (!·.isColumn f.field) then .error (.filterUnknown f.field)
    else
      let filter : PlanFilter := ⟨column, op, f.value⟩
      if op = .isIn && filter.values.isEmpty then .error (.filterWithoutValues f.field)
      else .ok filter

/-- The conditions that are kept, and a warning for each of the others. -/
def resolveFilters (columns : Option ColumnSet) (fs : List FilterSpec) :
    List PlanFilter × List Warning :=
  (fs.filterMap fun f => (resolveFilter columns f).toOption,
    fs.filterMap fun f =>
      match resolveFilter columns f with
      | .ok _ => none
      | .error w => some w)

/-! ## The parts of a plan -/

/-- The identifiers of the names that are columns, each once. -/
def validIdentifiers (columns : ColumnSet) (names : List String) : List Identifier :=
  ((names.filter columns.isColumn).map Identifier.ofText).eraseDups

/-- The column of the horizontal axis. -/
def resolveXAxis (columns : ColumnSet) (name : Option String) :
    Except ChartError (Option Identifier) :=
  match given? name with
  | none => .ok none
  | some s => if columns.isColumn s then .ok (some (.ofText s)) else .error (.invalidXAxis s)

/-- The resolution of the horizontal axis. -/
def resolveResolution (xAxis : Option Identifier) (name : Option String) :
    Option Resolution × List Warning :=
  match given? name, xAxis with
  | some s, some _ =>
    match Resolution.ofText? s with
    | some r => (some r, [])
    | none => (none, [.resolutionUnknown s])
  | _, _ => (none, [])

/-- The columns by which to group behind those in `done`; `taken` are the columns in use
elsewhere. -/
def resolveGroups (columns : ColumnSet) (taken : List Identifier) :
    List Identifier → List String → List Identifier × List Warning
  | done, [] => (done, [])
  | done, name :: rest =>
    if !columns.isColumn name then
      let (groups, ws) := resolveGroups columns taken done rest
      (groups, .groupUnknown name :: ws)
    else if (taken ++ done).contains (.ofText name) then
      let (groups, ws) := resolveGroups columns taken done rest
      (groups, .groupRepeated name :: ws)
    else resolveGroups columns taken (done ++ [.ofText name]) rest

/-- The column that labels a group; one that is shown anyway is no label. -/
def resolveDrillDown (columns : ColumnSet) (shown : List Identifier) (name : Option String) :
    Option Identifier × List Warning :=
  match given? name with
  | none => (none, [])
  | some s =>
    if !columns.isColumn s then (none, [.drillDownUnknown s])
    else if shown.contains (.ofText s) then (none, [])
    else (some (.ofText s), [])

/-- The column by which to order, which has to be one of the result. -/
def resolveOrder (columns : ColumnSet) (shown : List Identifier) (name : Option String) :
    Option Identifier × List Warning :=
  match given? name with
  | none => (none, [])
  | some s =>
    if !columns.isColumn s then (none, [.orderUnknown s])
    else if !shown.contains (.ofText s) then (none, [.orderNotShown s])
    else (some (.ofText s), [])

/-- The direction of a name in letters of any case is the descending one. -/
def isDescending (direction : String) : Bool := Text.upper (Text.trim direction) == "DESC"

/-! ## Plans -/

/-- The columns of the vertical axis beside a horizontal one. -/
def yAxisBeside (spec : ChartSpec) (columns : ColumnSet) (x : Option Identifier) :
    List Identifier :=
  (validIdentifiers columns spec.yAxis).filter fun y => x != some y

/-- The names of the vertical axis that are no columns. -/
def rejectedYAxis (spec : ChartSpec) (columns : ColumnSet) : List String :=
  spec.yAxis.filter (!columns.isColumn ·)

/-- What is said of the vertical axis: it repeats the horizontal one, or names no columns. -/
def yAxisWarnings (spec : ChartSpec) (columns : ColumnSet) (x : Option Identifier) :
    List Warning :=
  let asked := validIdentifiers columns spec.yAxis
  let rejected := rejectedYAxis spec columns
  (x.toList.filter asked.contains).map (fun i => .yAxisIsXAxis i.name) ++
    (if rejected.isEmpty then [] else [.yAxisUnknown rejected])

/-- The plan of a specification beside a horizontal axis. -/
def planBeside (limits : RowLimits) (spec : ChartSpec) (columns : ColumnSet) (maxRows : Option Int)
    (x : Option Identifier) : ChartPlan :=
  let yAxis := yAxisBeside spec columns x
  let resolution := resolveResolution x spec.resolution
  let groups := resolveGroups columns (x.toList ++ yAxis) [] spec.groupBy.names
  let filters := resolveFilters (some columns) spec.filters
  let label := resolveDrillDown columns (x.toList ++ groups.1 ++ yAxis) spec.drillDownLabel
  let shown := x.toList ++ groups.1 ++ label.1.toList ++ yAxis
  let order := resolveOrder columns shown spec.orderBy
  { yAxis
    aggregation := .ofText spec.aggregation
    xAxis := x
    resolution := resolution.1
    groupBy := groups.1
    filters := filters.1
    drillDownLabel := label.1
    orderBy := order.1
    descending := isDescending spec.orderDirection
    limit := limitOf limits spec.limit maxRows
    warnings := yAxisWarnings spec columns x ++ resolution.2 ++ groups.2 ++ filters.2 ++ label.2 ++
      order.2
    compensated := yAxis.filter fun y => columns.isFloat y.name }

/-- The plan of a specification for rows of the given columns. -/
def resolvePlan (limits : RowLimits) (spec : ChartSpec) (columns : ColumnSet)
    (maxRows : Option Int) : Except ChartError ChartPlan := do
  let x ← resolveXAxis columns spec.xAxis
  if (yAxisBeside spec columns x).isEmpty then .error (.noValidYAxis (rejectedYAxis spec columns))
  else .ok (planBeside limits spec columns maxRows x)

end ChartQuery
