import ChartQuery.Name
import ChartQuery.Text.Uppercase
import ChartQuery.Text.Blank

/-!
# Chart plans

A chart plan is a specification checked against the columns of its rows: cleaned names of columns
that exist, a known aggregation and known operators, and what had to be dropped on the way.

## Main definitions

* `Aggregation`, `Resolution`, `FilterOperator`: the known words of a specification
* `PlanFilter`: a condition on a column that exists
* `Warning`: a part of a specification that was dropped
* `ChartPlan`: a checked specification
-/

namespace ChartQuery

/-! ## Words of a specification -/

/-- How the values of a group become one. -/
inductive Aggregation where
  | sum
  | avg
  | count
  | min
  | max
  deriving DecidableEq, Repr

namespace Aggregation

/-- The name of an aggregation. -/
def name : Aggregation → String
  | sum => "SUM"
  | avg => "AVG"
  | count => "COUNT"
  | min => "MIN"
  | max => "MAX"

/-- All aggregations. -/
def all : List Aggregation := [sum, avg, count, min, max]

/-- The aggregation of a name in letters of any case, with blanks around it; any other is a sum. -/
def ofText (s : String) : Aggregation :=
  let w := Text.upper (Text.trim s)
  (all.find? fun a => a.name == w).getD sum

/-- The aggregation named by a value of any kind. -/
def ofValue (v : Value) : Aggregation := ofText (if v.isTruthy then v.plain else "")

/-- Only numbers can be aggregated so. -/
def needsNumbers : Aggregation → Bool
  | sum | avg => true
  | _ => false

end Aggregation

/-- The part of a date that counts. -/
inductive Resolution where
  | year
  | month
  | day
  deriving DecidableEq, Repr

namespace Resolution

/-- The name of a resolution. -/
def name : Resolution → String
  | year => "year"
  | month => "month"
  | day => "day"

/-- The resolution of a name in letters of any case, with blanks around it. -/
def ofText? (s : String) : Option Resolution :=
  let w := Text.asciiLower (Text.trim s)
  [year, month, day].find? fun r => r.name == w

end Resolution

/-- A known comparison. -/
inductive FilterOperator where
  | eq
  | ne
  | gt
  | lt
  | ge
  | le
  | like
  | isIn
  deriving DecidableEq, Repr

namespace FilterOperator

/-- The sign of a comparison. -/
def sign : FilterOperator → String
  | eq => "="
  | ne => "!="
  | gt => ">"
  | lt => "<"
  | ge => ">="
  | le => "<="
  | like => "LIKE"
  | isIn => "IN"

/-- All comparisons. -/
def all : List FilterOperator := [eq, ne, gt, lt, ge, le, like, isIn]

/-- The comparison of a sign. -/
def ofSign? (s : String) : Option FilterOperator := all.find? fun o => o.sign == s

@[simp] theorem ofSign?_sign (o : FilterOperator) : ofSign? o.sign = some o := by
  cases o <;> decide

end FilterOperator

/-! ## Filters -/

/-- A condition on a column, with a known comparison. -/
structure PlanFilter where
  column : Identifier
  operator : FilterOperator
  value : Value

/-- The values that a column may equal: the items of a list, or the value itself. -/
def PlanFilter.values (f : PlanFilter) : List Value :=
  match f.value with
  | .list items => items
  | v => [v]

/-! ## Warnings -/

/-- A part of a specification that was dropped. -/
inductive Warning where
  | yAxisIsXAxis (name : String)
  | yAxisUnknown (raw : List String)
  | resolutionUnknown (raw : String)
  | groupUnknown (raw : String)
  | groupRepeated (raw : String)
  | filterOperator (field operator : String)
  | filterUnknown (field : String)
  | filterWithoutValues (field : String)
  | drillDownUnknown (raw : String)
  | orderUnknown (raw : String)
  | orderNotShown (raw : String)
  deriving DecidableEq, Repr

open Text (inApostrophes) in
/-- What is said of a part that was dropped. -/
def Warning.message : Warning → String
  | yAxisIsXAxis n => "yAxis " ++ inApostrophes n ++ " dropped: already used as xAxis"
  | yAxisUnknown raw => "yAxis columns dropped: " ++ ", ".intercalate raw
  | resolutionUnknown raw => "Resolution " ++ inApostrophes raw ++ " ignored"
  | groupUnknown raw => "groupBy " ++ inApostrophes raw ++ " dropped: unknown column"
  | groupRepeated raw => "groupBy " ++ inApostrophes raw ++ " dropped: column already selected"
  | filterOperator f op =>
    "Filter on " ++ inApostrophes f ++ " dropped: unsupported operator " ++ inApostrophes op
  | filterUnknown f => "Filter on " ++ inApostrophes f ++ " dropped: unknown column"
  | filterWithoutValues f =>
    "Filter on " ++ inApostrophes f ++ " dropped: IN needs at least one value"
  | drillDownUnknown raw => "drillDownLabelField " ++ inApostrophes raw ++ " dropped: unknown column"
  | orderUnknown raw => "orderBy " ++ inApostrophes raw ++ " dropped: unknown column"
  | orderNotShown raw => "orderBy " ++ inApostrophes raw ++ " dropped: not a result column"

/-! ## Plans -/

/-- A specification checked against the columns of its rows. -/
structure ChartPlan where
  yAxis : List Identifier
  aggregation : Aggregation
  xAxis : Option Identifier
  resolution : Option Resolution
  groupBy : List Identifier
  filters : List PlanFilter
  drillDownLabel : Option Identifier
  orderBy : Option Identifier
  descending : Bool
  limit : Int
  warnings : List Warning
  /-- The columns of doubles among those shown: their sums are compensated. -/
  compensated : List Identifier

namespace ChartPlan

/-- The columns by which rows are grouped, that of the horizontal axis first. -/
def groupingKeys (p : ChartPlan) : List Identifier := p.xAxis.toList ++ p.groupBy

/-- The columns of the result, in order. -/
def outputColumns (p : ChartPlan) : List Identifier :=
  p.groupingKeys ++ p.drillDownLabel.toList ++ p.yAxis

/-- The keys by which rows are ordered behind the column asked for, each once. -/
def trailingKeys (p : ChartPlan) : List Identifier :=
  (p.groupingKeys.filter fun k => p.orderBy != some k).eraseDups

/-- The keys that follow are those of the groups but for the column asked for. -/
theorem mem_trailingKeys {p : ChartPlan} {k : Identifier} :
    k ∈ p.trailingKeys ↔ k ∈ p.groupingKeys ∧ p.orderBy ≠ some k := by
  simp [trailingKeys]

end ChartPlan

end ChartQuery
