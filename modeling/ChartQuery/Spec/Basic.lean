import ChartQuery.Value.Basic
import ChartQuery.Text.Blank

/-!
# Chart specifications

A chart specification says which columns of which rows a chart shows, how they are grouped, filtered
and ordered, and whether the rows come from a table, a custom query or the specification itself.

## Main definitions

* `ChartSpec`: a chart specification
* `ChartSpec.effectiveMode`: where the rows come from
* `ChartSpec.withinDates`: the specification with a date range added to its filters
-/

namespace ChartQuery

/-- A condition on a column, as specified: the operator may be unknown. -/
structure FilterSpec where
  field : String
  operator : String
  value : Value

/-- The columns by which to group, besides that of the horizontal axis. -/
inductive GroupBy where
  | none
  | one (name : String)
  | several (names : List String)
  deriving DecidableEq, Repr

/-- The names of the columns by which to group, without the empty ones. -/
def GroupBy.names : GroupBy → List String
  | none => []
  | one name => if name.isEmpty then [] else [name]
  | several names => names.filter (!·.isEmpty)

/-- Where the rows of a chart come from: a table, a custom query, or the specification. -/
inductive QueryMode where
  | simple
  | custom
  | imported
  deriving DecidableEq, Repr

/-- The name of a mode. -/
def QueryMode.name : QueryMode → String
  | simple => "simple"
  | custom => "custom"
  | imported => "import"

/-- A chart specification. -/
structure ChartSpec where
  table : Option String
  xAxis : Option String
  yAxis : List String
  aggregation : String
  groupBy : GroupBy
  orderBy : Option String
  orderDirection : String
  limit : Option Int
  filters : List FilterSpec
  resolution : Option String
  drillDownLabel : Option String
  mode : QueryMode
  customQuery : Option String
  importedData : Option (List Record)
  connectionId : Option String
  dateColumn : Option String
  startDateColumn : Option String
  endDateColumn : Option String

/-- A text that is given and not empty. -/
def given? : Option String → Option String
  | some s => if s.isEmpty then none else some s
  | none => none

namespace ChartSpec

/-- Where the rows come from: a custom query that is given stands in for a table. -/
def effectiveMode (s : ChartSpec) : QueryMode :=
  if s.mode = .simple && s.customQuery.any (!Text.isBlankText ·) then .custom else s.mode

/-! ## Date ranges -/

/-- The column that is compared with the start of a date range. -/
def startColumn? (s : ChartSpec) : Option String :=
  (given? s.startDateColumn).or (given? s.dateColumn)

/-- The column that is compared with the end of a date range. -/
def endColumn? (s : ChartSpec) : Option String :=
  (given? s.endDateColumn).or (given? s.dateColumn)

/-- The filters of a date range; each bound is given as its written form. -/
def rangeFilters (s : ChartSpec) (first last : Option String) : List FilterSpec :=
  let bound (column bound : Option String) (operator : String) : List FilterSpec :=
    match column, bound with
    | some c, some b => [⟨c, operator, .text b⟩]
    | _, _ => []
  bound s.startColumn? first ">=" ++ bound s.endColumn? last "<="

/-- The specification with the filters of a date range behind its own. -/
def withinDates (s : ChartSpec) (first last : Option String) : ChartSpec :=
  { s with filters := s.filters ++ s.rangeFilters first last }

end ChartSpec

end ChartQuery
