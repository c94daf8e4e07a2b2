import ChartQuery.Plan.Basic

/-!
# Labels of groups

Where rows are grouped by more than the horizontal axis, the axis shows the label of the whole
group: the text forms of its keys, joined.

## Main definitions

* `labelPart v`: the text form of a key
* `composeLabels p rows`: the rows with the labels of their groups on the horizontal axis
-/

namespace ChartQuery

/-- The text form of a key; null has none. -/
def labelPart : Value → String
  | .null => ""
  | v => v.plain

/-- What stands between the parts of a label. -/
def labelSeparator : String := " - "

/-- The label of a row grouped by the given columns. -/
def groupLabel (keys : List Identifier) (row : Record) : String :=
  labelSeparator.intercalate (keys.map fun k => labelPart (row.value k.name))

/-- The rows with the labels of their groups on the horizontal axis. -/
def composeLabels (p : ChartPlan) (rows : List Record) : List Record :=
  match p.xAxis with
  | some x =>
    if p.groupBy.isEmpty then rows
    else rows.map fun row => row.put x.name (.text (groupLabel (x :: p.groupBy) row))
  | none => rows

end ChartQuery
