import ChartQuery.Plan.Basic

/-!
# Results of charts

## Main definitions

* `ChartResult`: the rows of a chart, and what had to be dropped to make them
-/

namespace ChartQuery

/-- The rows of a chart with the warnings about them. -/
structure ChartResult where
  rows : List Record
  warnings : List String

/-- The result of a plan: its rows with its warnings. -/
def ChartPlan.result (p : ChartPlan) (rows : List Record) : ChartResult :=
  ⟨rows, p.warnings.map Warning.message⟩

end ChartQuery
