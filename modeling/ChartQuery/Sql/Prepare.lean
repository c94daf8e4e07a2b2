import ChartQuery.Sql.Query
import ChartQuery.Sql.Validation
import ChartQuery.Plan.Resolve

/-!
# Queries ready to run

A chart over a table is compiled to a query; a custom query is run as it is, or, where the
specification filters its rows, inside a selection of the rows that satisfy the filters.

## Main definitions

* `Prepared`: a query text, its parameters and what was dropped from the specification
* `compile`: the query of a specification over a table
* `prepareCustom`: a checked custom query with filters around it
-/

namespace ChartQuery.Sql

/-- A query text, the values bound to its parameters, and what was dropped from the
specification. -/
structure Prepared where
  text : String
  parameters : List (String × Value)
  warnings : List Warning

/-- The plan of a specification over a table and its query. -/
structure Compiled where
  plan : ChartPlan
  query : Query

/-- The query text of a compiled specification. -/
def Compiled.prepared (c : Compiled) : Prepared :=
  ⟨c.query.text, planParameters c.plan, c.plan.warnings⟩

/-- The query of a specification over a table, by default the one that it names. -/
def compile (limits : RowLimits) (spec : ChartSpec) (columns : ColumnSet)
    (table : Option TableRef) (maxRows : Option Int) : Except ChartError Compiled := do
  let plan ← resolvePlan limits spec columns maxRows
  let table := table.getD ⟨"", spec.table.getD ""⟩
  .ok ⟨plan, .ofPlan plan table⟩

/-! ## Custom queries -/

/-- What is said when filters are given with the execution of a procedure. -/
def filteredExecMessage : String := "Filters cannot be applied to EXEC statements"

/-- The text of a selection of the rows of a query that satisfy conditions. The query ends with its
line, so that a comment at its end does not reach further. -/
def filteredText (query : String) (conditions : List Condition) : String :=
  "SELECT * FROM (" ++ query ++ "\n) AS _filtered_sub WHERE " ++ conjunction conditions

/-- A checked custom query with filters around it. -/
def prepareCustom (v : Validation) (filters : List FilterSpec) : Except ChartError Prepared :=
  let refusal : ChartError :=
    .invalidQuery (((v.error.filter (!·.isEmpty))).getD "Invalid query")
  match v.query.filter (!·.isEmpty) with
  | none => .error refusal
  | some query =>
    if !v.isValid then .error refusal
    else
      let (kept, warnings) := resolveFilters none filters
      if kept.isEmpty then .ok ⟨query, [], warnings⟩
      else if v.isExec then .error (.invalidQuery filteredExecMessage)
      else .ok ⟨filteredText query (filterConditions kept), filtersParameters kept, warnings⟩

end ChartQuery.Sql
