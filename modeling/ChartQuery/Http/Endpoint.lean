import ChartQuery.Database.Catalog
import ChartQuery.Http.Message
import ChartQuery.Http.Query
import ChartQuery.Service.Batch
import ChartQuery.Spec.Basic

/-!
# Endpoints

The endpoints answer with a chart, with the charts of a batch, with the tables of a data source, or
with the columns of a table. What they answer with is made by services, of which nothing is assumed.

## Main definitions

* `Http.Services`: what makes the answers
* `Http.Services.answerChart`, `Http.Services.answerBatch`: the responses with charts
* `Http.Services.answerTables`, `Http.Services.answerColumns`: the responses with a catalog
-/

namespace ChartQuery

namespace Http

/-- What makes the answers: charts, the tables of a data source and the columns of a table of it;
and how many charts a batch may have. -/
structure Services (m : Type → Type) where
  chart : ChartSpec → m (Except Failure ChartResult)
  tables : Option String → m (Except Failure (List TableRef))
  columns : Option String → String → m (Except Failure (List Column))
  mostCharts : Int

namespace Response

/-- A field that is shown only if it holds something. -/
def unlessEmpty (name : String) (isEmpty : Bool) (v : Value) : Record :=
  if isEmpty then [] else [(name, v)]

/-- The response with a chart. -/
def ofChart (r : ChartResult) : Response :=
  success (("data", shownRows r.rows) ::
    unlessEmpty "warnings" r.warnings.isEmpty (writtenTexts r.warnings))

/-- The response with the charts of a batch. -/
def ofMaps (m : BatchMaps) : Response :=
  let data := m.data.filter fun e => isShownName e.1
  success (("data", .object (data.map fun (k, rows) => (k, shownRows rows))) ::
    unlessEmpty "errors" m.errors.isEmpty (.object (m.errors.map fun (k, e) => (k, .text e))) ++
    unlessEmpty "warnings" m.warnings.isEmpty
      (.object (m.warnings.map fun (k, ws) => (k, writtenTexts ws))))

/-- The response with the tables of a data source. -/
def ofTables (ts : List TableRef) : Response :=
  success [("data", .list (ts.map fun t =>
    .object [("schema", .text t.schema), ("name", .text t.table)]))]

/-- The response with the columns of a table. -/
def ofColumns (table : String) (cs : List Column) : Response :=
  success [("table", .text table), ("columns", .list (cs.map fun c =>
    .object [("name", .text c.name), ("type", .text c.type.name)]))]

/-- The response to what was made, or to its failure. -/
def ofOutcome {α : Type} (f : α → Response) : Except Failure α → Response
  | .ok a => f a
  | .error e => ofFailure e

end Response

namespace Services

variable {m : Type → Type} [Monad m]

/-- The response with the chart of a body. -/
def answerChart (s : Services m) (body : Body) : m Response :=
  match body.read checkChartRequest with
  | .error refusal => pure refusal
  | .ok spec => do return .ofOutcome .ofChart (← s.chart spec)

/-- The response with the charts of a body. -/
def answerBatch (s : Services m) (body : Body) : m Response :=
  match body.read checkBatchRequest with
  | .error refusal => pure refusal
  | .ok b => do
    let results ← runBatch s.mostCharts s.chart b.ranged
    return .ofOutcome (fun rs => .ofMaps (.ofResults rs)) (results.mapError .chart)

/-- The response with the tables of the data source that a query names. -/
def answerTables (s : Services m) (query : String) : m Response := do
  return .ofOutcome .ofTables (← s.tables (queryField? query "connectionId"))

/-- The response with the columns of a table of the data source that a query names. -/
def answerColumns (s : Services m) (query table : String) : m Response := do
  return .ofOutcome (.ofColumns table) (← s.columns (queryField? query "connectionId") table)

end Services

end Http

end ChartQuery
