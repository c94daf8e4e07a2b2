import ChartQuery.Entries
import ChartQuery.Result
import ChartQuery.Error
import ChartQuery.Spec.Request

/-!
# Batches

The charts of a batch are made one by one, and the failure of one keeps none of the others from
being made. The batch itself fails if it is empty or too large, or if no chart of it finds its data
source.

## Main definitions

* `BatchResult`: what became of one chart
* `runBatch`: the charts of a batch, made by a service
* `BatchMaps.ofResults`: rows, errors and warnings under the identifiers of their widgets
-/

namespace ChartQuery

/-- What became of one chart of a batch. -/
structure BatchResult where
  widgetId : String
  rows : List Record
  error : Option String
  warnings : List String

/-- What is said of a failure without a text. -/
def namelessFailure : String := "Query execution failed"

/-- What is said of the failure of one chart. -/
def Failure.chartMessage : Failure → String
  | .chart e => e.message
  | .unforeseen f => if f.message.isEmpty then namelessFailure else f.message

/-- The result of one chart. -/
def BatchResult.ofOutcome (widgetId : String) : Except Failure ChartResult → BatchResult
  | .ok r => ⟨widgetId, r.rows, none, r.warnings⟩
  | .error e => ⟨widgetId, [], some e.chartMessage, []⟩

/-! ## Running a batch -/

/-- A batch may be neither empty nor larger than the most. -/
def checkEnvelope (most : Int) (items : List BatchItem) : Except ChartError Unit :=
  if items.isEmpty then .error .emptyBatch
  else if most < items.length then .error (.batchTooLarge most)
  else .ok ()

/-- The outcome says that no data source could be found or opened. -/
def isPoolOutcome : Except Failure ChartResult → Bool
  | .error e => e.isPoolError
  | .ok _ => false

/-- The text of an outcome that is a failure. -/
def outcomeMessage : Except Failure ChartResult → String
  | .error e => e.message
  | .ok _ => ""

/-- The results of the outcomes of a batch, unless no chart of it finds its data source. -/
def settle (items : List BatchItem) (outcomes : List (Except Failure ChartResult)) :
    Except ChartError (List BatchResult) :=
  if outcomes.all isPoolOutcome then
    .error (.noDataSource ((outcomes.head?.map outcomeMessage).getD ""))
  else .ok (List.zipWith (fun i o => .ofOutcome i.widgetId o) items outcomes)

section Running

variable {m : Type → Type} [Monad m]

/-- The outcomes of the charts of a batch, in order. -/
def outcomes (service : ChartSpec → m (Except Failure ChartResult)) :
    List BatchItem → m (List (Except Failure ChartResult))
  | [] => pure []
  | i :: rest => do
    let outcome ← service i.spec
    let more ← outcomes service rest
    pure (outcome :: more)

/-- The results of a batch of at most so many charts. -/
def runBatch (most : Int) (service : ChartSpec → m (Except Failure ChartResult))
    (items : List BatchItem) : m (Except ChartError (List BatchResult)) :=
  match checkEnvelope most items with
  | .error e => pure (.error e)
  | .ok () => do
    let os ← outcomes service items
    pure (settle items os)

end Running

/-! ## Maps by widget -/

/-- Rows, errors and warnings under the identifiers of widgets. -/
structure BatchMaps where
  data : Entries (List Record)
  errors : Entries String
  warnings : Entries (List String)

namespace BatchMaps

/-- The maps with one more result; a later result of the same widget counts. -/
def add (m : BatchMaps) (r : BatchResult) : BatchMaps where
  data := if r.error.isSome then m.data else m.data.assign r.widgetId r.rows
  errors := match r.error with
    | some e => m.errors.assign r.widgetId e
    | none => m.errors
  warnings := if r.warnings.isEmpty then m.warnings else m.warnings.assign r.widgetId r.warnings

/-- The maps of the results of a batch. -/
def ofResults (rs : List BatchResult) : BatchMaps := rs.foldl add ⟨[], [], []⟩

end BatchMaps

/-! ## Results given from outside -/

/-- A result of a chart, from the fields of an object. -/
def checkBatchResult : Value → Checked BatchResult :=
  checkModel "BatchResult" fun r =>
    (checkRequired r "widget_id" "widget_id" checkText).map BatchResult.mk
      |>.apply (checkField r "rows" "rows" [] (checkList checkRecord))
      |>.apply (checkField r "error" "error" none (checkOptional checkText))
      |>.apply (checkField r "warnings" "warnings" [] (checkList checkText))

end ChartQuery
