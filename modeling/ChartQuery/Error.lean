import ChartQuery.Value.Compare
import ChartQuery.Number.ExactSum

/-!
# Errors of charts

Why a chart cannot be shown, and with which status a request for it is answered: 400 for a fault of
the request, 404 for what does not exist, 500 for a failure while it is made.

## Main definitions

* `ExecutionFault`: why a query cannot be carried out
* `ChartError`: why a chart cannot be shown
* `ChartError.message`, `ChartError.status`: what is answered
* `Unforeseen`: a failure that is no chart error
* `Failure`: either of the two
-/

namespace ChartQuery

open Text (inApostrophes)

/-- Why a query cannot be carried out. -/
inductive ExecutionFault where
  /-- The text holds none or several statements. -/
  | notOneStatement
  /-- The database refuses or fails. -/
  | database
  /-- An operator other than membership is given a compound value. -/
  | compoundValue (operator column : String) (value : Value)
  /-- A pattern is matched against a value that is no text. -/
  | patternOnKind (column kind : String)
  /-- A text cannot be converted to the kind that it is compared with. -/
  | conversion (right left reason : String)
  /-- Two values have no order. -/
  | incomparable (column : String) (value : Value) (operator : String) (reason : Incomparable)
  /-- Only numbers can be summed. -/
  | notNumeric (aggregation column : String)
  /-- The values of a column have no common order in a group. -/
  | mixedGroup
  /-- The values by which rows are sorted have no common order. -/
  | mixedOrder (columns : List String)

/-- What is said of a query that cannot be carried out. -/
def ExecutionFault.message : ExecutionFault → String
  | notOneStatement => "Exactly one SQL statement can be executed"
  | database => "Query execution failed"
  | compoundValue op c v =>
    "Operator " ++ op ++ " on column " ++ inApostrophes c ++ " needs a single value, got " ++
      v.literal
  | patternOnKind c k =>
    "LIKE needs a text column, " ++ inApostrophes c ++ " holds " ++ k ++ " values"
  | conversion r l e =>
    "Could not convert " ++ inApostrophes r ++ " for comparison with " ++ inApostrophes l ++ ": " ++
      e
  | incomparable c v op e =>
    "Cannot compare column " ++ inApostrophes c ++ " with " ++ v.literal ++ ": " ++ e.message op
  | notNumeric a c => "Cannot apply " ++ a ++ " to non-numeric column " ++ inApostrophes c
  | mixedGroup => "Cannot aggregate columns with mixed value types"
  | mixedOrder cs => "Cannot order columns " ++ ", ".intercalate cs ++ " with mixed value types"

/-- Why a chart cannot be shown. -/
inductive ChartError where
  | missingTable
  | missingImportedData
  | tooComplex
  | emptyBatch
  | batchTooLarge (most : Int)
  | noValidYAxis (rejected : List String)
  | invalidXAxis (column : String)
  | invalidQuery (reason : String)
  | tableNotFound (table : String)
  | schemaLookup
  | connectionNotFound (id : String)
  | sourceUnopened (name : String)
  | noDataSource (reason : String)
  | poolUnresolved (reason : String)
  | execution (fault : ExecutionFault)

namespace ChartError

/-- What is said of a chart that cannot be shown. -/
def message : ChartError → String
  | missingTable => "Missing required field: table"
  | missingImportedData => "importedData is required in import mode"
  | tooComplex => "Query complexity exceeds limits"
  | emptyBatch => "Requests array is required and must not be empty"
  | batchTooLarge n => "Maximum " ++ toString n ++ " charts per batch request"
  | noValidYAxis [] => "No valid Y-axis columns found"
  | noValidYAxis rejected =>
    "No valid Y-axis columns found (rejected: " ++ ", ".intercalate rejected ++ ")"
  | invalidXAxis c => "X-axis column " ++ inApostrophes c ++ " not found"
  | invalidQuery reason => reason
  | tableNotFound t => "Table " ++ inApostrophes t ++ " not found"
  | schemaLookup => "Schema lookup failed"
  | connectionNotFound id => "Database connection not found: " ++ id
  | sourceUnopened name => "Could not open data source " ++ inApostrophes name
  | noDataSource reason => "No data source could be resolved: " ++ reason
  | poolUnresolved reason => reason
  | execution fault => fault.message

/-- The status with which the error is answered. -/
def status : ChartError → Nat
  | missingTable | missingImportedData | tooComplex | emptyBatch | batchTooLarge _ => 400
  | noValidYAxis _ | invalidXAxis _ | invalidQuery _ => 400
  | tableNotFound _ | schemaLookup | connectionNotFound _ => 404
  | sourceUnopened _ | noDataSource _ | poolUnresolved _ | execution _ => 500

/-- The error says that no data source could be found or opened. -/
def isPoolError : ChartError → Bool
  | connectionNotFound _ | sourceUnopened _ | noDataSource _ | poolUnresolved _ => true
  | _ => false

end ChartError

/-! ## Failures that nobody foresaw -/

/-- A failure that is no chart error. -/
inductive Unforeseen where
  /-- Two values have no order. -/
  | noOrder (operator : String) (reason : Incomparable)
  /-- Two values of these kinds have no sum. -/
  | noSum (left right : String)
  /-- A source is to have less than no connections. -/
  | negativeSlots
  /-- A whole number is too large for a double. -/
  | tooLarge
  /-- A sum of doubles cannot be formed. -/
  | doubles (fault : SumError)
  /-- The values of a column are lists of one length, and need so many indices. -/
  | notFlat (depth : Nat)
  /-- A day of the year 0, or of a year before it, is asked for its date. -/
  | beforeCalendar
  /-- A failure of which only its text is known. -/
  | raised (text : String)

/-- The text of a failure that is no chart error. -/
def Unforeseen.message : Unforeseen → String
  | noOrder op reason => reason.message op
  | noSum l r =>
    "unsupported operand type(s) for +: " ++ inApostrophes l ++ " and " ++ inApostrophes r
  | negativeSlots => "semaphore initial value must be >= 0"
  | tooLarge => "int too large to convert to float"
  | doubles .overflow => "intermediate overflow in fsum"
  | doubles .oppositeInfinities => "-inf + inf in fsum"
  | notFlat n => "Buffer has wrong number of dimensions (expected 1, got " ++ toString n ++ ")"
  | beforeCalendar =>
    "date not yet supported on Timestamps which are outside the range of Python's standard " ++
      "library. For now, please call the components you need (such as `.year` and `.month`) and " ++
      "construct your string from there."
  | raised text => text

/-- A chart error, or a failure that is none. -/
inductive Failure where
  | chart (error : ChartError)
  | unforeseen (fault : Unforeseen)

namespace Failure

/-- The failure is that of a query that cannot be carried out. -/
def execution (fault : ExecutionFault) : Failure := chart (.execution fault)

/-- The text of a failure. -/
def message : Failure → String
  | chart e => e.message
  | unforeseen f => f.message

/-- The failure says that no data source could be found or opened. -/
def isPoolError : Failure → Bool
  | chart e => e.isPoolError
  | unforeseen _ => false

end Failure

end ChartQuery
