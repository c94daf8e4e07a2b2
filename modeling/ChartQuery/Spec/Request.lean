import ChartQuery.Spec.Basic
import ChartQuery.Spec.DateField
import ChartQuery.Spec.Scalar
import ChartQuery.Text.Uppercase
import ChartQuery.Value.Text

/-!
# Requests

A request is an object of any fields. The fields of a specification are read from it under two
names, of which the first wins; unknown fields count for nothing.

## Main definitions

* `checkFilter`, `checkSpec`: a condition and a specification read from a value
* `ChartSpec.written`: a specification written out as it may be given
* `checkChartRequest`: a specification with a date range applied
* `BatchRequest`, `checkBatchRequest`: a list of specifications under identifiers
-/

namespace ChartQuery

/-! ## Fields -/

/-- The value of a field under the first of its names that is given, and that name. -/
def givenField? (r : Record) (name alternative : String) : Option (String × Value) :=
  match r.get? name with
  | some v => some (name, v)
  | none => (r.get? alternative).map (alternative, ·)

/-- A field that may be left out. -/
def checkField {α : Type} (r : Record) (name alternative : String) (default : α)
    (check : Value → Checked α) : Checked α :=
  match givenField? r name alternative with
  | some (given, v) => (check v).under (.name given)
  | none => .ok default

/-- A field that has to be given. -/
def checkRequired {α : Type} (r : Record) (name alternative : String)
    (check : Value → Checked α) : Checked α :=
  match givenField? r name alternative with
  | some (given, v) => (check v).under (.name given)
  | none => Checked.under (.name name) (.issue .missing)

/-- The fields of an object, or the issue that the value is no such model. -/
def checkModel {α : Type} (model : String) (check : Record → Checked α) : Value → Checked α
  | .object fs => check fs
  | _ => .issue (.notModel model)

/-! ## Filters -/

/-- An operator in its uniform spelling; a missing one is equality. -/
def operatorName : Value → String
  | .null => "="
  | v => Text.upper (Text.trim v.plain)

/-- A condition. -/
def checkFilter : Value → Checked FilterSpec :=
  checkModel "FilterCondition" fun r =>
    (checkRequired r "field" "field" checkText).map FilterSpec.mk
      |>.apply (checkField r "operator" "operator" "=" fun v => .ok (operatorName v))
      |>.apply (checkField r "value" "value" .null .ok)

/-! ## Specifications -/

/-- The columns by which to group: null, a name, or a list of names. -/
def checkGroupBy : Value → Checked GroupBy
  | .null => .ok .none
  | .text s => .ok (.one s)
  | v =>
    match checkList checkText v with
    | .ok names => .ok (.several names)
    | .refused issues => .refused (⟨[.name "str"], .notText⟩ ::
        issues.map (Issue.under (.name "list[str]")))
    | .beyondCalendar fault => .beyondCalendar fault

/-- A mode by its name, in letters of any case; null is the simple one. -/
def checkMode : Value → Checked QueryMode
  | .null => .ok .simple
  | .text s =>
    let w := Text.asciiLower s
    match [QueryMode.simple, .custom, .imported].find? fun m => m.name == w with
    | some m => .ok m
    | none => .issue .mode
  | _ => .issue .mode

/-- A specification from the fields of an object. -/
def checkSpecFields (r : Record) : Checked ChartSpec :=
  let optionalText (name alternative : String) : Checked (Option String) :=
    checkField r name alternative none (checkOptional checkText)
  (optionalText "table" "table").map ChartSpec.mk
    |>.apply (optionalText "xAxis" "x_axis")
    |>.apply (checkField r "yAxis" "y_axis" [] (checkList checkText))
    |>.apply (checkField r "aggregation" "aggregation" "sum" checkText)
    |>.apply (checkField r "groupBy" "group_by" .none checkGroupBy)
    |>.apply (optionalText "orderBy" "order_by")
    |>.apply (checkField r "orderDirection" "order_direction" "asc" checkText)
    |>.apply (checkField r "limit" "limit" (some 50) (checkOptional checkInt))
    |>.apply (checkField r "filters" "filters" [] (checkList checkFilter))
    |>.apply (optionalText "resolution" "resolution")
    |>.apply (optionalText "drillDownLabelField" "drill_down_label_field")
    |>.apply (checkField r "queryMode" "query_mode" .simple checkMode)
    |>.apply (optionalText "customQuery" "custom_query")
    |>.apply (checkField r "importedData" "imported_data" none
      (checkOptional (checkList checkRecord)))
    |>.apply (optionalText "connectionId" "connection_id")
    |>.apply (optionalText "dateColumn" "date_column")
    |>.apply (optionalText "startDateColumn" "start_date_column")
    |>.apply (optionalText "endDateColumn" "end_date_column")

/-- A specification. -/
def checkSpec : Value → Checked ChartSpec := checkModel "ChartDataSource" checkSpecFields

/-! ## Writing out -/

/-- A text that may be missing. -/
def writtenText : Option String → Value
  | some s => .text s
  | none => .null

/-- A list of texts. -/
def writtenTexts (ss : List String) : Value := .list (ss.map Value.text)

/-- The columns by which to group, as they may be given. -/
def GroupBy.written : GroupBy → Value
  | .none => .null
  | .one name => .text name
  | .several names => writtenTexts names

/-- A condition, as it may be given. -/
def FilterSpec.written (f : FilterSpec) : Value :=
  .object [("field", .text f.field), ("operator", .text f.operator), ("value", f.value)]

/-- The fields of a specification under their second names, as they may be given. -/
def ChartSpec.written (s : ChartSpec) : Record :=
  [("table", writtenText s.table),
    ("x_axis", writtenText s.xAxis),
    ("y_axis", writtenTexts s.yAxis),
    ("aggregation", .text s.aggregation),
    ("group_by", s.groupBy.written),
    ("order_by", writtenText s.orderBy),
    ("order_direction", .text s.orderDirection),
    ("limit", (s.limit.map Value.int).getD .null),
    ("filters", .list (s.filters.map FilterSpec.written)),
    ("resolution", writtenText s.resolution),
    ("drill_down_label_field", writtenText s.drillDownLabel),
    ("query_mode", .text s.mode.name),
    ("custom_query", writtenText s.customQuery),
    ("imported_data", (s.importedData.map fun rows => .list (rows.map Value.object)).getD .null),
    ("connection_id", writtenText s.connectionId),
    ("date_column", writtenText s.dateColumn),
    ("start_date_column", writtenText s.startDateColumn),
    ("end_date_column", writtenText s.endDateColumn)]

/-! ## Date ranges -/

/-- The bounds of a date range, both inclusive. -/
structure DateRange where
  first : Option CalendarDate
  last : Option CalendarDate
  deriving DecidableEq

/-- A date range. -/
def checkDateRange : Value → Checked DateRange :=
  checkModel "DateRange" fun r =>
    (checkField r "from" "from_" none (checkOptional checkDate)).map DateRange.mk
      |>.apply (checkField r "to" "to" none (checkOptional checkDate))

/-- The specification with the filters of a date range, if there is one. -/
def ChartSpec.within (s : ChartSpec) : Option DateRange → ChartSpec
  | some range =>
    s.withinDates (range.first.map CalendarDate.isoText) (range.last.map CalendarDate.isoText)
  | none => s

/-- The date range of a request. -/
def checkRangeField (r : Record) : Checked (Option DateRange) :=
  checkField r "dateRange" "date_range" none (checkOptional checkDateRange)

/-- A specification, and the date range given beside its fields. -/
structure ChartRequest where
  spec : ChartSpec
  range : Option DateRange

/-- The specification of a request, written out and read again, with its date range applied. -/
def ChartRequest.source (q : ChartRequest) : Checked ChartSpec :=
  (checkSpec (.object q.spec.written)).map (·.within q.range)

/-- A specification with the date range given beside its fields applied. -/
def checkChartRequest (v : Value) : Checked ChartSpec :=
  let request := checkModel "ChartDataRequest" fun r =>
    (checkSpecFields r).map ChartRequest.mk |>.apply (checkRangeField r)
  (request v).bind ChartRequest.source

/-! ## Batches -/

/-- A specification under the identifier of the widget that shows it. -/
structure BatchItem where
  widgetId : String
  spec : ChartSpec

/-- A list of specifications, and the date range for all of them. -/
structure BatchRequest where
  items : List BatchItem
  range : Option DateRange

/-- An item of a batch. -/
def checkBatchItem : Value → Checked BatchItem :=
  checkModel "BatchRequest" fun r =>
    (checkRequired r "widgetId" "widget_id" checkText).map BatchItem.mk
      |>.apply (checkRequired r "config" "config" checkSpec)

/-- A batch. -/
def checkBatchRequest : Value → Checked BatchRequest :=
  checkModel "BatchChartDataRequest" fun r =>
    (checkField r "requests" "requests" [] (checkList checkBatchItem)).map BatchRequest.mk
      |>.apply (checkRangeField r)

/-- The items of a batch with its date range applied to each. -/
def BatchRequest.ranged (b : BatchRequest) : List BatchItem :=
  b.items.map fun i => { i with spec := i.spec.within b.range }

end ChartQuery
