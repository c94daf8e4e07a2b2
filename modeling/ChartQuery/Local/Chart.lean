import ChartQuery.Local.Bucket
import ChartQuery.Local.Filter
import ChartQuery.Local.Records
import ChartQuery.Local.Total
import ChartQuery.Plan.Label
import ChartQuery.Plan.Resolve
import ChartQuery.Result
import ChartQuery.Rows.Grouping
import ChartQuery.Rows.Ordering

/-!
# Charts over imported records

The records that a plan keeps are reduced to the columns that it shows, grouped, aggregated, ordered
and cut to the number of rows asked for. Without a column to group by there is exactly one row.

## Main definitions

* `Frame`: the shown columns of the kept records, each of one kind
* `ChartPlan.reduce`: one row for each group
* `ChartPlan.arrange`: the rows in order, as many as asked for
* `ChartPlan.apply`: the rows of a plan over cleaned records
* `localChart`: the chart of a specification over imported records

## Main results

* `firstRows_ofNat`: a number of rows that is not negative takes as many from the front
-/

namespace ChartQuery

/-! ## Frames -/

/-- The shown columns of the kept records, each of one kind. -/
structure Frame where
  kinds : List (String × ColumnKind)
  rows : List Record

namespace Frame

/-- The kind of a column. -/
def kind (f : Frame) (name : String) : ColumnKind := (f.kinds.lookup name).getD .mixed

/-- The values of a column. -/
def column (f : Frame) (name : String) : List Value := f.rows.map (·.value name)

end Frame

namespace ChartPlan

/-- The value that a plan shows of a record: on the horizontal axis, cut to the resolution. -/
def cell (p : ChartPlan) (c : Identifier) (r : Record) : Except Unforeseen Value :=
  match p.resolution with
  | some resolution =>
    if p.xAxis = some c then resolution.bucket (r.value c.name) else .ok (r.value c.name)
  | none => .ok (r.value c.name)

/-- The values of a shown column, which must be flat: not all of them are lists of one length. -/
def cells (p : ChartPlan) (rs : List Record) (c : Identifier) : Except Unforeseen (List Value) := do
  let vs ← rs.mapM (p.cell c)
  if 1 < columnDepth vs then .error (.notFlat (columnDepth vs)) else .ok vs

/-- The kind of a shown column; one of the vertical axis without any value counts as doubles. -/
def columnKind (p : ChartPlan) (c : Identifier) (vs : List Value) : ColumnKind :=
  if p.yAxis.contains c && vs.all Value.isNull then .double else .ofValues vs

/-- The rows that hold the given columns, which are all of the given length. -/
def rowsOfColumns (n : Nat) (columns : List (String × List Value)) : List Record :=
  columns.foldl (fun rows c => List.zipWith (fun r v => r ++ [(c.1, v)]) rows c.2)
    (List.replicate n [])

/-- The shown columns of records. -/
def frame (p : ChartPlan) (rs : List Record) : Except Unforeseen Frame := do
  let columns ← p.outputColumns.mapM fun c => do
    let vs ← p.cells rs c
    let kind := p.columnKind c vs
    .ok (c.name, kind, vs.map kind.convert)
  .ok ⟨columns.map fun c => (c.1, c.2.1),
    rowsOfColumns rs.length (columns.map fun c => (c.1, c.2.2))⟩

/-! ## Aggregation -/

/-- The first column of the vertical axis that cannot be summed. -/
def checkNumeric (p : ChartPlan) (f : Frame) : Except ExecutionFault Unit :=
  match p.yAxis.find? fun y => !(f.kind y.name).isNumeric with
  | some y =>
    if p.aggregation.needsNumbers then .error (.notNumeric p.aggregation.name y.name) else .ok ()
  | none => .ok ()

/-- The one row of a plan that does not group: the label first, then the vertical axis. -/
def wholeRow (p : ChartPlan) (f : Frame) : Except Failure Record := do
  let label ← p.drillDownLabel.toList.mapM fun c => do
    .ok (c.name, ← Aggregation.max.ofWhole (f.kind c.name) (f.column c.name))
  let values ← p.yAxis.mapM fun c => do
    .ok (c.name, ← p.aggregation.ofWhole (f.kind c.name) (f.column c.name))
  .ok (label ++ values)

/-- Each value as the first of a list that equals it. -/
def asFirstSeen (vs : List Value) : Value → Value := fun v => (vs.find? v.eqv).getD v

/-- The groups of the rows of a frame, under keys of which each value is written as it first occurs
in its column. Compound values cannot be grouped by. -/
def groups (p : ChartPlan) (f : Frame) : Except ExecutionFault (List (List Value × List Record)) :=
  let keys := p.groupingKeys.map (·.name)
  if f.rows.any fun r => keys.any fun k => (r.value k).isCompound then .error .mixedGroup
  else
    let firstSeen := keys.map fun k => (k, distinctKeys Value.eqv (f.column k))
    .ok (groupRows Value.eqvList
      (fun r => firstSeen.map fun k => asFirstSeen k.2 (r.value k.1)) f.rows)

/-- A column of the result; the numbers of a mixture are made alike. -/
def resultColumn (f : Frame) (name : String) (vs : List Value) : String × List Value :=
  (name, if f.kind name = .mixed then unifyNumbers vs else vs)

/-- An aggregate of each group. -/
def groupColumn (a : Aggregation) (f : Frame) (groups : List (List Value × List Record))
    (c : Identifier) : Except Failure (String × List Value) := do
  let vs ← groups.mapM fun g => a.ofGroup (f.kind c.name) (g.2.map (·.value c.name))
  .ok (resultColumn f c.name vs)

/-- One row for each group: its key, its label and the aggregates of the vertical axis. -/
def groupedRows (p : ChartPlan) (f : Frame) : Except Failure (List Record) := do
  let groups ← (p.groups f).mapError .execution
  let keys := (p.groupingKeys.mapIdx fun n c =>
    resultColumn f c.name (groups.map fun g => g.1.getD n .null))
  let values ← p.yAxis.mapM (groupColumn p.aggregation f groups)
  let label ← p.drillDownLabel.toList.mapM (groupColumn .max f groups)
  .ok (rowsOfColumns groups.length (keys ++ label ++ values))

/-- The rows of a frame, aggregated. -/
def reduce (p : ChartPlan) (f : Frame) : Except Failure (List Record) := do
  (p.checkNumeric f).mapError .execution
  if p.groupingKeys.isEmpty then .ok [← p.wholeRow f] else p.groupedRows f

/-! ## Order and number of rows -/

/-- The columns by which the rows of a result are sorted: the one asked for, then every other key,
each once. -/
def sortKeys (p : ChartPlan) : List SortKey :=
  (p.orderBy.toList.map fun c => ⟨c.name, p.descending⟩) ++
    p.trailingKeys.map fun k => ⟨k.name, false⟩

end ChartPlan

/-- All values have an order with the first of them. -/
def haveOrder : List Value → Bool
  | [] => true
  | v :: vs => vs.all fun w => (v.order w).toBool

/-- The rows can be sorted by several columns: none holds compound values, and text apart all values
of a column have an order. -/
def isSortableBySeveral (vs : List Value) : Bool :=
  vs.all (!·.isCompound) && haveOrder (vs.filter (!·.isText))

/-- The rows can be sorted. -/
def areSortable (keys : List SortKey) (rows : List Record) : Bool :=
  let present (k : SortKey) : List Value := presentValues (rows.map (·.value k.column))
  match keys with
  | [] => true
  | [k] => haveOrder (present k)
  | ks => ks.all fun k => isSortableBySeveral (present k)

/-- So many rows from the front; of a negative number, all but so many at the end. -/
def firstRows (n : Int) (rows : List Record) : List Record :=
  if n < 0 then rows.take (rows.length - n.natAbs) else rows.take n.toNat

/-- A number of rows that is not negative takes as many from the front. -/
theorem firstRows_ofNat (n : Nat) (rows : List Record) : firstRows n rows = rows.take n := by
  have h : ¬ (n : Int) < 0 := by omega
  simp [firstRows, h]

namespace ChartPlan

/-- The rows in order, as many as asked for. -/
def arrange (p : ChartPlan) (rows : List Record) : Except ExecutionFault (List Record) :=
  if areSortable p.sortKeys rows then .ok (firstRows p.limit (sortRows p.sortKeys rows))
  else .error (.mixedOrder (p.sortKeys.map (·.column)))

/-- The rows of a plan over cleaned records, before they are labelled. -/
def unlabelledRows (p : ChartPlan) (rs : List Record) : Except Failure (List Record) := do
  let kept ← (p.filterRows rs).mapError .execution
  let rows ← p.reduce (← (p.frame kept).mapError .unforeseen)
  (p.arrange rows).mapError .execution

/-- The rows of a plan over cleaned records. -/
def apply (p : ChartPlan) (rs : List Record) : Except Failure (List Record) :=
  (p.unlabelledRows rs).map (composeLabels p)

end ChartPlan

/-! ## Charts -/

/-- The chart of a specification over records. -/
def aggregateRecords (limits : RowLimits) (spec : ChartSpec) (rows : List Record)
    (maxRows : Option Int) : Except Failure ChartResult := do
  let rs := rows.map Record.cleaned
  let plan ← (resolvePlan limits spec (columnsOfRecords rs) maxRows).mapError .chart
  .ok (plan.result (← plan.apply rs))

/-- The chart of a specification over given records, or else over those that it brings along. -/
def localChart (limits : RowLimits) (spec : ChartSpec) (given : Option (List Record)) :
    Except Failure ChartResult :=
  match given.or spec.importedData with
  | none => .error (.chart .missingImportedData)
  | some rows =>
    if spec.yAxis.isEmpty then .error (.chart (.noValidYAxis []))
    else aggregateRecords limits spec rows none

end ChartQuery
