import ChartQuery.Database.Catalog
import ChartQuery.Local.Total
import ChartQuery.Rows.Ordering

/-!
# The aggregates of a database

Sums of whole numbers and decimals are exact, sums of doubles are compensated or plain, means are
doubles or, of dates, timestamps. What is not a number is greater than all numbers. Nulls do not
count.

## Main definitions

* `aggregateColumn? f t vs`: the aggregate of the values of a column, if its type allows it
-/

namespace ChartQuery

open Sql (AggregateFn)

/-- The sum of values of a type, which has to hold numbers. -/
def sumColumn? (t : ColumnType) (vs : List Value) : Option Value :=
  match t with
  | .integer | .bigint | .hugeint | .boolean =>
    some (if vs.isEmpty then .null else .int (total (vs.filterMap Value.asInt?)))
  | .double | .single =>
    some (if vs.isEmpty then .null
      else .float (Binary64.sumFrom .zero (vs.filterMap Value.double?)))
  | .decimal _ s =>
    let digits := (vs.filterMap Value.asDecimal?).map (·.1)
    some (if vs.isEmpty then .null else .decimal (total digits) s)
  | _ => none

/-- The first moment of the year 1970, by the clock. -/
def clockStart1970 : Int := 719163 * 86400000000

/-- The moment of a date or a timestamp. -/
def momentOf? : Value → Option Int
  | .date d => some (Timestamp.midnight d).clockMicros
  | .timestamp t => some t.clockMicros
  | _ => none

/-- The mean of moments: a rest of more than half of their number counts as one microsecond. -/
def meanMoment (ms : List Int) : Value :=
  let since := total (ms.map (· - clockStart1970))
  let more : Int := if ((ms.length / 2 : Nat) : Int) < since.tmod ms.length then 1 else 0
  match Timestamp.ofClockMicros? (clockStart1970 + since.tdiv ms.length + more) with
  | .ok t => .timestamp t
  | .error _ => .null

/-- The double nearest to a number. -/
def toDouble? (v : Value) : Option Binary64 :=
  match ColumnType.double.cast? v with
  | some (.float x) => some x
  | _ => none

/-- The mean of values of a type. -/
def meanColumn? (t : ColumnType) (vs : List Value) : Option Value :=
  let n := vs.length
  match t with
  | .integer | .bigint | .hugeint =>
    some (if vs.isEmpty then .null
      else .float (.ofLongQuotient (total (vs.filterMap Value.asInt?)) n))
  | .double | .single | .decimal _ _ =>
    some (if vs.isEmpty then .null
      else .float ((Binary64.sumFrom .zero (vs.filterMap toDouble?)).divNat n))
  | .date | .timestamp =>
    some (if vs.isEmpty then .null else meanMoment (vs.filterMap momentOf?))
  | _ => none

/-- The compensated sum of values that are numbers. -/
def compensatedColumn? (t : ColumnType) (vs : List Value) : Option Value :=
  if !t.holdsNumbers then none
  else some (if vs.isEmpty then .null
    else .float (Binary64.sumCompensated (vs.filterMap Value.double?)))

/-- The least or greatest of values of one type, the first of equal ones; null if there are none. -/
def extremeColumn (e : Extreme) : List Value → Value
  | [] => .null
  | v :: vs => vs.foldl (fun v w => if e.keeps (some (v.ranked w)) then v else w) v

/-- The aggregate of the values of a column, if its type allows it. -/
def aggregateColumn? (f : AggregateFn) (t : ColumnType) (values : List Value) : Option Value :=
  let vs := presentValues values
  match f with
  | .compensated => compensatedColumn? t vs
  | .plain .sum => sumColumn? t vs
  | .plain .avg => meanColumn? t vs
  | .plain .count => some (.int vs.length)
  | .plain .min => some (extremeColumn .least vs)
  | .plain .max => some (extremeColumn .greatest vs)

end ChartQuery
