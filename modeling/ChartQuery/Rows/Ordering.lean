import ChartQuery.Value.Compare

/-!
# The order of rows

Rows are sorted by several columns, each ascending or descending. Nulls come last in both
directions, and rows that tie stay in the order in which they were.

## Main definitions

* `SortKey`: a column and a direction
* `SortKey.compare`: the order of two values under a direction
* `sortRows keys rows`: the rows in order

## Main results

* `sortRows_perm`: sorting neither adds nor removes rows
-/

namespace ChartQuery

/-- The order of two values that are not null: text comes behind everything else, what is not a
number behind all numbers, and what has no order ties. -/
def Value.ranked (v w : Value) : Ordering :=
  match v, w with
  | .text s, .text t => Ord.compare s t
  | .text _, _ => .gt
  | _, .text _ => .lt
  | .float .nan, .float .nan => .eq
  | .float .nan, _ => .gt
  | _, .float .nan => .lt
  | v, w =>
    match v.order w with
    | .ok (some o) => o
    | _ => .eq

/-- A column to sort by. -/
structure SortKey where
  column : String
  descending : Bool
  deriving DecidableEq, Repr

namespace SortKey

/-- The order of two values under a direction; nulls come last. -/
def compare (k : SortKey) (v w : Value) : Ordering :=
  match v.isNull, w.isNull with
  | true, true => .eq
  | true, false => .gt
  | false, true => .lt
  | false, false => if k.descending then (v.ranked w).swap else v.ranked w

end SortKey

/-- The order of two rows: that of the first column in which they differ. -/
def compareRows (r s : Record) : List SortKey → Ordering
  | [] => .eq
  | k :: ks => (k.compare (r.value k.column) (s.value k.column)).then (compareRows r s ks)

/-- The rows in order. -/
def sortRows (keys : List SortKey) (rows : List Record) : List Record :=
  rows.mergeSort fun r s => compareRows r s keys != .gt

/-- Sorting neither adds nor removes rows. -/
theorem sortRows_perm (keys : List SortKey) (rows : List Record) :
    (sortRows keys rows).Perm rows :=
  List.mergeSort_perm _ _

@[simp] theorem length_sortRows (keys : List SortKey) (rows : List Record) :
    (sortRows keys rows).length = rows.length :=
  (sortRows_perm keys rows).length_eq

end ChartQuery
