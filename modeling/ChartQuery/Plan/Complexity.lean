import ChartQuery.Spec.Basic

/-!
# The size of specifications

A specification may hold only so many conditions and columns.

## Main definitions

* `ChartSpec.isWithinLimits`: the specification is not too large
* `isWithinLimits? r`: the same of the fields of an object of any kinds
-/

namespace ChartQuery

/-- The most conditions. -/
def maxFilters : Nat := 20

/-- The most columns by which to group. -/
def maxGroups : Nat := 10

/-- The most columns of the vertical axis. -/
def maxYAxis : Nat := 20

/-- The specification is not too large; a single name by which to group is no list of them. -/
def ChartSpec.isWithinLimits (s : ChartSpec) : Bool :=
  s.filters.length ≤ maxFilters &&
    (match s.groupBy with
      | .several names => names.length ≤ maxGroups
      | _ => true) &&
    s.yAxis.length ≤ maxYAxis

/-- The size of a value that has one: nothing has none, a text its characters, a list its items, an
object its fields. -/
def Value.size? : Value → Option Nat
  | .text s => some s.length
  | .list items => some items.length
  | .object fields => some fields.length
  | v => if v.isTruthy then none else some 0

/-- The fields of an object are not too large; none if one that is asked for its size has none. -/
def isWithinLimits? (r : Record) : Option Bool := do
  let filters ← (r.value "filters").size?
  if maxFilters < filters then some false
  else
    let groups := match r.value "group_by" with
      | .list items => items.length
      | _ => 0
    if maxGroups < groups then some false
    else
      let yAxis ← (r.value "y_axis").size?
      some (yAxis ≤ maxYAxis)

end ChartQuery
