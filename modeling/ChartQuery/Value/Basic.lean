import ChartQuery.Entries
import ChartQuery.Number.Decimal
import ChartQuery.Calendar.Timestamp

/-!
# Values and records

Imported rows, filter values and result rows hold values of any kind.

## Main definitions

* `Value`: a value of any kind
* `Record`: a row, names with values in the order in which they were given
* `Record.value r name`: the value of a column, null where the record lacks it

## Main results

* `Record.value_of_get?`: what `get?` finds is the value
-/

namespace ChartQuery

/-- A value of any kind. A decimal is `digits · 10⁻ˢᶜᵃˡᵉ`. -/
inductive Value where
  | null
  | bool (b : Bool)
  | int (n : Int)
  | float (x : Binary64)
  | text (s : String)
  | date (d : CalendarDate)
  | timestamp (t : Timestamp)
  | decimal (digits : Int) (scale : Nat)
  | list (items : List Value)
  | object (fields : List (String × Value))

instance : Inhabited Value := ⟨.null⟩

/-- A row: names with values, in the order in which they were given. -/
abbrev Record := List (String × Value)

/-- The value that a record holds under a name. -/
def Record.get? (r : Record) (name : String) : Option Value := r.lookup name

/-- The value of a column, null where the record lacks it. -/
def Record.value (r : Record) (name : String) : Value := (r.lookup name).getD .null

theorem Record.value_of_get? {r : Record} {name : String} {v : Value}
    (h : r.get? name = some v) : r.value name = v := by
  have h' : r.lookup name = some v := h
  simp [Record.value, h']

/-- The record with a value put under a name: in place where the name occurs, else at the end. -/
def Record.put (r : Record) (name : String) (v : Value) : Record := Entries.assign r name v

theorem Record.get?_put (r : Record) (name k : String) (v : Value) :
    (r.put name v).get? k = if k = name then some v else r.get? k :=
  Entries.lookup_assign r name k v

namespace Value

/-- The value is null. -/
def isNull : Value → Bool
  | null => true
  | _ => false

/-- The value is null or a number that is none. -/
def isMissing : Value → Bool
  | null => true
  | float .nan => true
  | _ => false

/-- The value counts as given: it is neither null, nor false, zero or empty. -/
def isTruthy : Value → Bool
  | null => false
  | bool b => b
  | int n => n != 0
  | float x => !x.isZero
  | text s => !s.isEmpty
  | decimal n _ => n != 0
  | list items => !items.isEmpty
  | object fields => !fields.isEmpty
  | date _ | timestamp _ => true

/-- The value is a number; truth values are none. -/
def isNumber : Value → Bool
  | int _ | float _ => true
  | _ => false

/-- The value is a list or an object. -/
def isCompound : Value → Bool
  | list _ | object _ => true
  | _ => false

end Value

end ChartQuery
