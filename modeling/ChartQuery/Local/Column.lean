import ChartQuery.Number.Whole
import ChartQuery.Value.Compare

/-!
# Kinds of columns

The values of a column decide its kind: words of 64 bits, doubles, truth values, text, timestamps,
or a mixture of values of any kinds. Missing values decide nothing, and in a column of doubles whole
numbers become doubles.

## Main definitions

* `ColumnKind`: the kind of a column
* `ColumnKind.ofValues`: the kind that values decide
* `ColumnKind.convert`: a value as a column of a kind holds it
* `columnDepth`: how many indices a value of a column needs

## Main results

* `ColumnKind.ofPresent_ints`: whole numbers of 64 bits make a column of signed words
-/

namespace ChartQuery

/-- The kind of a column. -/
inductive ColumnKind where
  | signed
  | unsigned
  | double
  | truth
  | text
  | moment
  | mixed
  deriving DecidableEq, Repr

/-! ## Numbers -/

namespace Value

/-- The whole number that a value is. -/
def int? : Value → Option Int
  | int n => some n
  | _ => none

/-- The value is a truth value. -/
def isBool : Value → Bool
  | bool _ => true
  | _ => false

/-- The value is a text. -/
def isText : Value → Bool
  | text _ => true
  | _ => false

/-- The value is a double. -/
def isDouble : Value → Bool
  | float _ => true
  | _ => false

/-- A whole number as a double; any other value as it is. -/
def toDouble : Value → Value
  | int n => float (.ofInt n)
  | v => v

end Value

namespace ColumnKind

/-! ## The kind of given values -/

/-- Whole numbers make a column of words if they fit into words of one kind. -/
def ofInts (ns : List Int) : ColumnKind :=
  if ns.all isSignedWord then signed else if ns.all isUnsignedWord then unsigned else mixed

/-- All values are timestamps that show the same offset, or all of them none. -/
def haveOneOffset : List Value → Bool
  | .timestamp t :: vs =>
    vs.all fun
      | .timestamp u => u.offset == t.offset
      | _ => false
  | _ => false

/-- The kind that values decide of which none is missing. -/
def ofPresent (vs : List Value) : ColumnKind :=
  let ofNumbers := ofInts (vs.filterMap Value.int?)
  if vs.all fun v => v.int?.isSome then ofNumbers
  else if vs.all Value.isNumber then (if ofNumbers = mixed then mixed else double)
  else if vs.all Value.isBool then truth
  else if vs.all Value.isText then text
  else if haveOneOffset vs then moment
  else mixed

/-- The kind that values decide: missing values decide nothing, and where all are missing, nulls
make a mixture and numbers that are none doubles. -/
def ofValues (vs : List Value) : ColumnKind :=
  let present := vs.filter (!·.isMissing)
  if present.isEmpty then (if vs.isEmpty || vs.any (!·.isNull) then double else mixed)
  else ofPresent present

/-- Whole numbers of 64 bits make a column of signed words. -/
theorem ofPresent_ints {ns : List Int} (h : ns.all isSignedWord) :
    ofPresent (ns.map Value.int) = signed := by
  have hints : (ns.map Value.int).filterMap Value.int? = ns := by
    simp [List.filterMap_map, Function.comp_def, Value.int?]
  have hall : ((ns.map Value.int).all fun v => v.int?.isSome) = true := by
    simp [Value.int?]
  simp [ofPresent, hints, hall, ofInts, h]

/-! ## Values of a column -/

/-- A value as a column of a kind holds it. -/
def convert (k : ColumnKind) (v : Value) : Value :=
  if v.isMissing then .null else if k = double then v.toDouble else v

/-- Only numbers and truth values can be summed. -/
def isNumeric : ColumnKind → Bool
  | signed | unsigned | double | truth => true
  | text | moment | mixed => false

end ColumnKind

/-! ## Lists in columns -/

/-- What two shapes begin with alike. -/
def commonStart : List Nat → List Nat → List Nat
  | m :: ms, n :: ns => if m = n then m :: commonStart ms ns else []
  | _, _ => []

/-- What all of several shapes begin with alike. -/
def commonShape : List (List Nat) → List Nat
  | [] => []
  | shape :: shapes => shapes.foldl commonStart shape

namespace Value

mutual

/-- The lengths of the lists that a value consists of, level by level as far as they are alike. -/
def shape : Value → List Nat
  | list items => items.length :: commonShape (shapes items)
  | _ => []

/-- The shapes of the items of a list. -/
def shapes : List Value → List (List Nat)
  | [] => []
  | v :: vs => v.shape :: shapes vs

end

end Value

/-- How many indices a value of a column needs: one, unless all values are lists of one length. -/
def columnDepth (vs : List Value) : Nat := 1 + (commonShape (Value.shapes vs)).length

/-- Numbers of a mixture with one another: where a double or a missing value is among nothing but
numbers, whole numbers become doubles. -/
def unifyNumbers (vs : List Value) : List Value :=
  let ints := vs.filterMap Value.int?
  if vs.all (fun v => v.isMissing || v.isNumber) && vs.any (fun v => v.isMissing || v.isDouble) &&
      ColumnKind.ofInts ints != .mixed then
    vs.map Value.toDouble
  else vs

end ChartQuery
