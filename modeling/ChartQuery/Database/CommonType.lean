import ChartQuery.Database.Cast
import ChartQuery.Rows.Ordering

/-!
# The type of a comparison

A database compares values of one type. Of two types of numbers it is the wider one; a text that is
written in the query takes the type of what stands beside it, and a column of texts does so where
only equality is asked.

## Main definitions

* `ComparedKind`: what a comparison knows of a value before it sees it
* `ColumnType.common?`: the type as which values of two types are compared
* `ComparedKind.with?`: the same for kinds
* `ColumnType.compare?`: the order of two values as values of a type
-/

namespace ChartQuery

/-! ## Types of values -/

/-- The type of a whole number: the first one whose range holds it. -/
def ColumnType.ofInt (n : Int) : ColumnType :=
  ([ColumnType.integer, .bigint, .hugeint].find? (·.isInRange n)).getD .double

/-- The type of a value; null has none. -/
def Value.columnType? : Value → Option ColumnType
  | .null => none
  | .bool _ => some .boolean
  | .int n => some (.ofInt n)
  | .float _ => some .double
  | .text _ => some .varchar
  | .date _ => some .date
  | .timestamp _ => some .timestamp
  | .decimal n s => some (.decimal (max (toString n.natAbs).length (s + 1)) s)
  | .list _ => some (.other "LIST")
  | .object _ => some (.other "STRUCT")

/-- What a comparison knows of a value before it sees it: that it is null, that it is a text written
in the query, or its type. -/
inductive ComparedKind where
  | null
  | literal
  | typed (t : ColumnType)
  deriving DecidableEq, Repr

namespace ColumnType

/-! ## Common types -/

/-- The place of a type of numbers among those that hold ever more of them. -/
def width? : ColumnType → Option Nat
  | boolean => some 0
  | integer => some 1
  | bigint => some 2
  | hugeint => some 3
  | decimal _ _ => some 4
  | single => some 5
  | double => some 6
  | _ => none

/-- The wider of two types of numbers, with room for the places of both. Truth values stand beside
whole numbers, and beside others only where equality is asked. -/
def wider? (equality : Bool) (t u : ColumnType) (m n : Nat) : Option ColumnType :=
  if !equality && min m n = 0 && 3 < max m n then none
  else match t, u with
    | decimal _ s, decimal _ s' => some (decimal 38 (max s s'))
    | decimal w s, u => some (if n = 0 then decimal w s else if n < 4 then decimal 38 s else u)
    | t, decimal w s => some (if m = 0 then decimal w s else if m < 4 then decimal 38 s else t)
    | t, u => some (if m < n then u else t)

/-- The type as which values of two types are compared; none if they are not. -/
def common? (equality : Bool) (t u : ColumnType) : Option ColumnType :=
  match t, u with
  | other _, _ | _, other _ => none
  | t, u =>
    if t = u then some t
    else match t.width?, u.width? with
      | some m, some n => wider? equality t u m n
      | none, some _ => if equality && t = varchar then some u else none
      | some _, none => if equality && u = varchar then some t else none
      | none, none =>
        if t.holdsDates && u.holdsDates then some timestamp
        else if equality then some varchar
        else none

/-- The values of the type are none that a comparison knows. -/
def isOther : ColumnType → Bool
  | other _ => true
  | _ => false

end ColumnType

namespace ComparedKind

/-- The kind as which values of two kinds are compared; none if they are not. -/
def with? (equality : Bool) : ComparedKind → ComparedKind → Option ComparedKind
  | null, k | k, null => some k
  | literal, literal => some literal
  | literal, typed t | typed t, literal => if t.isOther then none else some (typed t)
  | typed t, typed u => (t.common? equality u).map typed

/-- Values of the kind are texts. -/
def isText : ComparedKind → Bool
  | null | literal => true
  | typed t => t == .varchar

/-- The type as which values of a kind are compared. -/
def type : ComparedKind → ColumnType
  | typed t => t
  | _ => .varchar

end ComparedKind

/-! ## Comparison as values of a type -/

/-- The moment that a value is as a date, without its time of day, or as a timestamp. -/
def Value.moment? (t : ColumnType) : Value → Option ClockTime
  | text s => if t = .date then (DayText.read? s).map .ofDay else ClockTime.read? s
  | v => v.universal?.map fun t => .at t.clockMicros

namespace ColumnType

/-- The value, which is not null, can be compared as a value of the type. -/
def takes (t : ColumnType) (v : Value) : Bool :=
  if t.holdsDates then (v.moment? t).isSome else (t.cast? v).isSome

/-- The order of two values, none of them null, as values of a type; none where one of them is no
such value. -/
def compare? (t : ColumnType) (v w : Value) : Option Ordering :=
  if t.holdsDates then do
    let m ← v.moment? t
    let n ← w.moment? t
    some (m.compare n)
  else do
    let v ← t.cast? v
    let w ← t.cast? w
    some (v.ranked w)

end ColumnType

end ChartQuery
