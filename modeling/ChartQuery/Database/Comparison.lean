import ChartQuery.Database.Catalog
import ChartQuery.Database.CommonType
import ChartQuery.Local.Filter

/-!
# Conditions on the rows of a table

A condition compares cells and fixed values as values of one type, to which they are cast; where
there is no such type, or where a value is none of it, the query fails. A comparison with null never
holds.

## Main definitions

* `Operand`: a cell of a row, or a fixed value
* `Test`: a condition on a row
* `Test.kind?`: the kind as which its values are compared
* `Test.holds`: the condition holds of a row
* `selectRows`: the rows of which all conditions hold
-/

namespace ChartQuery

/-- A cell of a row, or a fixed value. -/
inductive Operand where
  | cell (index : Nat) (type : ColumnType)
  | fixed (v : Value)

namespace Operand

/-- The type of an operand; null has none. -/
def type? : Operand → Option ColumnType
  | cell _ t => some t
  | fixed v => v.columnType?

/-- The kind of an operand. -/
def kind : Operand → ComparedKind
  | cell _ t => .typed t
  | fixed (.text _) => .literal
  | fixed v => (v.columnType?.map .typed).getD .null

/-- The value of an operand in a row. -/
def value (row : List Value) : Operand → Value
  | cell i _ => row.getD i .null
  | fixed v => v

/-- The operand may be no value of a type: a text has to be read as one. -/
def mayMiss (t : ColumnType) : Operand → Bool
  | cell _ u => u == .varchar && t != .varchar
  | fixed v => !v.isNull && !t.takes v

end Operand

/-! ## Comparison -/

/-- The comparison holds of two values in this order. -/
def FilterOperator.accepts : FilterOperator → Ordering → Bool
  | eq, o => o == .eq
  | ne, o => o != .eq
  | gt, o => o == .gt
  | lt, o => o == .lt
  | ge, o => o != .lt
  | le, o => o != .gt
  | like, _ | isIn, _ => false

/-- A comparison of two values as values of a type. -/
def compareOperands (op : FilterOperator) (t : ColumnType) (v w : Value) :
    Except ExecutionFault Bool :=
  if v.isNull || w.isNull then .ok false
  else if op = .like then .ok (likeText w.plain v.plain)
  else match t.compare? v w with
    | some o => .ok (op.accepts o)
    | none => .error .database

/-! ## Conditions -/

/-- A condition on a row. -/
inductive Test where
  | isNull (o : Operand)
  | notNull (o : Operand)
  | compare (op : FilterOperator) (l r : Operand)
  | member (l : Operand) (rs : List Operand)

namespace Test

/-- The kind as which the values of a condition are compared; none if they are not. A pattern fits
only texts. -/
def kind? : Test → Option ComparedKind
  | isNull _ | notNull _ => some .null
  | compare op l r =>
    if op = .like then (if l.kind.isText && r.kind.isText then some .literal else none)
    else l.kind.with? (op == .eq || op == .ne) r.kind
  | member l rs => rs.foldlM (fun k r => k.with? true r.kind) l.kind

/-- The type as which the values of a condition are compared. -/
def type (t : Test) : ColumnType := (t.kind?.getD .null).type

/-- The condition may come upon a value that is none of its type. -/
def mayFail (t : Test) : Bool :=
  match t with
  | isNull _ | notNull _ => false
  | compare _ l r => [l, r].any (·.mayMiss t.type)
  | member l rs => (l :: rs).any (·.mayMiss t.type)

/-- The condition holds of a row. All candidates of a membership are read. -/
def holds (row : List Value) (t : Test) : Except ExecutionFault Bool :=
  match t with
  | isNull o => .ok (o.value row).isNull
  | notNull o => .ok !(o.value row).isNull
  | compare op l r => compareOperands op t.type (l.value row) (r.value row)
  | member l rs => do
    let answers ← rs.mapM fun r => compareOperands .eq t.type (l.value row) (r.value row)
    .ok (answers.any id)

end Test

/-- All conditions hold of a row; none is decided behind one that does not hold. -/
def allTestsHold (row : List Value) : List Test → Except ExecutionFault Bool
  | [] => .ok true
  | t :: ts => do if ← t.holds row then allTestsHold row ts else .ok false

/-- The rows of which all conditions hold. -/
def keepTableRows (tests : List Test) :
    List (List Value) → Except ExecutionFault (List (List Value))
  | [] => .ok []
  | row :: rest => do
    let holds ← allTestsHold row tests
    let kept ← keepTableRows tests rest
    .ok (if holds then row :: kept else kept)

/-- The rows of which all conditions hold; conditions whose kinds do not fit are a fault. Those that
may fail are decided last. -/
def selectRows (tests : List Test) (rows : List (List Value)) :
    Except ExecutionFault (List (List Value)) :=
  if !tests.all (·.kind?.isSome) then .error .database
  else keepTableRows (tests.filter (!·.mayFail) ++ tests.filter (·.mayFail)) rows

end ChartQuery
