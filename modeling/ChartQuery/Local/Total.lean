import ChartQuery.Error
import ChartQuery.Local.Column
import ChartQuery.Plan.Basic

/-!
# The aggregate of a list of values

The values of a column, or of a group of its rows, become one value. Nulls do not count. Sums of
words wrap around at 64 bits, sums of doubles are exact and rounded once, and a sum, mean or extreme
of nothing is null.

## Main definitions

* `ColumnKind.sum`: the sum of the values of a column
* `wholeMean`, `groupMean`: the mean of a whole column, and of a group
* `Value.extreme`, `ColumnKind.extreme`: the least or the greatest value
* `Aggregation.ofWhole`, `Aggregation.ofGroup`: the aggregate of a whole column, and of a group

## Main results

* `countPresent_append`: counts add up
-/

namespace ChartQuery

/-- The values that are not null. -/
def presentValues (vs : List Value) : List Value := vs.filter (!·.isNull)

/-- The number of values that are not null. -/
def countPresent (vs : List Value) : Nat := (presentValues vs).length

/-- Counts add up. -/
theorem countPresent_append (vs ws : List Value) :
    countPresent (vs ++ ws) = countPresent vs + countPresent ws := by
  simp [countPresent, presentValues]

/-! ## Sums -/

namespace Value

/-- The double that a number or a truth value counts as. -/
def double? : Value → Option Binary64
  | float x => some x
  | v => v.asInt?.map Binary64.ofInt

/-- The double of a number that is added to a double. -/
def addend? (v : Value) : Option (Except Unforeseen Binary64) :=
  v.double?.map fun x =>
    match v, x with
    | float _, x => .ok x
    | _, .infinite _ => .error .tooLarge
    | _, x => .ok x

/-- The sum of two values of any kinds: numbers are added, texts and lists are joined. -/
def add (v w : Value) : Except Unforeseen Value :=
  match v, w with
  | text s, text t => .ok (text (s ++ t))
  | list xs, list ys => .ok (list (xs ++ ys))
  | v, w =>
    match v.asInt?, w.asInt? with
    | some m, some n => .ok (int (m + n))
    | _, _ =>
      match v.addend?, w.addend? with
      | some x, some y => do .ok (float ((← x).add (← y)))
      | _, _ => .error (.noSum v.operandName w.operandName)

end Value

namespace ColumnKind

/-- A sum of words, wrapped around at 64 bits. -/
def wrap (k : ColumnKind) (n : Int) : Int :=
  if k = unsigned then unsignedWord n else signedWord n

/-- The sum of the values of a column of a kind; null if there are none. -/
def sum (k : ColumnKind) (vs : List Value) : Except Unforeseen Value :=
  match presentValues vs with
  | [] => .ok .null
  | v :: vs =>
    match k with
    | double =>
      match Binary64.sumExact ((v :: vs).filterMap Value.double?) with
      | .ok x => .ok (.float x)
      | .error e => .error (.doubles e)
    | signed | unsigned | truth => .ok (.int (k.wrap (total ((v :: vs).filterMap Value.asInt?))))
    | text | moment | mixed => vs.foldlM Value.add v

theorem wrap_of_isSignedWord {n : Int} (h : isSignedWord n) : wrap signed n = n :=
  signedWord_of_isSignedWord h

end ColumnKind

/-! ## Means -/

/-- The doubles of a list of values, in one run between each two nulls. -/
def presentRuns : List Value → List (List Binary64)
  | [] => [[]]
  | v :: vs =>
    match v.double?, presentRuns vs with
    | some x, run :: runs => (x :: run) :: runs
    | _, runs => [] :: runs

/-- A sum over a number of values, null where the sum is not a number. -/
def meanOf (sum : Binary64) (n : Nat) : Value :=
  match sum.divNat n with
  | .nan => .null
  | x => .float x

/-- The mean of a whole column: the sums of its runs are added up. -/
def wholeMean (vs : List Value) : Value :=
  match countPresent vs with
  | 0 => .null
  | n =>
    meanOf (Binary64.sumFrom .zero
      (((presentRuns vs).filter (!·.isEmpty)).map Binary64.sumHalved)) n

/-- The mean of a group: its compensated sum over its number of values. -/
def groupMean (vs : List Value) : Value :=
  match countPresent vs with
  | 0 => .null
  | n =>
    meanOf (Binary64.sumCompensatedForgetting ((presentValues vs).filterMap Value.double?)) n

/-! ## Extremes -/

/-- One of the two ends of an order. -/
inductive Extreme where
  | least
  | greatest
  deriving DecidableEq, Repr

namespace Extreme

/-- The comparison that the extreme satisfies with every other value. -/
def sign : Extreme → String
  | least => "<="
  | greatest => ">="

/-- The order of the extreme with a value that is passed over. -/
def keeps (e : Extreme) (o : Option Ordering) : Bool :=
  o == some .eq || o == some (match e with
    | least => .lt
    | greatest => .gt)

end Extreme

/-- The more extreme of two values, the first of two equal ones. -/
def Value.moreExtreme (e : Extreme) (v w : Value) : Except Incomparable Value :=
  (v.order w).map fun o => if e.keeps o then v else w

/-- The least or greatest of a list of values; null if there are none. -/
def Value.extreme (e : Extreme) : List Value → Except Incomparable Value
  | [] => .ok .null
  | v :: vs => vs.foldlM (Value.moreExtreme e) v

/-- The values with the first that is not null in place of each null. -/
def fillNulls (vs : List Value) : List Value :=
  match presentValues vs with
  | [] => []
  | first :: _ => vs.map fun v => if v.isNull then first else v

/-- The least or greatest value of a column of a kind. Nulls do not count; in a mixture the first
value that is not null stands for each of them, so that it needs an order with itself. -/
def ColumnKind.extreme (k : ColumnKind) (e : Extreme) (vs : List Value) :
    Except Incomparable Value :=
  Value.extreme e (if k = mixed then fillNulls vs else presentValues vs)

/-! ## Aggregates -/

/-- An extreme without order in a whole column. -/
def Extreme.unforeseen (e : Extreme) (reason : Incomparable) : Unforeseen := .noOrder e.sign reason

namespace Aggregation

/-- The aggregate of a whole column. -/
def ofWhole (a : Aggregation) (k : ColumnKind) (vs : List Value) : Except Failure Value :=
  match a with
  | sum => (k.sum vs).mapError .unforeseen
  | avg => .ok (wholeMean vs)
  | count => .ok (.int (countPresent vs))
  | min => (k.extreme .least vs).mapError fun r => .unforeseen (Extreme.least.unforeseen r)
  | max =>
    (k.extreme .greatest vs).mapError fun r => .unforeseen (Extreme.greatest.unforeseen r)

/-- The aggregate of a group. -/
def ofGroup (a : Aggregation) (k : ColumnKind) (vs : List Value) : Except Failure Value :=
  match a with
  | sum => (k.sum vs).mapError .unforeseen
  | avg => .ok (groupMean vs)
  | count => .ok (.int (countPresent vs))
  | min => (k.extreme .least vs).mapError fun _ => .execution .mixedGroup
  | max => (k.extreme .greatest vs).mapError fun _ => .execution .mixedGroup

end Aggregation

end ChartQuery
