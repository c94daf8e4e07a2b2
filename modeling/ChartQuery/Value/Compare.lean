import ChartQuery.Value.Text

/-!
# Equality and order of values

Numbers of every kind are compared exactly, texts by code point, dates and timestamps
chronologically, lists item by item. Values of different kinds are unequal, and have no order.

## Main definitions

* `Value.eqv v w`: equality
* `Value.order v w`: the order, none where a value is not a number, or why there is none
* `Incomparable`: why two values have no order

## Main results

* `Value.eqv_int`: whole numbers are equal exactly when they are the same
* `Value.order_int`: the order of whole numbers
-/

namespace ChartQuery

/-- Why two values have no order. -/
inductive Incomparable where
  /-- The kinds of the two values have no common order. -/
  | kinds (left right : String)
  /-- A timestamp and a date. -/
  | dateWithTimestamp
  /-- A timestamp with an offset and one without. -/
  | offsetMissing
  deriving DecidableEq, Repr

/-- What the comparison `op` says about two values without an order. -/
def Incomparable.message (op : String) : Incomparable → String
  | kinds l r =>
    let q := String.singleton Text.apostrophe
    q ++ op ++ q ++ " not supported between instances of " ++ q ++ l ++ q ++ " and " ++ q ++ r ++ q
  | dateWithTimestamp => "can't compare datetime.datetime to datetime.date"
  | offsetMissing => "can't compare offset-naive and offset-aware datetimes"

namespace Value

/-! ## Numbers -/

/-- The whole number that a value counts as: a truth value counts as zero or one. -/
def asInt? : Value → Option Int
  | int n => some n
  | bool b => some (if b then 1 else 0)
  | _ => none

/-- The digits and the scale of a value that counts as a decimal. -/
def asDecimal? : Value → Option (Int × Nat)
  | decimal digits scale => some (digits, scale)
  | v => v.asInt?.map (·, 0)

/-- The order of two numbers: `none` if one of the values is no number of any kind, `some none` if
one of them is not a number. -/
def compareNumbers? (v w : Value) : Option (Option Ordering) :=
  match v, w with
  | float x, float y => some (x.compare? y)
  | float x, w => w.asDecimal?.map fun d => x.compareDecimal? d.1 d.2
  | v, float y => v.asDecimal?.map fun d => (y.compareDecimal? d.1 d.2).map Ordering.swap
  | v, w => do
    let (m, s) ← v.asDecimal?
    let (n, t) ← w.asDecimal?
    some (some (Ord.compare (m * Nat.pow 10 t) (n * Nat.pow 10 s)))

/-! ## Equality -/

mutual

/-- Equality of values: numbers by value, whatever their kind. -/
def eqv : Value → Value → Bool
  | null, null => true
  | text s, text t => s == t
  | date d, date e => d == e
  | timestamp t, timestamp u => t.compare? u == some .eq
  | list xs, list ys => eqvList xs ys
  | object fs, object gs => fs.length == gs.length && eqvFields fs gs
  | v, w => compareNumbers? v w == some (some .eq)

/-- Equality of lists, item by item. -/
def eqvList : List Value → List Value → Bool
  | [], [] => true
  | x :: xs, y :: ys => eqv x y && eqvList xs ys
  | _, _ => false

/-- Every field of an object occurs in another with an equal value. -/
def eqvFields : List (String × Value) → List (String × Value) → Bool
  | [], _ => true
  | (k, v) :: fs, gs =>
    (match gs.lookup k with
      | some w => eqv v w
      | none => false) && eqvFields fs gs

end

theorem eqv_int (m n : Int) : eqv (int m) (int n) = true ↔ m = n := by
  have h : eqv (int m) (int n) = (some (some (Ord.compare m n)) == some (some Ordering.eq)) := by
    simp [eqv, compareNumbers?, asDecimal?, asInt?]
  rw [h, beq_iff_eq, Option.some.injEq, Option.some.injEq, Int.compare_eq_eq]

/-! ## Order -/

mutual

/-- The order of two values. -/
def order : Value → Value → Except Incomparable (Option Ordering)
  | text s, text t => .ok (some (Ord.compare s t))
  | date d, date e => .ok (some (d.compare e))
  | timestamp t, timestamp u =>
    match t.compare? u with
    | some o => .ok (some o)
    | none => .error .offsetMissing
  | date _, timestamp _ | timestamp _, date _ => .error .dateWithTimestamp
  | list xs, list ys => orderList xs ys
  | v, w =>
    match compareNumbers? v w with
    | some o => .ok o
    | none => .error (.kinds v.operandName w.operandName)

/-- The order of two lists is that of the first items that differ, else that of their lengths. -/
def orderList : List Value → List Value → Except Incomparable (Option Ordering)
  | [], [] => .ok (some .eq)
  | [], _ :: _ => .ok (some .lt)
  | _ :: _, [] => .ok (some .gt)
  | x :: xs, y :: ys => if eqv x y then orderList xs ys else order x y

end

theorem order_int (m n : Int) : order (int m) (int n) = .ok (some (Ord.compare m n)) := by
  simp [order, compareNumbers?, asDecimal?, asInt?]

end Value

end ChartQuery
