import ChartQuery.Number.Binary64

/-!
# Readings of a clock

A clock shows whole seconds or a double. Differences of whole readings are exact, all others are
rounded to doubles; the order of readings is exact.

## Main definitions

* `ClockReading`: what a clock shows
* `ClockReading.sub`, `ClockReading.isBelow`: the difference and the order of readings
-/

namespace ChartQuery

/-- What a clock shows: whole seconds, or a double. -/
inductive ClockReading where
  | whole (n : Int)
  | double (x : Binary64)
  deriving DecidableEq, Repr

namespace ClockReading

/-- The double nearest to a reading. -/
def toDouble : ClockReading → Binary64
  | whole n => .ofInt n
  | double x => x

/-- The difference of two readings. -/
def sub : ClockReading → ClockReading → ClockReading
  | whole m, whole n => whole (m - n)
  | a, b => double (a.toDouble.sub b.toDouble)

/-- A reading is less than another. -/
def isBelow : ClockReading → ClockReading → Bool
  | whole m, whole n => m < n
  | double x, whole n => x.compareInt? n == some .lt
  | whole m, double y => y.compareInt? m == some .gt
  | double x, double y => x.compare? y == some .lt

instance : Sub ClockReading := ⟨sub⟩

instance : LT ClockReading := ⟨fun a b => a.isBelow b = true⟩

instance : DecidableLT ClockReading := fun a b => inferInstanceAs (Decidable (a.isBelow b = true))

end ClockReading

end ChartQuery
