/-!
# Double precision numbers

A finite double is an exact number of units of 2⁻¹⁰⁷⁴, the distance between the smallest doubles. So
order and equality are those of the integers, and every arithmetic operation is an exact operation
on integers followed by one rounding to 53 binary digits, a half going to the even neighbour.

## Main definitions

* `Binary64`: not a number, an infinity, or a sign and a number of units
* `Binary64.ofQuotient`: the double nearest to a quotient of units
* `Binary64.compare?`, `Binary64.compareInt?`: the exact order, also against integers
* `Binary64.add`, `Binary64.sub`, `Binary64.divNat`: arithmetic

## Main results

* `roundDiv_one`: a whole number rounds to itself
-/

namespace ChartQuery

/-- A double precision number; `finite` carries the sign and the magnitude in units of 2⁻¹⁰⁷⁴. -/
inductive Binary64 where
  | nan
  | infinite (negative : Bool)
  | finite (negative : Bool) (units : Nat)
  deriving DecidableEq, Repr

/-- The quotient `n / d` rounded to the nearest whole number, a half to the even neighbour. -/
def roundDiv (n d : Nat) : Nat :=
  let q := n / d
  let r := n % d
  if 2 * r < d then q else if d < 2 * r then q + 1 else q + q % 2

theorem roundDiv_one (n : Nat) : roundDiv n 1 = n := by
  simp [roundDiv, Nat.mod_one]

namespace Binary64

/-- The units of the number one. -/
def one : Nat := Nat.pow 2 1074

/-- The units from which on a number is infinite. -/
def overflow : Nat := Nat.pow 2 2098

/-- The double nearest to `n / d` units. -/
def ofQuotient (negative : Bool) (n d : Nat) : Binary64 :=
  let spare := (n / d).log2 + 1 - 53
  let m := roundDiv n (d * Nat.pow 2 spare) * Nat.pow 2 spare
  if overflow ≤ m then .infinite negative else .finite negative m

/-- The double nearest to a whole number of units. -/
def ofUnits (n : Int) : Binary64 :=
  ofQuotient (n < 0) n.natAbs 1

/-- The double nearest to a whole number. -/
def ofInt (n : Int) : Binary64 :=
  ofUnits (n * one)

/-- Zero. -/
def zero : Binary64 := .finite false 0

/-- A magnitude under its sign, as a whole number of units. -/
def signed (negative : Bool) (units : Nat) : Int :=
  if negative then -(units : Int) else units

/-- The number is neither infinite nor not a number. -/
def isFinite : Binary64 → Bool
  | .finite _ _ => true
  | _ => false

/-- The value is not a number. -/
def isNan : Binary64 → Bool
  | .nan => true
  | _ => false

/-- The number is zero, of either sign. -/
def isZero : Binary64 → Bool
  | .finite _ 0 => true
  | _ => false

/-! ## Order -/

/-- The exact order of two doubles; none for a value that is not a number. -/
def compare? : Binary64 → Binary64 → Option Ordering
  | .nan, _ | _, .nan => none
  | .infinite a, .infinite b => some (if a = b then .eq else if a then .lt else .gt)
  | .infinite a, .finite _ _ => some (if a then .lt else .gt)
  | .finite _ _, .infinite b => some (if b then .gt else .lt)
  | .finite a m, .finite b n => some (compare (signed a m) (signed b n))

/-- The exact order of a double and a whole number. -/
def compareInt? : Binary64 → Int → Option Ordering
  | .nan, _ => none
  | .infinite a, _ => some (if a then .lt else .gt)
  | .finite a m, n => some (compare (signed a m) (n * one))

/-- The exact order of a double and the decimal `digits · 10⁻ˢᶜᵃˡᵉ`. -/
def compareDecimal? : Binary64 → Int → Nat → Option Ordering
  | .nan, _, _ => none
  | .infinite a, _, _ => some (if a then .lt else .gt)
  | .finite a m, digits, scale => some (compare (signed a m * Nat.pow 10 scale) (digits * one))

/-- The magnitude of the first number is less than that of the second. -/
def absLt : Binary64 → Binary64 → Bool
  | .finite _ m, .finite _ n => m < n
  | .finite _ _, .infinite _ => true
  | _, _ => false

/-! ## Arithmetic -/

/-- The number of opposite sign. -/
def neg : Binary64 → Binary64
  | .nan => .nan
  | .infinite a => .infinite !a
  | .finite a m => .finite (!a) m

/-- The sum; a zero sum is negative only if both numbers are. -/
def add : Binary64 → Binary64 → Binary64
  | .nan, _ | _, .nan => .nan
  | .infinite a, .infinite b => if a = b then .infinite a else .nan
  | .infinite a, .finite _ _ => .infinite a
  | .finite _ _, .infinite b => .infinite b
  | .finite a m, .finite b n =>
    let s := signed a m + signed b n
    if s = 0 then .finite (a && b) 0 else ofUnits s

/-- The difference. -/
def sub (x y : Binary64) : Binary64 := x.add y.neg

/-- The quotient by a positive whole number. -/
def divNat : Binary64 → Nat → Binary64
  | .finite a m, n => ofQuotient a m n
  | x, _ => x

/-- The quotient of two whole numbers, rounded to 64 binary digits and then to a double. -/
def ofLongQuotient (n : Int) (d : Nat) : Binary64 :=
  let units := n.natAbs * one
  let quantum := Nat.pow 2 ((units / d).log2 + 1 - 64)
  ofQuotient (n < 0) (roundDiv units (d * quantum) * quantum) 1

/-- The whole part of a finite number, toward zero. -/
def truncate? : Binary64 → Option Int
  | .finite a m => some (signed a (m / one))
  | _ => none

/-- The nearest whole number to a finite number, a half going to the even one. -/
def round? : Binary64 → Option Int
  | .finite a m => some (signed a (roundDiv m one))
  | _ => none

/-- The product with a power of ten, rounded. -/
def scaled (x : Binary64) (places : Nat) : Binary64 :=
  match x with
  | .finite a m => ofQuotient a (m * Nat.pow 10 places) 1
  | x => x

/-- The number has no fractional part. -/
def isWhole : Binary64 → Bool
  | .finite _ m => m % one == 0
  | _ => false

/-- The nearest number of single precision. -/
def toSingle : Binary64 → Binary64
  | .finite a m =>
    let quantum := Nat.pow 2 (max (m.log2 - 23) (1074 - 149))
    let n := roundDiv m quantum * quantum
    if Nat.pow 2 (1074 + 128) ≤ n then .infinite a else .finite a n
  | x => x

end Binary64

end ChartQuery
