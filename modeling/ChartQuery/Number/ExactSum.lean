import ChartQuery.Number.Binary64
import ChartQuery.Number.Whole

/-!
# Sums of doubles

Three ways to sum doubles: the exact sum rounded once, the compensated sum that carries the last
rounding error along, and the sum in halves that is used for means.

## Main definitions

* `Binary64.sumExact`: the exact sum, rounded once; it fails where a partial sum overflows
* `Binary64.sumCompensated`: the running sum with the error of each step taken back
* `Binary64.sumHalved`: the sum of the sums of two halves, in blocks of at most 128
-/

namespace ChartQuery

/-- Why an exact sum of doubles cannot be formed. -/
inductive SumError where
  /-- A partial sum of finite numbers leaves the range of doubles. -/
  | overflow
  /-- Infinities of both signs are summed. -/
  | oppositeInfinities
  deriving DecidableEq, Repr

namespace Binary64

/-! ## The exact sum -/

/-- The state of an exact sum: partial sums that do not overlap, and the sum of the infinities
met. -/
structure Partials where
  parts : List Binary64
  infinities : Option Binary64
  deriving DecidableEq, Repr

/-- Adds a number through the partial sums, from the smallest: what each addition rounds away stays
behind as a part. Gives the parts left behind and the running number. -/
def addThrough : Binary64 → List Binary64 → List Binary64 × Binary64
  | x, [] => ([], x)
  | x, y :: ys =>
    let (big, small) := if x.absLt y then (y, x) else (x, y)
    let hi := big.add small
    let lo := small.sub (hi.sub big)
    let (left, top) := addThrough hi ys
    (if lo.isZero then left else lo :: left, top)

/-- One step of an exact sum. -/
def Partials.add (s : Partials) (x : Binary64) : Except SumError Partials :=
  let (left, top) := addThrough x s.parts
  if top.isZero then .ok ⟨left, s.infinities⟩
  else if top.isFinite then .ok ⟨left ++ [top], s.infinities⟩
  else if x.isFinite then .error .overflow
  else .ok ⟨[], some ((s.infinities.getD zero).add x)⟩

/-- The units of a finite number; zero for any other. -/
def unitsOf : Binary64 → Int
  | .finite a m => signed a m
  | _ => 0

/-- The exact sum, rounded once. -/
def sumExact (xs : List Binary64) : Except SumError Binary64 := do
  let s ← xs.foldlM Partials.add ⟨[], none⟩
  match s.infinities with
  | some .nan => .error .oppositeInfinities
  | some i => .ok i
  | none => .ok (ofUnits (total (s.parts.map unitsOf)))

/-! ## The compensated sum -/

/-- A running sum and the rounding error that it carries. -/
structure Compensated where
  sum : Binary64
  error : Binary64
  deriving DecidableEq, Repr

/-- One step of a compensated sum. -/
def Compensated.add (s : Compensated) (x : Binary64) : Compensated :=
  let diff := x.sub s.error
  let next := s.sum.add diff
  ⟨next, (next.sub s.sum).sub diff⟩

/-- One step of a compensated sum that forgets an error which is not a number. -/
def Compensated.addForgetting (s : Compensated) (x : Binary64) : Compensated :=
  let t := s.add x
  if t.error.isNan then { t with error := zero } else t

/-- The compensated sum. -/
def sumCompensated (xs : List Binary64) : Binary64 :=
  (xs.foldl Compensated.add ⟨zero, zero⟩).sum

/-- The compensated sum whose error starts afresh after an infinity. -/
def sumCompensatedForgetting (xs : List Binary64) : Binary64 :=
  (xs.foldl Compensated.addForgetting ⟨zero, zero⟩).sum

/-! ## The sum in halves -/

/-- The plain sum, from the left. -/
def sumFrom (start : Binary64) (xs : List Binary64) : Binary64 :=
  xs.foldl add start

/-- Adds the rows of eight to eight running sums, place by place. -/
def sumColumns : List Binary64 → List (List Binary64) → List Binary64
  | acc, [] => acc
  | acc, row :: rows => sumColumns (List.zipWith add acc row) rows

/-- The numbers cut into rows of eight, and the numbers left over. -/
def rowsOfEight : Nat → List Binary64 → List (List Binary64) × List Binary64
  | 0, xs => ([], xs)
  | fuel + 1, xs =>
    if xs.length < 8 then ([], xs)
    else
      let (rows, rest) := rowsOfEight fuel (xs.drop 8)
      (xs.take 8 :: rows, rest)

/-- The sum of a block: up to seven numbers from the left, more of them in eight columns that are
then added in pairs. -/
def sumBlock (xs : List Binary64) : Binary64 :=
  match rowsOfEight xs.length xs with
  | ([], xs) => sumFrom (.finite true 0) xs
  | (row :: rows, rest) =>
    let pairs : List Binary64 → List Binary64
      | [a, b, c, d, e, f, g, h] => [((a.add b).add (c.add d)).add ((e.add f).add (g.add h))]
      | other => other
    sumFrom ((pairs (sumColumns row rows)).headD zero) rest

/-- The sum in halves: a block of at most 128 numbers is summed as such, a longer list is cut in the
middle, at a multiple of eight. -/
def sumHalvedFuel : Nat → List Binary64 → Binary64
  | 0, xs => sumBlock xs
  | fuel + 1, xs =>
    if xs.length ≤ 128 then sumBlock xs
    else
      let half := xs.length / 2 - xs.length / 2 % 8
      (sumHalvedFuel fuel (xs.take half)).add (sumHalvedFuel fuel (xs.drop half))

/-- The sum in halves. -/
def sumHalved (xs : List Binary64) : Binary64 := sumHalvedFuel xs.length xs

end Binary64

end ChartQuery
