import ChartQuery.Calendar.Date

/-!
# Dates with a time of day

A timestamp is a date with a time of day down to microseconds. With an offset from universal time it
is a moment, and moments are compared as such; without one it is only compared with its like.

## Main definitions

* `Timestamp`: a date, a time of day and an optional offset
* `Timestamp.compare?`: the order of two timestamps of the same kind
* `Timestamp.isoText`: the written form, with a chosen separator between date and time
-/

namespace ChartQuery

/-- The numbers name a time of day, and the offset is less than a day. -/
def IsTimeOfDay (hour minute second micro : Nat) (offset : Option Int) : Prop :=
  (hour < 24 ∧ minute < 60 ∧ second < 60 ∧ micro < 1000000) ∧
    ∀ o ∈ offset, -86400000000 < o ∧ o < 86400000000

instance (hour minute second micro : Nat) (offset : Option Int) :
    Decidable (IsTimeOfDay hour minute second micro offset) := by
  unfold IsTimeOfDay
  cases offset <;> infer_instance

/-- A date and a time of day; the offset from universal time is given in microseconds. -/
structure Timestamp where
  date : CalendarDate
  hour : Nat
  minute : Nat
  second : Nat
  micro : Nat
  offset : Option Int
  valid : IsTimeOfDay hour minute second micro offset
  deriving DecidableEq

namespace Timestamp

/-- The timestamp of a date and a time of day, or the first part that is out of range. -/
def of? (date : CalendarDate) (hour minute second micro : Nat) (offset : Option Int) :
    Except RangeFault Timestamp :=
  if h : IsTimeOfDay hour minute second micro offset then
    .ok ⟨date, hour, minute, second, micro, offset, h⟩
  else if 24 ≤ hour then .error .hour
  else if 60 ≤ minute then .error .minute
  else if 60 ≤ second then .error .second
  else .error (.offset (offset.getD 0))

/-- The first moment of a day. -/
def midnight (d : CalendarDate) : Timestamp :=
  ⟨d, 0, 0, 0, 0, none, by simp [IsTimeOfDay]⟩

/-- The time carries no part of a day. -/
def isMidnight (t : Timestamp) : Bool :=
  t.hour == 0 && t.minute == 0 && t.second == 0 && t.micro == 0

/-- Microseconds since the start of the calendar, by the clock that the timestamp shows. -/
def clockMicros (t : Timestamp) : Int :=
  (((t.date.ordinal * 24 + t.hour) * 60 + t.minute) * 60 + t.second) * 1000000 + t.micro

/-- Microseconds since the start of the calendar in universal time. -/
def instant (t : Timestamp) : Int := t.clockMicros - t.offset.getD 0

/-- The order of two timestamps; none when only one of them has an offset. -/
def compare? (t u : Timestamp) : Option Ordering :=
  match t.offset, u.offset with
  | none, none => some (Ord.compare t.clockMicros u.clockMicros)
  | some _, some _ => some (Ord.compare t.instant u.instant)
  | _, _ => none

/-- The timestamp a number of microseconds after the start of the calendar. -/
def ofClockMicros? (n : Int) : Except RangeFault Timestamp := do
  let day ← CalendarDate.ofOrdinal? (n / 86400000000)
  let rest := (n % 86400000000).toNat
  of? day (rest / 3600000000) (rest / 60000000 % 60) (rest / 1000000 % 60) (rest % 1000000) none

/-! ## Writing -/

open CalendarDate (padded)

/-- An offset as sign, hours, minutes and, where they are not zero, seconds and microseconds. -/
def offsetText (o : Int) : String :=
  let n := o.natAbs
  let seconds := n / 1000000 % 60
  let micros := n % 1000000
  (if o < 0 then "-" else "+") ++ padded 2 (n / 3600000000) ++ ":" ++
    padded 2 (n / 60000000 % 60) ++
    (if seconds = 0 && micros = 0 then "" else ":" ++ padded 2 seconds) ++
    (if micros = 0 then "" else "." ++ padded 6 micros)

/-- The written form: date, separator, time, microseconds unless they are zero, and the offset. -/
def isoText (separator : String) (t : Timestamp) : String :=
  t.date.isoText ++ separator ++ padded 2 t.hour ++ ":" ++ padded 2 t.minute ++ ":" ++
    padded 2 t.second ++ (if t.micro = 0 then "" else "." ++ padded 6 t.micro) ++
    (t.offset.map offsetText).getD ""

end Timestamp

end ChartQuery
