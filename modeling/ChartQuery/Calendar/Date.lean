/-!
# Calendar dates

Dates of the Gregorian calendar, extended backwards to the year 1 and forwards to the year 9999.

## Main definitions

* `CalendarDate`: a year, a month and a day that exist
* `CalendarDate.of?`: the date of three numbers, or which of them is at fault
* `CalendarDate.ordinal`, `CalendarDate.ofOrdinal?`: dates counted from the first day of the year 1
* `CalendarDate.isoText`: the written form `YYYY-MM-DD`

## Main results

* `CalendarDate.of?_self`: a date is the date of its own three numbers
-/

namespace ChartQuery

/-- Whether a year has a leap day. -/
def isLeapYear (year : Nat) : Bool :=
  year % 4 == 0 && (year % 100 != 0 || year % 400 == 0)

/-- The number of days of a month. -/
def daysInMonth (year month : Nat) : Nat :=
  if month = 2 then (if isLeapYear year then 29 else 28)
  else if month = 4 || month = 6 || month = 9 || month = 11 then 30
  else 31

/-- The three numbers name a day of the years 1 to 9999. -/
def IsCalendarDay (year month day : Nat) : Prop :=
  (1 ≤ year ∧ year ≤ 9999) ∧ (1 ≤ month ∧ month ≤ 12) ∧ 1 ≤ day ∧ day ≤ daysInMonth year month

instance (year month day : Nat) : Decidable (IsCalendarDay year month day) :=
  inferInstanceAs (Decidable (_ ∧ _ ∧ _ ∧ _))

/-- A day of the years 1 to 9999. -/
structure CalendarDate where
  year : Nat
  month : Nat
  day : Nat
  valid : IsCalendarDay year month day
  deriving DecidableEq

/-- Which part of a date or of a time of day lies outside its range. -/
inductive RangeFault where
  | year (value : Nat)
  | month
  | day
  | hour
  | minute
  | second
  | offset (microseconds : Int)
  deriving DecidableEq, Repr

namespace CalendarDate

/-- The date of a year, a month and a day, or the first of them that is out of range. -/
def of? (year month day : Nat) : Except RangeFault CalendarDate :=
  if h : IsCalendarDay year month day then .ok ⟨year, month, day, h⟩
  else if year < 1 || 9999 < year then .error (.year year)
  else if month < 1 || 12 < month then .error .month
  else .error .day

/-- A date is the date of its own three numbers. -/
theorem of?_self (d : CalendarDate) : of? d.year d.month d.day = .ok d := by
  simp [of?, d.valid]

/-- The first day of the calendar. -/
def first : CalendarDate := ⟨1, 1, 1, by decide⟩

/-- The last day of the calendar. -/
def last : CalendarDate := ⟨9999, 12, 31, by decide⟩

/-! ## Order -/

/-- Chronological order. -/
def compare (d e : CalendarDate) : Ordering :=
  (Ord.compare d.year e.year).then
    ((Ord.compare d.month e.month).then (Ord.compare d.day e.day))

/-! ## Counting days -/

/-- The number of days of the years before a year. -/
def daysBeforeYear (year : Nat) : Nat :=
  let y := year - 1
  y * 365 + y / 4 - y / 100 + y / 400

/-- The number of days of the months before a month. -/
def daysBeforeMonth (year month : Nat) : Nat :=
  (List.range (month - 1)).foldl (fun days m => days + daysInMonth year (m + 1)) 0

/-- The number of a day: the first day of the year 1 has number 1. -/
def ordinal (d : CalendarDate) : Nat :=
  daysBeforeYear d.year + daysBeforeMonth d.year d.month + d.day

/-- The greatest number below `bound` that satisfies a property which holds up to some number. -/
def lastBelow (p : Nat → Bool) : Nat → Nat
  | 0 => 0
  | n + 1 => if p n then n else lastBelow p n

/-- The day with a number, or the fault of a number outside the calendar. -/
def ofOrdinal? (n : Int) : Except RangeFault CalendarDate :=
  if n < 1 then .error (.year 0)
  else
    let n := n.toNat
    let guess := (n - 1) * 400 / 146097 + 2
    let year := if daysBeforeYear guess < n then guess
      else if daysBeforeYear (guess - 1) < n then guess - 1 else guess - 2
    let rest := n - daysBeforeYear year
    let month := lastBelow (fun m => daysBeforeMonth year m < rest) 13
    of? year month (rest - daysBeforeMonth year month)

/-- The day of the week, Monday being zero. -/
def weekday (ordinal : Nat) : Nat := (ordinal + 6) % 7

/-- The number of the Monday of the first week of a year: the week that holds its first Thursday. -/
def firstMonday (year : Nat) : Int :=
  let newYear := daysBeforeYear year + 1
  let w := weekday newYear
  (newYear : Int) - w + (if 3 < w then 7 else 0)

/-- The year has a week 53: it starts on a Thursday, or is a leap year that starts on a
Wednesday. -/
def hasLongWeekYear (year : Nat) : Bool :=
  let w := weekday (daysBeforeYear year + 1)
  w == 3 || (w == 2 && isLeapYear year)

/-! ## Writing -/

/-- A number written with at least `width` digits. -/
def padded (width n : Nat) : String :=
  let ds := toString n
  String.ofList (List.replicate (width - ds.length) '0') ++ ds

/-- The written form `YYYY-MM-DD`. -/
def isoText (d : CalendarDate) : String :=
  padded 4 d.year ++ "-" ++ padded 2 d.month ++ "-" ++ padded 2 d.day

end CalendarDate

/-- The parts of a duration that are not zero, or a single zero. -/
def durationText (micros : Int) : String :=
  let rest := micros % 86400000000
  let parts := [("days", micros / 86400000000), ("seconds", rest / 1000000),
    ("microseconds", rest % 1000000)]
  let shown := (parts.filter fun p => p.2 != 0).map fun p => p.1 ++ "=" ++ toString p.2
  "datetime.timedelta(" ++ (if shown.isEmpty then "0" else ", ".intercalate shown) ++ ")"

/-- What a fault of a date says. -/
def RangeFault.message : RangeFault → String
  | .year y => "year " ++ toString y ++ " is out of range"
  | .month => "month must be in 1..12"
  | .day => "day is out of range for month"
  | .hour => "hour must be in 0..23"
  | .minute => "minute must be in 0..59"
  | .second => "second must be in 0..59"
  | .offset us =>
    "offset must be a timedelta strictly between -timedelta(hours=24) and timedelta(hours=24), " ++
      "not " ++ durationText us ++ "."

end ChartQuery
