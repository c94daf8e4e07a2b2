import ChartQuery.Calendar.Written
import ChartQuery.Number.Decimal
import ChartQuery.Value.Basic

/-!
# Dates as a database reads them

A database reads a date written as year, month and day with one kind of mark between them, and a
time with colons behind it. Its calendar has years before the year 1 and beyond the year 9999, and
the words for its two ends.

## Main definitions

* `DayText`: a day of any year, or an end of time
* `DayText.read?`: the day that a text writes
* `ClockTime`: a moment by the clock, or an end of time
* `ClockTime.read?`: the moment that a text writes

## Main results

* `dayNumber_eq_ordinal`: days of the calendar have its numbers
-/

namespace ChartQuery

open Written (isSpace shortNumber?)

/-! ## Days of any year -/

/-- The number of the days of the years before a year of any sign. -/
def daysBeforeAnyYear (year : Int) : Int :=
  let y := year - 1
  y * 365 + y / 4 - y / 100 + y / 400

/-- The number of a day of any year: the first day of the year 1 has number 1. -/
def dayNumber (year : Int) (month day : Nat) : Int :=
  daysBeforeAnyYear year + CalendarDate.daysBeforeMonth year.natAbs month + day

/-- Days of the calendar have its numbers. -/
theorem dayNumber_eq_ordinal (d : CalendarDate) :
    dayNumber d.year d.month d.day = d.ordinal := by
  have h := d.valid.1.1
  simp only [dayNumber, daysBeforeAnyYear, CalendarDate.ordinal, CalendarDate.daysBeforeYear,
    Int.natAbs_natCast]
  omega

/-- A day of any year, or one of the two ends of time. -/
inductive DayText where
  | day (year : Int) (month day : Nat)
  | endOfTime (past : Bool)
  deriving DecidableEq, Repr

namespace DayText

/-- A word in letters of any case in front, and the rest. -/
def word? (w : String) (cs : List Char) : Option (List Char) :=
  if (cs.take w.length).map Char.toLower = w.toList then some (cs.drop w.length) else none

/-- A word for a day in front of the end of a text. -/
def special? (negative : Bool) (cs : List Char) : Option DayText :=
  match word? "infinity" cs, word? "epoch" cs with
  | some rest, _ => if rest.all isSpace then some (endOfTime negative) else none
  | none, some rest => if rest.all isSpace then some (day 1970 1 1) else none
  | none, none => none

/-- The mark that says that years are counted backwards, in front of a rest. -/
def beforeYearOne? (cs : List Char) : Option (List Char) :=
  match cs with
  | c :: r => if isSpace c then word? "(bc)" r else none
  | [] => none

/-- The marks between the parts of a date. -/
def isMark (c : Char) : Bool := c == '-' || c == '/' || c == '\x5c' || c == ' '

/-- A month and a day in front, each behind a mark, and the rest. -/
def monthAndDay? (cs : List Char) : Option ((Nat × Nat) × List Char) :=
  match cs with
  | mark :: rest =>
    if !isMark mark then none
    else do
      let (month, rest) ← shortNumber? true rest
      if rest.head? != some mark then none
      else
        let (n, rest) ← shortNumber? true (rest.drop 1)
        some ((month, n), rest)
  | [] => none

/-- The greatest and the least year. -/
def isYear (year : Int) : Bool := -5877641 ≤ year && year ≤ 5881580

/-- A day in front of a text, and the rest, which begins with no digit. -/
def inFront? (cs : List Char) : Option (DayText × List Char) := do
  let cs := cs.dropWhile isSpace
  let negative := cs.head? == some '-'
  let cs := if negative then cs.drop 1 else cs
  let digits := cs.takeWhile Char.isDigit
  if digits.isEmpty then (special? negative cs).map (·, [])
  else if 9 < digits.length then none
  else
    let ((month, d), rest) ← monthAndDay? (cs.dropWhile Char.isDigit)
    let n : Int := digitsValue digits
    let (year, rest) ← match beforeYearOne? rest with
      | some rest => if negative || n = 0 then none else some (1 - n, rest)
      | none => some (if negative then -n else n, rest)
    if rest.head?.any Char.isDigit || !isYear year then none
    else if 1 ≤ month && month ≤ 12 && 1 ≤ d && d ≤ daysInMonth year.natAbs month then
      some (.day year month d, rest)
    else none

/-! ## Times behind a day -/

/-- The microseconds of a fraction: six digits count, more are cut off. -/
def fractionMicros (digits : List Char) : Nat :=
  digitsValue (digits.take 6 ++ List.replicate (6 - digits.length) '0')

/-- The seconds and microseconds behind hours and minutes, if a colon follows; and the rest. -/
def seconds? (cs : List Char) : Option (Nat × List Char) := do
  match cs with
  | [] | [':'] => some (0, [])
  | ':' :: r =>
    let (second, rest) ← shortNumber? true r
    if 60 ≤ second then none
    else match rest with
      | '.' :: r =>
        some (second * 1000000 + fractionMicros (r.takeWhile Char.isDigit),
          r.dropWhile Char.isDigit)
      | rest => some (second * 1000000, rest)
  | _ => none

/-- A time of day in front, in microseconds, and the rest; the end of the day is one. -/
def time? (cs : List Char) : Option (Nat × List Char) := do
  let cs := cs.dropWhile isSpace
  let digits := cs.takeWhile Char.isDigit
  match cs.dropWhile Char.isDigit with
  | ':' :: r =>
    if digits.isEmpty || 9 < digits.length then none
    else
      let (minute, rest) ← shortNumber? true r
      if 60 ≤ minute then none
      else
        let (micros, rest) ← seconds? rest
        let total := (digitsValue digits * 60 + minute) * 60000000 + micros
        if total ≤ 86400000000 then some (total, rest) else none
  | _ => none

/-- What stands behind two digits, which a colon may precede; all of it where there are none. -/
def behindPart (cs : List Char) : List Char :=
  let digits := match cs with
    | ':' :: r => r
    | cs => cs
  ((Iso.digits? 2 digits).map (·.2)).getD cs

/-- What stands behind an offset from universal time of hours, minutes and seconds. -/
def behindOffset? (cs : List Char) : Option (List Char) :=
  match cs with
  | sign :: r =>
    if sign = '+' || sign = '-' then
      (Iso.digits? 2 r).map fun (_, rest) => behindPart (behindPart rest)
    else none
  | [] => none

/-- The text ends with universal time, with an offset, which does not count, or with neither. -/
def zoneEnds (cs : List Char) : Bool :=
  match cs with
  | [] => true
  | 'Z' :: r => r.all isSpace
  | cs =>
    match behindOffset? cs with
    | some rest => rest.all isSpace
    | none =>
      match cs with
      | ' ' :: r => ((word? "utc" r).getD r).all isSpace
      | _ => false

/-- The microseconds of a time that ends a text. -/
def timeEnds? (cs : List Char) : Option Nat := do
  let cs := if cs.head? = some ' ' || cs.head? = some 'T' then cs.drop 1 else cs
  let (micros, rest) ← time? cs
  if zoneEnds rest then some micros else none

/-- The day that a text writes: a time may follow, which does not count. -/
def read? (s : String) : Option DayText := do
  let (d, rest) ← inFront? s.toList
  if rest.all isSpace || (timeEnds? rest).isSome then some d else none

/-! ## Writing -/

/-- A year with at least four digits. -/
def yearText (year : Int) : String :=
  if year < 0 then "-" ++ toString year.natAbs else CalendarDate.padded 4 year.natAbs

/-- The text of a day; years before the year 1 are counted backwards. -/
def text : DayText → String
  | day year month d =>
    CalendarDate.padded 4 (if year < 1 then (1 - year).natAbs else year.natAbs) ++ "-" ++
      CalendarDate.padded 2 month ++ "-" ++ CalendarDate.padded 2 d ++
      (if year < 1 then " (BC)" else "")
  | endOfTime past => if past then "-infinity" else "infinity"

/-- The text of a day at the resolution of years or months. -/
def partText (monthly : Bool) : DayText → String
  | day year month _ =>
    yearText year ++ if monthly then "-" ++ CalendarDate.padded 2 month else ""
  | endOfTime past => if past then "-infinity" else "infinity"

/-- The day as a value: a date of the calendar, whose first and last day stand for the ends of time,
or else a text. -/
def value (d : DayText) : Value :=
  match d with
  | day year month n =>
    match CalendarDate.of? year.toNat month n with
    | .ok c => if 0 < year then .date c else .text d.text
    | .error _ => .text d.text
  | endOfTime true => .date .first
  | endOfTime false => .date .last

end DayText

/-! ## Moments -/

/-- A moment by the clock in microseconds since the start of the calendar, or an end of time. -/
inductive ClockTime where
  | past
  | at (micros : Int)
  | future
  deriving DecidableEq, Repr

namespace ClockTime

/-- Chronological order. -/
def compare : ClockTime → ClockTime → Ordering
  | past, past | future, future => .eq
  | past, _ | _, future => .lt
  | _, past | future, _ => .gt
  | .at m, .at n => Ord.compare m n

/-- The first moment of a day. -/
def ofDay : DayText → ClockTime
  | .day year month day => .at (dayNumber year month day * 86400000000)
  | .endOfTime true => past
  | .endOfTime false => future

/-- The moment some microseconds later. -/
def later (micros : Nat) : ClockTime → ClockTime
  | .at m => .at (m + micros)
  | t => t

/-- The moment that a text writes: a day, or a day and a time. -/
def read? (s : String) : Option ClockTime := do
  let (day, rest) ← DayText.inFront? s.toList
  if rest.isEmpty then some (ofDay day)
  else (DayText.timeEnds? rest).map fun micros => (ofDay day).later micros

/-- The moment as a timestamp, the first and the last of the calendar for the ends of time. -/
def timestamp? : ClockTime → Option Timestamp
  | past => some (.midnight .first)
  | .at m => (Timestamp.ofClockMicros? m).toOption
  | future =>
    (Timestamp.ofClockMicros? ((Timestamp.midnight .last).clockMicros + 86399999999)).toOption

end ClockTime

end ChartQuery
