import ChartQuery.Calendar.Iso

/-!
# Dates as people write them

A looser reading of dates: year alone, year and month, or year, month and day, the parts separated
by one kind of mark and then possibly of one digit, or written without marks. A time and an offset
may follow; the date is taken as written, whatever the offset. A year behind a hyphen is negative,
and a year that is left out is the year 0: such days lie before the calendar.

## Main definitions

* `Written.Day`: a day of the calendar, or one before it
* `Written.readDay? s`: the day that a text begins with, if the whole text is well formed

## Main results

* `Written.Day.of?_date`: the numbers of a calendar date are that date
-/

namespace ChartQuery.Written

open Iso (digit?)

/-- White space of ASCII. -/
def isSpace (c : Char) : Bool := c == ' ' || (9 ≤ c.toNat && c.toNat ≤ 13)

/-- The marks that may separate the parts of a date. -/
def isDateMark (c : Char) : Bool :=
  c == '-' || c == '.' || c == '/' || c == '\x5c' || c == ' '

/-- One or two digits in front and the rest; a single digit only where `single` allows it. -/
def shortNumber? (single : Bool) : List Char → Option (Nat × List Char)
  | c :: d :: r =>
    match digit? c, digit? d with
    | some a, some b => some (10 * a + b, r)
    | some a, none => if single then some (a, d :: r) else none
    | none, _ => none
  | [c] => if single then (digit? c).map (·, []) else none
  | [] => none

/-! ## The day -/

/-- A day of the calendar, or one of the year 0 or of a year before it. -/
inductive Day where
  | date (d : CalendarDate)
  | beforeCalendar
  deriving DecidableEq

/-- The day of a year, a month and a day of the month, if there is one. -/
def Day.of? (year : Int) (month day : Nat) : Option Day :=
  if year < 1 then
    if 1 ≤ month && month ≤ 12 && 1 ≤ day && day ≤ daysInMonth year.natAbs month then
      some .beforeCalendar
    else none
  else (CalendarDate.of? year.toNat month day).toOption.map .date

/-- The numbers of a calendar date are that date. -/
theorem Day.of?_date (d : CalendarDate) : Day.of? d.year d.month d.day = some (.date d) := by
  have h : ¬ (d.year : Int) < 1 := by
    have := d.valid.1.1
    omega
  simp [Day.of?, h, CalendarDate.of?_self, Except.toOption]

/-- The year in front of a text and what follows it: four digits behind a hyphen or none. Where
there are no four digits the year is left out. -/
def yearPart (cs : List Char) : Int × List Char :=
  let unsigned := if cs.head? = some '-' then cs.drop 1 else cs
  match Iso.digits? 4 unsigned with
  | some (year, rest) => (if cs.head? = some '-' then -(year : Int) else year, rest)
  | none => (0, unsigned)

/-- The day in front of a text and what follows it; the mark between its parts, if any, is the
one behind the year. -/
def dayPart? (cs : List Char) : Option (Day × List Char) :=
  let (year, rest) := yearPart cs
  match rest with
  | [] => if year = 0 then none else (Day.of? year 1 1).map (·, [])
  | c :: r =>
    if c.isDigit then do
      let (month, rest) ← shortNumber? false (c :: r)
      let (day, rest) ← shortNumber? false rest
      (Day.of? year month day).map (·, rest)
    else if isDateMark c then do
      let (month, rest) ← shortNumber? true r
      match rest with
      | [] => (Day.of? year month 1).map (·, [])
      | m :: rest =>
        if m = c then
          let (day, rest) ← shortNumber? true rest
          (Day.of? year month day).map (·, rest)
        else none
    else none

/-! ## The time -/

/-- The seconds of an offset of hours and minutes up to the end of the text. -/
def offsetEnds? (cs : List Char) : Option Nat := do
  let (hours, rest) ← shortNumber? true cs
  if 24 ≤ hours then none
  else match rest with
    | [] => some (hours * 3600)
    | c :: r =>
      let (minutes, rest) ← shortNumber? true (if c = ':' then r else c :: r)
      if minutes < 60 && rest.all isSpace then some ((hours * 60 + minutes) * 60) else none

/-- The seconds of an offset behind blanks, if the text ends with it; none counts as no seconds. -/
def zoneEnds? (cs : List Char) : Option Int :=
  match cs.dropWhile isSpace with
  | [] => some 0
  | c :: r =>
    if c = 'Z' then (if r.all isSpace then some 0 else none)
    else if c = '+' then (offsetEnds? r).map fun n => (n : Int)
    else if c = '-' then (offsetEnds? r).map fun n => -(n : Int)
    else none

/-- A time of day: seconds since midnight, the digits of a fraction, and the offset in seconds. -/
structure Time where
  seconds : Nat
  fraction : List Char
  offset : Int
  deriving DecidableEq, Repr

/-- A fraction of at most eighteen digits, and the rest. -/
def fraction (cs : List Char) : List Char × List Char :=
  let digits := (cs.takeWhile Char.isDigit).take 18
  (digits, cs.drop digits.length)

/-- A time up to the end of the text, of which hours and minutes are read and the seconds follow. -/
def secondsEnd? (start : Nat) (colons : Bool) (cs : List Char) : Option Time := do
  let (second, rest) ← shortNumber? colons cs
  if 60 ≤ second then none
  else
    let (digits, rest) := match rest with
      | '.' :: r => fraction r
      | r => ([], r)
    (zoneEnds? rest).map (⟨start + second, digits, ·⟩)

/-- A time of day up to the end of the text. -/
def timeEnds? (cs : List Char) : Option Time := do
  let (hour, rest) ← shortNumber? true cs
  let twoDigits := rest.length + 2 == cs.length
  if 24 ≤ hour then none
  else match rest with
    | [] => if twoDigits then some ⟨hour * 3600, [], 0⟩ else none
    | c :: r =>
      if c ≠ ':' && !c.isDigit then
        if twoDigits then (zoneEnds? (c :: r)).map (⟨hour * 3600, [], ·⟩) else none
      else
        let colons := c == ':'
        let (minute, rest) ← shortNumber? colons (if colons then r else c :: r)
        if 60 ≤ minute then none
        else
          let start := (hour * 60 + minute) * 60
          match rest with
          | [] => some ⟨start, [], 0⟩
          | c :: r =>
            if colons && c == ':' then secondsEnd? start true r
            else if !colons && c.isDigit then secondsEnd? start false (c :: r)
            else (zoneEnds? (c :: r)).map (⟨start, [], ·⟩)

/-- The nanoseconds of the digits of a fraction. -/
def nanoseconds (digits : List Char) : Nat :=
  (digits.take 9 ++ List.replicate (9 - digits.length) '0').foldl
    (fun n c => 10 * n + (c.toNat - 0x30)) 0

/-- A moment given to more than microseconds lies within 2⁶³ nanoseconds of the start of 1970, by
the clock and in universal time. -/
def fitsNanoseconds (day : Day) (time : Time) : Bool :=
  if time.fraction.length ≤ 6 then true
  else match day with
    | .beforeCalendar => false
    | .date d =>
      let seconds := ((d.ordinal : Int) - 719163) * 86400 + time.seconds
      let clock := seconds * 1000000000 + nanoseconds time.fraction
      clock.natAbs < 9223372036854775808 &&
        (clock - time.offset * 1000000000).natAbs < 9223372036854775808

/-- The day that a text begins with, if the whole text is a day, or a day and a time. -/
def readDay? (s : String) : Option Day := do
  let (day, rest) ← dayPart? s.toList
  match rest with
  | [] => some day
  | c :: r =>
    if c = 'T' || c = ' ' then
      let time ← timeEnds? r
      if fitsNanoseconds day time then some day else none
    else none

end ChartQuery.Written
