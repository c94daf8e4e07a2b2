import ChartQuery.Number.Decimal
import ChartQuery.Number.Whole
import ChartQuery.Spec.Issue
import ChartQuery.Text.Utf8

/-!
# Dates of a request

A date of a request may be a date, a timestamp at midnight, a text of either, or a number of seconds
or milliseconds since the start of 1970 that is a midnight. The places of a text are counted in
bytes.

## Main definitions

* `DateFault`: why a text or a number is no date
* `dateOfText`, `dateOfMoment`: the date of a text, and of a number of seconds
* `checkDate`: the date of a value
-/

namespace ChartQuery

/-- Why a text is no date or time, or a number of seconds no moment. -/
inductive DateFault where
  | tooShort
  /-- The character in this part is no digit. -/
  | digit (part : String)
  | dateSeparator
  | timestampSeparator
  | timeSeparator
  | fractionMissing
  | offsetSign
  | offsetDigit (part : String)
  /-- The part is outside the range in the second text. -/
  | range (part bounds : String)
  | day
  | offsetTooLarge
  | trailing
  | tooEarly
  | tooLate
  | notANumber
  deriving DecidableEq, Repr

/-- What is said of a text or a number that is no date. -/
def DateFault.message : DateFault → String
  | tooShort => "input is too short"
  | digit part => "invalid character in " ++ part
  | dateSeparator => "invalid date separator, expected `-`"
  | timestampSeparator => "invalid datetime separator, expected `T`, `t`, `_` or space"
  | timeSeparator => "invalid time separator, expected `:`"
  | fractionMissing => "second fraction is missing digits after decimal point"
  | offsetSign => "invalid timezone sign"
  | offsetDigit part => "invalid timezone " ++ part
  | range part bounds => part ++ " value is outside expected range of " ++ bounds
  | day => "day value is outside expected range"
  | offsetTooLarge => "timezone offset must be less than 24 hours"
  | trailing => "unexpected extra characters at the end of the input"
  | tooEarly => "dates before 0000 are not supported as unix timestamps"
  | tooLate => "dates after 9999 are not supported as unix timestamps"
  | notANumber => "NaN values not permitted"

/-! ## Dates as texts -/

/-- The value of so many digits in front, or the fault of their absence; and the rest. -/
def fieldDigits (fault : DateFault) (n : Nat) (cs : List Char) :
    Except DateFault (Nat × List Char) :=
  let front := cs.take n
  if front.length = n && front.all Char.isDigit then .ok (digitsValue front, cs.drop n)
  else .error fault

/-- The characters behind a separator. -/
def behind (separator : Char) (fault : DateFault) : List Char → Except DateFault (List Char)
  | c :: r => if c = separator then .ok r else .error fault
  | [] => .error fault

/-- A year, a month and a day that exist, where the year may be 0. -/
structure WrittenDate where
  year : Nat
  month : Nat
  day : Nat
  deriving DecidableEq, Repr

/-- The date in front of a text, and the rest. -/
def datePrefix (cs : List Char) : Except DateFault (WrittenDate × List Char) := do
  if cs.length < 10 then .error .tooShort
  else
    let (year, cs) ← fieldDigits (.digit "year") 4 cs
    let (month, cs) ← fieldDigits (.digit "month") 2 (← behind '-' .dateSeparator cs)
    let (day, cs) ← fieldDigits (.digit "day") 2 (← behind '-' .dateSeparator cs)
    if month < 1 || 12 < month then .error (.range "month" "1-12")
    else if day < 1 || daysInMonth year month < day then .error .day
    else .ok (⟨year, month, day⟩, cs)

/-! ## Times as texts -/

/-- The part of a time is less than its bound. -/
def within (part bounds : String) (bound n : Nat) : Except DateFault Unit :=
  if n < bound then .ok () else .error (.range part bounds)

/-- The seconds behind hours and minutes, whether they are zero, and the rest. Digits of a fraction
beyond the sixth do not count. -/
def secondsPart : List Char → Except DateFault (Bool × List Char)
  | ':' :: cs => do
    let (second, cs) ← fieldDigits (.digit "second") 2 cs
    within "second" "0-59" 60 second
    match cs with
    | [] => .ok (second == 0, [])
    | c :: r =>
      if c = '.' || c = ',' then
        let fraction := r.takeWhile Char.isDigit
        if fraction.isEmpty then .error .fractionMissing
        else
          .ok (second == 0 && (fraction.take 6).all (· == '0'), r.dropWhile Char.isDigit)
      else .ok (second == 0, c :: r)
  | cs => .ok (true, cs)

/-- The characters behind the sign of an offset: plus, hyphen or the minus sign, which takes three
bytes. -/
def behindSign : List Char → Except DateFault (List Char)
  | '+' :: r | '-' :: r => .ok r
  | a :: b :: c :: r =>
    if [a, b, c].map Char.toNat = [0xE2, 0x88, 0x92] then .ok r else .error .offsetSign
  | _ => .error .offsetSign

/-- An offset in front of the end of a text is well formed. -/
def checkOffset : List Char → Except DateFault Unit
  | [] => .ok ()
  | c :: r =>
    if c = 'Z' || c = 'z' then (if r.isEmpty then .ok () else .error .trailing)
    else do
      let (hours, cs) ← fieldDigits (.offsetDigit "hour") 2 (← behindSign (c :: r))
      let (minutes, cs) ← fieldDigits (.offsetDigit "minute") 2
        (if cs.head? = some ':' then cs.drop 1 else cs)
      if 60 ≤ minutes then
        .error (.range "timezone minute" "0-59")
      else if 24 ≤ hours then .error .offsetTooLarge
      else if cs.isEmpty then .ok () else .error .trailing

/-- The time at the end of a text is a midnight, whatever its offset. -/
def isMidnightText (cs : List Char) : Except DateFault Bool := do
  if cs.length < 5 then .error .tooShort
  else
    let (hour, cs) ← fieldDigits (.digit "hour") 2 cs
    let (minute, cs) ← fieldDigits (.digit "minute") 2 (← behind ':' .timeSeparator cs)
    within "hour" "0-23" 24 hour
    within "minute" "0-59" 60 minute
    let (zero, cs) ← secondsPart cs
    checkOffset cs
    .ok (hour == 0 && minute == 0 && zero)

/-- The date of a timestamp, and whether it is a midnight. -/
def timestampText (cs : List Char) : Except DateFault (WrittenDate × Bool) := do
  let (date, rest) ← datePrefix cs
  match rest with
  | [] => .error .timestampSeparator
  | c :: r =>
    if c = 'T' || c = 't' || c = ' ' || c = '_' then
      .ok (date, ← isMidnightText r)
    else .error .timestampSeparator

/-! ## Moments -/

/-- A number beyond this one counts milliseconds, up to it seconds. -/
def mostSeconds : Nat := 20000000000

/-- The whole seconds of a number of seconds or milliseconds, and the microseconds left. -/
def unixSeconds (n : Int) : Int × Nat :=
  if n.natAbs ≤ mostSeconds then (n, 0) else (n / 1000, (n % 1000).toNat * 1000)

/-- The day of a number of seconds since the start of 1970: an ordinal that may lie in the year
0. -/
def unixDay (seconds : Int) : Except DateFault Int :=
  if seconds < -62167219200 then .error .tooEarly
  else if 253402300799 < seconds then .error .tooLate
  else .ok (seconds / 86400 + 719163)

/-- The date of an ordinal, which may lie in the year 0. -/
def dateOfDay (ordinal : Int) : Checked CalendarDate :=
  match CalendarDate.ofOrdinal? ordinal with
  | .ok d => .ok d
  | .error fault => .beyondCalendar fault

/-- The date of a number of seconds or milliseconds and of microseconds, if it is a midnight. -/
def dateOfMoment (n : Int) (micros : Nat) : Checked CalendarDate :=
  if n = -9223372036854775808 then .issue (.dateText DateFault.tooEarly.message)
  else
    let (seconds, more) := unixSeconds n
    let micros := micros + more
    let seconds := seconds + (micros / 1000000 : Nat)
    match unixDay seconds with
    | .error fault => .issue (.dateText fault.message)
    | .ok day =>
      if seconds % 86400 = 0 && micros % 1000000 = 0 then dateOfDay day else .issue .inexactDate

/-- The nearest signed word of 64 bits. -/
def clampWord (n : Int) : Int := max (-9223372036854775808) (min n 9223372036854775807)

/-- The microseconds of a fraction of so many units, rounded twice: to a double and to a whole
number. -/
def fractionMicros (units : Nat) : Nat :=
  match Binary64.ofQuotient false (units * 1000000) 1 with
  | .finite _ m => (2 * m + Binary64.one) / (2 * Binary64.one)
  | _ => 0

/-- The date of a double that counts seconds or milliseconds, if it is a midnight. The microseconds
are those of the distance to the next number toward zero. -/
def dateOfDouble : Binary64 → Checked CalendarDate
  | .nan => .issue (.dateText DateFault.notANumber.message)
  | .infinite negative =>
    dateOfMoment (if negative then -9223372036854775808 else 9223372036854775807) 0
  | .finite negative m =>
    let fraction := m % Binary64.one
    let whole := m / Binary64.one
    let floor : Int :=
      if negative then -(if fraction = 0 then whole else whole + 1 : Nat) else whole
    dateOfMoment (clampWord floor) (fractionMicros fraction)

/-! ## Numbers as texts -/

/-- A number written by a text: a whole one of 64 bits, or a double. -/
inductive WrittenNumber where
  | whole (n : Int)
  | double (x : Binary64)
  deriving DecidableEq, Repr

/-- A double with the digits behind its point added one by one; the next one stands at the place
`place`. -/
def addDigits (x : Binary64) : Nat → List Char → Binary64
  | _, [] => x
  | place, c :: cs =>
    addDigits (x.add (.ofQuotient false ((c.toNat - 0x30) * Binary64.one) (Nat.pow 10 place)))
      (place + 1) cs

/-- The number written by a sign, digits and at most one point. -/
def writtenNumber? (cs : List Char) : Option WrittenNumber :=
  let (negative, r) := readSign cs
  let digits := r.takeWhile Char.isDigit
  let n := digitsValue digits
  if 9223372036854775807 < n then none
  else match r.dropWhile Char.isDigit with
    | [] => if digits.isEmpty then none else some (.whole (if negative then -(n : Int) else n))
    | c :: fraction =>
      if c = '.' && fraction.all Char.isDigit && !(digits.isEmpty && fraction.isEmpty) then
        let x := addDigits (.ofInt n) 1 fraction
        some (.double (if negative then x.neg else x))
      else none

/-- A double beyond the seconds counts milliseconds. -/
def inSeconds (x : Binary64) : Binary64 :=
  match x with
  | .finite _ m => if mostSeconds * Binary64.one < m then x.divNat 1000 else x
  | x => x

/-- The date of a number written by a text, if it is a midnight. Of a whole number of milliseconds
only the seconds count. -/
def dateOfNumber : WrittenNumber → Checked CalendarDate
  | .whole n =>
    let (seconds, _) := unixSeconds n
    match unixDay seconds with
    | .ok day => if seconds % 86400 = 0 then dateOfDay day else dateOfMoment n 0
    | .error _ => dateOfMoment n 0
  | .double x => dateOfDouble (inSeconds x)

/-! ## Dates -/

/-- The date of the numbers written; the calendar has no year 0. -/
def WrittenDate.check (d : WrittenDate) : Checked CalendarDate :=
  match CalendarDate.of? d.year d.month d.day with
  | .ok d => .ok d
  | .error fault => .beyondCalendar fault

/-- The date written by a text: a date, a date with a midnight, or a number. -/
def dateOfText (s : String) : Checked CalendarDate :=
  let cs := Text.byteChars s
  match datePrefix cs with
  | .ok (d, []) => d.check
  | _ =>
    match timestampText cs with
    | .ok (d, midnight) => if midnight then d.check else .issue .inexactDate
    | .error fault =>
      match writtenNumber? cs with
      | some n => dateOfNumber n
      | none => .issue (.dateText fault.message)

/-- A date: itself, a timestamp at midnight, a text of either, or a number. -/
def checkDate : Value → Checked CalendarDate
  | .date d => .ok d
  | .timestamp t => if t.isMidnight then .ok t.date else .issue .inexactDate
  | .text s => dateOfText s
  | .int n =>
    if isSignedWord n then dateOfMoment n 0
    else match Binary64.ofInt n with
      | .infinite _ => .issue .notDate
      | x => dateOfDouble x
  | .float x => dateOfDouble x
  | _ => .issue .notDate

end ChartQuery
