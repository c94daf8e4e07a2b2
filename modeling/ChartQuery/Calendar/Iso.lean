import ChartQuery.Calendar.Timestamp
import ChartQuery.Text.Utf8

/-!
# Reading the ISO forms of dates and times

A date is written as year, month and day, or as year, week and day of the week, with or without
hyphens. A time follows after any one character: hours, minutes, seconds and a fraction, with or
without colons, and an offset. Lengths and places are counted in the bytes of the text.

## Main definitions

* `Iso.readDate s`: the date written by a text of 7, 8 or 10 bytes
* `Iso.readTimestamp s`: the date and time written by a text
-/

namespace ChartQuery.Iso

/-- Why a text is no date or time: it has another form, or one of its parts is out of range. -/
inductive Fault where
  | malformed
  | outOfRange (fault : RangeFault)
  deriving DecidableEq, Repr

/-- The value of a character that is an ASCII digit. -/
def digit? (c : Char) : Option Nat :=
  if c.isDigit then some (c.toNat - 0x30) else none

/-- The number written by exactly `n` digits, and the rest. -/
def digitsFrom? (acc : Nat) : Nat → List Char → Option (Nat × List Char)
  | 0, cs => some (acc, cs)
  | n + 1, c :: cs => digit? c >>= fun d => digitsFrom? (10 * acc + d) n cs
  | _ + 1, [] => none

/-- The number written by exactly `n` digits in front, and the rest. -/
def digits? (n : Nat) (cs : List Char) : Option (Nat × List Char) := digitsFrom? 0 n cs

/-! ## Dates -/

/-- The year has this week, and a week this day. -/
def isWeekDay (year week day : Nat) : Bool :=
  1 ≤ week && (week ≤ 52 || (week == 53 && CalendarDate.hasLongWeekYear year)) &&
    1 ≤ day && day ≤ 7

/-- The day of a week of a year. -/
def ofWeek (year week day : Nat) : Except Fault CalendarDate :=
  if year = 0 then .error (.outOfRange .month)
  else
    (CalendarDate.ofOrdinal? (CalendarDate.firstMonday year + (week - 1) * 7 + day - 1)).mapError
      .outOfRange

/-- A hyphen in front, where hyphens are used. -/
def hyphen? (hyphens : Bool) (cs : List Char) : Option (List Char) :=
  match hyphens, cs with
  | false, cs => some cs
  | true, '-' :: cs => some cs
  | true, _ => none

/-- The numbers of a date, as written. -/
inductive DateNumbers where
  | day (year month day : Nat)
  | week (year week day : Nat)
  deriving DecidableEq, Repr

/-- The numbers of a week, if the year has it. -/
def weekNumbers? (year week day : Nat) : Option DateNumbers :=
  if isWeekDay year week day then some (.week year week day) else none

/-- The numbers of a date; a week without a day of the week is its Monday. Characters behind the day
are left alone. -/
def dateNumbers? (cs : List Char) : Option DateNumbers := do
  let (year, cs) ← digits? 4 cs
  let hyphens := cs.head? == some '-'
  let cs ← hyphen? hyphens cs
  match cs with
  | 'W' :: cs =>
    let (week, cs) ← digits? 2 cs
    if cs.isEmpty then weekNumbers? year week 1
    else
      let (day, _) ← digits? 1 (← hyphen? hyphens cs)
      weekNumbers? year week day
  | cs =>
    let (month, cs) ← digits? 2 cs
    let (day, _) ← digits? 2 (← hyphen? hyphens cs)
    some (.day year month day)

/-- The date of the numbers written. -/
def DateNumbers.date : DateNumbers → Except Fault CalendarDate
  | .day y m d => (CalendarDate.of? y m d).mapError .outOfRange
  | .week y w d => ofWeek y w d

/-- The date written by a text of 7, 8 or 10 bytes. -/
def readDate (s : String) : Except Fault CalendarDate :=
  let cs := Text.byteChars s
  if cs.length = 7 || cs.length = 8 || cs.length = 10 then
    match dateNumbers? cs with
    | some n => n.date
    | none => .error .malformed
  else .error .malformed

/-! ## Times -/

/-- A time of day, as written. -/
structure Clock where
  hour : Nat
  minute : Nat
  second : Nat
  micro : Nat
  deriving DecidableEq, Repr

/-- The microseconds of an offset as written; one of less than a second is none. -/
def Clock.offsetMicros (c : Clock) : Int :=
  let seconds := (c.hour * 60 + c.minute) * 60 + c.second
  if seconds = 0 then 0 else seconds * 1000000 + c.micro

/-- The microseconds of a fraction: six digits count, more are cut off. Also tells whether other
characters follow. -/
def fraction? (cs : List Char) : Option (Nat × Bool) := do
  let n := min 6 cs.length
  let (v, rest) ← digits? n cs
  some (v * Nat.pow 10 (6 - n), !(rest.dropWhile Char.isDigit).isEmpty)

/-- Up to three two-digit fields, with colons or without, and a fraction; `done` are the fields read
so far. A single character behind a field is tolerated and reported. -/
def clockFields? (colons : Bool) : Nat → List Nat → List Char → Option (List Nat × Nat × Bool)
  | 0, done, cs => (fraction? cs).map fun (micro, more) => (done, micro, more)
  | left + 1, done, cs => do
    let (v, rest) ← digits? 2 cs
    let done := done ++ [v]
    let colons := if done.length = 1 then rest.head? == some ':' else colons
    match rest with
    | [] => some (done, 0, false)
    | [_] => some (done, 0, true)
    | c :: more =>
      if colons && c == ':' then clockFields? colons left done more
      else if c == '.' || c == ',' then
        (fraction? more).map fun (micro, more) => (done, micro, more)
      else if !colons then clockFields? colons left done (c :: more)
      else none

/-- A time of day, and whether other characters follow it. -/
def clock? (cs : List Char) : Option (Clock × Bool) :=
  (clockFields? false 3 [] cs).map fun (fields, micro, more) =>
    (⟨fields.getD 0 0, fields.getD 1 0, fields.getD 2 0, micro⟩, more)

/-- The character starts an offset. -/
def startsOffset (c : Char) : Bool := c == '+' || c == '-' || c == 'Z'

/-- A time of day with its offset in microseconds. -/
def time? (cs : List Char) : Option (Clock × Option Int) := do
  let front := cs.takeWhile (!startsOffset ·)
  let (clock, more) ← clock? front
  match cs.dropWhile (!startsOffset ·) with
  | [] => if more then none else some (clock, none)
  | ['Z'] => some (clock, some 0)
  | 'Z' :: _ => none
  | sign :: offset =>
    let (o, more) ← clock? offset
    if more then none
    else
      some (clock, some (if sign == '-' then -o.offsetMicros else o.offsetMicros))

/-- The number of characters of the date in front of a time. -/
def dateLength (cs : List Char) : Nat :=
  let at? (n : Nat) : Option Char := cs[n]?
  if cs.length = 7 then 7
  else if at? 4 == some '-' then
    if at? 5 == some 'W' then
      if at? 8 == some '-' then
        if ((at? 10).map Char.isDigit).getD false then 8 else 10
      else 8
    else 10
  else if at? 4 == some 'W' then
    let pos := 7 + ((cs.drop 7).takeWhile Char.isDigit).length
    if pos < 9 then pos else if pos % 2 = 0 then 7 else 8
  else 8

/-- The date and time written by a text. -/
def readTimestamp (s : String) : Except Fault Timestamp :=
  let cs := Text.byteChars s
  let n := dateLength cs
  match dateNumbers? (cs.take n) with
  | none => .error .malformed
  | some numbers => do
    let rest := cs.drop n
    let (clock, offset) ←
      if rest.isEmpty then .ok (⟨0, 0, 0, 0⟩, none)
      else match time? ((rest.drop 1).dropWhile Text.isContinuation) with
        | some t => .ok t
        | none => .error .malformed
    let midnight : CalendarDate → Except Fault Timestamp := fun d =>
      (Timestamp.of? d clock.hour clock.minute clock.second clock.micro offset).mapError .outOfRange
    match offset with
    | some o =>
      if 86400000000 ≤ o.natAbs then .error (.outOfRange (.offset o))
      else numbers.date >>= midnight
    | none => numbers.date >>= midnight

end ChartQuery.Iso
