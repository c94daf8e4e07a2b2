import ChartQuery.Calendar.Written
import ChartQuery.Error
import ChartQuery.Plan.Basic

/-!
# Dates cut to a resolution

A value of the horizontal axis is cut to the year, the month or the day of its date. A text counts
as the date that it writes, and a value without a date is null. A day before the calendar cannot be
cut.

## Main definitions

* `Value.day? v`: the day of a value
* `Resolution.cut r d`: a date cut to a resolution
* `Resolution.bucket r v`: a value cut to a resolution
-/

namespace ChartQuery

/-- The text without the null characters at its end. -/
def withoutFinalNulls (s : String) : String :=
  String.ofList (s.toList.reverse.dropWhile (· == '\x00')).reverse

/-- The day of a value. -/
def Value.day? : Value → Option Written.Day
  | .date d => some (.date d)
  | .timestamp t => some (.date t.date)
  | .text s => Written.readDay? (withoutFinalNulls (Text.trim s))
  | _ => none

namespace Resolution

/-- A date cut to a resolution: the year, year and month, or the whole date. The year is written
without leading zeros. -/
def cut : Resolution → CalendarDate → Value
  | year, d => .text (toString d.year)
  | month, d => .text (toString d.year ++ "-" ++ CalendarDate.padded 2 d.month)
  | day, d => .date d

/-- A value cut to a resolution. -/
def bucket (r : Resolution) (v : Value) : Except Unforeseen Value :=
  match v.day? with
  | some (.date d) => .ok (r.cut d)
  | some .beforeCalendar => .error .beforeCalendar
  | none => .ok .null

@[simp] theorem bucket_date (r : Resolution) (d : CalendarDate) :
    r.bucket (.date d) = .ok (r.cut d) :=
  rfl

end Resolution

end ChartQuery
