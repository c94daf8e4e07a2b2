import ChartQuery.Error
import ChartQuery.Calendar.Iso

/-!
# Text beside a number or a date

A text that is compared with a number, or with which a date or a timestamp is compared, is read as a
value of that kind first.

## Main definitions

* `coercePair v w`: the two values as they are compared

## Main results

* `coercePair_int`: whole numbers are compared as they are
-/

namespace ChartQuery

/-- Why a text is no date or time of day. -/
def isoFaultMessage (s : String) : Iso.Fault → String
  | .malformed => "Invalid isoformat string: " ++ Text.quoted s
  | .outOfRange fault => fault.message

namespace Value

/-- The number that a text writes, or why it writes none. -/
def readNumber (s : String) : Except String Value :=
  match readBinary64? s with
  | some x => .ok (float x)
  | none => .error ("could not convert string to float: " ++ Text.quoted s)

/-- The characters of a text that a date may take. -/
def dateText (s : String) : String := String.ofList (s.toList.take 10)

/-- The date that a text begins with, or why there is none. -/
def readDay (s : String) : Except String Value :=
  ((Iso.readDate (dateText s)).map date).mapError (isoFaultMessage (dateText s))

/-- The timestamp that a text writes, or why it writes none. -/
def readMoment (s : String) : Except String Value :=
  ((Iso.readTimestamp s).map timestamp).mapError (isoFaultMessage s)

end Value

/-- The two values as they are compared, or why a text among them cannot be read. -/
def coercedPair (v w : Value) : Except String (Value × Value) :=
  match v, w with
  | .text s, w => if w.isNumber then (Value.readNumber s).map (·, w) else .ok (.text s, w)
  | v, .text s =>
    match v with
    | .int _ | .float _ => (Value.readNumber s).map (v, ·)
    | .timestamp _ => (Value.readMoment s).map (v, ·)
    | .date _ => (Value.readDay s).map (v, ·)
    | _ => .ok (v, .text s)
  | v, w => .ok (v, w)

/-- The two values as they are compared. -/
def coercePair (v w : Value) : Except ExecutionFault (Value × Value) :=
  (coercedPair v w).mapError (.conversion w.plain v.plain)

/-- Whole numbers are compared as they are. -/
theorem coercePair_int (m n : Int) : coercePair (.int m) (.int n) = .ok (.int m, .int n) := rfl

end ChartQuery
