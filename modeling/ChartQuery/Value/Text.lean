import ChartQuery.Value.Basic
import ChartQuery.Text.Quoted

/-!
# The text forms of values

A value has two text forms: the plain one that labels show, and the literal one, in which text
stands in quotes and dates name their kind. Compound values are shown literally in both.

## Main definitions

* `Value.literal v`: the literal form
* `Value.plain v`: the plain form
* `Value.kindName v`: the name of the kind of a value

## Main results

* `Value.plain_text`: the plain form of a text is the text
-/

namespace ChartQuery

/-- The literal form of a date. -/
def CalendarDate.literal (d : CalendarDate) : String :=
  "datetime.date(" ++ ", ".intercalate ([d.year, d.month, d.day].map toString) ++ ")"

/-- The literal form of a timestamp: seconds and microseconds only where they are not zero. -/
def Timestamp.literal (t : Timestamp) : String :=
  let tail := if t.micro ≠ 0 then [t.second, t.micro] else if t.second ≠ 0 then [t.second] else []
  let numbers := [t.date.year, t.date.month, t.date.day, t.hour, t.minute] ++ tail
  let zone := match t.offset with
    | none => ""
    | some o =>
      if o = 0 then ", tzinfo=datetime.timezone.utc"
      else ", tzinfo=datetime.timezone(" ++ durationText o ++ ")"
  "datetime.datetime(" ++ ", ".intercalate (numbers.map toString) ++ zone ++ ")"

/-- A decimal with its places after the point. -/
def decimalText (digits : Int) (scale : Nat) : String :=
  let ds := toString digits.natAbs
  let ds := String.ofList (List.replicate (scale + 1 - ds.length) '0') ++ ds
  let cut := ds.length - scale
  (if digits < 0 then "-" else "") ++ String.ofList (ds.toList.take cut) ++
    (if scale = 0 then "" else "." ++ String.ofList (ds.toList.drop cut))

namespace Value

mutual

/-- The literal form of a value. -/
def literal : Value → String
  | null => "None"
  | bool b => if b then "True" else "False"
  | int n => toString n
  | float x => x.text
  | text s => Text.quoted s
  | date d => d.literal
  | timestamp t => t.literal
  | decimal n s => decimalText n s
  | list items => "[" ++ ", ".intercalate (literals items) ++ "]"
  | object fields => "\x7b" ++ ", ".intercalate (literalFields fields) ++ "\x7d"

/-- The literal forms of the items of a list. -/
def literals : List Value → List String
  | [] => []
  | v :: vs => literal v :: literals vs

/-- The literal forms of the fields of an object. -/
def literalFields : List (String × Value) → List String
  | [] => []
  | (k, v) :: fs => (Text.quoted k ++ ": " ++ literal v) :: literalFields fs

end

/-- The plain form of a value. -/
def plain : Value → String
  | text s => s
  | date d => d.isoText
  | timestamp t => t.isoText " "
  | v => v.literal

@[simp] theorem plain_text (s : String) : plain (text s) = s := rfl

/-- The name of the kind of a value. -/
def kindName : Value → String
  | null => "NoneType"
  | bool _ => "bool"
  | int _ => "int"
  | float _ => "float"
  | text _ => "str"
  | date _ => "date"
  | timestamp _ => "datetime"
  | decimal _ _ => "Decimal"
  | list _ => "list"
  | object _ => "dict"

/-- The name of the kind of a value as comparisons give it. -/
def operandName : Value → String
  | date _ => "datetime.date"
  | timestamp _ => "datetime.datetime"
  | v => v.kindName

end Value

end ChartQuery
