import ChartQuery.Value.Basic

/-!
# Issues of a request

A request that has not the form of a specification is refused with the list of all its issues, each
with the place where it was found. A date that is well formed but beyond the calendar is no issue of
the request: reading it ends there.

## Main definitions

* `Issue`: a place in a request and what is wrong there
* `Checked α`: a result, or the issues that prevent it
* `Checked.apply`: combining two checks keeps the issues of both

## Main results

* `Checked.apply_eq_ok`: both checks have to succeed
-/

namespace ChartQuery

/-- A step on the way to a place in a request. -/
inductive PathStep where
  | name (s : String)
  | index (n : Nat)
  deriving DecidableEq, Repr

/-- What is wrong at a place in a request. -/
inductive IssueKind where
  | notText
  | notList
  | notObject
  | notModel (model : String)
  | notInteger
  | integerText
  | integerSize
  | integerFraction
  | notFinite
  | booleanText
  | notBoolean
  | missing
  | extra
  | notDate
  | inexactDate
  | dateText (reason : String)
  | mode
  | notPath
  | notJson
  deriving DecidableEq, Repr

/-- The short name of what is wrong. -/
def IssueKind.code : IssueKind → String
  | notText => "string_type"
  | notList => "list_type"
  | notObject => "dict_type"
  | notModel _ => "model_type"
  | notInteger => "int_type"
  | integerText => "int_parsing"
  | integerSize => "int_parsing_size"
  | integerFraction => "int_from_float"
  | notFinite => "finite_number"
  | booleanText => "bool_parsing"
  | notBoolean => "bool_type"
  | missing => "missing"
  | extra => "extra_forbidden"
  | notDate => "date_type"
  | inexactDate => "date_from_datetime_inexact"
  | dateText _ => "date_from_datetime_parsing"
  | mode => "literal_error"
  | notPath => "path_type"
  | notJson => "json_invalid"

/-- What is wrong, in words. -/
def IssueKind.message : IssueKind → String
  | notText => "Input should be a valid string"
  | notList => "Input should be a valid list"
  | notObject => "Input should be a valid dictionary"
  | notModel m => "Input should be a valid dictionary or instance of " ++ m
  | notInteger => "Input should be a valid integer"
  | integerText => "Input should be a valid integer, unable to parse string as an integer"
  | integerSize => "Unable to parse input string as an integer, exceeded maximum size"
  | integerFraction => "Input should be a valid integer, got a number with a fractional part"
  | notFinite => "Input should be a finite number"
  | booleanText => "Input should be a valid boolean, unable to interpret input"
  | notBoolean => "Input should be a valid boolean"
  | missing => "Field required"
  | extra => "Extra inputs are not permitted"
  | notDate => "Input should be a valid date"
  | inexactDate => "Datetimes provided to dates should have zero time - e.g. be exact dates"
  | dateText reason => "Input should be a valid date or datetime, " ++ reason
  | mode => "Input should be 'simple', 'custom' or 'import'"
  | notPath => "Input is not a valid path"
  | notJson => "JSON decode error"

/-- A place in a request and what is wrong there. -/
structure Issue where
  path : List PathStep
  kind : IssueKind
  deriving DecidableEq, Repr

/-- The issue seen from one step further out. -/
def Issue.under (step : PathStep) (i : Issue) : Issue := { i with path := step :: i.path }

/-! ## Checks -/

/-- A result, the issues that prevent it, or a date beyond the calendar that ends the reading. -/
inductive Checked (α : Type) where
  | ok (a : α)
  | refused (issues : List Issue)
  | beyondCalendar (fault : RangeFault)

namespace Checked

variable {α β : Type}

/-- A single issue at this place. -/
def issue (kind : IssueKind) : Checked α := .refused [⟨[], kind⟩]

/-- A function of the result. -/
def map (f : α → β) : Checked α → Checked β
  | .ok a => .ok (f a)
  | .refused es => .refused es
  | .beyondCalendar fault => .beyondCalendar fault

/-- A function and its argument; the issues of both are kept, in order. -/
def apply : Checked (α → β) → Checked α → Checked β
  | .ok f, .ok a => .ok (f a)
  | .refused es, .ok _ => .refused es
  | .ok _, .refused es => .refused es
  | .refused es, .refused fs => .refused (es ++ fs)
  | .beyondCalendar fault, _ => .beyondCalendar fault
  | _, .beyondCalendar fault => .beyondCalendar fault

/-- A check of the result of another. -/
def bind (x : Checked α) (f : α → Checked β) : Checked β :=
  match x with
  | .ok a => f a
  | .refused es => .refused es
  | .beyondCalendar fault => .beyondCalendar fault

/-- The check of what stands one step further in. -/
def under (step : PathStep) : Checked α → Checked α
  | .ok a => .ok a
  | .refused es => .refused (es.map (Issue.under step))
  | .beyondCalendar fault => .beyondCalendar fault

/-- The check of the items of a list, the first of which has index `n`; the issues of all items are
kept. -/
def items (check : Value → Checked α) : Nat → List Value → Checked (List α)
  | _, [] => .ok []
  | n, v :: vs => (((check v).under (.index n)).map List.cons).apply (items check (n + 1) vs)

theorem map_eq_ok {f : α → β} {x : Checked α} {b : β} :
    x.map f = .ok b ↔ ∃ a, x = .ok a ∧ f a = b := by
  cases x <;> simp [map]

theorem apply_eq_ok {f : Checked (α → β)} {x : Checked α} {b : β} :
    f.apply x = .ok b ↔ ∃ g a, f = .ok g ∧ x = .ok a ∧ g a = b := by
  cases f <;> cases x <;> simp [apply]

theorem under_eq_ok {step : PathStep} {x : Checked α} {a : α} :
    x.under step = .ok a ↔ x = .ok a := by
  cases x <;> simp [under]

end Checked

end ChartQuery
