import ChartQuery.Error
import ChartQuery.Json.Reader
import ChartQuery.Text.Encoding
import ChartQuery.Spec.Issue

/-!
# Requests and responses

A request carries a JSON body, or none. A response has a status and a JSON body, in which dates are
texts and decimals are doubles.

## Main definitions

* `Http.Request`, `Http.Body`: a request and what it carries
* `Http.Body.read`: what is read from a body, or the response that refuses it
* `Http.Response`: a response
* `Value.shown`: the JSON form of a value
-/

namespace ChartQuery

/-! ## Values in JSON -/

/-- Fields whose names begin with these characters are not shown. -/
def hiddenPrefix : String := "_sa"

/-- The field of this name is shown. -/
def isShownName (name : String) : Bool := !hiddenPrefix.toList.isPrefixOf name.toList

namespace Value

mutual

/-- The JSON form of a value: dates are texts, decimals with places are doubles, and what no JSON
number can be is null. -/
def shown : Value → Value
  | date d => text d.isoText
  | timestamp t => text (t.isoText "T")
  | decimal n 0 => int n
  | decimal n (s + 1) => float (.ofDecimal (n < 0) n.natAbs (-(s + 1 : Nat)))
  | float x => if x.isFinite then float x else null
  | list items => list (shownItems items)
  | object fields => object (shownFields fields)
  | v => v

/-- The JSON forms of the items of a list. -/
def shownItems : List Value → List Value
  | [] => []
  | v :: vs => v.shown :: shownItems vs

/-- The JSON forms of the fields of an object that are shown. -/
def shownFields : List (String × Value) → List (String × Value)
  | [] => []
  | (k, v) :: fs => if isShownName k then (k, v.shown) :: shownFields fs else shownFields fs

end

end Value

/-- The JSON form of rows. -/
def shownRows (rows : List Record) : Value :=
  .list (rows.map fun r => .object (Value.shownFields r))

namespace Http

/-! ## Requests -/

/-- What a request carries: nothing, bytes that cannot be read, a text that is no JSON from some
place on, or a value. -/
inductive Body where
  | missing
  | unreadable
  | malformed (position : Nat)
  | json (v : Value)

/-- The body of a text that is sent in UTF-8. Where null bytes are among the first of them, the
bytes are read in the encoding that their places show. -/
def Body.ofText (s : String) : Body :=
  if s.isEmpty then .missing
  else match Text.decode? ((Text.byteChars s).map Char.toNat) with
    | none => .unreadable
    | some cs =>
      match Json.read .usual (String.ofList cs) with
      | .ok v => .json v
      | .error (.malformed n) => .malformed n
      | .error _ => .unreadable

/-- A request; the address of its client may be unknown. -/
structure Request where
  method : String
  path : String
  query : String
  body : Body
  client : Option String

/-! ## Responses -/

/-- A response. -/
structure Response where
  status : Nat
  body : Value

namespace Response

/-- A successful response with the given fields. -/
def success (fields : Record) : Response := ⟨200, .object (("success", .bool true) :: fields)⟩

/-- A response that says why a request is refused. -/
def refusal (status : Nat) (message : String) : Response :=
  ⟨status, .object [("success", .bool false), ("error", .text message)]⟩

/-- The response to a request that leads to no endpoint. -/
def detail (status : Nat) (text : String) : Response := ⟨status, .object [("detail", .text text)]⟩

/-- The response to a request whose making failed. -/
def ofFailure : Failure → Response
  | .chart e => refusal e.status e.message
  | .unforeseen f => refusal 500 (if f.message.isEmpty then "Internal server error" else f.message)

/-- A step on the way to a place in a body. -/
def stepText : PathStep → String
  | .name s => s
  | .index n => toString n

/-- What is said of a place in a body. -/
def issueText : IssueKind → String
  | .notModel _ => "Input should be a valid dictionary or object to extract fields from"
  | k => k.message

/-- The response to a request whose body is refused. -/
def ofIssues (issues : List Issue) : Response :=
  refusal 400 ("Invalid request: " ++ "; ".intercalate (issues.map fun i =>
    ".".intercalate (i.path.map stepText) ++ ": " ++ issueText i.kind))

/-- The response to a body whose bytes or numbers cannot be read. -/
def unreadable : Response := detail 400 "There was an error parsing the body"

end Response

/-- What a check reads from a body, or the response that refuses it. -/
def Body.read {α : Type} (body : Body) (check : Value → Checked α) : Except Response α :=
  match body with
  | .missing => .error (.ofIssues [⟨[], .missing⟩])
  | .unreadable => .error .unreadable
  | .malformed n => .error (.ofIssues [⟨[.index n], .notJson⟩])
  | .json v =>
    match check v with
    | .ok a => .ok a
    | .refused issues => .error (.ofIssues issues)
    | .beyondCalendar fault => .error (.ofFailure (.unforeseen (.raised fault.message)))

end Http

end ChartQuery
