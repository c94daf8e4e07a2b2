import ChartQuery.Sql.Statement
import ChartQuery.Text.Uppercase

/-!
# The check of custom queries

A custom query passes if it is a single selection that keeps the rules on words, or the execution of
a listed procedure. The text itself is never changed, except that blanks and one semicolon around it
are cut off.

## Main definitions

* `procedureName s`: the bare name of a procedure
* `QueryFault`: why a custom query is refused
* `Validation`: the outcome of the check
* `validateExec`, `validate`: the check of the execution of a procedure, and of any query
-/

namespace ChartQuery.Sql

open Text (isBlank trim trimEnd upper)

/-! ## Procedures -/

/-- The text behind the last full stop. -/
def lastPart (cs : List Char) : List Char :=
  (cs.reverse.takeWhile (· != '.')).reverse

/-- The bare name of a procedure: without brackets, the parts in front of it, and blanks, in
capitals. -/
def procedureName (s : String) : String :=
  let bare := s.toList.filter fun c => c != '[' && c != ']'
  upper (trim (String.ofList (lastPart bare)))

/-- The bare names of listed procedures, each once, without the empty one. -/
def procedureNames (listed : List String) : List String :=
  ((listed.map procedureName).filter (!·.isEmpty)).eraseDups

/-! ## Outcomes -/

/-- Why a custom query is refused. -/
inductive QueryFault where
  | notText
  | unparsed
  | empty
  | severalStatements
  | notSelecting
  | words (fault : WordFault)
  | execSyntax
  | unlistedProcedure (name : String)
  | dangerousExec
  | nestedExec
  deriving DecidableEq, Repr

/-- What a refusal says. -/
def QueryFault.message : QueryFault → String
  | notText => "Query must be a non-empty string"
  | unparsed => "Query could not be parsed"
  | empty => "Query cannot be empty"
  | severalStatements => "Only a single SQL statement is allowed"
  | notSelecting =>
    "Only SELECT queries or EXEC statements (for whitelisted procedures) are allowed"
  | words fault => fault.message
  | execSyntax => "Invalid EXEC syntax"
  | unlistedProcedure name => "Stored procedure \"" ++ name ++ "\" is not whitelisted"
  | dangerousExec => "Dangerous patterns detected in EXEC statement"
  | nestedExec => "Nested EXEC statements are not allowed"

/-- The outcome of the check: the query to run, or the text of the refusal. -/
structure Validation where
  isValid : Bool
  query : Option String
  error : Option String
  isExec : Bool
  deriving DecidableEq, Repr

/-- The outcome of a refusal. -/
def Validation.refused (f : QueryFault) : Validation := ⟨false, none, some f.message, false⟩

/-- The outcome that lets a query pass. -/
def Validation.passed (query : String) (isExec : Bool) : Validation :=
  ⟨true, some query, none, isExec⟩

/-! ## The execution of a procedure -/

/-- The text behind a word in front, whatever the case of its letters. -/
def afterWord? (word : String) (cs : List Char) : Option (List Char) :=
  let n := word.length
  if (cs.take n).map Char.toUpper == word.toList then some (cs.drop n) else none

/-- The character may stand in the name of a procedure: a name character, a bracket, a full stop, or
one of the four letters beyond ASCII that differ from letters of ASCII in case only. -/
def isProcedureChar (c : Char) : Bool :=
  isNameChar c || c == '[' || c == ']' || c == '.' ||
    [0x130, 0x131, 0x17F, 0x212A].contains c.toNat

/-- The text behind the word that executes a procedure: at least one blank, and a name as long as
characters of names go on. -/
def nameAfter? : List Char → Option String
  | c :: r =>
    if isBlank c then
      match (r.dropWhile isBlank).takeWhile isProcedureChar with
      | [] => none
      | name => some (String.ofList name)
    else none
  | [] => none

/-- The name that stands behind the word which executes a procedure. -/
def execTarget? (cs : List Char) : Option String :=
  ((afterWord? "EXECUTE" cs).bind nameAfter?).or ((afterWord? "EXEC" cs).bind nameAfter?)

/-- The number of whole words of a text that execute a procedure. -/
def execCount (cs : List Char) : Nat :=
  (wordRuns cs).countP fun (run, _) =>
    let w := run.map Char.toUpper
    w == "EXEC".toList || w == "EXECUTE".toList

/-- The marks that the execution of a procedure may not contain. -/
def execMarks : List String := ["--", "/*", ";", "$"]

/-- The check of the execution of a procedure: its name has to be listed, in its bare form. -/
def validateExec (query : String) (listed : List String) : Validation :=
  let cs := query.toList
  match execTarget? cs with
  | none => .refused .execSyntax
  | some name =>
    if !listed.contains (procedureName name) then .refused (.unlistedProcedure name)
    else if execMarks.any fun m => (through m.toList cs).isSome then .refused .dangerousExec
    else if 1 < execCount cs then .refused .nestedExec
    else .passed query true

/-! ## The check of a query -/

/-- A query without the blanks around it and one semicolon at its end. -/
def trimQuery (s : String) : String :=
  let t := trim s
  match t.toList.reverse with
  | ';' :: r => trimEnd (String.ofList r.reverse)
  | _ => t

/-- The words with which a query that selects rows has to start. -/
def readingWords : List String := ["SELECT", "WITH"]

/-- The check of a trimmed query that executes no procedure. -/
def validateSelect (query : String) : Validation :=
  match parse? query with
  | none => .refused .unparsed
  | some [] => .refused .empty
  | some (_ :: _ :: _) => .refused .severalStatements
  | some [kind] =>
    let code := maskChars query.toList
    let reads := (words code).head?.any fun (w, _) => readingWords.contains w
    if kind = .select && reads then
      match checkWords code with
      | some fault => .refused (.words fault)
      | none => .passed query false
    else .refused .notSelecting

/-- The check of a query, given as a value of any kind, against the bare names of the listed
procedures. -/
def validate (query : Value) (listed : List String) : Validation :=
  match query with
  | .text s =>
    if Text.isBlankText s then .refused .notText
    else
      let t := trimQuery s
      if (execTarget? t.toList).isSome || upper t == "EXEC" || upper t == "EXECUTE" then
        validateExec t listed
      else validateSelect t
  | _ => .refused .notText

end ChartQuery.Sql
