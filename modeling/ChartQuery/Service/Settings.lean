import ChartQuery.Entries
import ChartQuery.Json.Reader
import ChartQuery.Plan.Resolve
import ChartQuery.Spec.Request

/-!
# Settings

The settings of the service have usual values. They are changed by the environment, and before it by
settings given directly; the names of both are taken in letters of any case. Mappings given in both
places are joined.

## Main definitions

* `Settings`: the settings of the service
* `Settings.read`: the settings of an environment and of given values
-/

namespace ChartQuery

/-- The settings of the service. -/
structure Settings where
  databasePath : String
  connections : List (String × String)
  maxConnections : Int
  readOnly : Bool
  allowExternalAccess : Bool
  maxQueryRows : Int
  defaultLimit : Int
  maxBatchSize : Int
  storedProcedureWhitelist : List String
  rateLimitRequests : Int
  rateLimitWindowSeconds : Int
  apiHost : String
  apiPort : Int
  debug : Bool
  logLevel : String
  logFile : String
  deriving DecidableEq, Repr

namespace Settings

/-- The usual settings. -/
def usual : Settings where
  databasePath := ":memory:"
  connections := []
  maxConnections := 10
  readOnly := false
  allowExternalAccess := false
  maxQueryRows := 10000
  defaultLimit := 50
  maxBatchSize := 50
  storedProcedureWhitelist := []
  rateLimitRequests := 100
  rateLimitWindowSeconds := 60
  apiHost := "0.0.0.0"
  apiPort := 8000
  debug := true
  logLevel := "INFO"
  logFile := "logs/app.log"

/-- How many rows charts have under the settings. -/
def rowLimits (s : Settings) : RowLimits := ⟨s.defaultLimit, s.maxQueryRows⟩

/-! ## The environment -/

/-- The names of the settings. -/
def names : List String :=
  ["database_path", "connections", "max_connections", "read_only", "allow_external_access",
    "max_query_rows", "default_limit", "max_batch_size", "stored_procedure_whitelist",
    "rate_limit_requests", "rate_limit_window_seconds", "api_host", "api_port", "debug",
    "log_level", "log_file"]

/-- The names of the settings that the environment gives in a notation for compound values. -/
def compoundNames : List String := ["connections", "stored_procedure_whitelist"]

/-- A setting of the environment cannot be read as a compound value. -/
inductive EnvironmentFault where
  | unreadable (name : String)
  | tooDeep (name : String)
  deriving DecidableEq, Repr

/-- The value of an environment for a setting: of several spellings the last one counts. -/
def environmentValue? (env : List (String × String)) (name : String) : Option String :=
  env.reverse.findSome? fun e => if Text.asciiLower e.1 = name then some e.2 else none

/-- The value of a setting as the environment gives it, if it does. -/
def readEnvironment (env : List (String × String)) (name : String) :
    Except EnvironmentFault (Option Value) :=
  match environmentValue? env name with
  | none => .ok none
  | some s =>
    if compoundNames.contains name then
      match Json.read .usual s with
      | .ok .null => .ok none
      | .ok v => .ok (some v)
      | .error .tooDeep => .error (.tooDeep name)
      | .error _ => .error (.unreadable name)
    else .ok (some (.text s))

/-- The value that is given for a setting: of several spellings the first one counts. -/
def givenValue? (given : Record) (name : String) : Option Value :=
  given.findSome? fun f => if Text.asciiLower f.1 = name then some f.2 else none

/-- A value in front of another: fields of objects are joined, all else is replaced. -/
def join (front back : Value) : Value :=
  match front, back with
  | .object fs, .object gs => .object (fs.foldl (fun done f => Record.put done f.1 f.2) gs)
  | v, _ => v

/-- The values of the settings, given ones before those of the environment. -/
def gather (env : List (String × String)) (given : Record) :
    List String → Except EnvironmentFault Record
  | [] => .ok []
  | name :: rest => do
    let fromEnvironment ← readEnvironment env name
    let more ← gather env given rest
    .ok (match givenValue? given name, fromEnvironment with
      | some v, some w => (name, join v w) :: more
      | some v, none => (name, v) :: more
      | none, some w => (name, w) :: more
      | none, none => more)

/-! ## Checks -/

/-- A mapping of names to texts. -/
def checkTexts : Value → Checked (List (String × String))
  | .object fs => fields fs
  | _ => .issue .notObject
where
  /-- The fields of a mapping, all of them texts. -/
  fields : List (String × Value) → Checked (List (String × String))
    | [] => .ok []
    | (k, v) :: fs =>
      (((checkText v).under (.name k)).map fun s t => (k, s) :: t).apply (fields fs)

/-- A path of a file. -/
def checkPath : Value → Checked String
  | .text s => .ok s
  | _ => .issue .notPath

/-- The names that are no settings, each of them an issue. -/
def checkNames (given : Record) : Checked Unit :=
  match given.filter fun f => !names.contains (Text.asciiLower f.1) with
  | [] => .ok ()
  | extra => .refused (extra.map fun f => ⟨[.name f.1], .extra⟩)

/-- The settings of values. -/
def check (r : Record) (given : Record) : Checked Settings :=
  let field {α : Type} (name : String) (default : α) (reader : Value → Checked α) : Checked α :=
    checkField r name name default reader
  ((field "database_path" usual.databasePath checkText).map Settings.mk
    |>.apply (field "connections" usual.connections checkTexts)
    |>.apply (field "max_connections" usual.maxConnections checkInt)
    |>.apply (field "read_only" usual.readOnly checkBool)
    |>.apply (field "allow_external_access" usual.allowExternalAccess checkBool)
    |>.apply (field "max_query_rows" usual.maxQueryRows checkInt)
    |>.apply (field "default_limit" usual.defaultLimit checkInt)
    |>.apply (field "max_batch_size" usual.maxBatchSize checkInt)
    |>.apply (field "stored_procedure_whitelist" usual.storedProcedureWhitelist
      (checkList checkText))
    |>.apply (field "rate_limit_requests" usual.rateLimitRequests checkInt)
    |>.apply (field "rate_limit_window_seconds" usual.rateLimitWindowSeconds checkInt)
    |>.apply (field "api_host" usual.apiHost checkText)
    |>.apply (field "api_port" usual.apiPort checkInt)
    |>.apply (field "debug" usual.debug checkBool)
    |>.apply (field "log_level" usual.logLevel checkText)
    |>.apply (field "log_file" usual.logFile checkPath)).map (fun s _ => s)
    |>.apply (checkNames given)

/-- The settings of an environment and of given values. -/
def read (env : List (String × String)) (given : Record) :
    Except EnvironmentFault (Checked Settings) := do
  let values ← gather env given names
  .ok (check values given)

end Settings

end ChartQuery
