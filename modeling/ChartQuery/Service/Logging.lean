import ChartQuery.Entries
import ChartQuery.Text.Uppercase

/-!
# Logs

A log has a level below which it is silent, and writes to a file and possibly to the console. Where
it writes is settled when it is first set up; its level is settled anew each time.

## Main definitions

* `LogLevel.ofText`: the level of a name
* `Log`, `Logs.setUp`: logs, and setting one up
-/

namespace ChartQuery

/-- Where a log writes. -/
inductive LogTarget where
  | file
  | console
  deriving DecidableEq, Repr

/-- A name that is no level, but is not free for other use either. -/
inductive LevelFault where
  /-- The name of the default form of a message. -/
  | formName
  /-- The name of the list of forms. -/
  | formList
  deriving DecidableEq, Repr

/-- The levels by their names. -/
def levelNames : List (String × Nat) :=
  [("CRITICAL", 50), ("FATAL", 50), ("ERROR", 40), ("WARNING", 30), ("WARN", 30), ("INFO", 20),
    ("DEBUG", 10), ("NOTSET", 0)]

/-- The level of a name in letters of any case; an unknown name is that of the informing level. -/
def levelOf (name : String) : Except LevelFault Nat :=
  let w := Text.upper name
  if w = "BASIC_FORMAT" then .error .formName
  else if w = "_STYLES" then .error .formList
  else .ok ((levelNames.lookup w).getD 20)

/-- A log: its level, and where it writes. -/
structure Log where
  level : Nat
  targets : List LogTarget
  deriving DecidableEq, Repr

/-- Logs under their names. -/
abbrev Logs := Entries Log

/-- The logs after one is set up at the level of a name, by default at the usual level. -/
def Logs.setUp (logs : Logs) (usual : String) (name : String) (level : Option String)
    (console : Bool) : Except LevelFault (Log × Logs) := do
  let n ← levelOf ((level.filter (!·.isEmpty)).getD usual)
  let targets := match logs.lookup name with
    | some log => log.targets
    | none => .file :: if console then [.console] else []
  let log : Log := ⟨n, targets⟩
  .ok (log, logs.assign name log)

end ChartQuery
