import ChartQuery.Database.Evaluation
import ChartQuery.Sql.Select

/-!
# Carrying out query text

A database carries out a text that holds exactly one statement. It fails where it cannot parse the
text, where a name is unknown, and where the values given are not exactly those of the parameters.

## Main definitions

* `Relation`: columns with rows
* `Database.select`: the relation of a selection
* `Database.execute`: the rows of a text, and the database afterwards

## Main results

* `Database.execute_unchanged`: a text that fails changes nothing
-/

namespace ChartQuery

open Sql

/-- Columns with rows, and the names by which their origin is called. -/
structure Relation where
  columns : List Column
  rows : List (List Value)
  /-- The name of the table, and that of its schema in front of it. -/
  origin : List String

/-- The value given for a parameter. -/
def parameterNamed? (parameters : Entries Value) (p : String) : Option Value :=
  (parameters.find? fun e => Database.sameName e.1 p).map (·.2)

namespace Relation

/-- Qualifiers call the origin of a relation: its name, with or without that of its schema. -/
def isCalled (r : Relation) (qualifiers : List String) : Bool :=
  qualifiers.length ≤ r.origin.length &&
    (qualifiers.reverse.zip r.origin.reverse).all fun (q, n) => Database.sameName q n

/-- The position of a column under its name and qualifiers. -/
def position? (r : Relation) (qualifiers : List String) (n : String) : Option Nat :=
  if r.isCalled qualifiers then columnNamed? r.columns n else none

/-- A term over the columns of a relation, with the values of parameters. -/
def bindTerm? (r : Relation) (parameters : Entries Value) : Term → Option Operand
  | .literal v _ => some (.fixed v)
  | .parameter p => (parameterNamed? parameters p).map .fixed
  | .column qualifiers n => do
    let i ← r.position? qualifiers n
    some (.cell i (← r.columns[i]?).type)

/-- A condition over the columns of a relation, with the values of parameters. -/
def bindClause? (r : Relation) (parameters : Entries Value) : Clause → Option Test
  | .isNull t negated => (r.bindTerm? parameters t).map (if negated then .notNull else .isNull)
  | .compare op a b => do
    some (.compare op (← r.bindTerm? parameters a) (← r.bindTerm? parameters b))
  | .member a bs => do
    some (.member (← r.bindTerm? parameters a) (← bs.mapM (r.bindTerm? parameters)))

/-- The name of a term in the result. -/
def nameOf (r : Relation) : Term → String
  | .literal _ text => text
  | .parameter p => "$" ++ p
  | .column _ n => (((columnNamed? r.columns n).bind fun i => r.columns[i]?).map (·.name)).getD n

end Relation

/-- A selected column: its name, its type and where its values come from. -/
structure Selected where
  column : Column
  operand : Operand

/-- The columns of an item; all columns need some. -/
def Relation.bindItem? (r : Relation) (parameters : Entries Value) :
    SelectItem → Option (List Selected)
  | .all qualifiers =>
    if r.columns.isEmpty || !r.isCalled qualifiers then none
    else some (r.columns.mapIdx fun i c => ⟨c, .cell i c.type⟩)
  | .term t given => (r.bindTerm? parameters t).map fun o =>
    [⟨⟨given.getD (r.nameOf t), o.type?.getD .integer⟩, o⟩]

/-- A name that differs from those taken, by a number behind it where it has to. -/
def freshName (taken : List String) (name : String) : Nat → Nat → String
  | 0, _ => name
  | fuel + 1, n =>
    let candidate := if n = 0 then name else name ++ "_" ++ toString n
    if taken.any (Database.sameName candidate) then freshName taken name fuel (n + 1) else candidate

/-- The columns under names that all differ. -/
def renameColumns (columns : List Column) : List Column :=
  columns.foldl (fun done c =>
    done ++ [{ c with name := freshName (done.map (·.name)) c.name (columns.length + 1) 0 }]) []

/-- The selection of items from a relation under conditions. -/
def Relation.select (r : Relation) (parameters : Entries Value) (items : List SelectItem)
    (conditions : List Clause) : Except ExecutionFault Relation := do
  let selected ← orFail (items.mapM (r.bindItem? parameters))
  let tests ← orFail (conditions.mapM (r.bindClause? parameters))
  let rows ← selectRows tests r.rows
  let shown := selected.flatten
  .ok ⟨shown.map (·.column), rows.map fun row => shown.map (·.operand.value row), []⟩

namespace Database

/-- The table that query text names. -/
def tableNamed (d : Database) (schema : Option String) (table : String) :
    Except ExecutionFault Table :=
  orFail (d.named? (schema.getD mainSchema) table)

/-- The relation of a selection. -/
def select (d : Database) (parameters : Entries Value) : Select → Except ExecutionFault Relation
  | .fromNothing items conditions => Relation.select ⟨[], [[]], []⟩ parameters items conditions
  | .fromTable items schema table given conditions => do
    let t ← d.tableNamed schema table
    let origin := (given.map ([·])).getD [t.schema, t.name]
    Relation.select ⟨t.columns, t.rows, origin⟩ parameters items conditions
  | .fromSelect items inner given conditions => do
    let r ← d.select parameters inner
    Relation.select ⟨renameColumns r.columns, r.rows, given.toList⟩ parameters items conditions

/-- The records of a relation; of two columns with one name the later one counts. -/
def recordsOf (r : Relation) : List Record :=
  r.rows.map fun row =>
    ((r.columns.map (·.name)).zip row).foldl (fun done f => Record.put done f.1 f.2) []

/-- The database has a schema of a name. -/
def hasSchema (d : Database) (schema : String) : Bool :=
  sameName schema mainSchema || d.tables.any fun t => sameName t.schema schema

/-- A table may have these columns: their names differ, and their types are known. -/
def allows (columns : List Column) : Bool :=
  columns.all (·.type.isKnown) && !columns.isEmpty &&
    columns.Pairwise fun c e => sameName c.name e.name = false

/-- What a statement answers, and the database afterwards. -/
def runStatement (d : Database) (parameters : Entries Value) :
    Statement → Except ExecutionFault (List Record × Database)
  | .select s => do .ok (recordsOf (← d.select parameters s), d)
  | .create schema table columns unlessThere =>
    let schema := schema.getD mainSchema
    match d.named? schema table with
    | some _ => if unlessThere then .ok ([], d) else .error .database
    | none =>
      if d.hasSchema schema && allows columns then .ok ([], d.insert ⟨schema, table, columns, []⟩)
      else .error .database
  | .drop schema table ifThere =>
    match d.named? (schema.getD mainSchema) table with
    | some t => .ok ([], d.erase t.ref)
    | none => if ifThere then .ok ([], d) else .error .database

/-- The tokens of the only statement of a text. -/
def onlyStatement (text : String) : Except ExecutionFault (List Token) :=
  match parse? text, tokens? text with
  | some _, some ts =>
    match statements ts with
    | [statement] => .ok statement
    | _ => .error .notOneStatement
  | _, _ => .error .database

/-- The values given are exactly those of the parameters. -/
def matchesParameters (names : List String) (parameters : Entries Value) : Bool :=
  names.all (fun n => (parameterNamed? parameters n).isSome) &&
    parameters.all fun p => names.any (sameName p.1)

/-- The rows of a text, at most so many if their number is given, and the database afterwards. -/
def execute (d : Database) (text : String) (parameters : Entries Value) (most : Option Nat) :
    Except ExecutionFault (List Record × Database) := do
  let ts ← onlyStatement text
  if !matchesParameters (parametersOf ts) parameters then .error .database
  else
    let statement ← orFail (readStatement? ts)
    let (rows, d) ← d.runStatement parameters statement
    .ok (match most with
      | some n => rows.take n
      | none => rows, d)

/-- The rows of a text, or why there are none, and the database afterwards. -/
def executeStep (d : Database) (text : String) (parameters : Entries Value) (most : Option Nat) :
    Except ExecutionFault (List Record) × Database :=
  match d.execute text parameters most with
  | .ok (rows, d) => (.ok rows, d)
  | .error e => (.error e, d)

/-- A text that fails changes nothing. -/
theorem execute_unchanged {d : Database} {text : String} {parameters : Entries Value}
    {most : Option Nat} {e : ExecutionFault}
    (h : (d.executeStep text parameters most).1 = .error e) :
    (d.executeStep text parameters most).2 = d := by
  unfold executeStep at h ⊢
  split
  · simp_all
  · rfl

end Database

end ChartQuery
