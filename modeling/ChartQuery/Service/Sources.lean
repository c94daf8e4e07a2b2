import ChartQuery.Pool.Registry
import ChartQuery.Service.Batch
import ChartQuery.Service.Chart

/-!
# The pools of a registry as data sources

## Main definitions

* `registryBackend`: the data sources of a registry
* `Registry.chart`, `Registry.batch`: charts and batches over a registry
* `Registry.listTables`, `Registry.describeTable`: the catalog of a data source
-/

namespace ChartQuery

/-- What a function makes of the session of a pool, or the error that stands for a pool that cannot
be opened. -/
def onSession {α : Type} (opener : Opener) (fault : ChartError) (n : Nat)
    (f : Database → Except ChartError α × Database) : ExceptT Failure (StateM Registry) α :=
  ExceptT.mk fun r =>
    match r.withSession opener n f with
    | (some (.ok a), r) => (.ok a, r)
    | (some (.error e), r) => (.error (.chart e), r)
    | (none, r) => (.error (.chart fault), r)

/-- What the catalog of a pool holds. -/
def lookUp {α : Type} (opener : Opener) (n : Nat) (f : Database → Except ChartError α) :
    ExceptT Failure (StateM Registry) α :=
  onSession opener .schemaLookup n fun d => (f d, d)

/-- The table of a name, as the catalog spells it. -/
def Database.resolve (d : Database) (name : String) : Except ChartError Table :=
  match d.find? name with
  | some t => .ok t
  | none => .error (.tableNotFound name)

/-- A command carried out by a database. -/
def Database.carryOut (d : Database) : Command → Except ChartError (List Record) × Database
  | .chart q ps => ((d.answer q ps).mapError .execution, d)
  | .text q most => (d.executeStep q.text q.parameters most).map (·.mapError .execution) id

/-- The data sources of a registry. -/
def registryBackend (opener : Opener) : Backend (StateM Registry) Nat where
  source id := ExceptT.mk fun r => r.get opener id
  table n name := lookUp opener n fun d => (d.resolve name).map Table.ref
  columns n ref := lookUp opener n fun d => .ok (Database.columnSet (d.columnsOf ref))
  execute n command := onSession opener (.execution .database) n fun d => d.carryOut command

/-- The chart of a specification over a registry, and the registry afterwards. -/
def Registry.chart (opener : Opener) (policy : ServicePolicy) (spec : ChartSpec) :
    StateM Registry (Except Failure ChartResult) :=
  (runChart (registryBackend opener) policy spec).run

/-- The results of a batch over a registry, and the registry afterwards. -/
def Registry.batch (opener : Opener) (policy : ServicePolicy) (most : Int)
    (items : List BatchItem) : StateM Registry (Except ChartError (List BatchResult)) :=
  runBatch most (Registry.chart opener policy) items

/-- The tables of the data source of an identifier. -/
def Registry.listTables (opener : Opener) (id : Option String) :
    ExceptT Failure (StateM Registry) (List TableRef) := do
  let n ← (registryBackend opener).source id
  lookUp opener n fun d => .ok (d.listing.map Table.ref)

/-- The columns of a table of the data source of an identifier. -/
def Registry.describeTable (opener : Opener) (id : Option String) (name : String) :
    ExceptT Failure (StateM Registry) (List Column) := do
  let n ← (registryBackend opener).source id
  let t ← lookUp opener n fun d => d.resolve name
  lookUp opener n fun d => .ok (d.columnsOf t.ref)

end ChartQuery
