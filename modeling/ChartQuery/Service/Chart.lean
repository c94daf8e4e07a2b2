import ChartQuery.Local.Chart
import ChartQuery.Plan.Complexity
import ChartQuery.Sql.Prepare

/-!
# The charts of a service

A specification is answered in its mode: over imported records, by the query compiled for a table,
or by a custom query. The data sources are those of a backend, which may fail at every call.

## Main definitions

* `Command`: what a backend is asked to carry out
* `Backend`: the data sources of a service
* `runSimple`, `runCustom`, `runChart`: the charts of specifications
-/

namespace ChartQuery

/-- What a data source is asked to carry out. -/
inductive Command where
  | chart (query : Sql.Query) (parameters : Entries Value)
  | text (prepared : Sql.Prepared) (most : Option Nat)

/-- Data sources: finding one by the identifier of its connection, a table of it by its name, the
columns of that, and carrying out a command. -/
structure Backend (m : Type → Type) (σ : Type) where
  source : Option String → ExceptT Failure m σ
  table : σ → String → ExceptT Failure m TableRef
  columns : σ → TableRef → ExceptT Failure m ColumnSet
  execute : σ → Command → ExceptT Failure m (List Record)

/-- How many rows charts have, and which procedures custom queries may execute. -/
structure ServicePolicy where
  limits : RowLimits
  procedures : List String

section Charts

variable {m : Type → Type} [Monad m] {σ : Type}

/-- A result that is already there. -/
def settled {α : Type} (x : Except ChartError α) : ExceptT Failure m α :=
  ExceptT.mk (pure (x.mapError .chart))

/-- The chart of a table. -/
def runSimple (b : Backend m σ) (limits : RowLimits) (spec : ChartSpec) :
    ExceptT Failure m ChartResult :=
  match given? spec.table with
  | none => settled (.error .missingTable)
  | some name =>
    if spec.yAxis.isEmpty then settled (.error (.noValidYAxis []))
    else do
      let source ← b.source spec.connectionId
      let table ← b.table source name
      let columns ← b.columns source table
      let compiled ← settled (Sql.compile limits spec columns (some table) none)
      let rows ← b.execute source (.chart compiled.query (Sql.planParameters compiled.plan))
      pure (compiled.plan.result (composeLabels compiled.plan rows))

/-- The rows of a custom query. -/
def runCustom (b : Backend m σ) (policy : ServicePolicy) (spec : ChartSpec) :
    ExceptT Failure m ChartResult :=
  let query := (spec.customQuery.map Value.text).getD .null
  let validation := Sql.validate query policy.procedures
  if !validation.isValid then
    settled (.error (.invalidQuery ((given? validation.error).getD "Invalid query")))
  else do
    let source ← b.source spec.connectionId
    let prepared ← settled (Sql.prepareCustom validation spec.filters)
    let rows ← b.execute source (.text prepared policy.limits.read?)
    pure ⟨rows, prepared.warnings.map Warning.message⟩

/-- The chart of a specification, in its mode. -/
def runChart (b : Backend m σ) (policy : ServicePolicy) (spec : ChartSpec) :
    ExceptT Failure m ChartResult :=
  if !spec.isWithinLimits then settled (.error .tooComplex)
  else match spec.effectiveMode with
    | .imported => ExceptT.mk (pure (localChart policy.limits spec none))
    | .custom => runCustom b policy spec
    | .simple => runSimple b policy.limits spec

end Charts

end ChartQuery
