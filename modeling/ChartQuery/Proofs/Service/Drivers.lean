import ChartQuery.Proofs.Computation
import ChartQuery.Service.Sources

/-!
# The driver behind data sources

Behind data sources stand a registry, which finds them, and a driver, which answers or refuses. What
a refusal means depends on the call: in a lookup, that the catalog cannot be read, and of a command,
that it cannot be carried out. That the catalog lacks a table is no refusal.

## Main definitions

* `Driver`: what a registry and a driver answer
* `Driver.backend`: the data sources before them
* `registryDriver`: what a registry of databases answers

## Main results

* `backend_registryDriver`: the data sources of a registry are those before its driver
-/

namespace ChartQuery

/-- Why a driver does not answer: it refuses, or something happens that nobody foresaw. -/
inductive DriverFault where
  | refused (fault : ExecutionFault)
  | raised (fault : Unforeseen)

/-- The failure that a fault becomes, where a refusal is told as a chart error. -/
def DriverFault.told (refusal : ExecutionFault → ChartError) : DriverFault → Failure
  | refused fault => .chart (refusal fault)
  | raised fault => .unforeseen fault

/-- A registry, which finds sources, and a driver, which looks up tables and columns in them and
carries out commands. -/
structure Driver (m : Type → Type) (σ : Type) where
  source : Option String → m (Except Failure σ)
  table : σ → String → m (Except DriverFault (Option TableRef))
  columns : σ → TableRef → m (Except DriverFault (List Column))
  execute : σ → Command → m (Except DriverFault (List Record))

/-- What comes of looking up a table. -/
def tableTold (name : String) : Except DriverFault (Option TableRef) → Except Failure TableRef
  | .ok (some ref) => .ok ref
  | .ok none => .error (.chart (.tableNotFound name))
  | .error fault => .error (fault.told fun _ => .schemaLookup)

/-- What comes of looking up columns. -/
def columnsTold (found : Except DriverFault (List Column)) : Except Failure ColumnSet :=
  (found.map Database.columnSet).mapError (·.told fun _ => .schemaLookup)

/-- What comes of a command. -/
def rowsTold (rows : Except DriverFault (List Record)) : Except Failure (List Record) :=
  rows.mapError (·.told .execution)

theorem tableTold_eq_ok_iff {name : String} {found : Except DriverFault (Option TableRef)}
    {ref : TableRef} : tableTold name found = .ok ref ↔ found = .ok (some ref) := by
  cases found with
  | error fault => simp [tableTold]
  | ok found => cases found <;> simp [tableTold]

theorem columnsTold_eq_ok_iff {found : Except DriverFault (List Column)} {columns : ColumnSet} :
    columnsTold found = .ok columns ↔
      ∃ listed, found = .ok listed ∧ Database.columnSet listed = columns := by
  rw [columnsTold, mapError_eq_ok_iff, map_eq_ok_iff]

/-- A refused command fails while the chart is made: it is answered with status 500. -/
theorem status_of_rowsTold_error {rows : Except DriverFault (List Record)} {e : ChartError}
    (h : rowsTold rows = .error (.chart e)) : e.status = 500 := by
  cases rows with
  | ok rows => cases h
  | error fault =>
    cases fault with
    | refused fault =>
      cases h
      rfl
    | raised fault => cases h

/-- The data sources before a driver. -/
def Driver.backend {m : Type → Type} [Monad m] {σ : Type} (d : Driver m σ) : Backend m σ where
  source id := ExceptT.mk (d.source id)
  table n name := ExceptT.mk (tableTold name <$> d.table n name)
  columns n ref := ExceptT.mk (columnsTold <$> d.columns n ref)
  execute n command := ExceptT.mk (rowsTold <$> d.execute n command)

/-! ## Registries of databases -/

/-- What a function makes of the session of a pool; a pool that cannot be opened refuses. -/
def askSession {α : Type} (opener : Opener) (n : Nat)
    (f : Database → Except ExecutionFault α × Database) :
    StateM Registry (Except DriverFault α) :=
  fun r =>
    match r.withSession opener n f with
    | (some answer, r) => (answer.mapError .refused, r)
    | (none, r) => (.error (.refused .database), r)

/-- A command carried out by a database, or why it is refused. -/
def Database.respond (d : Database) : Command → Except ExecutionFault (List Record) × Database
  | .chart q ps => (d.answer q ps, d)
  | .text q most => d.executeStep q.text q.parameters most

/-- What a registry of databases answers. -/
def registryDriver (opener : Opener) : Driver (StateM Registry) Nat where
  source id := fun r => r.get opener id
  table n name := askSession opener n fun d => (.ok ((d.find? name).map Table.ref), d)
  columns n ref := askSession opener n fun d => (.ok (d.columnsOf ref), d)
  execute n command := askSession opener n fun d => d.respond command

section Registry

variable {α β : Type} {opener : Opener} {n : Nat}

/-- Before a session stands the same function with its answers told. -/
theorem onSession_eq {f : Database → Except ExecutionFault α × Database}
    {g : Database → Except ChartError β × Database} {fault : ChartError}
    {told : Except DriverFault α → Except Failure β}
    (hanswer : ∀ d, told ((f d).1.mapError .refused) = (g d).1.mapError .chart)
    (hstate : ∀ d, (f d).2 = (g d).2)
    (hrefused : told (.error (.refused .database)) = .error (.chart fault)) :
    onSession opener fault n g = ExceptT.mk (told <$> askSession opener n f) := by
  funext r
  show onSession opener fault n g r =
    (told (askSession opener n f r).1, (askSession opener n f r).2)
  simp only [onSession, askSession, Registry.withSession, ExceptT.mk]
  rcases hacquire : r.acquire opener n with ⟨_ | d, r'⟩
  · simp only [hrefused]
  · simp only [hanswer, hstate]
    cases (g d).1 with
    | ok b => rfl
    | error e => rfl

/-- A command is carried out as the database responds to it. -/
theorem rowsTold_respond (d : Database) (command : Command) :
    rowsTold ((d.respond command).1.mapError .refused) =
      (d.carryOut command).1.mapError .chart := by
  have htold : ∀ answer : Except ExecutionFault (List Record),
      rowsTold (answer.mapError .refused) = (answer.mapError .execution).mapError .chart := by
    intro answer
    cases answer <;> rfl
  cases command with
  | chart q ps => exact htold _
  | text q most => exact htold _

/-- **The data sources of a registry are those before its driver.** -/
theorem backend_registryDriver (opener : Opener) :
    (registryDriver opener).backend = registryBackend opener := by
  have htable : ∀ n name, (registryDriver opener).backend.table n name =
      (registryBackend opener).table n name := by
    intro n name
    refine (onSession_eq (fun d => ?_) (fun _ => rfl) rfl).symm
    show tableTold name (.ok ((d.find? name).map Table.ref)) =
      ((d.resolve name).map Table.ref).mapError .chart
    rw [Database.resolve]
    cases d.find? name <;> rfl
  have hcolumns : ∀ n ref, (registryDriver opener).backend.columns n ref =
      (registryBackend opener).columns n ref :=
    fun n ref => (onSession_eq (fun _ => rfl) (fun _ => rfl) rfl).symm
  have hexecute : ∀ n command, (registryDriver opener).backend.execute n command =
      (registryBackend opener).execute n command := by
    intro n command
    refine (onSession_eq (fun d => rowsTold_respond d command) (fun d => ?_) rfl).symm
    cases command <;> rfl
  show Backend.mk _ _ _ _ = Backend.mk _ _ _ _
  congr 1
  · funext n name
    exact htable n name
  · funext n ref
    exact hcolumns n ref
  · funext n command
    exact hexecute n command

end Registry

end ChartQuery
