import ChartQuery.Proofs.Service.Addresses
import ChartQuery.Proofs.Service.Drivers

/-!
# What is asked for a chart

A driver can be made to record the calls that it answers, each with its answer, and otherwise does
what it did. The calls for a chart are then one of few courses, which break off where a call fails:
a source is found, for a custom query that query is carried out, and else a table is looked up, its
columns, and the query compiled for these is carried out. Nothing follows the command, and whatever
fails before it is no failure of a command.

## Main definitions

* `Exchange`: a call of a driver with its answer
* `Driver.recording`: a driver that records its calls
* `conversation`: what comes of a chart, and the calls that are made for it
* `Course`: the calls that can be made for a chart

## Main results

* `takesCourse_conversation`: the calls for a chart are one of the courses
* `mirrors_runChart`: a driver that records its calls makes the same charts
* `Course.countP_isExecution_le`, `Course.not_isExecution_of_status`: when a command is given
* `Course.table_of_columns`, `Course.compile_of_execute`: what precedes a lookup and a command
* `rejected_runNoQuery`: rejected specifications run no query
-/

namespace ChartQuery

/-! ## Drivers that record their calls -/

/-- A call of a driver with its answer. -/
inductive Exchange (σ : Type) where
  | source (id : Option String) (found : Except Failure σ)
  | table (source : σ) (name : String) (found : Except DriverFault (Option TableRef))
  | columns (source : σ) (ref : TableRef) (found : Except DriverFault (List Column))
  | execute (source : σ) (command : Command) (rows : Except DriverFault (List Record))

/-- The call is for a command to be carried out. -/
def Exchange.isExecution {σ : Type} : Exchange σ → Bool
  | execute .. => true
  | _ => false

variable {ρ σ α β κ : Type}

/-- A call that is recorded with its answer. -/
def recorded (call : StateM ρ α) (exchange : α → Exchange σ) :
    StateM (List (Exchange σ) × ρ) α :=
  fun w => ((call.run w.2).1, w.1 ++ [exchange (call.run w.2).1], (call.run w.2).2)

/-- A driver that records its calls, each with its answer. -/
def Driver.recording (d : Driver (StateM ρ) σ) : Driver (StateM (List (Exchange σ) × ρ)) σ where
  source id := recorded (d.source id) (.source id)
  table n name := recorded (d.table n name) (.table n name)
  columns n ref := recorded (d.columns n ref) (.columns n ref)
  execute n command := recorded (d.execute n command) (.execute n command)

/-- What comes of the chart of a specification, the calls that are made for it, and the state that
they leave. -/
def conversation (d : Driver (StateM ρ) σ) (policy : ServicePolicy) (spec : ChartSpec) (s : ρ) :
    Except Failure ChartResult × List (Exchange σ) × ρ :=
  (runChart d.recording.backend policy spec).run.run ([], s)

section Calls

variable {d : Driver (StateM ρ) σ} {n : σ} {trace : List (Exchange σ)} {s s' : ρ}

theorem run_recorded {call : StateM ρ α} {exchange : α → Exchange σ} {answer : α}
    (h : call.run s = (answer, s')) :
    (recorded call exchange).run (trace, s) = (answer, trace ++ [exchange answer], s') := by
  show ((call.run s).1, trace ++ [exchange (call.run s).1], (call.run s).2) = _
  rw [h]

theorem run_recording_source {id : Option String} {found : Except Failure σ}
    (h : (d.source id).run s = (found, s')) :
    (d.recording.backend.source id).run.run (trace, s) =
      (found, trace ++ [.source id found], s') :=
  run_recorded h

theorem run_recording_table {name : String} {found : Except DriverFault (Option TableRef)}
    {r : Except Failure TableRef} (h : (d.table n name).run s = (found, s'))
    (hr : tableTold name found = r) :
    (d.recording.backend.table n name).run.run (trace, s) =
      (r, trace ++ [.table n name found], s') := by
  rw [← hr]
  exact congrArg (Prod.map (tableTold name) id) (run_recorded h)

theorem run_recording_columns {ref : TableRef} {found : Except DriverFault (List Column)}
    {r : Except Failure ColumnSet} (h : (d.columns n ref).run s = (found, s'))
    (hr : columnsTold found = r) :
    (d.recording.backend.columns n ref).run.run (trace, s) =
      (r, trace ++ [.columns n ref found], s') := by
  rw [← hr]
  exact congrArg (Prod.map columnsTold id) (run_recorded h)

theorem run_recording_execute {command : Command} {rows : Except DriverFault (List Record)}
    (h : (d.execute n command).run s = (rows, s')) :
    (d.recording.backend.execute n command).run.run (trace, s) =
      (rowsTold rows, trace ++ [.execute n command rows], s') :=
  congrArg (Prod.map rowsTold id) (run_recorded h)

end Calls

/-! ## One call behind another -/

section Runs

variable {x : ExceptT Failure (StateM κ) α} {f : α → ExceptT Failure (StateM κ) β} {w w' : κ}

/-- Where a computation gives something, the next goes on from there. -/
theorem run_bind_of_ok {a : α} (h : x.run.run w = (.ok a, w')) :
    (x >>= f).run.run w = (f a).run.run w' := by
  rw [ExceptT.run_bind, StateT.run_bind, h]
  rfl

/-- Where a computation fails, nothing follows it. -/
theorem run_bind_of_error {e : Failure} (h : x.run.run w = (.error e, w')) :
    (x >>= f).run.run w = (.error e, w') := by
  rw [ExceptT.run_bind, StateT.run_bind, h]
  rfl

/-- What is made of the answer of the last computation. -/
theorem run_bind_pure {r : Except Failure α} {g : α → β} (h : x.run.run w = (r, w')) :
    (do let a ← x; pure (g a) : ExceptT Failure (StateM κ) β).run.run w = (r.map g, w') := by
  cases r with
  | error e => exact run_bind_of_error h
  | ok a => exact run_bind_of_ok h

theorem run_settled {r : Except ChartError α} :
    (settled r : ExceptT Failure (StateM κ) α).run.run w = (r.mapError .chart, w) := rfl

end Runs

/-! ## The courses of a chart -/

/-- The calls that can be made for the chart of a specification, and what can come of it. Where no
command is given, that may be anything. -/
inductive Course (policy : ServicePolicy) (spec : ChartSpec) :
    List (Exchange σ) → Except Failure ChartResult → Prop
  | unasked (outcome : Except Failure ChartResult) : Course policy spec [] outcome
  | sourced (found : Except Failure σ) (outcome : Except Failure ChartResult) :
      Course policy spec [.source spec.connectionId found] outcome
  | resolved {n : σ} {name : String} (found : Except DriverFault (Option TableRef))
      (outcome : Except Failure ChartResult) : given? spec.table = some name →
      Course policy spec [.source spec.connectionId (.ok n), .table n name found] outcome
  | described {n : σ} {name : String} {ref : TableRef} (found : Except DriverFault (List Column))
      (outcome : Except Failure ChartResult) : given? spec.table = some name →
      Course policy spec [.source spec.connectionId (.ok n), .table n name (.ok (some ref)),
        .columns n ref found] outcome
  | charted {n : σ} {name : String} {ref : TableRef} {columns : List Column}
      {compiled : Sql.Compiled} (rows : Except DriverFault (List Record)) :
      given? spec.table = some name →
      Sql.compile policy.limits spec (Database.columnSet columns) (some ref) none =
        .ok compiled →
      Course policy spec [.source spec.connectionId (.ok n), .table n name (.ok (some ref)),
        .columns n ref (.ok columns),
        .execute n (.chart compiled.query (Sql.planParameters compiled.plan)) rows]
        ((rowsTold rows).map fun rows =>
          compiled.plan.result (composeLabels compiled.plan rows))
  | queried {n : σ} {prepared : Sql.Prepared} (rows : Except DriverFault (List Record)) :
      spec.effectiveMode = .custom →
      Course policy spec [.source spec.connectionId (.ok n),
        .execute n (.text prepared policy.limits.read?) rows]
        ((rowsTold rows).map fun rows => ⟨rows, prepared.warnings.map Warning.message⟩)

section Courses

variable {d : Driver (StateM ρ) σ} {policy : ServicePolicy} {spec : ChartSpec} {s : ρ}

/-- A run takes one of the courses. -/
def TakesCourse (policy : ServicePolicy) (spec : ChartSpec)
    (run : Except Failure ChartResult × List (Exchange σ) × ρ) : Prop :=
  Course policy spec run.2.1 run.1

theorem takesCourse_runSimple : TakesCourse policy spec
    ((runSimple d.recording.backend policy.limits spec).run.run ([], s)) := by
  cases hname : given? spec.table with
  | none =>
    rw [runSimple, hname]
    exact .unasked _
  | some name =>
    cases hy : spec.yAxis.isEmpty with
    | true =>
      rw [runSimple, hname]
      simp only [hy, if_true]
      exact .unasked _
    | false =>
      rw [runSimple_of_given _ _ hname hy]
      -- The calls come one after the other, and the first that fails ends the chart.
      rcases hsource : (d.source spec.connectionId).run s with ⟨e | n, s₁⟩
      · rw [run_bind_of_error (run_recording_source hsource)]
        exact .sourced _ _
      rw [run_bind_of_ok (run_recording_source hsource)]
      rcases htable : (d.table n name).run s₁ with ⟨found, s₂⟩
      cases htold : tableTold name found with
      | error e =>
        rw [run_bind_of_error (run_recording_table htable htold)]
        exact .resolved _ _ hname
      | ok ref =>
        rw [run_bind_of_ok (run_recording_table htable htold)]
        obtain rfl := tableTold_eq_ok_iff.1 htold
        rcases hcolumns : (d.columns n ref).run s₂ with ⟨listed, s₃⟩
        cases hset : columnsTold listed with
        | error e =>
          rw [run_bind_of_error (run_recording_columns hcolumns hset)]
          exact .described _ _ hname
        | ok columns =>
          rw [run_bind_of_ok (run_recording_columns hcolumns hset)]
          obtain ⟨listed, rfl, rfl⟩ := columnsTold_eq_ok_iff.1 hset
          cases hcompile : Sql.compile policy.limits spec (Database.columnSet listed) (some ref)
              none with
          | error e =>
            rw [run_bind_of_error run_settled]
            exact .described _ _ hname
          | ok compiled =>
            rw [run_bind_of_ok run_settled]
            rcases hrows : (d.execute n (.chart compiled.query
              (Sql.planParameters compiled.plan))).run s₃ with ⟨rows, s₄⟩
            rw [run_bind_pure (run_recording_execute hrows)]
            exact .charted rows hname hcompile

theorem takesCourse_runCustom (hmode : spec.effectiveMode = .custom) : TakesCourse policy spec
    ((runCustom d.recording.backend policy spec).run.run ([], s)) := by
  unfold runCustom
  simp only
  split
  · exact .unasked _
  rcases hsource : (d.source spec.connectionId).run s with ⟨e | n, s₁⟩
  · rw [run_bind_of_error (run_recording_source hsource)]
    exact .sourced _ _
  rw [run_bind_of_ok (run_recording_source hsource)]
  cases hprepare : Sql.prepareCustom (Sql.validate ((spec.customQuery.map Value.text).getD .null)
      policy.procedures) spec.filters with
  | error e =>
    rw [run_bind_of_error run_settled]
    exact .sourced _ _
  | ok prepared =>
    rw [run_bind_of_ok run_settled]
    rcases hrows : (d.execute n (.text prepared policy.limits.read?)).run s₁ with ⟨rows, s₂⟩
    rw [run_bind_pure (run_recording_execute hrows)]
    exact .queried rows hmode

/-- **The calls for a chart are one of the courses.** -/
theorem takesCourse_conversation : TakesCourse policy spec (conversation d policy spec s) := by
  unfold conversation runChart
  split
  · exact .unasked _
  · split
    · exact .unasked _
    · rename_i hmode
      exact takesCourse_runCustom hmode
    · exact takesCourse_runSimple

/-- Nothing is asked for a chart of imported records, or for one that is too large. -/
theorem conversation_of_unasked
    (h : spec.effectiveMode = .imported ∨ spec.isWithinLimits = false) :
    (conversation d policy spec s).2 = ([], s) := by
  unfold conversation runChart
  split
  · rfl
  · rename_i hwithin
    have himported : spec.effectiveMode = .imported := h.resolve_right fun hlarge => hwithin (by
      rw [hlarge]
      rfl)
    rw [himported]
    rfl

/-! ## What the courses have in common -/

section Splits

variable {P : List α → α → Prop} {a : α} {l : List α}

/-- What holds of each item behind those before it holds of the first and of each of the others. -/
theorem forall_split_cons :
    (∀ before x after, a :: l = before ++ x :: after → P before x) ↔
      P [] a ∧ ∀ before x after, l = before ++ x :: after → P (a :: before) x := by
  constructor
  · intro h
    exact ⟨h [] a l rfl, fun before x after hl => h (a :: before) x after (congrArg (a :: ·) hl)⟩
  · rintro ⟨hfirst, hrest⟩ before x after hsplit
    cases before with
    | nil =>
      cases hsplit
      exact hfirst
    | cons b before =>
      cases hsplit
      exact hrest before x after rfl

end Splits

namespace Course

variable {trace : List (Exchange σ)} {outcome : Except Failure ChartResult}

/-- At most one command is given. -/
theorem countP_isExecution_le (h : Course policy spec trace outcome) :
    trace.countP Exchange.isExecution ≤ 1 := by
  cases h <;> simp [Exchange.isExecution]

/-- Where a command is given, no failure has the status of a request that is rejected. -/
theorem not_isExecution_of_status (h : Course policy spec trace outcome) {e : ChartError}
    (he : outcome = .error (.chart e)) (hstatus : e.status = 400 ∨ e.status = 404) :
    ∀ x ∈ trace, x.isExecution = false := by
  -- Nothing can fail behind a command but the command itself.
  have hrows : ∀ (rows : Except DriverFault (List Record)) (f : List Record → ChartResult),
      (rowsTold rows).map f ≠ .error (.chart e) := by
    intro rows f hfail
    have htold : rowsTold rows = .error (.chart e) := by
      cases hrows : rowsTold rows with
      | ok rows =>
        rw [hrows] at hfail
        cases hfail
      | error e' =>
        rw [hrows] at hfail
        exact congrArg Except.error (Except.error.inj hfail)
    rw [status_of_rowsTold_error htold] at hstatus
    omega
  cases h with
  | charted rows hname hcompile => exact absurd he (hrows rows _)
  | queried rows hmode => exact absurd he (hrows rows _)
  | _ => simp [Exchange.isExecution]

/-- Columns are only looked up of the table that was found. -/
theorem table_of_columns (h : Course policy spec trace outcome) :
    ∀ before x after, trace = before ++ x :: after → ∀ n ref found, x = .columns n ref found →
      ∃ name, given? spec.table = some name ∧ .table n name (.ok (some ref)) ∈ before := by
  cases h with
  | described found _ hname =>
    simp only [forall_split_cons, List.nil_eq_append_iff, reduceCtorEq, and_false, false_implies,
      implies_true, true_and, and_true]
    intro n ref found hcolumns
    cases hcolumns
    exact ⟨_, hname, by simp⟩
  | charted rows hname =>
    simp only [forall_split_cons, List.nil_eq_append_iff, reduceCtorEq, and_false, false_implies,
      implies_true, true_and, and_true]
    intro n ref found hcolumns
    cases hcolumns
    exact ⟨_, hname, by simp⟩
  | _ => simp [forall_split_cons]

/-- The query of a table is the one compiled for the columns that were found. -/
theorem compile_of_execute (h : Course policy spec trace outcome)
    (hmode : spec.effectiveMode = .simple) :
    ∀ before x after, trace = before ++ x :: after → ∀ n command rows, x = .execute n command rows →
      ∃ ref columns compiled, .columns n ref (.ok columns) ∈ before ∧
        Sql.compile policy.limits spec (Database.columnSet columns) (some ref) none =
          .ok compiled ∧
        command = .chart compiled.query (Sql.planParameters compiled.plan) := by
  cases h with
  | charted rows hname hcompile =>
    simp only [forall_split_cons, List.nil_eq_append_iff, reduceCtorEq, and_false, false_implies,
      implies_true, true_and, and_true]
    intro n command rows hexecute
    cases hexecute
    exact ⟨_, _, _, by simp, hcompile, rfl⟩
  | queried rows hcustom =>
    rw [hmode] at hcustom
    cases hcustom
  | _ => simp [forall_split_cons]

end Course

/-! ## The same charts -/

/-- A computation of recorded calls gives and leaves what another one does. -/
def Mirrors (x : ExceptT Failure (StateM (List (Exchange σ) × ρ)) α)
    (y : ExceptT Failure (StateM ρ) α) : Prop :=
  ∀ trace s, ∃ trace', x.run.run (trace, s) = ((y.run.run s).1, trace', (y.run.run s).2)

theorem Mirrors.bind {x : ExceptT Failure (StateM (List (Exchange σ) × ρ)) α}
    {f : α → ExceptT Failure (StateM (List (Exchange σ) × ρ)) β}
    {y : ExceptT Failure (StateM ρ) α} {g : α → ExceptT Failure (StateM ρ) β} (h : Mirrors x y)
    (hf : ∀ a, Mirrors (f a) (g a)) : Mirrors (x >>= f) (y >>= g) := by
  intro trace s
  obtain ⟨trace', hx⟩ := h trace s
  rcases hy : y.run.run s with ⟨e | a, s'⟩
  · rw [hy] at hx
    rw [run_bind_of_error hx, run_bind_of_error hy]
    exact ⟨trace', rfl⟩
  · rw [hy] at hx
    rw [run_bind_of_ok hx, run_bind_of_ok hy]
    exact hf a trace' s'

theorem mirrors_settled (r : Except ChartError α) :
    Mirrors (settled r : ExceptT Failure (StateM (List (Exchange σ) × ρ)) α) (settled r) :=
  fun trace _ => ⟨trace, rfl⟩

/-- **A driver that records its calls makes the same charts** and leaves the same state. -/
theorem mirrors_runChart (d : Driver (StateM ρ) σ) (policy : ServicePolicy) (spec : ChartSpec) :
    Mirrors (runChart d.recording.backend policy spec) (runChart d.backend policy spec) := by
  -- Both make the same calls, and each call gives the same answer.
  unfold runChart
  split
  · exact mirrors_settled _
  split
  · exact fun trace _ => ⟨trace, rfl⟩
  · unfold runCustom
    simp only
    split
    · exact mirrors_settled _
    · refine Mirrors.bind (fun _ _ => ⟨_, rfl⟩) fun source => ?_
      refine Mirrors.bind (mirrors_settled _) fun prepared => ?_
      exact Mirrors.bind (fun _ _ => ⟨_, rfl⟩) fun rows trace _ => ⟨trace, rfl⟩
  · unfold runSimple
    cases given? spec.table with
    | none => exact mirrors_settled _
    | some name =>
      simp only
      split
      · exact mirrors_settled _
      · refine Mirrors.bind (fun _ _ => ⟨_, rfl⟩) fun source => ?_
        refine Mirrors.bind (fun _ _ => ⟨_, rfl⟩) fun table => ?_
        refine Mirrors.bind (fun _ _ => ⟨_, rfl⟩) fun columns => ?_
        refine Mirrors.bind (mirrors_settled _) fun compiled => ?_
        exact Mirrors.bind (fun _ _ => ⟨_, rfl⟩) fun rows trace _ => ⟨trace, rfl⟩

/-- **Rejected specifications run no query.** Whatever a registry and a driver answer, and with
whichever failures, recording the calls for a chart changes neither what comes of it nor the state.
At most one command is given, and none where the chart is refused with status 400 or 404. Columns
are only looked up of the table that was found, and the query of a table is the one compiled for the
columns that were found. For a chart of imported records, or one that is too large, nothing is asked
at all. -/
theorem rejected_runNoQuery (d : Driver (StateM ρ) σ) (policy : ServicePolicy) (spec : ChartSpec)
    (s : ρ) :
    let outcome := (conversation d policy spec s).1
    let trace := (conversation d policy spec s).2.1
    (outcome, (conversation d policy spec s).2.2) = (runChart d.backend policy spec).run.run s ∧
    trace.countP Exchange.isExecution ≤ 1 ∧
    (∀ e, outcome = .error (.chart e) → e.status = 400 ∨ e.status = 404 →
      ∀ x ∈ trace, x.isExecution = false) ∧
    (∀ before n ref found after, trace = before ++ .columns n ref found :: after →
      ∃ name, given? spec.table = some name ∧ .table n name (.ok (some ref)) ∈ before) ∧
    (spec.effectiveMode = .simple →
      ∀ before n command rows after, trace = before ++ .execute n command rows :: after →
        ∃ ref columns compiled, .columns n ref (.ok columns) ∈ before ∧
          Sql.compile policy.limits spec (Database.columnSet columns) (some ref) none =
            .ok compiled ∧
          command = .chart compiled.query (Sql.planParameters compiled.plan)) ∧
    (spec.effectiveMode = .imported ∨ spec.isWithinLimits = false →
      (conversation d policy spec s).2 = ([], s)) := by
  intro outcome trace
  have hcourse : Course policy spec trace outcome := takesCourse_conversation
  refine ⟨?_, hcourse.countP_isExecution_le, fun e he => hcourse.not_isExecution_of_status he,
    fun before n ref found after h => ?_, fun hmode before n command rows after h => ?_,
    conversation_of_unasked⟩
  · obtain ⟨trace', hrun⟩ := mirrors_runChart d policy spec [] s
    show ((conversation d policy spec s).1, (conversation d policy spec s).2.2) = _
    rw [conversation, hrun]
    rfl
  · exact hcourse.table_of_columns before _ after h n ref found rfl
  · exact hcourse.compile_of_execute hmode before _ after h n command rows rfl

end Courses

/-- A driver that knows one table of sales, refuses every command and counts its calls. -/
def salesDriver : Driver (StateM Nat) Unit where
  source _ := fun calls => (.ok (), calls + 1)
  table _ name := fun calls =>
    (.ok (if name = "Sales2024" then some (salesTable name).ref else none), calls + 1)
  columns _ _ := fun calls => (.ok [⟨"Amount", .bigint⟩], calls + 1)
  execute _ _ := fun calls => (.error (.refused .database), calls + 1)

/-- The calls for the chart of the amounts of a table. -/
def salesConversation (mode : QueryMode) (name : String) :
    Except Failure ChartResult × List (Exchange Unit) × Nat :=
  conversation salesDriver ⟨.standard, []⟩ { ChartSpec.ofTable name "Amount" with mode := mode } 0

theorem salesConversation_unknown :
    salesConversation .simple "Purchases" = (.error (.chart (.tableNotFound "Purchases")),
      [.source none (.ok ()), .table () "Purchases" (.ok none)], 2) := rfl

theorem salesConversation_known :
    salesConversation .simple "Sales2024" = (.error (.chart (.execution .database)),
      [.source none (.ok ()), .table () "Sales2024" (.ok (some (salesTable "Sales2024").ref)),
        .columns () (salesTable "Sales2024").ref (.ok [⟨"Amount", .bigint⟩]),
        .execute () (.chart (amountsQuery "Sales2024") []) (.error (.refused .database))], 4) := by
  have hcompile : Sql.compile .standard (.ofTable "Sales2024" "Amount")
      (Database.columnSet [⟨"Amount", .bigint⟩]) (some (salesTable "Sales2024").ref) none =
        .ok ⟨amountsPlan "Sales2024", amountsQuery "Sales2024"⟩ :=
    compile_amountsQuery (by decide)
  have hsource : (salesDriver.source (ChartSpec.ofTable "Sales2024" "Amount").connectionId).run 0 =
      (.ok (), 1) := rfl
  have htable : (salesDriver.table () "Sales2024").run 1 =
      (.ok (some (salesTable "Sales2024").ref), 2) := rfl
  have hcolumns : (salesDriver.columns () (salesTable "Sales2024").ref).run 2 =
      (.ok [⟨"Amount", .bigint⟩], 3) := rfl
  have hgiven : given? (ChartSpec.ofTable "Sales2024" "Amount").table = some "Sales2024" := rfl
  have hrun : salesConversation .simple "Sales2024" =
      (runSimple salesDriver.recording.backend .standard (.ofTable "Sales2024" "Amount")).run.run
        ([], 0) := rfl
  rw [hrun, runSimple_of_given _ _ hgiven rfl, run_bind_of_ok (run_recording_source hsource),
    run_bind_of_ok (run_recording_table htable rfl),
    run_bind_of_ok (run_recording_columns hcolumns rfl), hcompile, run_bind_of_ok run_settled]
  rfl

/-- A table that is not known is answered with status 404, and no command is given for it. For a
known one the command comes last, behind the columns for which it is compiled. Of imported records
the driver hears nothing. -/
theorem rejected_runNoQuery_sales :
    let unknown := salesConversation .simple "Purchases"
    let known := salesConversation .simple "Sales2024"
    unknown.1 = .error (.chart (.tableNotFound "Purchases")) ∧
    (∀ x ∈ unknown.2.1, x.isExecution = false) ∧
    known.2.1.countP Exchange.isExecution = 1 ∧
    (∃ before ref found after, known.2.1 = before ++ .columns () ref found :: after ∧
      ∃ name, some "Sales2024" = some name ∧ .table () name (.ok (some ref)) ∈ before) ∧
    (∃ before command rows after, known.2.1 = before ++ .execute () command rows :: after ∧
      ∃ ref columns compiled, .columns () ref (.ok columns) ∈ before ∧
        Sql.compile .standard (.ofTable "Sales2024" "Amount") (Database.columnSet columns)
          (some ref) none = .ok compiled ∧
        command = .chart compiled.query (Sql.planParameters compiled.plan)) ∧
    (salesConversation .imported "Sales2024").2 = ([], 0) := by
  intro unknown known
  obtain ⟨-, -, hrejected, -, -, -⟩ := rejected_runNoQuery salesDriver ⟨.standard, []⟩
    (.ofTable "Purchases" "Amount") 0
  obtain ⟨-, -, -, htable, hcompile, -⟩ := rejected_runNoQuery salesDriver ⟨.standard, []⟩
    (.ofTable "Sales2024" "Amount") 0
  obtain ⟨-, -, -, -, -, hunasked⟩ := rejected_runNoQuery salesDriver ⟨.standard, []⟩
    { ChartSpec.ofTable "Sales2024" "Amount" with mode := .imported } 0
  have hunknown : unknown.1 = .error (.chart (.tableNotFound "Purchases")) :=
    congrArg (·.1) salesConversation_unknown
  have hknown : known.2.1 = _ := congrArg (·.2.1) salesConversation_known
  refine ⟨hunknown, hrejected _ hunknown (.inr rfl), ?_, ?_, ?_, hunasked (.inl rfl)⟩
  · rw [hknown]
    rfl
  · exact ⟨[_, _], _, _, _, hknown, htable _ () _ _ _ hknown⟩
  · exact ⟨[_, _, _], _, _, _, hknown, hcompile rfl _ () _ _ _ hknown⟩

end ChartQuery
