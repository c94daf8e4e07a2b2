import ChartQuery.Service.Sources

/-!
# Commands that charts give

The chart of a table is made by asking a backend for a source, a table and columns, and then giving
it a command. A backend can be made to note its commands, and otherwise does what it did. For the
chart of a table at most one command is noted: that of the query compiled for the table that was
found and the columns that it has. Over a registry both lookups see the same database.

## Main definitions

* `Backend.noting`: a backend that notes the commands which it is given
* `commandsOf`: the commands for the chart of a table
* `Gives`: the lookups succeed, so that a command is given
* `Registry.database?`: the database that a registry shows for an identifier

## Main results

* `commandsOf_cases`: one command is given, and only if the lookups succeed
* `runSimple_noting`: a backend that notes its commands makes the same chart
* `gives_registry_iff`: what is looked up over a registry
-/

namespace ChartQuery

/-! ## Backends that note their commands -/

/-- A backend that notes the commands which it is given. -/
def Backend.noting {m : Type → Type} [Monad m] {σ : Type} (b : Backend m σ) :
    Backend (StateT (List (σ × Command)) m) σ where
  source id := ExceptT.mk (StateT.lift (b.source id).run)
  table n name := ExceptT.mk (StateT.lift (b.table n name).run)
  columns n ref := ExceptT.mk (StateT.lift (b.columns n ref).run)
  execute n command := ExceptT.mk do
    modify (· ++ [(n, command)])
    StateT.lift (b.execute n command).run

section Noting

variable {ρ σ α β : Type}

/-- What a computation gives that may fail, the commands noted on the way, and the state that it
leaves. -/
def notedRun (x : ExceptT Failure (StateT (List (σ × Command)) (StateM ρ)) α)
    (noted : List (σ × Command)) (s : ρ) : (Except Failure α × List (σ × Command)) × ρ :=
  (x.run.run noted).run s

variable {x : ExceptT Failure (StateT (List (σ × Command)) (StateM ρ)) α}
  {f : α → ExceptT Failure (StateT (List (σ × Command)) (StateM ρ)) β}
  {noted noted' : List (σ × Command)} {s s' : ρ}

/-- Where a computation gives something, the next goes on from there. -/
theorem notedRun_bind_ok {a : α} (h : notedRun x noted s = ((.ok a, noted'), s')) :
    notedRun (x >>= f) noted s = notedRun (f a) noted' s' := by
  have h : StateT.run (StateT.run x.run noted) s = ((.ok a, noted'), s') := h
  rw [notedRun, ExceptT.run_bind, StateT.run_bind, StateT.run_bind, h]
  rfl

/-- Where a computation fails, nothing follows it. -/
theorem notedRun_bind_error {e : Failure} (h : notedRun x noted s = ((.error e, noted'), s')) :
    notedRun (x >>= f) noted s = ((.error e, noted'), s') := by
  have h : StateT.run (StateT.run x.run noted) s = ((.error e, noted'), s') := h
  rw [notedRun, ExceptT.run_bind, StateT.run_bind, StateT.run_bind, h]
  rfl

/-! ## The chart of a table -/

/-- The commands that a backend is given for the chart of a table. -/
def commandsOf (b : Backend (StateM ρ) σ) (limits : RowLimits) (spec : ChartSpec) (s : ρ) :
    List (σ × Command) :=
  (notedRun (runSimple b.noting limits spec) [] s).1.2

/-- A specification names a table, and the lookups of its source, its table and the columns succeed
one after the other, and it compiles for what they find. -/
structure Gives (b : Backend (StateM ρ) σ) (limits : RowLimits) (spec : ChartSpec) (s : ρ) (n : σ)
    (ref : TableRef) (columns : ColumnSet) (compiled : Sql.Compiled) : Prop where
  yAxis : spec.yAxis.isEmpty = false
  lookups : ∃ name s₁ s₂ s₃, given? spec.table = some name ∧
    (b.source spec.connectionId).run.run s = (.ok n, s₁) ∧
    (b.table n name).run.run s₁ = (.ok ref, s₂) ∧
    (b.columns n ref).run.run s₂ = (.ok columns, s₃)
  compiles : Sql.compile limits spec columns (some ref) none = .ok compiled

section Lookups

variable {b : Backend (StateM ρ) σ} {n : σ}

theorem notedRun_source {id : Option String} {r : Except Failure σ}
    (h : (b.source id).run.run s = (r, s')) :
    notedRun (b.noting.source id) noted s = ((r, noted), s') := by
  show ((((b.source id).run.run s).1, noted), ((b.source id).run.run s).2) = _
  rw [h]

theorem notedRun_table {name : String} {r : Except Failure TableRef}
    (h : (b.table n name).run.run s = (r, s')) :
    notedRun (b.noting.table n name) noted s = ((r, noted), s') := by
  show ((((b.table n name).run.run s).1, noted), ((b.table n name).run.run s).2) = _
  rw [h]

theorem notedRun_columns {ref : TableRef} {r : Except Failure ColumnSet}
    (h : (b.columns n ref).run.run s = (r, s')) :
    notedRun (b.noting.columns n ref) noted s = ((r, noted), s') := by
  show ((((b.columns n ref).run.run s).1, noted), ((b.columns n ref).run.run s).2) = _
  rw [h]

theorem notedRun_settled {r : Except ChartError α} {r' : Except Failure α}
    (h : r.mapError .chart = r') : notedRun (settled r) noted s = ((r', noted), s) := by
  rw [← h]
  rfl

/-- A command is noted whatever comes of it. -/
theorem notedRun_execute (b : Backend (StateM ρ) σ) (n : σ) (command : Command)
    (f : List Record → ChartResult) (noted : List (σ × Command)) (s : ρ) :
    (notedRun (do let rows ← b.noting.execute n command; pure (f rows)) noted s).1.2 =
      noted ++ [(n, command)] := by
  rcases h : notedRun (b.noting.execute n command) noted s with ⟨⟨_ | rows, noted'⟩, s'⟩
  · rw [notedRun_bind_error h]
    exact (congrArg (·.1.2) h).symm
  · rw [notedRun_bind_ok h]
    exact (congrArg (·.1.2) h).symm

end Lookups

theorem runSimple_of_given {m : Type → Type} [Monad m] (b : Backend m σ) (limits : RowLimits)
    {spec : ChartSpec} {name : String} (hname : given? spec.table = some name)
    (hy : spec.yAxis.isEmpty = false) :
    runSimple b limits spec = (do
      let source ← b.source spec.connectionId
      let table ← b.table source name
      let columns ← b.columns source table
      let compiled ← settled (Sql.compile limits spec columns (some table) none)
      let rows ← b.execute source (.chart compiled.query (Sql.planParameters compiled.plan))
      pure (compiled.plan.result (composeLabels compiled.plan rows))) := by
  rw [runSimple, hname]
  simp only [hy, Bool.false_eq_true, if_false]

variable {b : Backend (StateM ρ) σ} {limits : RowLimits} {spec : ChartSpec}

/-- A chart whose lookups succeed gives one command. -/
theorem commandsOf_of_gives {n : σ} {ref : TableRef} {columns : ColumnSet}
    {compiled : Sql.Compiled} (h : Gives b limits spec s n ref columns compiled) :
    commandsOf b limits spec s =
      [(n, .chart compiled.query (Sql.planParameters compiled.plan))] := by
  obtain ⟨hy, ⟨name, s₁, s₂, s₃, hname, hsource, htable, hcolumns⟩, hcompile⟩ := h
  rw [commandsOf, runSimple_of_given _ _ hname hy, notedRun_bind_ok (notedRun_source hsource),
    notedRun_bind_ok (notedRun_table htable), notedRun_bind_ok (notedRun_columns hcolumns),
    hcompile, notedRun_bind_ok (notedRun_settled rfl), notedRun_execute]
  rfl

/-- The chart of a table gives one command, for which its lookups succeed, or none. -/
theorem commandsOf_cases (b : Backend (StateM ρ) σ) (limits : RowLimits) (spec : ChartSpec) (s : ρ) :
    (∃ n ref columns compiled, Gives b limits spec s n ref columns compiled ∧
      commandsOf b limits spec s =
        [(n, .chart compiled.query (Sql.planParameters compiled.plan))]) ∨
    commandsOf b limits spec s = [] := by
  cases hname : given? spec.table with
  | none =>
    right
    rw [commandsOf, runSimple, hname]
    rfl
  | some name =>
    cases hy : spec.yAxis.isEmpty with
    | true =>
      right
      rw [commandsOf, runSimple, hname]
      simp only [hy, if_true]
      rfl
    | false =>
      -- The lookups come one after the other, and the first that fails ends the chart.
      rcases hsource : (b.source spec.connectionId).run.run s with ⟨_ | n, s₁⟩
      · right
        rw [commandsOf, runSimple_of_given _ _ hname hy,
          notedRun_bind_error (notedRun_source hsource)]
      rcases htable : (b.table n name).run.run s₁ with ⟨_ | ref, s₂⟩
      · right
        rw [commandsOf, runSimple_of_given _ _ hname hy, notedRun_bind_ok (notedRun_source hsource),
          notedRun_bind_error (notedRun_table htable)]
      rcases hcolumns : (b.columns n ref).run.run s₂ with ⟨_ | columns, s₃⟩
      · right
        rw [commandsOf, runSimple_of_given _ _ hname hy, notedRun_bind_ok (notedRun_source hsource),
          notedRun_bind_ok (notedRun_table htable),
          notedRun_bind_error (notedRun_columns hcolumns)]
      cases hcompile : Sql.compile limits spec columns (some ref) none with
      | error e =>
        right
        rw [commandsOf, runSimple_of_given _ _ hname hy, notedRun_bind_ok (notedRun_source hsource),
          notedRun_bind_ok (notedRun_table htable), notedRun_bind_ok (notedRun_columns hcolumns),
          hcompile, notedRun_bind_error (notedRun_settled rfl)]
      | ok compiled =>
        have hgives : Gives b limits spec s n ref columns compiled :=
          ⟨hy, ⟨name, s₁, s₂, s₃, hname, hsource, htable, hcolumns⟩, hcompile⟩
        exact .inl ⟨n, ref, columns, compiled, hgives, commandsOf_of_gives hgives⟩

/-! ## The same chart -/

/-- A computation that notes commands gives and leaves what another one does. -/
def Follows (x : ExceptT Failure (StateT (List (σ × Command)) (StateM ρ)) α)
    (y : ExceptT Failure (StateM ρ) α) : Prop :=
  ∀ noted s, ((notedRun x noted s).1.1, (notedRun x noted s).2) = y.run.run s

theorem Follows.bind {y : ExceptT Failure (StateM ρ) α} {g : α → ExceptT Failure (StateM ρ) β}
    (h : Follows x y) (hf : ∀ a, Follows (f a) (g a)) : Follows (x >>= f) (y >>= g) := by
  intro noted s
  have hy := h noted s
  rw [ExceptT.run_bind, StateT.run_bind, ← hy]
  rcases hx : notedRun x noted s with ⟨⟨e | a, noted'⟩, s'⟩
  · rw [notedRun_bind_error hx]
    rfl
  · rw [notedRun_bind_ok hx]
    exact hf a noted' s'

/-- **A backend that notes its commands makes the same chart** and leaves the same state. -/
theorem runSimple_noting (b : Backend (StateM ρ) σ) (limits : RowLimits) (spec : ChartSpec) :
    Follows (runSimple b.noting limits spec) (runSimple b limits spec) := by
  have hsettled : ∀ {γ : Type} (r : Except ChartError γ),
      Follows (settled r : ExceptT Failure (StateT (List (σ × Command)) (StateM ρ)) γ)
        (settled r) := fun _ _ _ => rfl
  -- Both ask for the same things in the same order, and each answer is the same.
  unfold runSimple
  cases given? spec.table with
  | none => exact hsettled _
  | some name =>
    simp only
    split
    · exact hsettled _
    · refine Follows.bind (fun _ _ => rfl) fun source => ?_
      refine Follows.bind (fun _ _ => rfl) fun table => ?_
      refine Follows.bind (fun _ _ => rfl) fun columns => ?_
      refine Follows.bind (hsettled _) fun compiled => ?_
      exact Follows.bind (fun _ _ => rfl) fun rows => fun _ _ => rfl

end Noting

/-! ## Lookups over a registry -/

section Registry

variable {opener : Opener} {r : Registry} {n : Nat} {α : Type}

/-- The database that a registry shows for an identifier, if a pool for it can be had and opened. -/
def Registry.database? (opener : Opener) (r : Registry) (id : Option String) : Option Database :=
  match r.get opener id with
  | (.ok n, r') => (r'.acquire opener n).1
  | (.error _, _) => none

theorem getElem?_modifyPool {p : Pool} (hp : r.pools[n]? = some p) (f : Pool → Pool) :
    (r.modifyPool n f).pools[n]? = some (f p) := by
  show (r.pools.modify n f)[n]? = _
  simp [hp]

theorem acquire_eq_some_iff {d : Database} :
    (r.acquire opener n).1 = some d ↔ ∃ p, r.pools[n]? = some p ∧ p.session? opener = some d := by
  rw [← Option.bind_eq_some_iff, Registry.acquire]
  cases r.pools[n]?.bind fun p => p.session? opener <;> rfl

theorem lookUp_run (opener : Opener) (r : Registry) (n : Nat)
    (f : Database → Except ChartError α) :
    (lookUp opener n f).run.run r =
      match r.withSession opener n fun d => (f d, d) with
      | (some x, r') => (x.mapError Failure.chart, r')
      | (none, r') => (Except.error (.chart .schemaLookup), r') := by
  show onSession opener .schemaLookup n (fun d => (f d, d)) r = _
  unfold onSession
  rcases hsession : r.withSession opener n fun d => (f d, d) with ⟨_ | e | a, _⟩
  · simp only [ExceptT.mk, hsession]
  · simp only [ExceptT.mk, hsession]
    rfl
  · simp only [ExceptT.mk, hsession]
    rfl

/-- A lookup reads the database of the pool, which shows the same one afterwards. -/
theorem lookUp_of_acquire {d : Database} (hd : (r.acquire opener n).1 = some d)
    (f : Database → Except ChartError α) :
    ∃ r', (lookUp opener n f).run.run r = ((f d).mapError .chart, r') ∧
      (r'.acquire opener n).1 = some d := by
  obtain ⟨p, hp, hsession⟩ := acquire_eq_some_iff.1 hd
  have hbind : (r.pools[n]?.bind fun p => p.session? opener) = some d := by
    rw [hp]
    exact hsession
  have hwith : (r.withSession opener n fun d => (f d, d)) =
      (some (f d), (r.modifyPool n (Pool.holding d)).modifyPool n (Pool.holding d)) := by
    rw [Registry.withSession, Registry.acquire, hbind]
  refine ⟨_, by rw [lookUp_run, hwith], ?_⟩
  exact acquire_eq_some_iff.2 ⟨_, getElem?_modifyPool (getElem?_modifyPool hp _) _, rfl⟩

/-- Where the pool has no database, a lookup fails. -/
theorem lookUp_of_acquire_none (hd : (r.acquire opener n).1 = none)
    (f : Database → Except ChartError α) :
    ((lookUp opener n f).run.run r).1 = .error (.chart .schemaLookup) := by
  rw [lookUp_run, Registry.withSession]
  rcases hacquire : r.acquire opener n with ⟨_ | d, r'⟩
  · rfl
  · rw [hacquire] at hd
    cases hd

/-- A lookup succeeds only if the pool has a database, which is then read. -/
theorem lookUp_eq_ok {f : Database → Except ChartError α} {a : α} {r' : Registry}
    (h : (lookUp opener n f).run.run r = (.ok a, r')) :
    ∃ d, (r.acquire opener n).1 = some d ∧ f d = .ok a ∧ (r'.acquire opener n).1 = some d := by
  cases hd : (r.acquire opener n).1 with
  | none =>
    have herror := lookUp_of_acquire_none hd f
    rw [h] at herror
    cases herror
  | some d =>
    obtain ⟨r'', hrun, hd'⟩ := lookUp_of_acquire hd f
    rw [h] at hrun
    cases hf : f d with
    | error e =>
      rw [hf] at hrun
      cases hrun
    | ok a' =>
      rw [hf] at hrun
      cases hrun
      exact ⟨d, rfl, hf, hd'⟩

/-- **What is looked up over a registry**: the table of the name in the database of the identifier,
and the columns of that table in the same database. -/
theorem gives_registry_iff {limits : RowLimits} {spec : ChartSpec} {compiled : Sql.Compiled} :
    (∃ n ref columns, Gives (registryBackend opener) limits spec r n ref columns compiled) ↔
      spec.yAxis.isEmpty = false ∧ ∃ d name t, r.database? opener spec.connectionId = some d ∧
        given? spec.table = some name ∧ d.find? name = some t ∧
        Sql.compile limits spec (Database.columnSet (d.columnsOf t.ref)) (some t.ref) none =
          .ok compiled := by
  constructor
  -- The pool that was handed out is looked at twice, and keeps its database between.
  · rintro ⟨n, ref, columns, hy, ⟨name, s₁, s₂, s₃, hname, hsource, htable, hcolumns⟩, hcompile⟩
    obtain ⟨d, hd, hresolve, hd'⟩ := lookUp_eq_ok htable
    obtain ⟨d', hd'', hset, -⟩ := lookUp_eq_ok hcolumns
    have hget : r.get opener spec.connectionId = (.ok n, s₁) := hsource
    have hdatabase : r.database? opener spec.connectionId = some d := by
      rw [Registry.database?, hget]
      exact hd
    -- Both lookups read the same database.
    have hsame : d' = d := by
      rw [hd'] at hd''
      exact (Option.some.inj hd'').symm
    obtain ⟨t, hfind, rfl⟩ : ∃ t, d.find? name = some t ∧ t.ref = ref := by
      rw [Database.resolve] at hresolve
      cases hfind : d.find? name with
      | none =>
        rw [hfind] at hresolve
        cases hresolve
      | some t =>
        rw [hfind] at hresolve
        exact ⟨t, rfl, Except.ok.inj hresolve⟩
    refine ⟨hy, d, name, t, hdatabase, hname, hfind, ?_⟩
    rw [← hsame, Except.ok.inj hset]
    exact hcompile
  · rintro ⟨hy, d, name, t, hdatabase, hname, hfind, hcompile⟩
    rw [Registry.database?] at hdatabase
    rcases hget : r.get opener spec.connectionId with ⟨_ | n, s₁⟩
    · rw [hget] at hdatabase
      cases hdatabase
    · rw [hget] at hdatabase
      have hresolve : (d.resolve name).map Table.ref = .ok t.ref := by
        rw [Database.resolve, hfind]
        rfl
      obtain ⟨s₂, htable, hd⟩ :=
        lookUp_of_acquire hdatabase fun d => (d.resolve name).map Table.ref
      obtain ⟨s₃, hcolumns, -⟩ :=
        lookUp_of_acquire hd fun d => .ok (Database.columnSet (d.columnsOf t.ref))
      rw [hresolve] at htable
      exact ⟨n, _, _, hy, ⟨name, s₁, s₂, s₃, hname, hget, htable, hcolumns⟩, hcompile⟩

end Registry

end ChartQuery
