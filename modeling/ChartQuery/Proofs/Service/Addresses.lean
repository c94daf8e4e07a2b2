import ChartQuery.Proofs.Service.BatchMaps
import ChartQuery.Proofs.Service.Commands
import ChartQuery.Proofs.Sql.QueryShape
import ChartQuery.Proofs.Sql.QuotedNames
import Mathlib.Data.List.Infix

/-!
# What queries address

The catalog finds a table and its columns by their exact names, and the query is then written with
these names cleaned. So the query of a chart selects from the table that was found and speaks of its
columns, each written without the characters that may not stand in a name. A name that has only such
characters is written as it is; two tables whose names differ in the others are written alike.

## Main definitions

* `Addresses write text ref columns`: a text selects from a table and speaks of columns, their names
  written in some way
* `IsWord s`: a name may be written as it is

## Main results

* `Sql.Query.names_ofPlan`: the names in the query of a plan are columns
* `Database.find?_of_only`: a table that is the only one of its name is found
* `commandsOf_addresses`: the query of a chart addresses the table and the columns looked up
-/

namespace ChartQuery

/-! ## The names of a plan -/

namespace Sql

/-- Every column that is selected is shown, and so is every name that it is given. -/
theorem planItems_source {p : ChartPlan} {i : Item} (hi : i ∈ planItems p) :
    i.expr.source ∈ p.outputColumns ∧ ∀ a, i.givenName = some a → a ∈ p.outputColumns := by
  have hself : ∀ c ∈ p.outputColumns, ∀ a, some c = some a → a ∈ p.outputColumns := by
    rintro c hc _ ⟨rfl⟩
    exact hc
  simp only [planItems, List.mem_append, Option.mem_toList, List.mem_map,
    Option.map_eq_some_iff] at hi
  rcases hi with ((⟨x, hx, rfl⟩ | ⟨g, hg, rfl⟩) | ⟨d, hd, rfl⟩) | ⟨y, hy, rfl⟩
  · have hmem : x ∈ p.outputColumns := by simp [ChartPlan.outputColumns, ChartPlan.groupingKeys, hx]
    rw [source_axisExpr]
    exact ⟨hmem, hself x hmem⟩
  · have hmem : g ∈ p.outputColumns := by simp [ChartPlan.outputColumns, ChartPlan.groupingKeys, hg]
    exact ⟨hmem, fun a ha => by cases ha⟩
  · have hmem : d ∈ p.outputColumns := by simp [ChartPlan.outputColumns, hd]
    exact ⟨hmem, hself d hmem⟩
  · have hmem : y ∈ p.outputColumns := by simp [ChartPlan.outputColumns, hy]
    exact ⟨hmem, hself y hmem⟩

theorem groupExprs_source {p : ChartPlan} {e : Expr} (he : e ∈ groupExprs p) :
    e.source ∈ p.outputColumns := by
  simp only [groupExprs, List.mem_append, Option.mem_toList, List.mem_map,
    Option.map_eq_some_iff] at he
  rcases he with ⟨x, hx, rfl⟩ | ⟨g, hg, rfl⟩
  · rw [source_axisExpr]
    simp [ChartPlan.outputColumns, ChartPlan.groupingKeys, hx]
  · show g ∈ p.outputColumns
    simp [ChartPlan.outputColumns, ChartPlan.groupingKeys, hg]

/-- A condition is one on the horizontal axis or on the column of a filter. -/
theorem conditions_source {p : ChartPlan} {t : TableRef} {c : Condition}
    (hc : c ∈ (Query.ofPlan p t).conditions) :
    c.source ∈ p.outputColumns ∨ ∃ f ∈ p.filters, c.source = f.column := by
  rcases List.mem_append.1 hc with hc | hc
  · obtain ⟨x, hx, rfl⟩ := Option.map_eq_some_iff.1 (Option.mem_toList.1 hc)
    left
    show x ∈ p.outputColumns
    simp [ChartPlan.outputColumns, ChartPlan.groupingKeys, hx]
  · obtain ⟨i, hi, rfl⟩ := List.mem_mapIdx.1 hc
    refine .inr ⟨_, List.getElem_mem hi, ?_⟩
    obtain ⟨column, op, v⟩ := p.filters[i]
    cases op <;> rfl

/-- **The names in the query of a plan are columns.** -/
theorem Query.names_ofPlan {limits : RowLimits} {spec : ChartSpec} {columns : ColumnSet}
    {maxRows : Option Int} {p : ChartPlan} (h : resolvePlan limits spec columns maxRows = .ok p)
    (t : TableRef) : (Query.ofPlan p t).Names (· ∈ columns.names) := by
  obtain ⟨x, hx, -, rfl⟩ := resolvePlan_eq_ok_iff.1 h
  have hname : ∀ c : Identifier, columns.isColumn c.name = true → c.name ∈ columns.names := by
    intro c hc
    have hmem := (ColumnSet.isColumn_iff.1 hc).2
    rwa [c.clean_name] at hmem
  have hshown : ∀ c ∈ (planBeside limits spec columns maxRows x).outputColumns,
      c.name ∈ columns.names := fun c hc => hname c (planBeside_isColumn hx c hc)
  refine ⟨?_, ?_, ?_⟩
  · intro i hi
    obtain ⟨hsource, hgiven⟩ := planItems_source hi
    exact ⟨hshown _ hsource, fun a ha => hshown a (hgiven a ha)⟩
  · intro c hc
    rcases conditions_source hc with hsource | ⟨f, hf, hsource⟩
    · exact hshown _ hsource
    · obtain ⟨g, -, hg⟩ := mem_resolveFilters.1 hf
      obtain ⟨-, hcolumn, -, hvalid, -⟩ := resolveFilter_eq_ok hg
      rw [hsource, hcolumn]
      exact (ColumnSet.isColumn_iff.1 hvalid).2
  · intro e he
    exact hshown _ (groupExprs_source he)

end Sql

/-! ## Tables and columns in texts -/

/-- A text selects from a table and speaks of columns, with the names written in some way. -/
def Addresses (write : String → String) (text : String) (ref : TableRef) (columns : List Column) :
    Prop :=
  Sql.SelectsFrom (ref.spelled write) (fun n => ∃ c ∈ columns, n = write c.name) text

/-- A name of characters that may stand in one. -/
def IsWord (s : String) : Prop := ∀ c ∈ s.toList, isNameChar c = true

/-- A text with cleaned names writes words as they are. -/
theorem Addresses.exact {text : String} {ref : TableRef} {columns : List Column}
    (h : Addresses clean text ref columns) (hschema : IsWord ref.schema) (htable : IsWord ref.table)
    (hcolumns : ∀ c ∈ columns, IsWord c.name) : Addresses id text ref columns := by
  have hspelled : ref.spelled clean = ref.spelled id := by
    rw [TableRef.spelled, TableRef.spelled, clean_eq_self hschema, clean_eq_self htable]
    rfl
  rw [Addresses, hspelled] at h
  refine h.mono ?_
  rintro n ⟨c, hc, rfl⟩
  exact ⟨c, hc, clean_eq_self (hcolumns c hc)⟩

/-- A table that is the only one of its name is found. -/
theorem Database.find?_of_only {d : Database} {t : Table} (ht : t ∈ d.tables)
    (honly : ∀ u ∈ d.tables, u.name = t.name → u = t) : d.find? t.name = some t := by
  have hperm : d.listing.Perm d.tables := List.mergeSort_perm _ _
  have hfound : (d.find? t.name).isSome := by
    rw [Database.find?, List.find?_isSome]
    exact ⟨t, hperm.mem_iff.2 ht, by simp⟩
  obtain ⟨u, hu⟩ := Option.isSome_iff_exists.1 hfound
  have hmem : u ∈ d.tables := hperm.mem_iff.1 (List.mem_of_find?_eq_some hu)
  rw [hu, honly u hmem (Database.find?_name hu)]

/-! ## The queries of charts -/

/-- The query compiled for a table and its columns addresses them. -/
theorem addresses_of_compile {limits : RowLimits} {spec : ChartSpec} {columns : List Column}
    {ref : TableRef} {compiled : Sql.Compiled}
    (h : Sql.compile limits spec (Database.columnSet columns) (some ref) none = .ok compiled) :
    Addresses clean compiled.query.text ref columns := by
  have hplain := Sql.hasPlainParameters_of_compile h
  obtain ⟨hplan, hquery⟩ := Sql.compile_eq_ok_iff.1 h
  have hnames : compiled.query.Names fun n => ∃ c ∈ columns, n = clean c.name := by
    rw [hquery]
    refine (Sql.Query.names_ofPlan hplan ref).mono ?_
    intro n hn
    obtain ⟨-, _, hraw, rfl⟩ := ColumnSet.mem_ofNames.1 hn
    obtain ⟨c, hc, rfl⟩ := List.mem_map.1 hraw
    exact ⟨c, hc, rfl⟩
  have htable : compiled.query.tableText = ref.spelled clean := by
    rw [hquery, TableRef.spelled_clean]
    rfl
  rw [Addresses, ← htable]
  exact Sql.Query.text_selectsFrom hplain hnames

/-- **The query of a chart addresses the table and the columns that were looked up**, with their
names cleaned. Words are written as they are, and of the tables that are written like the one that
was found none has other cleaned names. -/
theorem commandsOf_addresses (opener : Opener) (limits : RowLimits) (spec : ChartSpec)
    (r : Registry) {n : Nat} {command : Command}
    (h : (n, command) ∈ commandsOf (registryBackend opener) limits spec r) :
    ∃ d name t query parameters, r.database? opener spec.connectionId = some d ∧
      given? spec.table = some name ∧ d.find? name = some t ∧
      command = .chart query parameters ∧
      Addresses clean query.text t.ref (d.columnsOf t.ref) ∧
      (IsWord t.schema → IsWord t.name → (∀ c ∈ d.columnsOf t.ref, IsWord c.name) →
        Addresses id query.text t.ref (d.columnsOf t.ref)) ∧
      ∀ u : TableRef, u.spelled clean = t.ref.spelled clean ↔
        clean u.schema = clean t.schema ∧ clean u.table = clean t.name := by
  obtain ⟨n', ref, columns, compiled, hgives, hcommands⟩ | hnone :=
    commandsOf_cases (registryBackend opener) limits spec r
  · obtain ⟨-, d, name, t, hd, hname, ht, hcompile⟩ :=
      gives_registry_iff.1 ⟨n', ref, columns, hgives⟩
    rw [hcommands, List.mem_singleton] at h
    have haddresses := addresses_of_compile hcompile
    exact ⟨d, name, t, compiled.query, _, hd, hname, ht, congrArg Prod.snd h, haddresses,
      haddresses.exact, fun u => Sql.spelled_clean_inj⟩
  · rw [hnone] at h
    contradiction

/-! ## Two tables that are written alike -/

/-- A table of amounts. -/
def salesTable (name : String) : Table :=
  .ofRows mainSchema name [⟨"Amount", .bigint⟩] [[.int name.length]]

/-- Two tables of sales, the name of one with a blank. -/
def salesDatabase : Database := ⟨["Sales 2024", "Sales2024"].map salesTable⟩

/-- Opens the tables of sales at every path. -/
def openSales : Opener := fun _ => some salesDatabase

/-- A registry that has handed out no pool. -/
def freshRegistry : Registry := .new none [] none false false

/-- The commands for the chart of the amounts of a table of sales. -/
def salesCommands (name : String) : List (Nat × Command) :=
  commandsOf (registryBackend openSales) .standard (.ofTable name "Amount") freshRegistry

theorem database?_freshRegistry : freshRegistry.database? openSales none = some salesDatabase := rfl

/-- The query for the amounts of a table of sales. -/
def amountsQuery (name : String) : Sql.Query where
  items := [⟨.aggregate (.plain .sum) (.ofText "Amount"), some (.ofText "Amount")⟩]
  schema := .ofText mainSchema
  table := .ofText name
  conditions := []
  groupBy := []
  orderBy := []
  limit := 50

theorem find?_salesTable {name : String} (hname : name ∈ ["Sales 2024", "Sales2024"]) :
    salesDatabase.find? name = some (salesTable name) := by
  have ht : salesTable name ∈ salesDatabase.tables := List.mem_map_of_mem hname
  refine Database.find?_of_only ht ?_
  intro u hu hsame
  obtain ⟨other, -, rfl⟩ := List.mem_map.1 hu
  have hother : other = name := hsame
  rw [hother]

theorem columnsOf_salesTable {name : String} (hname : name ∈ ["Sales 2024", "Sales2024"]) :
    salesDatabase.columnsOf (salesTable name).ref = [⟨"Amount", .bigint⟩] := by
  rcases List.mem_pair.1 hname with rfl | rfl <;> rfl

/-- The plan for the amounts of a table of sales. -/
def amountsPlan (name : String) : ChartPlan :=
  planBeside .standard (.ofTable name "Amount") (Database.columnSet [⟨"Amount", .bigint⟩]) none none

/-- The specification of either chart compiles to the query for the amounts. -/
theorem compile_amountsQuery {name : String} (hname : name ∈ ["Sales 2024", "Sales2024"]) :
    Sql.compile .standard (.ofTable name "Amount") (Database.columnSet [⟨"Amount", .bigint⟩])
      (some (salesTable name).ref) none = .ok ⟨amountsPlan name, amountsQuery name⟩ := by
  have hy : yAxisBeside (.ofTable name "Amount") (Database.columnSet [⟨"Amount", .bigint⟩]) none ≠
      [] := by
    show yAxisBeside (.ofTable "" "Amount") _ none ≠ []
    decide +kernel
  have hplan : resolvePlan .standard (.ofTable name "Amount")
      (Database.columnSet [⟨"Amount", .bigint⟩]) none = .ok (amountsPlan name) :=
    resolvePlan_eq_ok_iff.2 ⟨none, rfl, hy, rfl⟩
  have hquery : amountsQuery name = .ofPlan (amountsPlan name) (salesTable name).ref := by
    rcases List.mem_pair.1 hname with rfl | rfl <;> decide +kernel
  exact Sql.compile_eq_ok_iff.2 ⟨hplan, hquery⟩

/-- The chart of either table of sales gives the query for its amounts. -/
theorem amountsQuery_mem_salesCommands {name : String}
    (hname : name ∈ ["Sales 2024", "Sales2024"]) :
    ∃ n, (n, .chart (amountsQuery name) []) ∈ salesCommands name := by
  have hcompile : Sql.compile .standard (.ofTable name "Amount")
      (Database.columnSet (salesDatabase.columnsOf (salesTable name).ref))
      (some (salesTable name).ref) none = .ok ⟨amountsPlan name, amountsQuery name⟩ := by
    rw [columnsOf_salesTable hname]
    exact compile_amountsQuery hname
  have hgiven : given? (some name) = some name := by
    rcases List.mem_pair.1 hname with rfl | rfl <;> rfl
  obtain ⟨n, ref, columns, hgives⟩ := gives_registry_iff.2 ⟨rfl, salesDatabase, name,
    salesTable name, database?_freshRegistry, hgiven, find?_salesTable hname, hcompile⟩
  refine ⟨n, ?_⟩
  rw [salesCommands, commandsOf_of_gives hgives]
  exact List.mem_singleton.2 rfl

theorem commandsOf_addresses_sales :
    ∃ n query parameters, (n, .chart query parameters) ∈ salesCommands "Sales2024" ∧
      Addresses id query.text ⟨"main", "Sales2024"⟩ [⟨"Amount", .bigint⟩] := by
  have hsales : "Sales2024" ∈ ["Sales 2024", "Sales2024"] := by decide
  obtain ⟨n, hmem⟩ := amountsQuery_mem_salesCommands hsales
  obtain ⟨d, name, t, query, parameters, hd, hname, ht, hcommand, -, hexact, -⟩ :=
    commandsOf_addresses openSales .standard (.ofTable "Sales2024" "Amount") freshRegistry hmem
  -- The table that was found is the one asked for.
  obtain rfl : d = salesDatabase := Option.some.inj (hd.symm.trans database?_freshRegistry)
  obtain rfl : name = "Sales2024" := by simpa [ChartSpec.ofTable, given?] using hname.symm
  obtain rfl : t = salesTable "Sales2024" :=
    Option.some.inj (ht.symm.trans (find?_salesTable hsales))
  rw [columnsOf_salesTable hsales] at hexact
  refine ⟨n, query, parameters, hcommand ▸ hmem, hexact ?_ ?_ ?_⟩
  · exact List.all_eq_true.1 (by decide : "main".toList.all isNameChar = true)
  · exact List.all_eq_true.1 (by decide : "Sales2024".toList.all isNameChar = true)
  · intro c hc
    obtain rfl := List.mem_singleton.1 hc
    exact List.all_eq_true.1 (by decide : "Amount".toList.all isNameChar = true)

/-- The chart of a table whose name has a blank gives the query of another table. -/
theorem blankInName_sharesQuery :
    salesDatabase.find? "Sales 2024" = some (salesTable "Sales 2024") ∧
    (∃ n, (n, .chart (amountsQuery "Sales2024") []) ∈ salesCommands "Sales 2024") ∧
    (∃ n, (n, .chart (amountsQuery "Sales2024") []) ∈ salesCommands "Sales2024") ∧
    ¬ Addresses id (amountsQuery "Sales2024").text (salesTable "Sales 2024").ref
      (salesDatabase.columnsOf (salesTable "Sales 2024").ref) := by
  have hsame : amountsQuery "Sales 2024" = amountsQuery "Sales2024" := by decide
  refine ⟨find?_salesTable (by decide), ?_, amountsQuery_mem_salesCommands (by decide), ?_⟩
  · rw [← hsame]
    exact amountsQuery_mem_salesCommands (by decide)
  · rintro ⟨selected, rest, htext, -⟩
    have hinfix : ((salesTable "Sales 2024").ref.spelled id).toList <:+:
        (amountsQuery "Sales2024").text.toList :=
      ⟨("SELECT " ++ selected ++ " FROM ").toList, rest.toList, by rw [htext]; simp⟩
    exact absurd hinfix (by decide)

end ChartQuery
