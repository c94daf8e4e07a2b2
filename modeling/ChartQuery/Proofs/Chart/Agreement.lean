import ChartQuery.Proofs.Chart.Answers
import ChartQuery.Proofs.Sql.QueryShape

/-!
# Databases and records give the same charts

A specification makes a chart of a table in two ways: a database answers its query, or the records
of the table are filtered, grouped, aggregated and ordered one by one. Over a plain table, and as
long as every comparison and every aggregation suits the kind of its column, both ways give the same
rows in the same order.

## Main definitions

* `ChartPlan.IsPlainOver`: what a plan does suits the kinds of its columns

## Main results

* `aggregateRecords_agrees`: the chart of the records is that of the database
* `aggregateRecords_agrees_orderTable`: the sums of orders by month and region
-/

namespace ChartQuery

open Sql

/-! ## Plans over plain tables -/

/-- What a plan does suits the kinds of its columns: it aggregates what both ways aggregate alike,
labels by whole numbers or texts, cuts dates only, and compares columns with values of their
kind. -/
structure ChartPlan.IsPlainOver (p : ChartPlan) (columns : List Column) : Prop where
  aggregation : ∀ y ∈ p.yAxis, ∀ k, kindOf? columns y = some k → p.aggregation.suits k = true
  label : ∀ d, p.drillDownLabel = some d → kindOf? columns d ≠ some .date
  resolution : p.resolution.isSome → ∀ x, p.xAxis = some x → kindOf? columns x = some .date
  filters : ∀ f ∈ p.filters, f.Fits columns

section Resolved

variable {limits : RowLimits} {spec : ChartSpec} {t : Table} {maxRows : Option Int}
  {p : ChartPlan}

/-- The number of rows is not negative where neither the settings nor the caller say so. -/
theorem limitOf_nonneg {asked : Option Int} (husual : 0 ≤ limits.usual) (hmost : 0 ≤ limits.most)
    (hmax : ∀ m, maxRows = some m → 0 ≤ m) : 0 ≤ limitOf limits asked maxRows := by
  have hcap : 0 ≤ limits.cap maxRows := by
    cases maxRows with
    | none => exact hmost
    | some m =>
      have := hmax m rfl
      simp only [RowLimits.cap]
      split <;> omega
  simp only [limitOf]
  split <;> omega

/-- A plan that is resolved against a plain table shows plain columns. -/
theorem showsPlainly_of_resolvePlan (ht : t.IsPlain)
    (h : resolvePlan limits spec (Database.columnSet t.columns) maxRows = .ok p)
    (hp : p.IsPlainOver t.columns) : p.ShowsPlainly t.columns := by
  obtain ⟨x, hx, -, rfl⟩ := resolvePlan_eq_ok_iff.1 h
  refine ⟨Identifier.nodup_names planBeside_nodup, fun c hc => ?_, hp.resolution, hp.aggregation,
    fun d hd k hk => ?_, ?_⟩
  · exact ht.exists_column (planBeside_isColumn hx c hc)
  · have := hp.label d hd
    rw [hk] at this
    cases k
    · rfl
    · rfl
    · exact absurd rfl this
  · exact List.filter_eq_nil_iff.2 fun y _ hy => by simp [ht.isFloat_eq] at hy

/-- A plan that is resolved against a plain table filters plain columns. -/
theorem filtersPlainly_of_resolvePlan (ht : t.IsPlain)
    (h : resolvePlan limits spec (Database.columnSet t.columns) maxRows = .ok p)
    (hp : p.IsPlainOver t.columns) : p.FiltersPlainly t.columns := by
  obtain ⟨x, hx, -, rfl⟩ := resolvePlan_eq_ok_iff.1 h
  refine ⟨fun i hi => ?_, fun f hf => ?_, hp.filters⟩
  · obtain ⟨n, type, k, hcol, -⟩ := ht.exists_column (resolveXAxis_isColumn hx i hi)
    exact ⟨n, type, hcol⟩
  · obtain ⟨g, -, hg⟩ := mem_resolveFilters.1 hf
    obtain ⟨-, hcolumn, -, hvalid, -⟩ := resolveFilter_eq_ok hg
    have hname : (Database.columnSet t.columns).isColumn f.column.name = true := by
      rw [hcolumn]
      simpa [ColumnSet.isColumn] using hvalid
    obtain ⟨n, type, k, hcol, -⟩ := ht.exists_column hname
    exact ⟨n, type, hcol⟩

theorem orderBy_of_resolvePlan {columns : ColumnSet}
    (h : resolvePlan limits spec columns maxRows = .ok p) :
    ∀ c, p.orderBy = some c → c ∈ p.outputColumns := by
  obtain ⟨x, -, -, rfl⟩ := resolvePlan_eq_ok_iff.1 h
  exact fun c hc => resolveOrder_eq_some hc

end Resolved

/-! ## Charts -/

/-- **The rows of a plan over records are the answer of the database to its query.** -/
theorem unlabelledRows_agree {t : Table} {p : ChartPlan} {rs : List Record} (ref : TableRef)
    (hshows : p.ShowsPlainly t.columns) (hfilters : p.FiltersPlainly t.columns)
    (horder : ∀ c, p.orderBy = some c → c ∈ p.outputColumns) (hlimit : 0 ≤ p.limit)
    (hreads : List.Forall₂ (Reads t.columns) t.rows rs)
    (hsums : ∀ groups, groupsOver t (.ofPlan p ref) (planParameters p) = .ok groups →
      p.SumsFit t.columns groups) :
    ∃ rows, answerOver t (.ofPlan p ref) (planParameters p) = .ok rows ∧
      (∀ groups found, groupsOver t (.ofPlan p ref) (planParameters p) = .ok groups →
        found.Perm groups → answerFrom t (.ofPlan p ref) found = .ok rows) ∧
      p.unlabelledRows rs = .ok rows := by
  obtain ⟨tests, kept, krs, htests, hselect, hkeep, hkept⟩ := keptRows_agree hfilters hreads
  have hcells := HoldCells.of_reads hkept
  -- The database finds the groups of the rows that are kept, so that their sums fit.
  have hgroups : groupsOver t (.ofPlan p ref) (planParameters p) =
      .ok (p.tableGroups t.columns kept) := by
    have hconditions : (Query.ofPlan p ref).conditions.mapM
        (·.bind? t.columns (planParameters p)) = some tests := htests
    rw [groupsOver, hconditions]
    simp only [orFail, bind, Except.bind, hselect]
    exact congrArg Except.ok (groupTableRows_groupExprs hshows hcells)
  have hreduce := hshows.reduce_eq hcells (hsums _ hgroups)
  have hsortable := areSortable_of_fitKeys
    (hshows.fitKeys hcells horder (tableGroups_subset hshows hcells))
  have hanswer {found : List (List (List Value))}
      (hfound : found.Perm (p.tableGroups t.columns kept)) :=
    answerFrom_eq ref hshows hcells horder hfound
  have hwhole : answerOver t (.ofPlan p ref) (planParameters p) =
      answerFrom t (.ofPlan p ref) (p.tableGroups t.columns kept) := by
    rw [answerOver, hgroups]
    rfl
  refine ⟨_, hwhole.trans (hanswer (List.Perm.refl _)), fun groups found hfound hperm => ?_, ?_⟩
  · rw [hgroups] at hfound
    cases hfound
    exact hanswer hperm
  -- The records give a row for each of these groups, and arrange them in the same order.
  · obtain ⟨n, hn⟩ := Int.eq_ofNat_of_zero_le hlimit
    rw [ChartPlan.unlabelledRows, hkeep]
    simp only [mapError_ok, bind, Except.bind, hshows.frame_eq hcells hkept, hreduce]
    rw [ChartPlan.arrange, hsortable, hn, firstRows_ofNat]
    rfl

/-- **The chart of the records of a plain table is that of the database.** Whatever the
specification, as long as its plan suits the kinds of its columns, no sum leaves the range of 64
bits, and neither the settings nor the caller ask for a negative number of rows, the rows with which
the database answers the compiled query, labelled, are the rows of the chart that the records give,
in the same order and with the same warnings. It does not matter in which order the database finds
the groups. -/
theorem aggregateRecords_agrees (limits : RowLimits) (spec : ChartSpec) (t : Table)
    (ref : Option TableRef) (maxRows : Option Int) (c : Compiled) (rs : List Record)
    (ht : t.IsPlain) (hrs : AreRecordsOf t rs) (hne : rs ≠ [])
    (husual : 0 ≤ limits.usual) (hmost : 0 ≤ limits.most) (hmax : ∀ m, maxRows = some m → 0 ≤ m)
    (hc : compile limits spec (Database.columnSet t.columns) ref maxRows = .ok c)
    (hp : c.plan.IsPlainOver t.columns)
    (hsums : ∀ groups, groupsOver t c.query (planParameters c.plan) = .ok groups →
      c.plan.SumsFit t.columns groups) :
    ∃ rows, answerOver t c.query (planParameters c.plan) = .ok rows ∧
      (∀ groups found, groupsOver t c.query (planParameters c.plan) = .ok groups →
        found.Perm groups → answerFrom t c.query found = .ok rows) ∧
      aggregateRecords limits spec rs maxRows =
        .ok (c.plan.result (composeLabels c.plan rows)) := by
  obtain ⟨hplan, hquery⟩ := compile_eq_ok_iff.1 hc
  rw [hquery] at hsums ⊢
  have hlimit : 0 ≤ c.plan.limit := by
    obtain ⟨x, -, -, hbeside⟩ := resolvePlan_eq_ok_iff.1 hplan
    rw [hbeside]
    exact limitOf_nonneg husual hmost hmax
  obtain ⟨rows, hanswer, hfound, hrows⟩ := unlabelledRows_agree _
    (showsPlainly_of_resolvePlan ht hplan hp) (filtersPlainly_of_resolvePlan ht hplan hp)
    (orderBy_of_resolvePlan hplan) hlimit (hrs.reads ht) hsums
  refine ⟨rows, hanswer, hfound, ?_⟩
  -- The records carry the columns of the table, so that their plan is that of the query.
  have hlocal : resolvePlan limits spec (columnsOfRecords rs) maxRows = .ok c.plan := by
    rw [← resolvePlan_congr (hrs.agrees ht hne), hplan]
  rw [aggregateRecords, hrs.cleaned ht]
  simp only [mapError_ok, bind, Except.bind, hlocal, ChartPlan.apply, hrows, Except.map]

/-- Orders of two years; one has no day, one no region, one no amount. -/
def orderTable : Table where
  schema := mainSchema
  name := "orders"
  columns := [⟨"day", .date⟩, ⟨"region", .varchar⟩, ⟨"buyer", .varchar⟩, ⟨"amount", .bigint⟩]
  rows :=
    [[.date ⟨2024, 1, 5, by decide⟩, .text "north", .text "Ann", .int 40],
      [.date ⟨2024, 1, 20, by decide⟩, .text "north", .text "Abe", .int (-15)],
      [.date ⟨2024, 2, 1, by decide⟩, .null, .text "Ada", .int 7],
      [.null, .text "north", .text "Amy", .int 99],
      [.date ⟨2024, 2, 29, by decide⟩, .text "south", .text "Al", .null],
      [.date ⟨2023, 12, 31, by decide⟩, .text "south", .text "Abe", .int 3],
      [.date ⟨2024, 1, 9, by decide⟩, .text "south", .text "Bob", .int 64]]

/-- The orders as records, with their fields in another order. -/
def orderRecords : List Record :=
  orderTable.rows.map fun row => ((orderTable.columns.map (·.name)).zip row).reverse

/-- The sums of the orders of the year 2024 by month and region, the greatest first. -/
def orderSpec : ChartSpec where
  table := some "orders"
  xAxis := some "day"
  yAxis := ["amount", "day"]
  aggregation := "sum"
  groupBy := .one "region"
  orderBy := some "amount"
  orderDirection := "desc"
  limit := some 3
  filters := [⟨"day", ">=", .text "2024-01-01"⟩, ⟨"buyer", "LIKE", .text "A%"⟩,
    ⟨"region", "IN", .list [.text "north", .text "south"]⟩]
  resolution := some "month"
  drillDownLabel := some "buyer"
  mode := .simple
  customQuery := none
  importedData := none
  connectionId := none
  dateColumn := none
  startDateColumn := none
  endDateColumn := none

theorem isPlain_orderTable : orderTable.IsPlain where
  allowed := by decide +kernel
  words := by
    have h : orderTable.columns.all (fun c => c.name != "" && c.name.toList.all isNameChar) =
        true := by decide +kernel
    intro c hc
    simpa using List.all_eq_true.1 h c hc
  kinds := by decide
  cells := by
    have h : orderTable.rows.all (fun row => row.length == orderTable.columns.length &&
        (orderTable.columns.zip row).all fun cv => Column.holds cv.1 cv.2) = true := by
      decide +kernel
    intro row hrow
    have := List.all_eq_true.1 h row hrow
    rw [Bool.and_eq_true, beq_iff_eq, List.all_eq_true] at this
    exact List.forall₂_iff_zip.2 ⟨this.1.symm, fun hmem => this.2 _ hmem⟩

theorem areRecordsOf_orderTable : AreRecordsOf orderTable orderRecords := by
  refine List.forall₂_map_right_iff.2 (List.forall₂_same.2 fun row _ => ?_)
  exact List.reverse_perm _

/-- The plan of the sums of the orders. -/
def orderPlan : ChartPlan :=
  planBeside .standard orderSpec (Database.columnSet orderTable.columns) none (some (.ofText "day"))

theorem compile_orderSpec :
    compile .standard orderSpec (Database.columnSet orderTable.columns) none none =
      .ok ⟨orderPlan, .ofPlan orderPlan ⟨"", "orders"⟩⟩ := by
  have hx : resolveXAxis (Database.columnSet orderTable.columns) orderSpec.xAxis =
      .ok (some (.ofText "day")) := rfl
  have hy : yAxisBeside orderSpec (Database.columnSet orderTable.columns)
      (some (.ofText "day")) ≠ [] := by decide +kernel
  exact compile_eq_ok_iff.2 ⟨resolvePlan_eq_ok_iff.2 ⟨_, hx, hy, rfl⟩, rfl⟩

theorem yAxis_orderPlan : orderPlan.yAxis = [.ofText "amount"] := by decide +kernel

theorem isPlainOver_orderPlan : orderPlan.IsPlainOver orderTable.columns where
  aggregation := by
    have hk : kindOf? orderTable.columns (.ofText "amount") = some .whole := by decide +kernel
    have ha : orderPlan.aggregation = .sum := by decide +kernel
    rw [yAxis_orderPlan, ha]
    intro y hy k hkind
    rw [List.mem_singleton.1 hy, hk] at hkind
    cases hkind
    rfl
  label := by
    have hd : orderPlan.drillDownLabel = some (.ofText "buyer") := by decide +kernel
    have hk : kindOf? orderTable.columns (.ofText "buyer") = some .text := by decide +kernel
    rw [hd]
    rintro _ ⟨⟩
    rw [hk]
    decide
  resolution := by
    rintro - _ ⟨⟩
    decide +kernel
  filters := by
    have hfilters : orderPlan.filters = [⟨.ofText "day", .ge, .text "2024-01-01"⟩,
        ⟨.ofText "buyer", .like, .text "A%"⟩,
        ⟨.ofText "region", .isIn, .list [.text "north", .text "south"]⟩] := rfl
    rw [hfilters]
    intro f hf
    simp only [List.mem_cons, List.not_mem_nil, or_false] at hf
    rcases hf with rfl | rfl | rfl
    · refine ⟨.date, by decide +kernel, fun h => FilterOperator.noConfusion h, ?_⟩
      intro w hw
      obtain rfl : w = .text "2024-01-01" := by simpa [PlanFilter.compared] using hw
      exact ⟨⟨2024, 1, 1, by decide⟩, by decide +kernel⟩
    · refine ⟨.text, by decide +kernel, fun _ => rfl, ?_⟩
      intro w hw
      obtain rfl : w = .text "A%" := by simpa [PlanFilter.compared] using hw
      trivial
    · refine ⟨.text, by decide +kernel, fun _ => rfl, ?_⟩
      intro w hw
      have : w = .text "north" ∨ w = .text "south" := by
        simpa [PlanFilter.compared, PlanFilter.values] using hw
      rcases this with rfl | rfl
      · trivial
      · trivial

theorem aggregateRecords_agrees_orderTable :
    ∃ c, compile .standard orderSpec (Database.columnSet orderTable.columns) none none = .ok c ∧
      orderTable.IsPlain ∧ AreRecordsOf orderTable orderRecords ∧ orderRecords ≠ [] ∧
      c.plan.IsPlainOver orderTable.columns ∧
      ((groupsOver orderTable c.query (planParameters c.plan)).toOption.map List.length =
        some 2) ∧
      ∃ rows, answerOver orderTable c.query (planParameters c.plan) = .ok rows ∧
        (∀ groups found, groupsOver orderTable c.query (planParameters c.plan) = .ok groups →
          found.Perm groups → answerFrom orderTable c.query found = .ok rows) ∧
        aggregateRecords .standard orderSpec orderRecords none =
          .ok (c.plan.result (composeLabels c.plan rows)) := by
  have hne : orderRecords ≠ [] := List.cons_ne_nil _ _
  have hfit : (groupsOver orderTable (.ofPlan orderPlan ⟨"", "orders"⟩)
      (planParameters orderPlan)).toOption.all (fun groups => groups.all fun g =>
        isSignedWord (wholeTotal (g.map (cellOf orderTable.columns (.ofText "amount"))))) =
      true := by decide +kernel
  have hsums : ∀ groups, groupsOver orderTable (.ofPlan orderPlan ⟨"", "orders"⟩)
      (planParameters orderPlan) = .ok groups →
      orderPlan.SumsFit orderTable.columns groups := by
    intro groups hgroups _ g hg y hy
    rw [hgroups] at hfit
    rw [yAxis_orderPlan, List.mem_singleton] at hy
    rw [hy]
    exact List.all_eq_true.1 hfit g hg
  exact ⟨_, compile_orderSpec, isPlain_orderTable, areRecordsOf_orderTable, hne,
    isPlainOver_orderPlan, by decide +kernel,
    aggregateRecords_agrees .standard orderSpec orderTable none none _ orderRecords
      isPlain_orderTable areRecordsOf_orderTable hne (by decide) (by decide)
      nofun compile_orderSpec isPlainOver_orderPlan hsums⟩

end ChartQuery
