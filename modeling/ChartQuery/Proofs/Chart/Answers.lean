import ChartQuery.Proofs.Chart.Filtering
import ChartQuery.Proofs.Chart.Groups
import ChartQuery.Proofs.Chart.Ordering

/-!
# The answer of a database to the query of a plan

Over a table of plain columns every expression of the query has a value in every group: a key what
the plan shows of the first row, any other the aggregate of its column. The query therefore answers
with the rows of the groups, in the order of the plan and as many as it allows. No two groups have
the same key, so that it does not matter in which order the database finds them.

## Main results

* `groupTableRows_groupExprs`: the query groups by what the plan shows
* `planItems_values`: the query selects the columns of the result
* `ChartPlan.ShowsPlainly.sortRows_groups_eq`: the rows of groups are sorted alike, in whichever
  order the groups are
* `answerFrom_eq`: the answer of a database to the query of a plan
-/

namespace ChartQuery

open Sql

section Answers

variable {p : ChartPlan} {columns : List Column} {rows : List (List Value)}

/-! ## Expressions -/

theorem cellOf_nil (columns : List Column) (c : Identifier) : cellOf columns c [] = .null := by
  rw [cellOf, cell?]
  cases columnNamed? columns c.name <;> rfl

theorem shown_nil (p : ChartPlan) (columns : List Column) (c : Identifier) :
    p.shown columns c [] = .null := by
  rw [ChartPlan.shown, cellOf_nil]
  cases p.resolution with
  | none => rfl
  | some r => exact ite_self _

/-- The first row of some of the rows is one of them, or there is none. -/
theorem headD_mem {g : List (List Value)} (hg : g ⊆ rows) :
    g.headD [] = [] ∨ g.headD [] ∈ rows := by
  cases g with
  | nil => exact .inl rfl
  | cons row g => exact .inr (hg List.mem_cons_self)

/-- On the horizontal axis the query has what the plan shows. -/
theorem evaluate?_axisExpr (hp : p.ShowsPlainly columns) (hrows : HoldCells columns rows)
    {x : Identifier} (hx : p.xAxis = some x) {g : List (List Value)} (hg : g ⊆ rows) :
    (axisExpr x p.resolution).evaluate? columns g = some (p.shown columns x (g.headD [])) := by
  have hmem : x ∈ p.outputColumns := by
    rw [p.mem_outputColumns]
    simp [ChartPlan.groupingKeys, hx]
  obtain ⟨i, type, k, hcol, hk⟩ := hp.column x hmem
  have hcell : cell? columns (g.headD []) x = some (cellOf columns x (g.headD [])) := by
    rw [hcol.cell?_eq, hcol.cellOf_eq]
  rw [ChartPlan.shown]
  cases hres : p.resolution with
  | none => exact hcell
  | some r =>
    have hdate := hp.axis (by rw [hres]; rfl) x hx
    rw [hcol.kindOf?_eq, hk, Option.some.injEq] at hdate
    subst hdate
    have hplain : cellOf columns x (g.headD []) = .null ∨
        PlainKind.date.has (cellOf columns x (g.headD [])) = true := by
      rcases headD_mem hg with hnil | hrow
      · rw [hnil, cellOf_nil]
        exact .inl rfl
      · exact hrows.allPlain hcol hk _ (List.mem_map_of_mem hrow)
    dsimp only
    rw [if_pos hx]
    generalize cellOf columns x (g.headD []) = v at hcell hplain
    -- Null has no date on either side; a date is cut alike, since its year has four digits.
    rcases hplain with rfl | hhas
    · cases r <;> rw [axisExpr, Expr.evaluate?, hcell] <;> rfl
    · cases v <;> simp only [PlainKind.has, Bool.false_eq_true] at hhas
      rename_i d
      have hyear : 1000 ≤ d.year := by simpa using hhas
      cases r
      case day =>
        rw [axisExpr, Expr.evaluate?, hcell, Option.map_some, evaluateDate_date]
        rfl
      case month =>
        rw [axisExpr, Expr.evaluate?, hcell]
        exact congrArg some (DayText.partText_eq_cut hyear true)
      case year =>
        rw [axisExpr, Expr.evaluate?, hcell]
        exact congrArg some (DayText.partText_eq_cut hyear false)

/-- A column to group by is found, and the query has its cell. -/
theorem evaluate?_groupColumn (hp : p.ShowsPlainly columns) {c : Identifier} (hc : c ∈ p.groupBy)
    (g : List (List Value)) :
    (Expr.column c).evaluate? columns g = some (p.shown columns c (g.headD [])) ∧
      Item.outputName columns ⟨.column c, none⟩ = c.name := by
  have hmem : c ∈ p.outputColumns := by
    rw [p.mem_outputColumns]
    simp [ChartPlan.groupingKeys, hc]
  obtain ⟨i, type, k, hcol, -⟩ := hp.column c hmem
  constructor
  · rw [hp.shown_eq (.inl hc), hcol.cellOf_eq]
    exact hcol.cell?_eq _
  · simp only [Item.outputName, hcol.named, Option.bind_some, hcol.get]
    rfl

/-- The expressions to group by have the values of the keys that the plan shows. -/
theorem evaluate?_groupExprs (hp : p.ShowsPlainly columns) (hrows : HoldCells columns rows)
    {g : List (List Value)} (hg : g ⊆ rows) :
    (groupExprs p).map (·.evaluate? columns g) =
      p.groupingKeys.map fun c => some (p.shown columns c (g.headD [])) := by
  have haxis : (p.xAxis.map fun x => axisExpr x p.resolution).toList.map (·.evaluate? columns g) =
      p.xAxis.toList.map fun c => some (p.shown columns c (g.headD [])) := by
    cases hx : p.xAxis with
    | none => rfl
    | some x => exact congrArg (fun v => [v]) (evaluate?_axisExpr hp hrows hx hg)
  have hcolumns : (p.groupBy.map Expr.column).map (·.evaluate? columns g) =
      p.groupBy.map fun c => some (p.shown columns c (g.headD [])) := by
    rw [List.map_map]
    exact List.map_congr_left fun c hc => (evaluate?_groupColumn hp hc g).1
  rw [groupExprs, List.map_append, haxis, hcolumns, ChartPlan.groupingKeys, List.map_append]

/-- The query groups by what the plan shows. -/
theorem groupTableRows_groupExprs (hp : p.ShowsPlainly columns) (hrows : HoldCells columns rows) :
    groupTableRows columns (groupExprs p) rows = p.tableGroups columns rows := by
  have hempty : (groupExprs p).isEmpty = p.groupingKeys.isEmpty := by
    cases hx : p.xAxis <;> simp [groupExprs, ChartPlan.groupingKeys, hx]
  have hkey : ∀ row ∈ rows, ((groupExprs p).map fun e => (e.evaluate? columns [row]).getD .null) =
      p.shownKey columns row := by
    intro row hrow
    have hvalues := evaluate?_groupExprs hp hrows (List.cons_subset.2 ⟨hrow, List.nil_subset rows⟩)
    have := congrArg (List.map (Option.getD · Value.null)) hvalues
    rw [List.map_map, List.map_map] at this
    exact this
  rw [groupTableRows, ChartPlan.tableGroups, hempty,
    groupRows_congr hkey fun _ _ _ _ => rfl]

/-- An aggregate that suits its column has a value. -/
theorem evaluate?_aggregate (hp : p.ShowsPlainly columns) (hrows : HoldCells columns rows)
    {c : Identifier} {a : Aggregation}
    (hc : p.drillDownLabel = some c ∧ a = .max ∨ c ∈ p.yAxis ∧ a = p.aggregation)
    (g : List (List Value)) :
    (Expr.aggregate (.plain a) c).evaluate? columns g =
      some (aggregateOf a (typeOf columns c) (g.map (cellOf columns c))) := by
  have hmem : c ∈ p.outputColumns := p.mem_outputColumns.2 (.inr (hc.imp And.left And.left))
  obtain ⟨i, type, -, hcol, -⟩ := hp.column c hmem
  obtain ⟨k, htype, hsuits, -⟩ := hp.aggregated hrows hc
  have hcells : g.map (fun row => row.getD i .null) = g.map (cellOf columns c) :=
    List.map_congr_left fun row _ => (hcol.cellOf_eq row).symm
  rw [← aggregateColumn?_eq hsuits htype, hcol.typeOf_eq, ← hcells]
  rw [Expr.evaluate?, hcol.named]
  simp only [bind, Option.bind, hcol.get]

/-- The query selects the columns of the result. -/
theorem planItems_values (hp : p.ShowsPlainly columns) (hrows : HoldCells columns rows)
    {g : List (List Value)} (hg : g ⊆ rows) :
    ((planItems p).map fun i => (i.outputName columns, i.expr.evaluate? columns g)) =
      (p.resultColumns columns).map fun c => (c.1, some (c.2 g)) := by
  have haxis : (p.xAxis.map fun x => (⟨axisExpr x p.resolution, some x⟩ : Item)).toList.map
      (fun i => (i.outputName columns, i.expr.evaluate? columns g)) =
      p.xAxis.toList.map fun c => (c.name, some (p.shown columns c (g.headD []))) := by
    cases hx : p.xAxis with
    | none => rfl
    | some x => exact congrArg (fun v => [(x.name, v)]) (evaluate?_axisExpr hp hrows hx hg)
  have hcolumns : (p.groupBy.map fun c => (⟨.column c, none⟩ : Item)).map
      (fun i => (i.outputName columns, i.expr.evaluate? columns g)) =
      p.groupBy.map fun c => (c.name, some (p.shown columns c (g.headD []))) := by
    rw [List.map_map]
    refine List.map_congr_left fun c hc => ?_
    obtain ⟨hvalue, hname⟩ := evaluate?_groupColumn hp hc g
    rw [Function.comp_apply, hvalue, hname]
  have hlabel : (p.drillDownLabel.map fun d =>
        (⟨.aggregate (.plain .max) d, some d⟩ : Item)).toList.map
      (fun i => (i.outputName columns, i.expr.evaluate? columns g)) =
      p.drillDownLabel.toList.map fun c => (c.name,
        some (aggregateOf .max (typeOf columns c) (g.map (cellOf columns c)))) := by
    cases hd : p.drillDownLabel with
    | none => rfl
    | some d =>
      exact congrArg (fun v => [(d.name, v)]) (evaluate?_aggregate hp hrows (.inl ⟨hd, rfl⟩) g)
  have hvalues : (p.yAxis.map fun y => (⟨.aggregate (aggregateFn p y) y, some y⟩ : Item)).map
      (fun i => (i.outputName columns, i.expr.evaluate? columns g)) =
      p.yAxis.map fun c => (c.name,
        some (aggregateOf p.aggregation (typeOf columns c) (g.map (cellOf columns c)))) := by
    rw [List.map_map]
    refine List.map_congr_left fun y hy => ?_
    have hplain : aggregateFn p y = .plain p.aggregation := by
      simp [aggregateFn, hp.compensated]
    rw [Function.comp_apply, hplain]
    exact congrArg (Prod.mk y.name) (evaluate?_aggregate hp hrows (.inr ⟨hy, rfl⟩) g)
  rw [planItems, List.map_append, List.map_append, List.map_append, haxis, hcolumns, hlabel,
    hvalues]
  simp [ChartPlan.resultColumns, ChartPlan.groupingKeys, Function.comp_def]

/-! ## Order -/

/-- A column of the result holds nulls and values of one kind. -/
theorem resultColumns_describe (hp : p.ShowsPlainly columns) (hrows : HoldCells columns rows)
    {c : String × (List (List Value) → Value)} (hc : c ∈ p.resultColumns columns) :
    ∃ k : PlainKind, ∀ g, g ⊆ rows → k.fits (c.2 g) := by
  have haggregate {c : Identifier} {a : Aggregation}
      (hc : p.drillDownLabel = some c ∧ a = .max ∨ c ∈ p.yAxis ∧ a = p.aggregation) :
      ∃ k : PlainKind, ∀ g : List (List Value), g ⊆ rows →
        k.fits (aggregateOf a (typeOf columns c) (g.map (cellOf columns c))) := by
    obtain ⟨k, htype, hsuits, hplain, -⟩ := hp.aggregated hrows hc
    exact ⟨a.resultKind k, fun g hg =>
      aggregateOf_describes hsuits htype (hplain.mono (List.map_subset _ hg))⟩
  rw [ChartPlan.resultColumns, List.mem_append, List.mem_append] at hc
  rcases hc with (hc | hc) | hc
  · obtain ⟨d, hd, rfl⟩ := List.mem_map.1 hc
    obtain ⟨k, hk⟩ := hp.allPlain_shown hrows (p.mem_outputColumns.2 (.inl hd))
    refine ⟨k, fun g hg => ?_⟩
    rcases headD_mem hg with hnil | hrow
    · left
      dsimp only
      rw [hnil, shown_nil]
    · exact (hk _ (List.mem_map_of_mem hrow)).imp id k.describes_of_has
  · obtain ⟨d, hd, rfl⟩ := List.mem_map.1 hc
    exact haggregate (.inl ⟨Option.mem_toList.1 hd, rfl⟩)
  · obtain ⟨y, hy, rfl⟩ := List.mem_map.1 hc
    exact haggregate (.inr ⟨hy, rfl⟩)

/-- A row of the result has its values under their names. -/
theorem value_groupRow (hp : p.ShowsPlainly columns)
    {c : String × (List (List Value) → Value)} (hc : c ∈ p.resultColumns columns)
    (g : List (List Value)) : (p.groupRow columns g).value c.1 = c.2 g := by
  refine Record.value_of_mem ?_ (List.mem_map_of_mem hc)
  rw [ChartPlan.groupRow, List.map_map]
  exact p.map_fst_resultColumns columns ▸ hp.nodup

/-- A result is sorted by columns that it shows. -/
theorem mem_sortKeys (horder : ∀ c, p.orderBy = some c → c ∈ p.outputColumns) {k : SortKey}
    (hk : k ∈ p.sortKeys) : ∃ c ∈ p.outputColumns, c.name = k.column := by
  rcases List.mem_append.1 hk with hk | hk
  · obtain ⟨c, hc, rfl⟩ := List.mem_map.1 hk
    exact ⟨c, horder c (Option.mem_toList.1 hc), rfl⟩
  · obtain ⟨c, hc, rfl⟩ := List.mem_map.1 hk
    exact ⟨c, p.mem_outputColumns.2 (.inl (ChartPlan.mem_trailingKeys.1 hc).1), rfl⟩

/-- A result is sorted by all columns of the groups. -/
theorem exists_sortKey {c : Identifier} (hc : c ∈ p.groupingKeys) :
    ∃ key ∈ p.sortKeys, key.column = c.name := by
  by_cases horder : p.orderBy = some c
  · refine ⟨⟨c.name, p.descending⟩, List.mem_append_left _ (List.mem_map.2 ⟨c, ?_, rfl⟩), rfl⟩
    exact Option.mem_toList.2 horder
  · refine ⟨⟨c.name, false⟩, List.mem_append_right _ (List.mem_map.2 ⟨c, ?_, rfl⟩), rfl⟩
    exact ChartPlan.mem_trailingKeys.2 ⟨hc, horder⟩

/-- The rows of groups are sorted by columns of nulls and values of one kind. -/
theorem ChartPlan.ShowsPlainly.fitKeys (hp : p.ShowsPlainly columns)
    (hrows : HoldCells columns rows) (horder : ∀ c, p.orderBy = some c → c ∈ p.outputColumns)
    {groups : List (List (List Value))} (hgroups : ∀ g ∈ groups, g ⊆ rows) :
    FitKeys p.sortKeys (groups.map (p.groupRow columns)) := by
  intro key hkey
  obtain ⟨c, hc, hname⟩ := mem_sortKeys horder hkey
  have hmem : key.column ∈ (p.resultColumns columns).map Prod.fst := by
    rw [p.map_fst_resultColumns, ← hname]
    exact List.mem_map_of_mem hc
  obtain ⟨col, hcol, hcolumn⟩ := List.mem_map.1 hmem
  obtain ⟨k, hk⟩ := resultColumns_describe hp hrows hcol
  refine ⟨_, k.isRanked, fun r hr => ?_⟩
  obtain ⟨g, hg, rfl⟩ := List.mem_map.1 hr
  rw [← hcolumn, value_groupRow hp hcol]
  exact hk g (hgroups g hg)

/-- The positions by which the query orders are those of the columns of the plan. -/
theorem planOrder_sortKeys (horder : ∀ c, p.orderBy = some c → c ∈ p.outputColumns) :
    ((planOrder p).map fun o =>
      (⟨(p.outputColumns.map Identifier.name).getD (o.position - 1) "", o.descending⟩ : SortKey)) =
      p.sortKeys := by
  have hname : ∀ c ∈ p.outputColumns,
      (p.outputColumns.map Identifier.name).getD (positionOf p c - 1) "" = c.name := by
    intro c hc
    have hlt := List.idxOf_lt_length_iff.2 hc
    rw [positionOf, Nat.add_sub_cancel, List.getD_eq_getElem?_getD, List.getElem?_map,
      List.getElem?_eq_getElem hlt, List.getElem_idxOf hlt]
    rfl
  rw [planOrder, List.map_append, ChartPlan.sortKeys]
  congr 1
  · cases ho : p.orderBy with
    | none => rfl
    | some c =>
      exact congrArg (fun n => [(⟨n, p.descending⟩ : SortKey)]) (hname c (horder c ho))
  · rw [List.map_map]
    refine List.map_congr_left fun c hc => ?_
    have hmem := p.mem_outputColumns.2 (.inl (ChartPlan.mem_trailingKeys.1 hc).1)
    exact congrArg (fun n => (⟨n, false⟩ : SortKey)) (hname c hmem)

/-! ## Rows -/

/-- The groups are of rows that are there. -/
theorem tableGroups_subset (hp : p.ShowsPlainly columns) (hrows : HoldCells columns rows) :
    ∀ g ∈ p.tableGroups columns rows, g ⊆ rows := by
  intro g hg
  rw [ChartPlan.tableGroups] at hg
  split at hg
  · rw [List.mem_singleton.1 hg]
    exact List.Subset.refl rows
  · obtain ⟨pair, hpair, rfl⟩ := List.mem_map.1 hg
    exact (mem_groupRows_shownKey hp hrows hpair).1

/-- The names of the selected expressions are those of the columns of the result. -/
theorem map_outputName_planItems (hp : p.ShowsPlainly columns) (hrows : HoldCells columns rows) :
    (planItems p).map (·.outputName columns) = p.outputColumns.map Identifier.name := by
  have hvalues := congrArg (List.map Prod.fst) (planItems_values hp hrows (List.nil_subset rows))
  rw [List.map_map, List.map_map] at hvalues
  exact hvalues.trans (p.map_fst_resultColumns columns)

/-- The selected expressions have the values of the row of a group. -/
theorem mapM_planItems (hp : p.ShowsPlainly columns) (hrows : HoldCells columns rows)
    {g : List (List Value)} (hg : g ⊆ rows) :
    (planItems p).mapM (fun i => i.expr.evaluate? columns g) =
      some ((p.resultColumns columns).map fun c => c.2 g) := by
  have hvalues := congrArg (List.map Prod.snd) (planItems_values hp hrows hg)
  rw [List.map_map, List.map_map] at hvalues
  have hmapM := congrArg (List.mapM id) hvalues
  rw [List.mapM_map, List.mapM_map] at hmapM
  exact hmapM.trans (mapM_eq_some fun _ _ => rfl)

/-- Groups with the same values in the columns to sort by are the same group. -/
theorem tableGroups_eq_of_value_eq (hp : p.ShowsPlainly columns) (hrows : HoldCells columns rows)
    {g g' : List (List Value)} (hg : g ∈ p.tableGroups columns rows)
    (hg' : g' ∈ p.tableGroups columns rows)
    (h : ∀ key ∈ p.sortKeys,
      (p.groupRow columns g).value key.column = (p.groupRow columns g').value key.column) :
    g = g' := by
  -- A group is found by its key, whose values are among those to sort by.
  have hkey : p.shownKey columns (g.headD []) = p.shownKey columns (g'.headD []) := by
    refine List.map_congr_left fun c hc => ?_
    obtain ⟨key, hkey, hname⟩ := exists_sortKey hc
    have hcol : (c.name, fun g : List (List Value) => p.shown columns c (g.headD [])) ∈
        p.resultColumns columns :=
      List.mem_append_left _ (List.mem_append_left _ (List.mem_map_of_mem hc))
    have hvalue := h key hkey
    rwa [hname, value_groupRow hp hcol, value_groupRow hp hcol] at hvalue
  rw [ChartPlan.tableGroups] at hg hg'
  by_cases hnone : p.groupingKeys.isEmpty = true
  · rw [if_pos hnone, List.mem_singleton] at hg hg'
    rw [hg, hg']
  · rw [if_neg hnone] at hg hg'
    obtain ⟨pair, hpair, rfl⟩ := List.mem_map.1 hg
    obtain ⟨pair', hpair', rfl⟩ := List.mem_map.1 hg'
    have hfst := (mem_groupRows_shownKey hp hrows hpair).2.2
    have hfst' := (mem_groupRows_shownKey hp hrows hpair').2.2
    rw [groupRows_eq_of_key_eq hpair hpair' (by rw [hfst, hkey, hfst'])]

/-- The rows of groups are sorted alike, in whichever order the groups are. -/
theorem ChartPlan.ShowsPlainly.sortRows_groups_eq (hp : p.ShowsPlainly columns)
    (hrows : HoldCells columns rows) (horder : ∀ c, p.orderBy = some c → c ∈ p.outputColumns)
    {found : List (List (List Value))} (hfound : found.Perm (p.tableGroups columns rows)) :
    sortRows p.sortKeys (found.map (p.groupRow columns)) =
      sortRows p.sortKeys ((p.tableGroups columns rows).map (p.groupRow columns)) := by
  refine sortRows_eq_of_perm (hfound.map _)
    (hp.fitKeys hrows horder (tableGroups_subset hp hrows)) fun r hr s hs h => ?_
  obtain ⟨g, hg, rfl⟩ := List.mem_map.1 hr
  obtain ⟨g', hg', rfl⟩ := List.mem_map.1 hs
  rw [tableGroups_eq_of_value_eq hp hrows hg hg' h]

/-- **The answer of a database to the query of a plan** are the rows of the groups, in the order of
the plan and as many as it allows, in whichever order the groups are found. -/
theorem answerFrom_eq {t : Table} {kept : List (List Value)} (ref : TableRef)
    (hp : p.ShowsPlainly t.columns) (hkept : HoldCells t.columns kept)
    (horder : ∀ c, p.orderBy = some c → c ∈ p.outputColumns)
    {found : List (List (List Value))} (hfound : found.Perm (p.tableGroups t.columns kept)) :
    answerFrom t (.ofPlan p ref) found =
      .ok ((sortRows p.sortKeys ((p.tableGroups t.columns kept).map (p.groupRow t.columns))).take
        p.limit.toNat) := by
  -- Even over no rows every expression has a value, so that no type is refused.
  have hitems := mapM_planItems hp hkept (List.nil_subset kept)
  have hkeys : (groupExprs p).mapM (fun e => e.evaluate? t.columns []) =
      some (p.groupingKeys.map fun c => p.shown t.columns c []) := by
    have hmapM := congrArg (List.mapM id)
      (evaluate?_groupExprs hp hkept (List.nil_subset kept))
    rw [List.mapM_map, List.mapM_map] at hmapM
    exact hmapM.trans (mapM_eq_some fun _ _ => rfl)
  have hnames := map_outputName_planItems hp hkept
  have hresults : (found.mapM fun g => do
      let values ← orFail ((planItems p).mapM fun i => i.expr.evaluate? t.columns g)
      .ok (((planItems p).map (·.outputName t.columns)).zip values) :
        Except ExecutionFault (List Record)) = .ok (found.map (p.groupRow t.columns)) := by
    refine mapM_eq_ok fun g hg => ?_
    rw [mapM_planItems hp hkept (tableGroups_subset hp hkept g (hfound.mem_iff.1 hg)), hnames,
      ← p.map_fst_resultColumns t.columns]
    refine congrArg Except.ok ?_
    rw [List.zip_map']
    rfl
  have hsort : (Query.ofPlan p ref).orderBy.map (fun o =>
      (⟨((planItems p).map (·.outputName t.columns)).getD (o.position - 1) "", o.descending⟩ :
        SortKey)) = p.sortKeys := by
    rw [hnames]
    exact planOrder_sortKeys horder
  rw [answerFrom, ← hp.sortRows_groups_eq hkept horder hfound]
  simp only [bind, Except.bind] at hresults ⊢
  simp only [Query.ofPlan] at hsort ⊢
  rw [hitems, hkeys]
  simp only [orFail] at hresults ⊢
  rw [hresults]
  simp only [hsort]

end Answers

end ChartQuery
