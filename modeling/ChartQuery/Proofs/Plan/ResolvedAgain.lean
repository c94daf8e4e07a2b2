import ChartQuery.Proofs.Plan.KeptParts

/-!
# Plans resolved again

A plan written out as a specification, with the names of its columns and the words for its
aggregation, its resolution and its direction, is resolved to the same plan, and nothing is dropped.
Each part is checked against the parts before it, so each of them has to come out as it was.

## Main definitions

* `ChartPlan.writtenOut`: the specification that says what a plan says

## Main results

* `validIdentifiers_names`, `resolveGroups_names`: columns come out under their own names
* `planBeside_writtenOut`: what a plan has to be so that it comes out again
* `resolvePlan_writtenOut`: a plan that is resolved again is the same plan, without warnings
-/

namespace ChartQuery

/-! ## Writing plans out -/

/-- The condition in the words of a specification. -/
def PlanFilter.writtenOut (f : PlanFilter) : FilterSpec := ⟨f.column.name, f.operator.sign, f.value⟩

/-- The specification that says what a plan says; whatever a plan does not depend on is as in
another specification. -/
def ChartPlan.writtenOut (p : ChartPlan) (other : ChartSpec) : ChartSpec :=
  { other with
    xAxis := p.xAxis.map Identifier.name
    yAxis := p.yAxis.map Identifier.name
    aggregation := p.aggregation.name
    groupBy := .several (p.groupBy.map Identifier.name)
    orderBy := p.orderBy.map Identifier.name
    orderDirection := if p.descending then "desc" else "asc"
    limit := some p.limit
    filters := p.filters.map PlanFilter.writtenOut
    resolution := p.resolution.map Resolution.name
    drillDownLabel := p.drillDownLabel.map Identifier.name }

/-! ## Words -/

theorem Aggregation.ofText_name (a : Aggregation) : ofText a.name = a := by
  cases a <;> decide +kernel

theorem Resolution.ofText?_name (r : Resolution) : ofText? r.name = some r := by
  cases r <;> decide +kernel

theorem isDescending_word (d : Bool) : isDescending (if d then "desc" else "asc") = d := by
  cases d <;> decide +kernel

/-- A number of rows that was found stays as it is, as it is no more than the most; where none of
the numbers is positive that may fail. -/
theorem limitOf_limitOf {limits : RowLimits} {maxRows : Option Int}
    (hrows : 0 < limits.usual ∨ 0 < limits.cap maxRows) (asked : Option Int) :
    limitOf limits (some (limitOf limits asked maxRows)) maxRows =
      limitOf limits asked maxRows := by
  simp only [limitOf, Option.getD_some]
  split <;> split <;> omega

section Names

variable {columns : ColumnSet} {is taken shown : List Identifier} {i : Identifier}

theorem given?_name (h : columns.isColumn i.name = true) : given? (some i.name) = some i.name := by
  have hne := (ColumnSet.isColumn_iff.1 h).1
  rw [i.clean_name] at hne
  simp [given?, hne]

theorem given?_names {o : Option Identifier} (h : ∀ i, o = some i → columns.isColumn i.name = true) :
    given? (o.map Identifier.name) = o.map Identifier.name := by
  cases o with
  | none => rfl
  | some i => exact given?_name (h i rfl)

theorem map_ofText_names (is : List Identifier) :
    (is.map Identifier.name).map Identifier.ofText = is := by
  simp [Function.comp_def]

/-- Different columns come out under their own names. -/
theorem validIdentifiers_names (hnodup : is.Nodup)
    (hcolumns : ∀ i ∈ is, columns.isColumn i.name = true) :
    validIdentifiers columns (is.map Identifier.name) = is := by
  have hall : (is.map Identifier.name).filter columns.isColumn = is.map Identifier.name :=
    List.filter_eq_self.2 (List.forall_mem_map.2 hcolumns)
  rw [validIdentifiers, hall, map_ofText_names, eraseDups_eq_self hnodup]

/-- Different columns that are in use nowhere else come out under their own names. -/
theorem resolveGroups_names (hnodup : is.Nodup)
    (hcolumns : ∀ i ∈ is, columns.isColumn i.name = true) (hfree : ∀ i ∈ is, i ∉ taken) :
    resolveGroups columns taken [] (is.map Identifier.name) = (is, []) := by
  have hall : (is.map Identifier.name).filter (fun s =>
      columns.isColumn s && !(taken ++ []).contains (Identifier.ofText s)) =
      is.map Identifier.name := by
    refine List.filter_eq_self.2 (List.forall_mem_map.2 fun i hi => ?_)
    simp [hcolumns i hi, hfree i hi]
  have hgroups : (resolveGroups columns taken [] (is.map Identifier.name)).1 = is := by
    rw [resolveGroups_eq, hall, map_ofText_names, eraseDups_eq_self hnodup, List.nil_append]
  -- As many columns are kept as there are names, so that no name has a warning.
  have hlength := length_resolveGroups columns taken [] (is.map Identifier.name)
  rw [hgroups, List.length_map, List.length_nil] at hlength
  exact Prod.ext hgroups (List.length_eq_zero_iff.1 (by omega))

theorem resolveDrillDown_name {o : Option Identifier}
    (h : ∀ i, o = some i → columns.isColumn i.name = true ∧ i ∉ shown) :
    resolveDrillDown columns shown (o.map Identifier.name) = (o, []) := by
  rw [resolveDrillDown, given?_names fun i hi => (h i hi).1]
  cases o with
  | none => rfl
  | some i =>
    obtain ⟨hcolumn, hfree⟩ := h i rfl
    simp [hcolumn, hfree]

theorem resolveOrder_name {o : Option Identifier}
    (h : ∀ i, o = some i → columns.isColumn i.name = true ∧ i ∈ shown) :
    resolveOrder columns shown (o.map Identifier.name) = (o, []) := by
  rw [resolveOrder, given?_names fun i hi => (h i hi).1]
  cases o with
  | none => rfl
  | some i =>
    obtain ⟨hcolumn, hshown⟩ := h i rfl
    simp [hcolumn, hshown]

end Names

/-! ## Conditions -/

theorem PlanFilter.eq_of_parts_eq {f g : PlanFilter} (h : f.parts = g.parts) : f = g := by
  obtain ⟨c, op, v⟩ := f
  obtain ⟨d, op', w⟩ := g
  simp only [parts, Prod.mk.injEq] at h
  obtain ⟨rfl, hsign, rfl⟩ := h
  have hop : some op = some op' := by
    rw [← FilterOperator.ofSign?_sign op, hsign, FilterOperator.ofSign?_sign]
  rw [Option.some.inj hop]

theorem PlanFilter.parts_writtenOut (f : PlanFilter) : f.writtenOut.parts = f.parts := by
  simp [writtenOut, FilterSpec.parts, parts]

/-- A condition that was kept is kept as it is. -/
theorem resolveFilter_writtenOut {columns : ColumnSet} {g : FilterSpec} {f : PlanFilter}
    (h : resolveFilter (some columns) g = .ok f) :
    resolveFilter (some columns) f.writtenOut = .ok f := by
  obtain ⟨hsign, hcolumn, hvalue, -, -⟩ := resolveFilter_eq_ok h
  have hsame : f.writtenOut.isValid columns = g.isValid columns := by
    simp only [PlanFilter.writtenOut, FilterSpec.isValid, FilterSpec.hasValues, hsign, hcolumn,
      hvalue, ColumnSet.isColumn, Identifier.ofText_text_name, clean_clean]
  obtain ⟨f', hf'⟩ := exists_resolveFilter (hsame.trans (parts_of_resolveFilter h).1)
  rw [hf', PlanFilter.eq_of_parts_eq ((parts_of_resolveFilter hf').2.trans f.parts_writtenOut)]

/-- Conditions that are kept as they are, each for itself, are kept without warnings. -/
theorem resolveFilters_writtenOut {columns : ColumnSet} {fs : List PlanFilter}
    (h : ∀ f ∈ fs, resolveFilter (some columns) f.writtenOut = .ok f) :
    resolveFilters (some columns) (fs.map PlanFilter.writtenOut) = (fs, []) := by
  induction fs with
  | nil => rfl
  | cons f fs ih =>
    have hrest := ih fun g hg => h g (List.mem_cons_of_mem f hg)
    simp only [resolveFilters, Prod.mk.injEq] at hrest ⊢
    obtain ⟨hfilters, hwarnings⟩ := hrest
    rw [List.map_cons, List.filterMap_cons, List.filterMap_cons, h f List.mem_cons_self,
      hfilters, hwarnings]
    exact ⟨rfl, rfl⟩

/-! ## Plans -/

section Plans

variable {limits : RowLimits} {columns : ColumnSet} {maxRows : Option Int} {p : ChartPlan}

/-- On a horizontal axis every resolution is found under its name. -/
theorem resolveResolution_some_name (i : Identifier) (r : Resolution) :
    resolveResolution (some i) (some r.name) = (some r, []) := by
  have hgiven : given? (some r.name) = some r.name := by cases r <;> decide +kernel
  simp only [resolveResolution, hgiven, Resolution.ofText?_name]

/-- A resolution is found again where there is a horizontal axis. -/
theorem resolveResolution_name (h : p.resolution.isSome → p.xAxis.isSome) :
    resolveResolution p.xAxis (p.resolution.map Resolution.name) = (p.resolution, []) := by
  cases hr : p.resolution with
  | none => rfl
  | some r =>
    obtain ⟨i, hi⟩ := Option.isSome_iff_exists.1 (h (by rw [hr]; rfl))
    rw [hi, Option.map_some, resolveResolution_some_name]

/-- The names of columns are not empty, so that all of them are names to group by. -/
theorem names_several {is : List Identifier} (h : ∀ i ∈ is, columns.isColumn i.name = true) :
    (GroupBy.several (is.map Identifier.name)).names = is.map Identifier.name := by
  refine List.filter_eq_self.2 (List.forall_mem_map.2 fun i hi => ?_)
  have hne := (ColumnSet.isColumn_iff.1 (h i hi)).1
  rw [i.clean_name] at hne
  simpa using hne

theorem resolveXAxis_name {x : Option Identifier}
    (h : ∀ i, x = some i → columns.isColumn i.name = true) :
    resolveXAxis columns (x.map Identifier.name) = .ok x := by
  refine resolveXAxis_eq_ok_iff.2 ?_
  rw [given?_names h]
  refine ⟨?_, by cases x <;> simp⟩
  intro s hs
  obtain ⟨i, hi, rfl⟩ := Option.map_eq_some_iff.1 hs
  exact h i hi

/-- A vertical axis of different columns besides the horizontal one comes out under its own names,
without warnings. -/
theorem yAxis_writtenOut (other : ChartSpec)
    (hcolumns : ∀ y ∈ p.yAxis, columns.isColumn y.name = true) (hnodup : p.yAxis.Nodup)
    (hbeside : ∀ y ∈ p.yAxis, p.xAxis ≠ some y) :
    yAxisBeside (p.writtenOut other) columns p.xAxis = p.yAxis ∧
      yAxisWarnings (p.writtenOut other) columns p.xAxis = [] := by
  have hvalid : validIdentifiers columns (p.writtenOut other).yAxis = p.yAxis :=
    validIdentifiers_names hnodup hcolumns
  have hrejected : rejectedYAxis (p.writtenOut other) columns = [] := by
    refine List.filter_eq_nil_iff.2 (List.forall_mem_map.2 fun y hy => ?_)
    simp [hcolumns y hy]
  have hrepeated : p.xAxis.toList.filter p.yAxis.contains = [] := by
    refine List.filter_eq_nil_iff.2 fun i hi hcontained => ?_
    exact hbeside i (List.contains_iff_mem.1 hcontained) (Option.mem_toList.1 hi)
  constructor
  · rw [yAxisBeside, hvalid]
    exact List.filter_eq_self.2 fun y hy => by simpa using hbeside y hy
  · simp [yAxisWarnings, hvalid, hrejected, hrepeated]

/-- A plan that shows different columns, refers to what it shows and keeps its conditions is that of
the specification that it is written out as, without warnings. -/
theorem planBeside_writtenOut (other : ChartSpec)
    (hcolumns : ∀ c ∈ p.outputColumns, columns.isColumn c.name = true)
    (hnodup : p.outputColumns.Nodup)
    (hresolution : p.resolution.isSome → p.xAxis.isSome)
    (hfilters : ∀ f ∈ p.filters, resolveFilter (some columns) f.writtenOut = .ok f)
    (horder : ∀ c, p.orderBy = some c → c ∈ p.outputColumns)
    (hlimit : limitOf limits (some p.limit) maxRows = p.limit)
    (hcompensated : p.compensated = p.yAxis.filter fun y => columns.isFloat y.name) :
    yAxisBeside (p.writtenOut other) columns p.xAxis = p.yAxis ∧
      planBeside limits (p.writtenOut other) columns maxRows p.xAxis = { p with warnings := [] } := by
  simp only [ChartPlan.outputColumns, ChartPlan.groupingKeys, List.mem_append, Option.mem_toList]
    at hcolumns horder
  simp only [ChartPlan.outputColumns, ChartPlan.groupingKeys, List.nodup_append', List.Disjoint,
    List.mem_append, Option.mem_toList] at hnodup
  obtain ⟨⟨⟨-, hgroups, hbesideX⟩, -, hlabel⟩, hy, hbeside⟩ := hnodup
  have hyAxis := yAxis_writtenOut other (fun y hmem => hcolumns y (.inr hmem)) hy
    fun y hmem hx => hbeside (.inl (.inl hx)) hmem
  have hgroupNames : (p.writtenOut other).groupBy.names = p.groupBy.map Identifier.name :=
    names_several fun g hg => hcolumns g (.inl (.inl (.inr hg)))
  have hgroupBy : resolveGroups columns (p.xAxis.toList ++ p.yAxis) []
      (p.groupBy.map Identifier.name) = (p.groupBy, []) := by
    refine resolveGroups_names hgroups (fun g hg => hcolumns g (.inl (.inl (.inr hg)))) ?_
    intro g hg htaken
    rcases List.mem_append.1 htaken with hx | hgy
    · exact hbesideX (Option.mem_toList.1 hx) hg
    · exact hbeside (.inl (.inr hg)) hgy
  have hdrillDown : resolveDrillDown columns (p.xAxis.toList ++ p.groupBy ++ p.yAxis)
      (p.drillDownLabel.map Identifier.name) = (p.drillDownLabel, []) := by
    refine resolveDrillDown_name fun d hd => ⟨hcolumns d (.inl (.inr hd)), fun hshown => ?_⟩
    rcases List.mem_append.1 hshown with hkey | hdy
    · refine hlabel ?_ hd
      simpa using hkey
    · exact hbeside (.inr hd) hdy
  have horderBy : resolveOrder columns
      (p.xAxis.toList ++ p.groupBy ++ p.drillDownLabel.toList ++ p.yAxis)
      (p.orderBy.map Identifier.name) = (p.orderBy, []) := by
    refine resolveOrder_name fun c hc => ⟨hcolumns c (horder c hc), ?_⟩
    simpa only [List.mem_append, Option.mem_toList] using horder c hc
  refine ⟨hyAxis.1, ?_⟩
  simp only [planBeside, hyAxis, hgroupNames, hgroupBy]
  simp only [ChartPlan.writtenOut, Aggregation.ofText_name, resolveResolution_name hresolution,
    resolveFilters_writtenOut hfilters, hdrillDown, horderBy, isDescending_word, hlimit,
    hcompensated, List.append_nil]

end Plans

/-- **A plan that is written out and resolved again is the same plan**, and nothing is dropped from
it: the names of its columns, the words for its aggregation, its resolution and its direction and
its number of rows are taken for what they say. That number may change only where no number of rows
is positive. -/
theorem resolvePlan_writtenOut (limits : RowLimits) (spec other : ChartSpec) (columns : ColumnSet)
    (maxRows : Option Int) (p : ChartPlan)
    (hrows : 0 < limits.usual ∨ 0 < limits.cap maxRows)
    (h : resolvePlan limits spec columns maxRows = .ok p) :
    resolvePlan limits (p.writtenOut other) columns maxRows = .ok { p with warnings := [] } := by
  obtain ⟨x, hx, hy, rfl⟩ := resolvePlan_eq_ok_iff.1 h
  obtain ⟨hyAxis, hplan⟩ := planBeside_writtenOut (p := planBeside limits spec columns maxRows x)
    other (planBeside_isColumn hx) planBeside_nodup resolveResolution_isSome
    (fun f hf => by
      obtain ⟨g, -, hg⟩ := mem_resolveFilters.1 hf
      exact resolveFilter_writtenOut hg)
    (fun c => resolveOrder_eq_some) (limitOf_limitOf hrows spec.limit) rfl
  refine resolvePlan_eq_ok_iff.2 ⟨x, resolveXAxis_name (resolveXAxis_isColumn hx), ?_, hplan.symm⟩
  exact ne_of_eq_of_ne hyAxis hy

/-- The plan for sales has cleaned names and a bounded number of rows, and its warnings are gone
when it is resolved again. -/
theorem resolvePlan_writtenOut_repeatingSpec :
    ∃ p, (0 < RowLimits.standard.usual ∨ 0 < RowLimits.standard.cap (some 100)) ∧
      resolvePlan .standard repeatingSpec saleColumns (some 100) = .ok p ∧
      p.limit = 100 ∧ p.warnings.length = 6 ∧
      resolvePlan .standard (p.writtenOut repeatingSpec) saleColumns (some 100) =
        .ok { p with warnings := [] } := by
  have hrows : 0 < RowLimits.standard.usual ∨ 0 < RowLimits.standard.cap (some 100) :=
    .inl (by decide)
  refine ⟨_, hrows, resolvePlan_repeatingSpec, by decide, by decide +kernel, ?_⟩
  exact resolvePlan_writtenOut .standard repeatingSpec repeatingSpec saleColumns (some 100) _ hrows
    resolvePlan_repeatingSpec

end ChartQuery
