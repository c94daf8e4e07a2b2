import ChartQuery.Proofs.Plan.Resolution

/-!
# Well-formed plans

A plan that comes out of a specification names only columns that exist, and no column twice, so that
the columns of its result can be told apart by their names and found by their positions. A
specification has no plan for two reasons only, which are told apart as well.

## Main definitions

* `ChartSpec.HasValidXAxis`, `ChartSpec.HasOwnYAxis`: what a specification has to name
* `ChartPlan.IsWellFormed`: what holds of every plan that is resolved

## Main results

* `planBeside_nodup`: no column is shown twice
* `planBeside_isWellFormed`: every resolved plan is well-formed
* `resolvePlan_trichotomy`: a plan comes out well-formed, or one of two errors says what is missing
-/

namespace ChartQuery

/-! ## Sound specifications -/

/-- The horizontal axis is a column, if it is given. -/
def ChartSpec.HasValidXAxis (spec : ChartSpec) (columns : ColumnSet) : Prop :=
  ∀ x, given? spec.xAxis = some x → columns.isColumn x = true

/-- The vertical axis names a column that is not that of the horizontal one. -/
def ChartSpec.HasOwnYAxis (spec : ChartSpec) (columns : ColumnSet) : Prop :=
  ∃ y ∈ spec.yAxis, columns.isColumn y = true ∧
    ∀ x, given? spec.xAxis = some x → clean y ≠ clean x

/-- The signs of the comparisons that a filter may make. -/
def allowedSigns : List String := ["=", "!=", ">", "<", ">=", "<=", "LIKE", "IN"]

/-! ## Sound plans -/

/-- The plan shows distinct columns that exist, and every part of it refers to such columns. -/
structure ChartPlan.IsWellFormed (columns : ColumnSet) (most : Int) (p : ChartPlan) : Prop where
  nodup_names : (p.outputColumns.map Identifier.name).Nodup
  isColumn : ∀ c ∈ p.outputColumns, c.name ≠ "" ∧ c.name ∈ columns.names
  exists_yAxis : ∃ y ∈ p.yAxis, y ∈ p.outputColumns
  groupingKeys_prefix : p.groupingKeys <+: p.outputColumns
  orderBy_shown : ∀ c, p.orderBy = some c → c ∈ p.outputColumns
  xAxis_of_resolution : p.resolution.isSome → p.xAxis.isSome
  compensated_subset : p.compensated ⊆ p.yAxis
  filters : ∀ f ∈ p.filters, f.operator.sign ∈ allowedSigns ∧ f.column.name ≠ "" ∧
    f.column.name ∈ columns.names ∧ (f.operator = .isIn → f.values ≠ [])
  one_le_limit : 1 ≤ p.limit
  limit_le : p.limit ≤ most

theorem FilterOperator.sign_mem_allowedSigns (o : FilterOperator) : o.sign ∈ allowedSigns := by
  cases o <;> decide

/-- The keys of a plan that shows no column twice are all different. -/
theorem ChartPlan.nodup_groupingKeys {p : ChartPlan} (h : p.outputColumns.Nodup) :
    p.groupingKeys.Nodup :=
  h.of_append_left.of_append_left

/-- Keys that are all different follow as they stand, but for the column asked for. -/
theorem ChartPlan.trailingKeys_eq {p : ChartPlan} (h : p.groupingKeys.Nodup) :
    p.trailingKeys = p.groupingKeys.filter fun k => p.orderBy != some k :=
  eraseDups_eq_self (h.filter _)

section Resolved

variable {limits : RowLimits} {spec : ChartSpec} {columns : ColumnSet} {maxRows : Option Int}
  {x : Option Identifier}

theorem resolveXAxis_isColumn (hx : resolveXAxis columns spec.xAxis = .ok x) :
    ∀ i, x = some i → columns.isColumn i.name = true := by
  obtain ⟨hvalid, rfl⟩ := resolveXAxis_eq_ok_iff.1 hx
  intro i hi
  obtain ⟨s, hs, rfl⟩ := Option.map_eq_some_iff.1 hi
  simpa [ColumnSet.isColumn] using hvalid s hs

theorem yAxisBeside_isColumn :
    ∀ y ∈ yAxisBeside spec columns x, columns.isColumn y.name = true := by
  intro y hy
  obtain ⟨s, -, hs, rfl⟩ := mem_validIdentifiers.1 (mem_yAxisBeside.1 hy).1
  simpa [ColumnSet.isColumn] using hs

/-- Every column that is shown is one of the rows. -/
theorem planBeside_isColumn (hx : resolveXAxis columns spec.xAxis = .ok x) :
    ∀ c ∈ (planBeside limits spec columns maxRows x).outputColumns,
      columns.isColumn c.name = true := by
  intro c hc
  simp only [ChartPlan.outputColumns, ChartPlan.groupingKeys, List.mem_append,
    Option.mem_toList] at hc
  rcases hc with ((hc | hc) | hc) | hc
  · exact resolveXAxis_isColumn hx c hc
  · exact isColumn_of_mem_resolveGroups c hc
  · exact (resolveDrillDown_eq_some hc).1
  · exact yAxisBeside_isColumn c hc

/-- No column is shown twice: the columns by which to group avoid both axes, and the label avoids
all three. -/
theorem planBeside_nodup :
    (planBeside limits spec columns maxRows x).outputColumns.Nodup := by
  have hx : x.toList.Nodup := by cases x <;> simp
  have hd (d : Option Identifier) : d.toList.Nodup := by cases d <;> simp
  have hg := nodup_resolveGroups columns (x.toList ++ yAxisBeside spec columns x) spec.groupBy.names
  have hfree := resolveGroups_disjoint columns (x.toList ++ yAxisBeside spec columns x)
    spec.groupBy.names
  have hxg : x.toList.Disjoint _ := fun i hi hgi => hfree i hgi (List.mem_append_left _ hi)
  -- The parts come in the order in which they are shown; each avoids those before it.
  refine ((hx.append hg hxg).append (hd _) ?_).append
    ((nodup_validIdentifiers columns spec.yAxis).filter _) ?_
  · intro i hi hlabel
    refine (resolveDrillDown_eq_some (Option.mem_toList.1 hlabel)).2 ?_
    exact List.mem_append_left _ hi
  · intro i hi hyi
    rcases List.mem_append.1 hi with hi | hlabel
    · rcases List.mem_append.1 hi with hi | hgi
      · exact (mem_yAxisBeside.1 hyi).2 (Option.mem_toList.1 hi)
      · exact hfree i hgi (List.mem_append_right _ hyi)
    · refine (resolveDrillDown_eq_some (Option.mem_toList.1 hlabel)).2 ?_
      exact List.mem_append_right _ hyi

theorem resolveResolution_isSome {name : Option String}
    (h : (resolveResolution x name).1.isSome) : x.isSome := by
  unfold resolveResolution at h
  split at h
  · rfl
  · simp at h

/-- The number of rows is at least one where the settings and the caller allow at least one. -/
theorem one_le_limitOf {asked : Option Int} (husual : 0 < limits.usual) (hmost : 0 < limits.most)
    (hmax : ∀ m, maxRows = some m → 0 < m) : 1 ≤ limitOf limits asked maxRows := by
  have hcap : 1 ≤ limits.cap maxRows := by
    cases maxRows with
    | none => exact hmost
    | some m =>
      have := hmax m rfl
      simp only [RowLimits.cap]
      split <;> omega
  simp only [limitOf]
  split <;> omega

/-- Every resolved plan is well-formed. -/
theorem planBeside_isWellFormed (husual : 0 < limits.usual) (hmost : 0 < limits.most)
    (hmax : ∀ m, maxRows = some m → 0 < m) (hx : resolveXAxis columns spec.xAxis = .ok x)
    (hy : yAxisBeside spec columns x ≠ []) :
    (planBeside limits spec columns maxRows x).IsWellFormed columns (limits.cap maxRows) where
  nodup_names := Identifier.nodup_names planBeside_nodup
  isColumn c hc := by
    have h := ColumnSet.isColumn_iff.1 (planBeside_isColumn hx c hc)
    rwa [c.clean_name] at h
  exists_yAxis := by
    obtain ⟨y, hy⟩ := List.exists_mem_of_ne_nil _ hy
    exact ⟨y, hy, List.mem_append_right _ hy⟩
  groupingKeys_prefix := by
    rw [ChartPlan.outputColumns, List.append_assoc]
    exact List.prefix_append _ _
  orderBy_shown c hc := resolveOrder_eq_some hc
  xAxis_of_resolution h := resolveResolution_isSome h
  compensated_subset := List.filter_sublist.subset
  filters f hf := by
    obtain ⟨g, -, hg⟩ := mem_resolveFilters.1 hf
    obtain ⟨-, hcolumn, -, hvalid, hvalues⟩ := resolveFilter_eq_ok hg
    have hname : f.column.name = clean g.field := by rw [hcolumn, Identifier.ofText_text_name]
    rw [hname]
    exact ⟨f.operator.sign_mem_allowedSigns, (ColumnSet.isColumn_iff.1 hvalid).1,
      (ColumnSet.isColumn_iff.1 hvalid).2, hvalues⟩
  one_le_limit := one_le_limitOf husual hmost hmax
  limit_le := limitOf_le _ _ _

/-! ## When there is a plan -/

theorem yAxisBeside_ne_nil_iff (hx : resolveXAxis columns spec.xAxis = .ok x) :
    yAxisBeside spec columns x ≠ [] ↔ spec.HasOwnYAxis columns := by
  obtain ⟨-, rfl⟩ := resolveXAxis_eq_ok_iff.1 hx
  constructor
  · intro h
    obtain ⟨y, hy⟩ := List.exists_mem_of_ne_nil _ h
    obtain ⟨hmem, hne⟩ := mem_yAxisBeside.1 hy
    obtain ⟨s, hs, hc, rfl⟩ := mem_validIdentifiers.1 hmem
    refine ⟨s, hs, hc, fun t ht heq => hne ?_⟩
    rw [ht, Option.map_some, Identifier.ofText_eq_iff.2 heq]
  · rintro ⟨s, hs, hc, hne⟩
    refine List.ne_nil_of_mem (mem_yAxisBeside.2 ⟨mem_validIdentifiers.2 ⟨s, hs, hc, rfl⟩, ?_⟩)
    intro h
    obtain ⟨t, ht, heq⟩ := Option.map_eq_some_iff.1 h
    exact hne t ht (Identifier.ofText_eq_iff.1 heq).symm

/-- **A specification has a well-formed plan, or one of two errors says what it lacks**: a
horizontal axis that is no column is refused first, then a vertical axis without a column of its
own; every other specification has a plan. -/
theorem resolvePlan_trichotomy (limits : RowLimits) (spec : ChartSpec) (columns : ColumnSet)
    (maxRows : Option Int) (husual : 0 < limits.usual) (hmost : 0 < limits.most)
    (hmax : ∀ m, maxRows = some m → 0 < m) :
    (∀ s, resolvePlan limits spec columns maxRows = .error (.invalidXAxis s) ↔
      given? spec.xAxis = some s ∧ columns.isColumn s = false) ∧
    (∀ raw, resolvePlan limits spec columns maxRows = .error (.noValidYAxis raw) ↔
      spec.HasValidXAxis columns ∧ ¬ spec.HasOwnYAxis columns ∧
        raw = rejectedYAxis spec columns) ∧
    (spec.HasValidXAxis columns → spec.HasOwnYAxis columns →
      ∃ p, resolvePlan limits spec columns maxRows = .ok p ∧
        p.IsWellFormed columns (limits.cap maxRows)) := by
  have hvalid : spec.HasValidXAxis columns ↔ ∃ x, resolveXAxis columns spec.xAxis = .ok x :=
    ⟨fun h => ⟨_, resolveXAxis_eq_ok_iff.2 ⟨h, rfl⟩⟩,
      fun ⟨_, hx⟩ => (resolveXAxis_eq_ok_iff.1 hx).1⟩
  refine ⟨fun s => ?_, fun raw => ?_, fun hxv hyv => ?_⟩
  · rw [resolvePlan_eq_error_iff, resolveXAxis_eq_error_iff]
    simp
  · rw [resolvePlan_eq_error_iff, resolveXAxis_eq_error_iff, hvalid]
    constructor
    · rintro (⟨_, _, _, h⟩ | ⟨x, hx, hnil, h⟩)
      · simp at h
      · exact ⟨⟨x, hx⟩, fun hy => (yAxisBeside_ne_nil_iff hx).2 hy hnil, by simpa using h⟩
    · rintro ⟨⟨x, hx⟩, hy, rfl⟩
      exact .inr ⟨x, hx, not_not.1 fun h => hy ((yAxisBeside_ne_nil_iff hx).1 h), rfl⟩
  · obtain ⟨x, hx⟩ := hvalid.1 hxv
    have hy := (yAxisBeside_ne_nil_iff hx).2 hyv
    exact ⟨_, resolvePlan_eq_ok_iff.2 ⟨x, hx, hy, rfl⟩,
      planBeside_isWellFormed husual hmost hmax hx hy⟩

end Resolved

/-- A specification that names some of its columns several times, in several spellings. -/
def repeatingSpec : ChartSpec where
  table := some "Sales"
  xAxis := some "Re-gion"
  yAxis := ["Amount", "Region", "Am ount", "Nope"]
  aggregation := "sum"
  groupBy := .several ["Channel", "Region", "Channel!", "Amount", ""]
  orderBy := some "Amount"
  orderDirection := "desc"
  limit := some 500
  filters := [⟨"Channel", "IN", .list [.text "Online"]⟩, ⟨"Channel", "IN", .list []⟩]
  resolution := some "month"
  drillDownLabel := some "Product"
  mode := .simple
  customQuery := none
  importedData := none
  connectionId := none
  dateColumn := none
  startDateColumn := none
  endDateColumn := none

theorem resolvePlan_trichotomy_repeatingSpec :
    let columns := ColumnSet.ofNames ["Region", "Channel", "Product", "Amount"] ["Amount"]
    (0 < RowLimits.standard.usual ∧ 0 < RowLimits.standard.most ∧
      (∀ m, some (100 : Int) = some m → 0 < m) ∧ repeatingSpec.HasValidXAxis columns ∧
      repeatingSpec.HasOwnYAxis columns) ∧
    ∃ p, resolvePlan .standard repeatingSpec columns (some 100) = .ok p ∧
      p.IsWellFormed columns 100 := by
  intro columns
  have hmax : ∀ m, some (100 : Int) = some m → 0 < m := by
    rintro _ ⟨⟩
    decide
  have hx : repeatingSpec.HasValidXAxis columns := by
    rintro _ ⟨⟩
    decide +kernel
  have hy : repeatingSpec.HasOwnYAxis columns := by
    refine ⟨"Amount", by simp [repeatingSpec], by decide +kernel, ?_⟩
    rintro _ ⟨⟩
    decide +kernel
  refine ⟨⟨by decide, by decide, hmax, hx, hy⟩, ?_⟩
  exact (resolvePlan_trichotomy .standard repeatingSpec columns (some 100) (by decide) (by decide)
    hmax).2.2 hx hy

end ChartQuery
