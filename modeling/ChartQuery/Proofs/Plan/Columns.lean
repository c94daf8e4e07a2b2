import ChartQuery.Proofs.Plan.Resolution

/-!
# Plans and column sets

A plan depends on the columns of its rows only through the names that count as columns, and through
those that count as columns of doubles. In which order the columns stand does not matter, nor do
columns that the specification does not mention.

## Main definitions

* `ColumnSet.AgreesOn`: of some names two column sets have the same ones
* `ColumnSet.Agrees`: two column sets have the same columns
* `ChartSpec.mentionedNames`: the names of the columns that a specification mentions

## Main results

* `resolvePlan_congr_mentioned`: a specification has the same plan for column sets that have the
  same ones of the columns that it mentions
* `resolvePlan_congr`: specifications have the same plan for the same columns
-/

namespace ChartQuery

/-- The names of all columns that a specification mentions. -/
def ChartSpec.mentionedNames (spec : ChartSpec) : List String :=
  spec.yAxis ++ spec.xAxis.toList ++ spec.groupBy.names ++ spec.orderBy.toList ++
    spec.drillDownLabel.toList ++ spec.filters.map (·.field)

/-- Of some names the same ones are columns, and the same ones columns of doubles. -/
structure ColumnSet.AgreesOn (c d : ColumnSet) (names : List String) : Prop where
  isColumn : ∀ n ∈ names, c.isColumn n = d.isColumn n
  isFloat : ∀ n ∈ names, c.isFloat n = d.isFloat n

/-- The same names are columns, and the same ones columns of doubles. -/
structure ColumnSet.Agrees (c d : ColumnSet) : Prop where
  isColumn : c.isColumn = d.isColumn
  isFloat : c.isFloat = d.isFloat

/-- A name that is given is the one that is written. -/
theorem eq_some_of_given? {name : Option String} {s : String} (h : given? name = some s) :
    name = some s := by
  cases name with
  | none => cases h
  | some t =>
    rw [given?] at h
    split at h
    · cases h
    · exact h

namespace ColumnSet

/-- Column sets with the same members have the same columns. -/
theorem isColumn_congr {c d : ColumnSet} (h : ∀ n, n ∈ c.names ↔ n ∈ d.names) :
    c.isColumn = d.isColumn := by
  funext s
  rw [Bool.eq_iff_iff, isColumn_iff, isColumn_iff, h]

variable {c d : ColumnSet} {names : List String}

theorem Agrees.agreesOn (h : c.Agrees d) (names : List String) : c.AgreesOn d names :=
  ⟨fun _ _ => by rw [h.isColumn], fun _ _ => by rw [h.isFloat]⟩

namespace AgreesOn

theorem append_iff {others : List String} :
    c.AgreesOn d (names ++ others) ↔ c.AgreesOn d names ∧ c.AgreesOn d others := by
  constructor
  · rintro ⟨hcolumn, hfloat⟩
    rw [List.forall_mem_append] at hcolumn hfloat
    exact ⟨⟨hcolumn.1, hfloat.1⟩, hcolumn.2, hfloat.2⟩
  · rintro ⟨h, h'⟩
    exact ⟨List.forall_mem_append.2 ⟨h.isColumn, h'.isColumn⟩,
      List.forall_mem_append.2 ⟨h.isFloat, h'.isFloat⟩⟩

theorem resolveFilters {fs : List FilterSpec} (h : c.AgreesOn d (fs.map (·.field))) :
    resolveFilters (some c) fs = resolveFilters (some d) fs := by
  have hfilter : ∀ f ∈ fs, resolveFilter (some c) f = resolveFilter (some d) f := fun f hf => by
    simp only [resolveFilter, Option.any_some, h.isColumn _ (List.mem_map_of_mem hf)]
  refine Prod.ext (List.filterMap_congr fun f hf => ?_) (List.filterMap_congr fun f hf => ?_)
  · rw [hfilter f hf]
  · rw [hfilter f hf]

theorem resolveGroups (h : c.AgreesOn d names) (taken done : List Identifier) :
    resolveGroups c taken done names = resolveGroups d taken done names := by
  induction names generalizing done with
  | nil => rfl
  | cons name rest ih =>
    -- The first name and the others are agreed on apart.
    rw [← List.singleton_append, append_iff] at h
    simp only [ChartQuery.resolveGroups, h.1.isColumn name List.mem_cons_self, ih h.2]

theorem resolveXAxis {name : Option String} (h : c.AgreesOn d name.toList) :
    resolveXAxis c name = resolveXAxis d name := by
  unfold ChartQuery.resolveXAxis
  cases hs : given? name with
  | none => rfl
  | some s => simp only [h.isColumn s (by simp [eq_some_of_given? hs])]

theorem resolveDrillDown {name : Option String} (h : c.AgreesOn d name.toList)
    (shown : List Identifier) : resolveDrillDown c shown name = resolveDrillDown d shown name := by
  unfold ChartQuery.resolveDrillDown
  cases hs : given? name with
  | none => rfl
  | some s => simp only [h.isColumn s (by simp [eq_some_of_given? hs])]

theorem resolveOrder {name : Option String} (h : c.AgreesOn d name.toList)
    (shown : List Identifier) : resolveOrder c shown name = resolveOrder d shown name := by
  unfold ChartQuery.resolveOrder
  cases hs : given? name with
  | none => rfl
  | some s => simp only [h.isColumn s (by simp [eq_some_of_given? hs])]

theorem validIdentifiers (h : c.AgreesOn d names) :
    validIdentifiers c names = validIdentifiers d names := by
  rw [ChartQuery.validIdentifiers, ChartQuery.validIdentifiers, List.filter_congr h.isColumn]

section Spec

variable {spec : ChartSpec}

theorem yAxisBeside (h : c.AgreesOn d spec.yAxis) (x : Option Identifier) :
    yAxisBeside spec c x = yAxisBeside spec d x := by
  rw [ChartQuery.yAxisBeside, ChartQuery.yAxisBeside, h.validIdentifiers]

theorem rejectedYAxis (h : c.AgreesOn d spec.yAxis) :
    rejectedYAxis spec c = rejectedYAxis spec d :=
  List.filter_congr fun s hs => by rw [h.isColumn s hs]

theorem yAxisWarnings (h : c.AgreesOn d spec.yAxis) (x : Option Identifier) :
    yAxisWarnings spec c x = yAxisWarnings spec d x := by
  simp only [ChartQuery.yAxisWarnings, h.validIdentifiers, h.rejectedYAxis]

/-- The same columns of the vertical axis hold doubles: their names are cleaned already. -/
theorem compensated (h : c.AgreesOn d spec.yAxis) (x : Option Identifier) :
    ((ChartQuery.yAxisBeside spec d x).filter fun y => c.isFloat y.name) =
      (ChartQuery.yAxisBeside spec d x).filter fun y => d.isFloat y.name := by
  refine List.filter_congr fun y hy => ?_
  obtain ⟨s, hs, -, rfl⟩ := mem_validIdentifiers.1 (mem_yAxisBeside.1 hy).1
  simpa [ColumnSet.isFloat] using h.isFloat s hs

/-- What is mentioned, part by part. -/
theorem mentioned (h : c.AgreesOn d spec.mentionedNames) :
    c.AgreesOn d spec.yAxis ∧ c.AgreesOn d spec.xAxis.toList ∧ c.AgreesOn d spec.groupBy.names ∧
      c.AgreesOn d spec.orderBy.toList ∧ c.AgreesOn d spec.drillDownLabel.toList ∧
      c.AgreesOn d (spec.filters.map (·.field)) := by
  simpa only [ChartSpec.mentionedNames, List.append_assoc, append_iff] using h

theorem planBeside (h : c.AgreesOn d spec.mentionedNames) (limits : RowLimits)
    (maxRows : Option Int) (x : Option Identifier) :
    planBeside limits spec c maxRows x = planBeside limits spec d maxRows x := by
  obtain ⟨hy, -, hgroups, horder, hlabel, hfilters⟩ := h.mentioned
  simp only [ChartQuery.planBeside, hy.yAxisBeside, hy.yAxisWarnings, hgroups.resolveGroups,
    hfilters.resolveFilters, hlabel.resolveDrillDown, horder.resolveOrder, hy.compensated]

end Spec

end AgreesOn

end ColumnSet

/-- A specification has the same plan for column sets that have the same ones of the columns that it
mentions. -/
theorem resolvePlan_congr_mentioned {c d : ColumnSet} {spec : ChartSpec}
    (h : c.AgreesOn d spec.mentionedNames) (limits : RowLimits) (maxRows : Option Int) :
    resolvePlan limits spec c maxRows = resolvePlan limits spec d maxRows := by
  obtain ⟨hy, hx, -⟩ := h.mentioned
  simp only [resolvePlan, hx.resolveXAxis, hy.yAxisBeside, h.planBeside, hy.rejectedYAxis]

/-- Specifications have the same plan for the same columns. -/
theorem resolvePlan_congr {c d : ColumnSet} (h : c.Agrees d) (limits : RowLimits)
    (spec : ChartSpec) (maxRows : Option Int) :
    resolvePlan limits spec c maxRows = resolvePlan limits spec d maxRows :=
  resolvePlan_congr_mentioned (h.agreesOn _) limits maxRows

end ChartQuery
