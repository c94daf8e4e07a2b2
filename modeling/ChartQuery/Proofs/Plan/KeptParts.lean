import ChartQuery.Proofs.Plan.WellFormed

/-!
# What a plan keeps of a specification

A plan keeps the conditions, the columns to group by and the columns of the vertical axis that are
valid, in the order in which they are specified, and of columns that are named several times the
first. Every condition and every name to group by that is not kept has a warning of its own; each
other part that is dropped is mentioned once.

## Main definitions

* `FilterSpec.isValid`: a condition that can be kept
* `ChartSpec.otherDrops`: the number of parts that are dropped besides conditions and names to group
  by

## Main results

* `resolveGroups_eq`: the columns to group by, one after the other
* `map_resolveFilters`: the conditions that are kept
* `resolvePlan_accountsForParts`: what a plan keeps, and how many warnings it carries
-/

namespace ChartQuery

/-! ## Columns to group by -/

/-- The columns to group by are the first occurrences of the names that are columns, in use neither
elsewhere nor before. -/
theorem resolveGroups_eq (columns : ColumnSet) (taken done : List Identifier)
    (names : List String) :
    (resolveGroups columns taken done names).1 = done ++ ((names.filter fun s =>
      columns.isColumn s && !(taken ++ done).contains (.ofText s)).map
        Identifier.ofText).eraseDups := by
  induction names generalizing done with
  | nil => simp [resolveGroups]
  | cons name rest ih =>
    rw [resolveGroups_cons, List.filter_cons]
    by_cases h : columns.isColumn name = true ∧ Identifier.ofText name ∉ taken ++ done
    · have hkept : (columns.isColumn name && !(taken ++ done).contains (.ofText name)) = true := by
        simpa using h
      have hrest : (rest.filter fun s => columns.isColumn s &&
          !(taken ++ (done ++ [Identifier.ofText name])).contains (.ofText s)).map
            Identifier.ofText =
          ((rest.filter fun s => columns.isColumn s && !(taken ++ done).contains (.ofText s)).map
            Identifier.ofText).filter fun i => !i == Identifier.ofText name := by
        rw [List.filter_map, List.filter_filter]
        refine congrArg (List.map _) (List.filter_congr fun s _ => ?_)
        simp only [Function.comp_apply, List.contains_append, List.contains_cons, List.contains_nil,
          Bool.or_false, Bool.not_or]
        ac_rfl
      rw [if_pos h, if_pos hkept, ih, hrest, List.map_cons, List.eraseDups_cons, List.append_assoc]
      rfl
    · have hdropped :
          ¬ (columns.isColumn name && !(taken ++ done).contains (.ofText name)) = true := by
        simpa using h
      rw [if_neg h, if_neg hdropped, ih]

/-- Every name to group by is kept, or has a warning. -/
theorem length_resolveGroups (columns : ColumnSet) (taken done : List Identifier)
    (names : List String) :
    (resolveGroups columns taken done names).1.length +
      (resolveGroups columns taken done names).2.length = done.length + names.length := by
  induction names generalizing done with
  | nil => rfl
  | cons name rest ih =>
    have hdropped := ih done
    have hkept := ih (done ++ [.ofText name])
    simp only [List.length_append, List.length_cons, List.length_nil] at hkept
    rw [resolveGroups]
    split
    · simp only [List.length_cons]
      omega
    split
    · simp only [List.length_cons]
      omega
    · simp only [List.length_cons]
      omega

/-! ## Conditions -/

/-- The value is no list without items. -/
def FilterSpec.hasValues (f : FilterSpec) : Bool :=
  match f.value with
  | .list items => !items.isEmpty
  | _ => true

/-- The condition can be kept: its comparison is known, its column exists, and where it compares
with several values there are some. -/
def FilterSpec.isValid (columns : ColumnSet) (f : FilterSpec) : Bool :=
  allowedSigns.contains f.operator && columns.isColumn f.field &&
    (f.operator != "IN" || f.hasValues)

/-- What is compared in a condition, how, and with what. -/
def PlanFilter.parts (f : PlanFilter) : Identifier × String × Value :=
  (f.column, f.operator.sign, f.value)

/-- The parts of a condition as specified. -/
def FilterSpec.parts (f : FilterSpec) : Identifier × String × Value :=
  (.ofText f.field, f.operator, f.value)

section Conditions

variable {columns : ColumnSet} {f : FilterSpec}

theorem FilterOperator.ofSign?_eq_none_iff {s : String} :
    FilterOperator.ofSign? s = none ↔ s ∉ allowedSigns := by
  have hsigns : allowedSigns = FilterOperator.all.map FilterOperator.sign := rfl
  simp [ofSign?, hsigns, List.find?_eq_none]

theorem PlanFilter.values_isEmpty (c : Identifier) (op : FilterOperator) (f : FilterSpec) :
    (PlanFilter.values ⟨c, op, f.value⟩).isEmpty = !f.hasValues := by
  rw [values, FilterSpec.hasValues]
  cases f.value <;> simp

/-- A condition that is kept is valid, and is kept as specified. -/
theorem parts_of_resolveFilter {g : PlanFilter} (h : resolveFilter (some columns) f = .ok g) :
    f.isValid columns = true ∧ g.parts = f.parts := by
  obtain ⟨hsign, hcolumn, hvalue, hvalid, hvalues⟩ := resolveFilter_eq_ok h
  refine ⟨?_, by rw [PlanFilter.parts, FilterSpec.parts, hsign, hcolumn, hvalue]⟩
  have hknown : allowedSigns.contains f.operator = true := by
    rw [← hsign]
    simpa using g.operator.sign_mem_allowedSigns
  rw [FilterSpec.isValid, hknown, hvalid, Bool.true_and, Bool.true_and]
  by_cases hin : f.operator = "IN"
  · have hop : g.operator = .isIn := by
      rw [hin] at hsign
      cases hg : g.operator <;> rw [hg] at hsign <;> first | rfl | exact absurd hsign (by decide)
    have hsome := hvalues hop
    have hempty := PlanFilter.values_isEmpty g.column g.operator f
    rw [← hvalue] at hempty
    have hne : g.values.isEmpty = false := by simpa using hsome
    rw [show (PlanFilter.values ⟨g.column, g.operator, g.value⟩) = g.values from rfl, hne] at hempty
    have hvalues : f.hasValues = true := by simpa using hempty.symm
    rw [hvalues, Bool.or_true]
  · simp [hin]

/-- A valid condition is kept. -/
theorem exists_resolveFilter (h : f.isValid columns = true) :
    ∃ g, resolveFilter (some columns) f = .ok g := by
  simp only [FilterSpec.isValid, Bool.and_eq_true] at h
  obtain ⟨⟨hknown, hcolumn⟩, hvalues⟩ := h
  have hnamed : (Identifier.ofText f.field).isNamed = true := by
    have := (ColumnSet.isColumn_iff.1 hcolumn).1
    simpa [Identifier.isNamed] using this
  cases hop : FilterOperator.ofSign? f.operator with
  | none => exact absurd (by simpa using hknown) (FilterOperator.ofSign?_eq_none_iff.1 hop)
  | some op =>
    have hsign : op.sign = f.operator := by simpa using List.find?_some hop
    have hsome : (op = .isIn && (PlanFilter.values ⟨.ofText f.field, op, f.value⟩).isEmpty) =
        false := by
      rw [PlanFilter.values_isEmpty]
      by_cases hin : op = .isIn
      · rw [hin] at hsign
        have hgiven : f.hasValues = true := by simpa [← hsign, FilterOperator.sign] using hvalues
        simp [hgiven]
      · simp [hin]
    refine ⟨⟨.ofText f.field, op, f.value⟩, ?_⟩
    simp only [resolveFilter, hop, hnamed, Option.any_some, hcolumn, Bool.not_true, Bool.or_self,
      Bool.false_eq_true, if_false, hsome]

/-- The conditions that are kept are the valid ones, as specified and in their order. -/
theorem map_resolveFilters (columns : ColumnSet) (fs : List FilterSpec) :
    (resolveFilters (some columns) fs).1.map PlanFilter.parts =
      (fs.filter (·.isValid columns)).map FilterSpec.parts := by
  induction fs with
  | nil => rfl
  | cons f fs ih =>
    rw [resolveFilters] at ih ⊢
    by_cases hvalid : f.isValid columns = true
    · obtain ⟨g, hg⟩ := exists_resolveFilter hvalid
      rw [List.filter_cons_of_pos hvalid, List.map_cons, ← ih, ← (parts_of_resolveFilter hg).2]
      simp [hg, Except.toOption]
    · rw [List.filter_cons_of_neg hvalid, ← ih]
      cases hg : resolveFilter (some columns) f with
      | ok g => exact absurd (parts_of_resolveFilter hg).1 hvalid
      | error w => simp [hg, Except.toOption]

/-- Every condition that is not valid has a warning. -/
theorem length_resolveFilters (columns : ColumnSet) (fs : List FilterSpec) :
    (resolveFilters (some columns) fs).2.length = fs.countP (!·.isValid columns) := by
  rw [resolveFilters, List.length_filterMap_eq_countP]
  refine List.countP_congr fun f _ => ?_
  by_cases hvalid : f.isValid columns = true
  · obtain ⟨g, hg⟩ := exists_resolveFilter hvalid
    simp [hg, hvalid]
  · cases hg : resolveFilter (some columns) f with
    | ok g => exact absurd (parts_of_resolveFilter hg).1 hvalid
    | error w => simp [hvalid]

end Conditions

/-! ## Other parts -/

/-- The names of the resolutions. -/
def resolutionNames : List String := ["year", "month", "day"]

/-- The number of parts of a specification that a plan drops besides conditions and names to group
by: names of the vertical axis that are no columns, a horizontal axis that is repeated there, a
resolution of that axis that is not known, a label that is no column, and an order that is not
used. -/
def ChartSpec.otherDrops (spec : ChartSpec) (columns : ColumnSet) (p : ChartPlan) : Nat :=
  (spec.yAxis.any (!columns.isColumn ·)).toNat +
  (p.xAxis.any fun x => spec.yAxis.any (Identifier.ofText · == x)).toNat +
  (p.xAxis.isSome && (given? spec.resolution).any fun s =>
    !resolutionNames.contains (Text.asciiLower (Text.trim s))).toNat +
  ((given? spec.drillDownLabel).any (!columns.isColumn ·)).toNat +
  ((given? spec.orderBy).isSome && p.orderBy.isNone).toNat

section Others

variable {spec : ChartSpec} {columns : ColumnSet} {x : Option Identifier}

/-- The columns of the vertical axis are the first occurrences of the names that are columns other
than that of the horizontal axis. -/
theorem yAxisBeside_eq : yAxisBeside spec columns x =
    ((spec.yAxis.filter fun s => columns.isColumn s && x != some (.ofText s)).map
      Identifier.ofText).eraseDups := by
  rw [yAxisBeside, validIdentifiers, filter_eraseDups, List.filter_map, List.filter_filter]
  simp only [Function.comp_apply, Bool.and_comm]

/-- The horizontal axis is repeated where a name of the vertical one stands for the same column. -/
theorem contains_validIdentifiers {i : Identifier} (hi : columns.isColumn i.name = true)
    (names : List String) :
    (validIdentifiers columns names).contains i = names.any (Identifier.ofText · == i) := by
  rw [Bool.eq_iff_iff, List.contains_iff_mem, mem_validIdentifiers, List.any_eq_true]
  refine exists_congr fun s => and_congr_right fun _ => ?_
  rw [beq_iff_eq, and_iff_right_iff_imp]
  rintro rfl
  simpa [ColumnSet.isColumn] using hi

theorem length_yAxisWarnings (hx : resolveXAxis columns spec.xAxis = .ok x) :
    (yAxisWarnings spec columns x).length = (spec.yAxis.any (!columns.isColumn ·)).toNat +
      (x.any fun i => spec.yAxis.any (Identifier.ofText · == i)).toNat := by
  have hrejected : (rejectedYAxis spec columns).isEmpty = !spec.yAxis.any (!columns.isColumn ·) := by
    rw [rejectedYAxis, Bool.eq_iff_iff]
    simp [List.filter_eq_nil_iff]
  rw [yAxisWarnings, List.length_append, List.length_map, Nat.add_comm, hrejected]
  congr 1
  · cases spec.yAxis.any (!columns.isColumn ·) <;> rfl
  · cases x with
    | none => rfl
    | some i =>
      rw [Option.any_some, ← contains_validIdentifiers (resolveXAxis_isColumn hx i rfl),
        Option.toList_some, List.filter_singleton]
      cases (validIdentifiers columns spec.yAxis).contains i <;> rfl

theorem Resolution.isSome_ofText? (s : String) :
    (Resolution.ofText? s).isSome = resolutionNames.contains (Text.asciiLower (Text.trim s)) := by
  have hnames : resolutionNames = [year, month, day].map name := rfl
  rw [ofText?, Bool.eq_iff_iff, List.find?_isSome, List.contains_iff_mem, hnames, List.mem_map]
  simp only [beq_iff_eq]

theorem length_resolveResolution (name : Option String) :
    (resolveResolution x name).2.length = (x.isSome && (given? name).any fun s =>
      !resolutionNames.contains (Text.asciiLower (Text.trim s))).toNat := by
  unfold resolveResolution
  cases given? name with
  | none => simp
  | some s =>
    rw [Option.any_some, ← Resolution.isSome_ofText?]
    cases x with
    | none => rfl
    | some i => cases hs : Resolution.ofText? s <;> simp [hs]

theorem length_resolveDrillDown (shown : List Identifier) (name : Option String) :
    (resolveDrillDown columns shown name).2.length =
      ((given? name).any (!columns.isColumn ·)).toNat := by
  unfold resolveDrillDown
  cases given? name with
  | none => rfl
  | some s =>
    cases hs : columns.isColumn s with
    | false => simp [hs]
    | true =>
      cases hshown : shown.contains (Identifier.ofText s) <;>
        simp only [hs, hshown, Option.any_some] <;> rfl

theorem length_resolveOrder (shown : List Identifier) (name : Option String) :
    (resolveOrder columns shown name).2.length =
      ((given? name).isSome && (resolveOrder columns shown name).1.isNone).toNat := by
  unfold resolveOrder
  cases given? name with
  | none => rfl
  | some s =>
    cases hs : columns.isColumn s with
    | false => simp [hs]
    | true => cases hshown : shown.contains (Identifier.ofText s) <;> simp only [hs, hshown] <;> rfl

end Others

/-! ## Plans -/

/-- The columns of sales. -/
def saleColumns : ColumnSet := .ofNames ["Region", "Channel", "Product", "Amount"] ["Amount"]

/-- The specification that repeats its columns has a plan for sales. -/
theorem resolvePlan_repeatingSpec :
    resolvePlan .standard repeatingSpec saleColumns (some 100) =
      .ok (planBeside .standard repeatingSpec saleColumns (some 100) (some (.ofText "Region"))) := by
  have hx : resolveXAxis saleColumns repeatingSpec.xAxis = .ok (some (.ofText "Region")) := by
    refine resolveXAxis_eq_ok_iff.2 ⟨?_, by decide +kernel⟩
    rintro _ ⟨⟩
    decide +kernel
  have hy : yAxisBeside repeatingSpec saleColumns (some (.ofText "Region")) ≠ [] := by
    decide +kernel
  exact resolvePlan_eq_ok_iff.2 ⟨_, hx, hy, rfl⟩

/-- **A plan keeps what is valid, and warns of everything else.** Its conditions are the valid ones,
as specified and in their order; the columns to group by are the first occurrences of the names that
are columns on neither axis, and those of the vertical axis the first occurrences of the names that
are columns other than that of the horizontal one. There is a warning for every other condition and
for every other name to group by, and one for each further part that is dropped. -/
theorem resolvePlan_accountsForParts (limits : RowLimits) (spec : ChartSpec) (columns : ColumnSet)
    (maxRows : Option Int) (p : ChartPlan)
    (h : resolvePlan limits spec columns maxRows = .ok p) :
    p.filters.map PlanFilter.parts =
      (spec.filters.filter (·.isValid columns)).map FilterSpec.parts ∧
    p.groupBy = ((spec.groupBy.names.filter fun s => columns.isColumn s &&
      !(p.xAxis.toList ++ p.yAxis).contains (.ofText s)).map Identifier.ofText).eraseDups ∧
    p.yAxis = ((spec.yAxis.filter fun s => columns.isColumn s &&
      p.xAxis != some (.ofText s)).map Identifier.ofText).eraseDups ∧
    p.groupBy.length ≤ spec.groupBy.names.length ∧
    p.warnings.length = spec.filters.countP (!·.isValid columns) +
      (spec.groupBy.names.length - p.groupBy.length) + spec.otherDrops columns p := by
  obtain ⟨x, hx, -, rfl⟩ := resolvePlan_eq_ok_iff.1 h
  have hgroups := length_resolveGroups columns (x.toList ++ yAxisBeside spec columns x) []
    spec.groupBy.names
  simp only [List.length_nil, Nat.zero_add] at hgroups
  refine ⟨map_resolveFilters columns spec.filters, ?_, yAxisBeside_eq, ?_, ?_⟩
  · have heq := resolveGroups_eq columns (x.toList ++ yAxisBeside spec columns x) []
      spec.groupBy.names
    simp only [List.append_nil, List.nil_append] at heq
    exact heq
  · simp only [planBeside]
    omega
  · simp only [planBeside, ChartSpec.otherDrops, List.length_append, length_yAxisWarnings hx,
      length_resolveResolution, length_resolveFilters, length_resolveDrillDown, length_resolveOrder]
    omega

theorem resolvePlan_accountsForParts_repeatingSpec :
    ∃ p, resolvePlan .standard repeatingSpec saleColumns (some 100) = .ok p ∧
      p.filters.map PlanFilter.parts = [(.ofText "Channel", "IN", .list [.text "Online"])] ∧
      p.groupBy = [.ofText "Channel"] ∧ p.yAxis = [.ofText "Amount"] ∧
      p.warnings.length = 1 + 3 + 2 := by
  obtain ⟨hfilters, hgroups, hyAxis, -, hwarnings⟩ :=
    resolvePlan_accountsForParts _ _ _ _ _ resolvePlan_repeatingSpec
  have hvalid : repeatingSpec.filters.filter (·.isValid saleColumns) =
      [⟨"Channel", "IN", .list [.text "Online"]⟩] := by
    have hkept : FilterSpec.isValid saleColumns ⟨"Channel", "IN", .list [.text "Online"]⟩ = true := by
      decide +kernel
    have hdropped : FilterSpec.isValid saleColumns ⟨"Channel", "IN", .list []⟩ = false := by
      decide +kernel
    simp [repeatingSpec, hkept, hdropped]
  refine ⟨_, resolvePlan_repeatingSpec, ?_, ?_, ?_, ?_⟩
  · rw [hfilters, hvalid]
    rfl
  · rw [hgroups]
    decide +kernel
  · rw [hyAxis]
    decide +kernel
  · rw [hwarnings]
    decide +kernel

end ChartQuery
