import ChartQuery.Proofs.Plan.WellFormed
import ChartQuery.Proofs.Sql.QueryText
import ChartQuery.Sql.Prepare

/-!
# The shape of a query

What the text of a compiled query says outside of its quoted names depends on the shape of the plan
alone: how many columns of which part there are, which functions and comparisons are used, and by
which positions the result is ordered. Neither names nor filter values reach it.

## Main definitions

* `QueryShape`, `Compiled.shape`: the shape of a query
* `QueryShape.query`: the query of a shape, without names
* `SameButValues`: specifications that differ in filter values only

## Main results

* `planOrder_eq`: the order of a plan speaks of the positions of its keys
* `erase_ofPlan`: the query of a plan without names is that of its shape
* `compile_text_isHarmless`: no specification reaches the text of its query except by quoted names
-/

namespace ChartQuery.Sql

/-! ## The order of a plan -/

section Order

variable {p : ChartPlan}

theorem positionOf_inj {c d : Identifier} (hc : c ∈ p.outputColumns) :
    positionOf p c = positionOf p d ↔ c = d := by
  refine ⟨fun h => ?_, fun h => h ▸ rfl⟩
  have hidx : p.outputColumns.idxOf c = p.outputColumns.idxOf d := by
    simpa [positionOf] using h
  exact (List.idxOf_inj hc).1 hidx

/-- The keys of a plan stand at the first positions of its result. -/
theorem positionOf_groupingKeys (h : p.outputColumns.Nodup) :
    p.groupingKeys.map (positionOf p) = (List.range p.groupingKeys.length).map (· + 1) := by
  refine List.ext_getElem (by simp) fun n h₁ h₂ => ?_
  have hn : n < p.groupingKeys.length := by simpa using h₁
  have hout : p.outputColumns = p.groupingKeys ++ (p.drillDownLabel.toList ++ p.yAxis) := by
    rw [ChartPlan.outputColumns, List.append_assoc]
  have hlt : n < p.outputColumns.length := by
    rw [hout, List.length_append]
    omega
  have hget : p.groupingKeys[n] = p.outputColumns[n] := by
    simp only [hout, List.getElem_append_left hn]
  simp [positionOf, hget, h.idxOf_getElem]

/-- The positions by which so many keys are ordered behind a position that comes first. -/
def keyOrder (keys : Nat) (first : Option (Nat × Bool)) : List OrderItem :=
  (first.map fun o => ⟨o.1, o.2⟩).toList ++
    (((List.range keys).map (· + 1)).filter fun k => first.map (·.1) != some k).map (⟨·, false⟩)

/-- The position by which a plan orders first, and its direction. -/
def firstPosition (p : ChartPlan) : Option (Nat × Bool) :=
  p.orderBy.map fun c => (positionOf p c, p.descending)

/-- The order of a plan speaks of the positions of its keys. -/
theorem planOrder_eq (h : p.outputColumns.Nodup)
    (horder : ∀ c, p.orderBy = some c → c ∈ p.outputColumns) :
    planOrder p = keyOrder p.groupingKeys.length (firstPosition p) := by
  have hkeys : ∀ k, (p.orderBy != some k) =
      ((firstPosition p).map (·.1) != some (positionOf p k)) := by
    intro k
    rw [Bool.eq_iff_iff, bne_iff_ne, bne_iff_ne, not_iff_not]
    cases ho : p.orderBy with
    | none => simp [firstPosition, ho]
    | some c => simpa [firstPosition, ho] using (positionOf_inj (horder c ho)).symm
  rw [planOrder, ChartPlan.trailingKeys_eq (ChartPlan.nodup_groupingKeys h), keyOrder,
    ← positionOf_groupingKeys h, List.filter_map, List.map_map]
  congr 1
  · cases ho : p.orderBy <;> simp [firstPosition, ho]
  · rw [List.filter_congr fun k _ => hkeys k]
    rfl

end Order

/-! ## Shapes -/

/-- What is left of the query of a plan when names and filter values are taken away. -/
structure QueryShape where
  aggregation : Aggregation
  /-- For each column of the vertical axis, whether its sum is compensated. -/
  compensated : List Bool
  hasXAxis : Bool
  resolution : Option Resolution
  groups : Nat
  hasLabel : Bool
  /-- The comparison of each filter, and of a membership the number of its candidates. -/
  filters : List (FilterOperator × Nat)
  /-- The position by which the result is ordered first, and whether that order descends. -/
  order : Option (Nat × Bool)
  limit : Int
  hasSchema : Bool
  deriving DecidableEq

/-- The comparison of a filter, and of a membership the number of its candidates. -/
def filterShape (f : PlanFilter) : FilterOperator × Nat :=
  (f.operator, if f.operator = .isIn then f.values.length else 0)

/-- The shape of the query of a plan. -/
def planShape (p : ChartPlan) (hasSchema : Bool) : QueryShape where
  aggregation := p.aggregation
  compensated := p.yAxis.map fun y => aggregateFn p y == .compensated
  hasXAxis := p.xAxis.isSome
  resolution := p.resolution
  groups := p.groupBy.length
  hasLabel := p.drillDownLabel.isSome
  filters := p.filters.map filterShape
  order := firstPosition p
  limit := p.limit
  hasSchema := hasSchema

/-- The shape of a compiled query. -/
def Compiled.shape (c : Compiled) : QueryShape := planShape c.plan c.query.schema.isNamed

namespace QueryShape

variable (s : QueryShape)

/-- The expressions by which a query of the shape groups. -/
def groupExprs : List Expr :=
  (if s.hasXAxis then [axisExpr nameless s.resolution] else []) ++
    List.replicate s.groups (.column nameless)

/-- The selected expressions of a query of the shape. -/
def items : List Item :=
  (if s.hasXAxis then [⟨axisExpr nameless s.resolution, some nameless⟩] else []) ++
    List.replicate s.groups ⟨.column nameless, none⟩ ++
    (if s.hasLabel then [⟨.aggregate (.plain .max) nameless, some nameless⟩] else []) ++
    s.compensated.map fun b =>
      ⟨.aggregate (if b then .compensated else .plain s.aggregation) nameless, some nameless⟩

/-- The condition of a filter of a shape. -/
def condition (index : Nat) : FilterOperator × Nat → Condition
  | (.isIn, n) => .member nameless ((List.range n).map (memberName index))
  | (op, _) => .compare nameless op (parameterName index)

/-- The query of a shape, without names. -/
def query : Query where
  items := s.items
  schema := if s.hasSchema then .ofText "main" else nameless
  table := nameless
  conditions := (if s.hasXAxis then [.notNull nameless] else []) ++ s.filters.mapIdx condition
  groupBy := s.groupExprs
  orderBy := keyOrder ((if s.hasXAxis then 1 else 0) + s.groups) s.order
  limit := s.limit

end QueryShape

theorem erase_axisExpr (x : Identifier) (r : Option Resolution) :
    (axisExpr x r).erase = axisExpr nameless r := by
  rcases r with _ | ⟨_ | _ | _⟩ <;> rfl

theorem erase_filterCondition (f : PlanFilter) (index : Nat) :
    (filterCondition f index).erase = QueryShape.condition index (filterShape f) := by
  obtain ⟨c, op, v⟩ := f
  cases op <;> rfl

theorem erase_aggregateFn (p : ChartPlan) (y : Identifier) :
    (if aggregateFn p y == .compensated then AggregateFn.compensated else .plain p.aggregation) =
      aggregateFn p y := by
  unfold aggregateFn
  split <;> simp

theorem erase_groupExprs (p : ChartPlan) (hasSchema : Bool) :
    (groupExprs p).map Expr.erase = (planShape p hasSchema).groupExprs := by
  have hcolumns : (p.groupBy.map Expr.column).map Expr.erase =
      List.replicate p.groupBy.length (.column nameless) := by
    rw [List.map_map]
    exact List.map_const'
  rw [groupExprs, List.map_append, hcolumns, QueryShape.groupExprs]
  cases hx : p.xAxis <;> simp [planShape, hx, erase_axisExpr]

theorem erase_planItems (p : ChartPlan) (hasSchema : Bool) :
    (planItems p).map Item.erase = (planShape p hasSchema).items := by
  have hcolumns : (p.groupBy.map fun g => Item.mk (.column g) none).map Item.erase =
      List.replicate p.groupBy.length ⟨.column nameless, none⟩ := by
    rw [List.map_map, ← List.map_const']
    rfl
  have hy : (p.yAxis.map fun y => Item.mk (.aggregate (aggregateFn p y) y) (some y)).map
      Item.erase = (planShape p hasSchema).compensated.map fun b => ⟨.aggregate
        (if b then .compensated else .plain p.aggregation) nameless, some nameless⟩ := by
    simp only [planShape, List.map_map]
    refine List.map_congr_left fun y _ => ?_
    simp only [Function.comp_apply, erase_aggregateFn]
    rfl
  have hx (x : Identifier) : Item.erase ⟨axisExpr x p.resolution, some x⟩ =
      ⟨axisExpr nameless p.resolution, some nameless⟩ := by
    rw [Item.erase, erase_axisExpr]
    rfl
  have hlabel (d : Identifier) : Item.erase ⟨.aggregate (.plain .max) d, some d⟩ =
      ⟨.aggregate (.plain .max) nameless, some nameless⟩ := rfl
  rw [planItems, List.map_append, List.map_append, List.map_append, hcolumns, hy, QueryShape.items]
  cases hax : p.xAxis <;> cases hd : p.drillDownLabel <;> simp [planShape, hax, hd, hx, hlabel]

theorem erase_conditions (p : ChartPlan) (t : TableRef) (hasSchema : Bool) :
    (Query.ofPlan p t).conditions.map Condition.erase =
      (if p.xAxis.isSome then [.notNull nameless] else []) ++
        (planShape p hasSchema).filters.mapIdx QueryShape.condition := by
  have hfilters : (filterConditions p.filters).map Condition.erase =
      (planShape p hasSchema).filters.mapIdx QueryShape.condition := by
    refine List.ext_getElem (by simp [filterConditions, planShape]) fun n h₁ h₂ => ?_
    simp [filterConditions, planShape, erase_filterCondition]
  rw [Query.ofPlan, List.map_append, hfilters]
  cases hx : p.xAxis <;> rfl

/-- The query of a plan without names is that of its shape. -/
theorem erase_ofPlan {p : ChartPlan} (t : TableRef) (h : p.outputColumns.Nodup)
    (horder : ∀ c, p.orderBy = some c → c ∈ p.outputColumns) :
    (Query.ofPlan p t).erase = (planShape p (Identifier.ofText t.schema).isNamed).query := by
  have hkeys : p.groupingKeys.length = (if p.xAxis.isSome then 1 else 0) + p.groupBy.length := by
    cases hx : p.xAxis <;> simp [ChartPlan.groupingKeys, hx, Nat.add_comm]
  have hsort : planOrder p =
      keyOrder ((if p.xAxis.isSome then 1 else 0) + p.groupBy.length) (firstPosition p) := by
    rw [planOrder_eq h horder, hkeys]
  rw [Query.erase, QueryShape.query, ← erase_groupExprs, ← erase_planItems]
  simp only [erase_conditions p t (Identifier.ofText t.schema).isNamed]
  simp only [Query.ofPlan, hsort]
  rfl

/-! ## The parameters of a plan -/

theorem parameterName_plain (i : Nat) : (parameterName i).toList.all isPlainChar = true := by
  rw [parameterName, String.toList_append, List.all_append, IsHarmless.digits_plain]
  rfl

theorem memberName_plain (i j : Nat) : (memberName i j).toList.all isPlainChar = true := by
  rw [memberName, String.toList_append, String.toList_append, List.all_append, List.all_append,
    parameterName_plain, IsHarmless.digits_plain]
  rfl

theorem hasPlainParameters_filterCondition (f : PlanFilter) (i : Nat) :
    HasPlainParameters (filterCondition f i) := by
  obtain ⟨c, op, v⟩ := f
  cases op
  case isIn =>
    intro p hp
    obtain ⟨j, -, rfl⟩ := List.mem_map.1 hp
    exact memberName_plain i j
  all_goals exact parameterName_plain i

theorem hasPlainParameters_ofPlan (p : ChartPlan) (t : TableRef) :
    ∀ c ∈ (Query.ofPlan p t).conditions, HasPlainParameters c := by
  intro c hc
  rcases List.mem_append.1 hc with hc | hc
  · obtain ⟨x, -, rfl⟩ := Option.map_eq_some_iff.1 (Option.mem_toList.1 hc)
    trivial
  · obtain ⟨i, f, -, rfl⟩ := List.mem_mapIdx.1 hc
    exact hasPlainParameters_filterCondition _ i

/-! ## Filter values -/

/-- The number of candidates in the value of a membership. -/
def candidateCount : Value → Nat
  | .list items => items.length
  | _ => 1

/-- The conditions differ in their values only, and a membership has as many candidates in each. -/
structure SameButValue (f g : FilterSpec) : Prop where
  field : f.field = g.field
  operator : f.operator = g.operator
  count : f.operator = FilterOperator.isIn.sign → candidateCount f.value = candidateCount g.value

/-- The specifications differ in the values of their filters only. -/
structure SameButValues (spec spec' : ChartSpec) : Prop where
  rest : spec' = { spec with filters := spec'.filters }
  filters : List.Forall₂ SameButValue spec.filters spec'.filters

/-- What a query says of a filter. -/
def filterKey (f : PlanFilter) : Identifier × FilterOperator × Nat := (f.column, filterShape f)

theorem PlanFilter.length_values (f : PlanFilter) : f.values.length = candidateCount f.value := by
  obtain ⟨c, op, v⟩ := f
  cases v <;> rfl

theorem resolveFilter_filterKey {columns : ColumnSet} {f g : FilterSpec} (h : SameButValue f g) :
    (resolveFilter (some columns) f).toOption.map filterKey =
      (resolveFilter (some columns) g).toOption.map filterKey := by
  obtain ⟨field, operator, v⟩ := f
  obtain ⟨_, _, w⟩ := g
  obtain ⟨rfl, rfl, hcount⟩ := h
  unfold resolveFilter
  cases hop : FilterOperator.ofSign? operator with
  | none => rfl
  | some op =>
    -- Only a membership without candidates is dropped for its value.
    have hsign : op.sign = operator := by simpa using List.find?_some hop
    have hlen (hin : op = .isIn) : (PlanFilter.mk (.ofText field) op v).values.length =
        (PlanFilter.mk (.ofText field) op w).values.length := by
      rw [PlanFilter.length_values, PlanFilter.length_values]
      exact hcount (by rw [← hsign, hin])
    dsimp only
    split
    · rfl
    · by_cases hin : op = .isIn
      · subst hin
        have hempty : (PlanFilter.mk (.ofText field) .isIn v).values.isEmpty =
            (PlanFilter.mk (.ofText field) .isIn w).values.isEmpty := by
          rw [Bool.eq_iff_iff, List.isEmpty_iff_length_eq_zero, List.isEmpty_iff_length_eq_zero,
            hlen rfl]
        simp only [hempty]
        split
        · rfl
        · simpa [Except.toOption, filterKey, filterShape] using hlen rfl
      · simp [hin, Except.toOption, filterKey, filterShape]

theorem resolveFilters_filterKey {columns : ColumnSet} {fs gs : List FilterSpec}
    (h : List.Forall₂ SameButValue fs gs) :
    (resolveFilters (some columns) fs).1.map filterKey =
      (resolveFilters (some columns) gs).1.map filterKey := by
  simp only [resolveFilters, List.map_filterMap]
  induction h with
  | nil => rfl
  | cons hfg _ ih =>
    rw [List.filterMap_cons, List.filterMap_cons, resolveFilter_filterKey hfg, ih]

/-- The names of the parameters of a condition. -/
def Condition.parameters : Condition → List String
  | notNull _ => []
  | compare _ _ p => [p]
  | member _ ps => ps

theorem map_fst_filterParameters (f : PlanFilter) (i : Nat) :
    (filterParameters f i).map Prod.fst = (filterCondition f i).parameters := by
  obtain ⟨c, op, v⟩ := f
  cases op
  case isIn => exact List.map_fst_zip (by simp)
  all_goals rfl

/-- Values are bound to the parameters of the conditions, in order. -/
theorem map_fst_filtersParameters (fs : List PlanFilter) :
    (filtersParameters fs).map Prod.fst = (filterConditions fs).flatMap Condition.parameters := by
  simp only [filtersParameters, filterConditions, List.map_flatten, List.flatMap_def]
  congr 1
  refine List.ext_getElem (by simp) fun n h₁ h₂ => ?_
  simp [map_fst_filterParameters]

theorem filterCondition_congr {f g : PlanFilter} (h : filterKey f = filterKey g) (i : Nat) :
    filterCondition f i = filterCondition g i := by
  obtain ⟨c, op, v⟩ := f
  obtain ⟨_, _, w⟩ := g
  obtain ⟨rfl, h⟩ := Prod.mk.inj h
  obtain ⟨rfl, h⟩ := Prod.mk.inj h
  cases op
  case isIn => simpa [filterCondition] using congrArg (fun n => (List.range n).map (memberName i)) h
  all_goals rfl

/-- The conditions of filters depend on the keys of these alone. -/
theorem filterConditions_congr {fs gs : List PlanFilter}
    (h : fs.map filterKey = gs.map filterKey) : filterConditions fs = filterConditions gs := by
  have hlen : fs.length = gs.length := by simpa using congrArg List.length h
  refine List.ext_getElem (by simp [filterConditions, hlen]) fun n h₁ h₂ => ?_
  have hn : n < fs.length := by simpa [filterConditions] using h₁
  have hkey : filterKey fs[n] = filterKey gs[n] := by
    have hget := congrArg (fun l => l[n]?) h
    simpa [hn, hlen ▸ hn] using hget
  simp only [filterConditions, List.getElem_mapIdx]
  exact filterCondition_congr hkey n

/-! ## Compiled queries -/

section Compiled

variable {limits : RowLimits} {spec spec' : ChartSpec} {columns : ColumnSet}
  {table : Option TableRef} {maxRows : Option Int} {c : Compiled}

/-- A query is compiled from the plan of a specification. -/
theorem compile_eq_ok_iff :
    compile limits spec columns table maxRows = .ok c ↔
      resolvePlan limits spec columns maxRows = .ok c.plan ∧
        c.query = .ofPlan c.plan (table.getD ⟨"", spec.table.getD ""⟩) := by
  obtain ⟨plan, query⟩ := c
  unfold compile
  cases resolvePlan limits spec columns maxRows with
  | error e => simp [bind, Except.bind]
  | ok p =>
    simp only [bind, Except.bind, Except.ok.injEq, Compiled.mk.injEq]
    constructor
    · rintro ⟨rfl, rfl⟩
      exact ⟨rfl, rfl⟩
    · rintro ⟨rfl, h⟩
      exact ⟨rfl, h.symm⟩

/-- A compiled query without names is that of its shape. -/
theorem erase_of_compile (h : compile limits spec columns table maxRows = .ok c) :
    c.query.erase = c.shape.query := by
  obtain ⟨hplan, hquery⟩ := compile_eq_ok_iff.1 h
  obtain ⟨x, -, -, hp⟩ := resolvePlan_eq_ok_iff.1 hplan
  rw [Compiled.shape, hquery]
  refine erase_ofPlan _ ?_ fun d hd => ?_
  · rw [hp]
    exact planBeside_nodup
  · rw [hp] at hd ⊢
    exact resolveOrder_eq_some hd

theorem hasPlainParameters_of_compile (h : compile limits spec columns table maxRows = .ok c) :
    ∀ d ∈ c.query.conditions, HasPlainParameters d := by
  rw [(compile_eq_ok_iff.1 h).2]
  exact hasPlainParameters_ofPlan _ _

/-- Outside of its quotes the text of a query is that of its shape. -/
theorem outsideQuotes_of_compile (h : compile limits spec columns table maxRows = .ok c) :
    outsideQuotes c.query.text.toList = outsideQuotes c.shape.query.text.toList := by
  rw [← erase_of_compile h]
  exact (Query.text_sameOutside (hasPlainParameters_of_compile h)).eq

/-- Specifications that differ in filter values only compile to the same query, with the same
parameters. -/
theorem compile_sameButValues (h : compile limits spec columns table maxRows = .ok c)
    (hs : SameButValues spec spec') :
    ∃ c', compile limits spec' columns table maxRows = .ok c' ∧ c'.query = c.query ∧
      (planParameters c'.plan).map Prod.fst = (planParameters c.plan).map Prod.fst := by
  obtain ⟨hplan, hquery⟩ := compile_eq_ok_iff.1 h
  obtain ⟨x, hx, hy, hp⟩ := resolvePlan_eq_ok_iff.1 hplan
  obtain ⟨hrest, hfilters⟩ := hs
  generalize spec'.filters = fs at hrest hfilters
  subst hrest
  -- The same filters are dropped, and the ones that are left make the same conditions.
  have hconditions : filterConditions (resolveFilters (some columns) fs).1 =
      filterConditions (resolveFilters (some columns) spec.filters).1 :=
    filterConditions_congr (resolveFilters_filterKey hfilters).symm
  have hplan' : resolvePlan limits { spec with filters := fs } columns maxRows =
      .ok (planBeside limits { spec with filters := fs } columns maxRows x) :=
    resolvePlan_eq_ok_iff.2 ⟨x, hx, hy, rfl⟩
  have hcompile' : compile limits { spec with filters := fs } columns table maxRows =
      .ok ⟨_, .ofPlan _ (table.getD ⟨"", spec.table.getD ""⟩)⟩ :=
    compile_eq_ok_iff.2 ⟨hplan', rfl⟩
  refine ⟨_, hcompile', ?_, ?_⟩
  · rw [hquery, hp]
    simp only [Query.ofPlan, planBeside, hconditions]
    rfl
  · rw [planParameters, planParameters, map_fst_filtersParameters, map_fst_filtersParameters, hp]
    simp only [planBeside, hconditions]

/-- **No specification reaches the text of its query except by quoted names.** In the text of every
compiled query double quotes stand around name characters only, nothing ends the statement or starts
a comment, and what stands outside of the quotes depends on the shape of the plan alone; values of
filters change neither the text nor the names of the parameters. -/
theorem compile_text_isHarmless (limits : RowLimits) (spec : ChartSpec) (columns : ColumnSet)
    (table : Option TableRef) (maxRows : Option Int) (c : Compiled)
    (h : compile limits spec columns table maxRows = .ok c) :
    QuotesOnlyNames c.prepared.text.toList ∧
    ';' ∉ c.prepared.text.toList ∧
    ¬ ['-', '-'] <:+: c.prepared.text.toList ∧ ¬ ['/', '*'] <:+: c.prepared.text.toList ∧
    (∀ limits' spec' columns' table' maxRows' c',
      compile limits' spec' columns' table' maxRows' = .ok c' → c'.shape = c.shape →
      outsideQuotes c'.prepared.text.toList = outsideQuotes c.prepared.text.toList) ∧
    (∀ spec', SameButValues spec spec' →
      ∃ c', compile limits spec' columns table maxRows = .ok c' ∧
        c'.prepared.text = c.prepared.text ∧
        c'.prepared.parameters.map Prod.fst = c.prepared.parameters.map Prod.fst) := by
  have hharmless : IsHarmless c.prepared.text.toList :=
    Query.text_isHarmless (hasPlainParameters_of_compile h)
  refine ⟨hharmless.quotes, hharmless.no_semicolon, hharmless.no_comment.1, hharmless.no_comment.2,
    fun _ _ _ _ _ c' h' hshape => ?_, fun spec' hs => ?_⟩
  -- Queries of one shape are the same without their names.
  · refine (outsideQuotes_of_compile h').trans ?_
    rw [hshape]
    exact (outsideQuotes_of_compile h).symm
  · obtain ⟨c', hc', hquery, hnames⟩ := compile_sameButValues h hs
    exact ⟨c', hc', congrArg Query.text hquery, hnames⟩

end Compiled

/-- A specification whose names and values are written to leave their quotes. -/
def hostileSpec : ChartSpec where
  table := some "sales\"; DROP TABLE sales; --"
  xAxis := some "region\" FROM sales; --"
  yAxis := ["amount\") /* ", "region"]
  aggregation := "SUM\"); --"
  groupBy := .one "chan'nel"
  orderBy := some "amo;unt"
  orderDirection := "desc; DROP TABLE sales"
  limit := some (-1)
  filters := [⟨"chan\"nel", "=", .text "\" OR 1=1 --"⟩, ⟨"region", "IN", .list [.text "';--"]⟩]
  resolution := some "month\"; --"
  drillDownLabel := none
  mode := .simple
  customQuery := none
  importedData := none
  connectionId := none
  dateColumn := none
  startDateColumn := none
  endDateColumn := none

/-- The hostile specification with plain values in its filters. -/
def hostileSpecPlainly : ChartSpec :=
  { hostileSpec with
    filters := [⟨"chan\"nel", "=", .int 1⟩, ⟨"region", "IN", .list [.text "north"]⟩] }

theorem compile_text_isHarmless_hostileSpec :
    let columns := ColumnSet.ofNames ["regionFROMsales", "channel", "region", "amount"] ["amount"]
    ∃ c, compile .standard hostileSpec columns none none = .ok c ∧
      QuotesOnlyNames c.prepared.text.toList ∧ ';' ∉ c.prepared.text.toList ∧
      ∃ c', compile .standard hostileSpecPlainly columns none none = .ok c' ∧
        c'.prepared.text = c.prepared.text := by
  intro columns
  have hx : resolveXAxis columns hostileSpec.xAxis = .ok (some (.ofText "regionFROMsales")) := by
    rfl
  have hy : yAxisBeside hostileSpec columns (some (.ofText "regionFROMsales")) ≠ [] := by
    decide +kernel
  have hc : compile .standard hostileSpec columns none none = .ok ⟨_, .ofPlan _ _⟩ :=
    compile_eq_ok_iff.2 ⟨resolvePlan_eq_ok_iff.2 ⟨_, hx, hy, rfl⟩, rfl⟩
  have hs : SameButValues hostileSpec hostileSpecPlainly :=
    ⟨rfl, .cons ⟨rfl, rfl, fun _ => rfl⟩ (.cons ⟨rfl, rfl, fun _ => rfl⟩ .nil)⟩
  have h := compile_text_isHarmless .standard hostileSpec columns none none _ hc
  obtain ⟨c', hc', htext, -⟩ := h.2.2.2.2.2 _ hs
  exact ⟨_, hc, h.1, h.2.1, c', hc', htext⟩

end ChartQuery.Sql
