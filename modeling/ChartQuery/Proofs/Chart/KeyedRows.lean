import ChartQuery.Proofs.Chart.Answers
import ChartQuery.Proofs.Chart.Counting
import ChartQuery.Proofs.Chart.Failures

/-!
# The rows of groups of records

The records that a plan keeps fall into groups by their keys; without columns to group by, all of
them are one group. Where every group has an aggregate in every column that is aggregated, each
group gives one row, its key, its label and its aggregates, and the records are reduced to these
rows. If the aggregates of a column are in a lawful order, as its keys are, the rows can be sorted.

## Main definitions

* `ChartPlan.recordGroups`: the groups of records
* `ChartPlan.groupValue`, `ChartPlan.keyedRow`: the aggregate, and the row, of a group of records
* `ChartPlan.FoldsGroups`: every group of records has its aggregates

## Main results

* `ChartPlan.FoldsGroups.reduce_eq`: records are reduced to the rows of their groups
* `ChartPlan.FoldsGroups.fitKeys`: rows of groups can be sorted
-/

namespace ChartQuery

/-- Where a group has an aggregate, so has a whole column of the same values, and it is the same,
unless it is a mean. -/
theorem Aggregation.ofWhole_of_ofGroup {a : Aggregation} (ha : a ≠ .avg) {k : ColumnKind}
    {vs : List Value} {v : Value} (h : a.ofGroup k vs = .ok v) : a.ofWhole k vs = .ok v := by
  cases a
  case avg => exact absurd rfl ha
  case sum => exact h
  case count => exact h
  all_goals exact mapError_eq_ok_iff.2 (mapError_eq_ok_iff.1 h)

namespace ChartPlan

variable (p : ChartPlan) (kept : List Record)

/-- The plan aggregates a column: its label is the greatest one of a group, and of the vertical axis
it takes the aggregate that was asked for. -/
def TakesAggregate (c : Identifier) (a : Aggregation) : Prop :=
  (p.drillDownLabel = some c ∧ a = .max) ∨ (c ∈ p.yAxis ∧ a = p.aggregation)

/-- The groups of records under their keys; without columns to group by, all records are one. -/
def recordGroups : List (List Value × List Record) :=
  if p.groupingKeys.isEmpty then [([], kept)] else groupRows Value.eqvList p.shownKeyOf kept

/-- The aggregate of a group of records in a column; null if there is none. -/
def groupValue (a : Aggregation) (c : Identifier) (rs : List Record) : Value :=
  (a.ofGroup (p.heldKind kept c) (rs.map (p.held kept c))).toOption.getD .null

/-- The columns of the result: the key of a group, its label and its aggregates. -/
def keyedColumns : List (String × (List Value × List Record → Value)) :=
  (p.groupingKeys.mapIdx fun n c => (c.name, fun g => g.1.getD n .null)) ++
    p.drillDownLabel.toList.map (fun c => (c.name, fun g => p.groupValue kept .max c g.2)) ++
    p.yAxis.map fun c => (c.name, fun g => p.groupValue kept p.aggregation c g.2)

/-- The row of the result that a group of records gives, under its key. -/
def keyedRow (g : List Value × List Record) : Record :=
  (p.keyedColumns kept).map fun c => (c.1, c.2 g)

/-- Every group of records has an aggregate in a column: null, or a value in a lawful order with
those of the other groups. From a mixture come no whole numbers, unless it is counted. -/
def FoldsBy (c : Identifier) (a : Aggregation) : Prop :=
  ∃ P, IsRanked P ∧ ∀ rs ⊆ kept,
    a.ofGroup (p.heldKind kept c) (rs.map (p.held kept c)) = .ok (p.groupValue kept a c rs) ∧
    (p.groupValue kept a c rs = .null ∨ P (p.groupValue kept a c rs)) ∧
    (p.heldKind kept c = .mixed → a ≠ .count → (p.groupValue kept a c rs).int? = none)

/-- Every group of records has its aggregates, and what is shown of the columns to group by is in a
lawful order too. No mean is taken, and a sum only of numbers. -/
structure FoldsGroups (p : ChartPlan) (kept : List Record) : Prop extends
    p.ShowsGroups kept where
  ranked : ∀ c ∈ p.groupingKeys, ∃ P, IsRanked P ∧
    ∀ r ∈ kept, p.shownOf c r = .null ∨ P (p.shownOf c r)
  folds : ∀ c a, p.TakesAggregate c a → p.FoldsBy kept c a
  notMean : p.aggregation ≠ .avg
  numbers : p.HasNumbers (p.heldFrame kept)

end ChartPlan

section Rows

variable {p : ChartPlan} {kept : List Record} {c : Identifier} {a : Aggregation}
  {g : List Value × List Record}

/-! ## Groups -/

theorem recordGroups_of_nil (hkeys : p.groupingKeys = []) :
    p.recordGroups kept = [([], kept)] := by
  rw [ChartPlan.recordGroups, hkeys]
  rfl

theorem recordGroups_of_ne_nil (hkeys : p.groupingKeys ≠ []) :
    p.recordGroups kept = groupRows Value.eqvList p.shownKeyOf kept := by
  have hempty : p.groupingKeys.isEmpty = false := by simpa using hkeys
  rw [ChartPlan.recordGroups, hempty]
  rfl

/-- A group consists of records. -/
theorem subset_of_mem_recordGroups (hg : g ∈ p.recordGroups kept) : g.2 ⊆ kept := by
  by_cases hkeys : p.groupingKeys = []
  · rw [recordGroups_of_nil hkeys, List.mem_singleton] at hg
    rw [hg]
    exact List.Subset.refl kept
  · rw [recordGroups_of_ne_nil hkeys] at hg
    exact groupRows_subset hg

/-- A group has as many values in its key as there are columns to group by, each of them shown of a
record. -/
theorem key_of_mem_recordGroups (hg : g ∈ p.recordGroups kept) :
    g.1.length = p.groupingKeys.length ∧
      ∀ n c, p.groupingKeys[n]? = some c → ∃ r ∈ kept, g.1.getD n .null = p.shownOf c r := by
  by_cases hkeys : p.groupingKeys = []
  · rw [recordGroups_of_nil hkeys, List.mem_singleton] at hg
    simp [hg, hkeys]
  · rw [recordGroups_of_ne_nil hkeys] at hg
    obtain ⟨r, hr, hkey⟩ := exists_mem_of_groupRows hg
    refine ⟨by rw [hkey, ChartPlan.shownKeyOf, List.length_map], fun n c hc => ⟨r, hr, ?_⟩⟩
    simp [hkey, ChartPlan.shownKeyOf, List.getD_eq_getElem?_getD, hc]

section Keys

variable (hp : p.ShowsGroups kept)

include hp

/-- A group consists of the records under its key. -/
theorem mem_recordGroups_iff {g : List Value × List Record}
    (hg : g ∈ p.recordGroups kept) {r : Record} :
    r ∈ g.2 ↔ r ∈ kept ∧ p.keyOf r = .ok g.1 := by
  by_cases hkeys : p.groupingKeys = []
  · rw [recordGroups_of_nil hkeys, List.mem_singleton] at hg
    rw [hg, ChartPlan.keyOf, hkeys]
    exact (and_iff_left rfl).symm
  · rw [recordGroups_of_ne_nil hkeys] at hg
    obtain ⟨s, hs, hkey⟩ := exists_mem_of_groupRows hg
    obtain ⟨key, -, rfl⟩ := List.mem_map.1 hg
    obtain rfl : key = p.shownKeyOf s := hkey
    rw [List.mem_filter]
    refine and_congr_right fun hr => ?_
    rw [hp.eqvList_shownKeyOf hs hr, hp.keyOf_eq hr, Except.ok.injEq, eq_comm]

/-- No two groups have the same key. -/
theorem nodup_keys_recordGroups : ((p.recordGroups kept).map (·.1)).Nodup := by
  by_cases hkeys : p.groupingKeys = []
  · rw [recordGroups_of_nil hkeys]
    exact List.nodup_singleton _
  · rw [recordGroups_of_ne_nil hkeys, groupRows_keys]
    exact hp.nodup_keys

/-- The keys of the groups are those of the records. -/
theorem mem_keys_recordGroups_iff (hkeys : p.groupingKeys ≠ []) {key : List Value} :
    key ∈ (p.recordGroups kept).map (·.1) ↔ ∃ r ∈ kept, p.keyOf r = .ok key := by
  rw [recordGroups_of_ne_nil hkeys, groupRows_keys]
  exact hp.mem_keys_iff

/-- There are as many groups as keys. -/
theorem length_recordGroups (hkeys : p.groupingKeys ≠ []) :
    (p.recordGroups kept).length = {k | ∃ r ∈ kept, p.keyOf r = .ok k}.ncard := by
  rw [← length_eq_ncard_keys (nodup_keys_recordGroups hp) fun _ =>
    mem_keys_recordGroups_iff hp hkeys, List.length_map]

/-- Every group has records. -/
theorem ne_nil_of_mem_recordGroups (hkeys : p.groupingKeys ≠ []) {g : List Value × List Record}
    (hg : g ∈ p.recordGroups kept) : g.2 ≠ [] := by
  rw [recordGroups_of_ne_nil hkeys] at hg
  exact groupRows_ne_nil (fun _ hr => (hp.eqvList_shownKeyOf hr hr).2 rfl) hg

end Keys

/-! ## Columns of the result -/

theorem map_fst_keyedColumns :
    (p.keyedColumns kept).map Prod.fst = p.outputColumns.map Identifier.name := by
  have hkeys : (p.groupingKeys.mapIdx fun n c =>
      (c.name, fun g : List Value × List Record => g.1.getD n .null)).map Prod.fst =
      p.groupingKeys.map Identifier.name := by
    refine List.ext_getElem (by simp) fun n _ _ => ?_
    simp
  simp only [ChartPlan.keyedColumns, ChartPlan.outputColumns, List.map_append, hkeys, List.map_map,
    Function.comp_def]

theorem ChartPlan.TakesAggregate.mem_outputColumns (h : p.TakesAggregate c a) :
    c ∈ p.outputColumns := by
  rw [ChartPlan.mem_outputColumns]
  rcases h with ⟨hc, -⟩ | ⟨hc, -⟩
  · exact .inr (.inl hc)
  · exact .inr (.inr hc)

/-- The columns of the result are the keys and the columns that are aggregated. -/
theorem mem_keyedColumns {col : String × (List Value × List Record → Value)} :
    col ∈ p.keyedColumns kept ↔
      (∃ n c, p.groupingKeys[n]? = some c ∧ col = (c.name, fun g => g.1.getD n .null)) ∨
        ∃ c a, p.TakesAggregate c a ∧ col = (c.name, fun g => p.groupValue kept a c g.2) := by
  simp only [ChartPlan.keyedColumns, List.mem_append, List.mem_mapIdx, List.mem_map,
    Option.mem_toList, or_assoc]
  constructor
  · rintro (⟨n, hn, rfl⟩ | ⟨c, hc, rfl⟩ | ⟨c, hc, rfl⟩)
    · exact .inl ⟨n, _, List.getElem?_eq_getElem hn, rfl⟩
    · exact .inr ⟨c, .max, .inl ⟨hc, rfl⟩, rfl⟩
    · exact .inr ⟨c, p.aggregation, .inr ⟨hc, rfl⟩, rfl⟩
  · rintro (⟨n, c, hc, rfl⟩ | ⟨c, a, ⟨hc, rfl⟩ | ⟨hc, rfl⟩, rfl⟩)
    · obtain ⟨hn, rfl⟩ := List.getElem?_eq_some_iff.1 hc
      exact .inl ⟨n, hn, rfl⟩
    · exact .inr (.inl ⟨c, hc, rfl⟩)
    · exact .inr (.inr ⟨c, hc, rfl⟩)

section Values

variable (hnodup : (p.outputColumns.map Identifier.name).Nodup)

include hnodup

/-- The values of the rows of a group are those that are held of its records. -/
theorem map_value_heldRow (hc : c ∈ p.outputColumns) (rs : List Record) :
    (rs.map (p.heldRow kept)).map (·.value c.name) = rs.map (p.held kept c) := by
  rw [List.map_map]
  exact List.map_congr_left fun r _ => value_heldRow hnodup hc r

/-- A row of the result has its values under their names. -/
theorem value_keyedRow {col : String × (List Value × List Record → Value)}
    (hcol : col ∈ p.keyedColumns kept) : (p.keyedRow kept g).value col.1 = col.2 g := by
  refine Record.value_of_mem ?_ (List.mem_map_of_mem hcol)
  have hnames : (p.keyedColumns kept).map Prod.fst = p.outputColumns.map Identifier.name :=
    map_fst_keyedColumns
  rw [ChartPlan.keyedRow, List.map_map]
  exact hnames ▸ hnodup

theorem value_keyedRow_key {n : Nat} (hc : p.groupingKeys[n]? = some c) :
    (p.keyedRow kept g).value c.name = g.1.getD n .null :=
  value_keyedRow hnodup (mem_keyedColumns.2 (.inl ⟨n, c, hc, rfl⟩))

theorem value_keyedRow_aggregate (ha : p.TakesAggregate c a) :
    (p.keyedRow kept g).value c.name = p.groupValue kept a c g.2 :=
  value_keyedRow hnodup (mem_keyedColumns.2 (.inr ⟨c, a, ha, rfl⟩))

/-- The row of a group shows its key. -/
theorem rowKey_keyedRow (hg : g ∈ p.recordGroups kept) : p.rowKey (p.keyedRow kept g) = g.1 := by
  obtain ⟨hlength, -⟩ := key_of_mem_recordGroups hg
  refine List.ext_getElem (by rw [ChartPlan.rowKey, List.length_map, hlength]) fun n hn hn' => ?_
  simp only [ChartPlan.rowKey, List.length_map] at hn
  simp only [ChartPlan.rowKey, List.getElem_map]
  rw [value_keyedRow_key hnodup (List.getElem?_eq_getElem hn)]
  simp [List.getD_eq_getElem?_getD, hn']

/-- Rows of groups with the same values in the columns to sort by are the row of one group. -/
theorem groups_eq_of_value_eq {g' : List Value × List Record} (hg : g ∈ p.recordGroups kept)
    (hg' : g' ∈ p.recordGroups kept)
    (h : ∀ key ∈ p.sortKeys,
      (p.keyedRow kept g).value key.column = (p.keyedRow kept g').value key.column) : g = g' := by
  -- Every column to group by is one to sort by, in which both rows show their keys.
  have hkey : g.1 = g'.1 := by
    rw [← rowKey_keyedRow hnodup hg, ← rowKey_keyedRow hnodup hg']
    refine List.map_congr_left fun c hc => ?_
    obtain ⟨key, hsort, hname⟩ := exists_sortKey hc
    rw [← hname]
    exact h key hsort
  by_cases hkeys : p.groupingKeys = []
  · rw [recordGroups_of_nil hkeys, List.mem_singleton] at hg hg'
    rw [hg, hg']
  · rw [recordGroups_of_ne_nil hkeys] at hg hg'
    exact groupRows_eq_of_key_eq hg hg' hkey

end Values

/-! ## Rows of records -/

namespace ChartPlan.FoldsGroups

variable (hp : p.FoldsGroups kept)

include hp

/-- An aggregated column of the result holds the aggregates of the groups. -/
theorem groupColumn_eq (ha : p.TakesAggregate c a) {gs : List (List Value × List Record)}
    (hgs : ∀ g ∈ gs, g.2 ⊆ kept) :
    ChartPlan.groupColumn a (p.heldFrame kept) (gs.map fun g => (g.1, g.2.map (p.heldRow kept))) c =
      .ok (c.name, gs.map fun g => p.groupValue kept a c g.2) := by
  obtain ⟨P, -, hvalue⟩ := hp.folds c a ha
  have hkind : (p.heldFrame kept).kind c.name = p.heldKind kept c :=
    kind_heldFrame hp.nodup ha.mem_outputColumns
  have hvalues : (gs.map fun g => (g.1, g.2.map (p.heldRow kept))).mapM
      (fun g => a.ofGroup ((p.heldFrame kept).kind c.name) (g.2.map (·.value c.name))) =
      .ok (gs.map fun g => p.groupValue kept a c g.2) := by
    rw [List.mapM_map]
    refine mapM_eq_ok fun g hg => ?_
    rw [Function.comp_apply, map_value_heldRow hp.nodup ha.mem_outputColumns, hkind]
    exact (hvalue g.2 (hgs g hg)).1
  rw [ChartPlan.groupColumn, hvalues]
  refine congrArg Except.ok (resultColumn_eq fun hmixed => ?_)
  rw [hkind] at hmixed
  -- Counts are whole numbers throughout, and from a mixture nothing else is one.
  by_cases hcount : a = .count
  · right
    intro v hv
    obtain ⟨g, -, rfl⟩ := List.mem_map.1 hv
    rw [hcount]
    rfl
  · left
    intro v hv
    obtain ⟨g, hg, rfl⟩ := List.mem_map.1 hv
    exact (hvalue g.2 (hgs g hg)).2.2 hmixed hcount

/-- Grouping records gives the row of each group. -/
theorem groupedRows_eq : p.groupedRows (p.heldFrame kept) =
    .ok ((groupRows Value.eqvList p.shownKeyOf kept).map (p.keyedRow kept)) := by
  have hgs := hp.groups_eq
  have hsub : ∀ g ∈ groupRows Value.eqvList p.shownKeyOf kept, g.2 ⊆ kept :=
    fun g hg => groupRows_subset hg
  have hvalues := mapM_eq_ok (l := p.yAxis) fun c hc =>
    hp.groupColumn_eq (.inr ⟨hc, rfl⟩) hsub
  have hlabels := mapM_eq_ok (l := p.drillDownLabel.toList) fun c hc =>
    hp.groupColumn_eq (.inl ⟨Option.mem_toList.1 hc, rfl⟩) hsub
  have hkeyColumns : (p.groupingKeys.mapIdx fun n c => ChartPlan.resultColumn (p.heldFrame kept)
      c.name (((groupRows Value.eqvList p.shownKeyOf kept).map fun g =>
        (g.1, g.2.map (p.heldRow kept))).map fun g => g.1.getD n .null)) =
      (p.groupingKeys.mapIdx fun n c =>
        (c.name, fun g : List Value × List Record => g.1.getD n .null)).map fun c =>
        (c.1, (groupRows Value.eqvList p.shownKeyOf kept).map c.2) := by
    refine List.ext_getElem (by simp) fun n hn _ => ?_
    simp only [List.length_mapIdx] at hn
    simp only [List.getElem_mapIdx, List.getElem_map]
    rw [hp.keyColumn_eq (List.getElem?_eq_getElem hn) fun g hg => hp.exists_shownKeyOf hgs hg,
      List.map_map]
    rfl
  have hcolumns := rowsOfColumns_map Prod.fst
    (fun (c : String × (List Value × List Record → Value)) g => c.2 g) (p.keyedColumns kept)
    (groupRows Value.eqvList p.shownKeyOf kept)
  rw [groupedRows_eq_runs hgs, hvalues, hlabels, hkeyColumns, List.length_map]
  simp only [bind, Except.bind]
  refine congrArg Except.ok (Eq.trans ?_ hcolumns)
  simp only [ChartPlan.keyedColumns, List.map_append, List.map_map, Function.comp_def]

/-- A whole column has the aggregate of the group of all records. -/
theorem ofWhole_eq (ha : p.TakesAggregate c a) :
    a.ofWhole ((p.heldFrame kept).kind c.name) ((p.heldFrame kept).column c.name) =
      .ok (p.groupValue kept a c kept) := by
  obtain ⟨P, -, hvalue⟩ := hp.folds c a ha
  have hmean : a ≠ .avg := by
    rcases ha with ⟨-, rfl⟩ | ⟨-, rfl⟩
    · exact Aggregation.noConfusion
    · exact hp.notMean
  rw [kind_heldFrame hp.nodup ha.mem_outputColumns, column_heldFrame hp.nodup ha.mem_outputColumns]
  exact Aggregation.ofWhole_of_ofGroup hmean (hvalue kept (List.Subset.refl kept)).1

/-- Without columns to group by all records together give one row. -/
theorem wholeRow_eq (hkeys : p.groupingKeys = []) :
    p.wholeRow (p.heldFrame kept) = .ok (p.keyedRow kept ([], kept)) := by
  have hrun {a : Aggregation} {cs : List Identifier} (ha : ∀ c ∈ cs, p.TakesAggregate c a) :
      (cs.mapM fun c => do
        .ok (c.name,
          ← a.ofWhole ((p.heldFrame kept).kind c.name) ((p.heldFrame kept).column c.name)) :
        Except Failure (List (String × Value))) =
      .ok (cs.map fun c => (c.name, p.groupValue kept a c kept)) :=
    mapM_eq_ok fun c hc => by
      rw [hp.ofWhole_eq (ha c hc)]
      rfl
  rw [ChartPlan.wholeRow, hrun fun c hc => .inl ⟨Option.mem_toList.1 hc, rfl⟩,
    hrun fun c hc => .inr ⟨hc, rfl⟩, ChartPlan.keyedRow, ChartPlan.keyedColumns, hkeys]
  simp only [bind, Except.bind, List.mapIdx_nil, List.nil_append, List.map_append, List.map_map,
    Function.comp_def]

/-- **Records are reduced to the rows of their groups.** -/
theorem reduce_eq : p.reduce (p.heldFrame kept) =
    .ok ((p.recordGroups kept).map (p.keyedRow kept)) := by
  rw [ChartPlan.reduce, checkNumeric_eq_ok_iff.2 hp.numbers]
  by_cases hkeys : p.groupingKeys = []
  · rw [recordGroups_of_nil hkeys, hp.wholeRow_eq hkeys, hkeys]
    rfl
  · have hempty : p.groupingKeys.isEmpty = false := by simpa using hkeys
    rw [recordGroups_of_ne_nil hkeys, hp.groupedRows_eq, hempty]
    rfl

/-- Each column of the result holds nulls and values that are sorted lawfully. -/
theorem exists_isRanked {col : String × (List Value × List Record → Value)}
    (hcol : col ∈ p.keyedColumns kept) :
    ∃ P, IsRanked P ∧ ∀ g ∈ p.recordGroups kept, col.2 g = .null ∨ P (col.2 g) := by
  rcases mem_keyedColumns.1 hcol with ⟨n, c, hc, rfl⟩ | ⟨c, a, ha, rfl⟩
  -- A key column shows what is shown of the records.
  · obtain ⟨P, hP, hvalues⟩ := hp.ranked c (List.mem_of_getElem? hc)
    refine ⟨P, hP, fun g hg => ?_⟩
    obtain ⟨r, hr, hvalue⟩ := (key_of_mem_recordGroups hg).2 n c hc
    dsimp only
    rw [hvalue]
    exact hvalues r hr
  · obtain ⟨P, hP, hvalues⟩ := hp.folds c a ha
    exact ⟨P, hP, fun g hg => (hvalues g.2 (subset_of_mem_recordGroups hg)).2.1⟩

/-- The rows of groups are sorted by columns of nulls and values that are sorted lawfully. -/
theorem fitKeys (horder : ∀ c, p.orderBy = some c → c ∈ p.outputColumns) :
    FitKeys p.sortKeys ((p.recordGroups kept).map (p.keyedRow kept)) := by
  intro key hkey
  obtain ⟨c, hc, hname⟩ := mem_sortKeys horder hkey
  have hmem : key.column ∈ (p.keyedColumns kept).map Prod.fst := by
    rw [map_fst_keyedColumns, ← hname]
    exact List.mem_map_of_mem hc
  obtain ⟨col, hcol, hcolumn⟩ := List.mem_map.1 hmem
  obtain ⟨P, hP, hvalues⟩ := hp.exists_isRanked hcol
  refine ⟨P, hP, fun row hrow => ?_⟩
  obtain ⟨g, hg, rfl⟩ := List.mem_map.1 hrow
  rw [← hcolumn, value_keyedRow hp.nodup hcol]
  exact hvalues g hg

end ChartPlan.FoldsGroups

end Rows

end ChartQuery
