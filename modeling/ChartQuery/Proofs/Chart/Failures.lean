import ChartQuery.Proofs.Chart.Groups
import ChartQuery.Proofs.Chart.HeldFrames
import ChartQuery.Proofs.Service.BatchMaps

/-!
# How charts of records fail

A chart of records fails with an error of its own wherever the cause was foreseen: a specification
without a plan, a condition that cannot be decided, a sum over what is no number, and keys, groups
or rows without a common order. Four causes were not foreseen, and the failures that they lead to
escape as they are.

## Main definitions

* `ChartPlan.Refuses`: the failures of a plan over kept records that are its own
* `ChartPlan.Escapes`: the failures that are not

## Main results

* `ofWhole_eq_error_iff`, `ofGroup_eq_error_iff`: how the aggregate of a column, or of a group, fails
* `aggregateRecords_fails_iff`: when a chart of records fails with an error of its own, and when
  another failure escapes
-/

namespace ChartQuery

/-! ## Aggregates -/

/-- The extreme that an aggregation asks for. -/
def Aggregation.extreme? : Aggregation → Option Extreme
  | min => some .least
  | max => some .greatest
  | sum | avg | count => none

namespace ColumnKind

/-- Values of a column have no exact sum: doubles that leave the range of doubles, or that are
infinite in both directions. -/
def HasNoSum (k : ColumnKind) (vs : List Value) : Prop :=
  k = double ∧ ∃ e, Binary64.sumExact ((presentValues vs).filterMap Value.double?) = .error e

/-- Values of a column have no extreme: two that are compared on the way have no order. -/
def HasNoExtreme (k : ColumnKind) (e : Extreme) (vs : List Value) : Prop :=
  ∃ reason, k.extreme e vs = .error reason

/-- Sums of numbers and truth values fail only for doubles. -/
theorem sum_eq_error_iff {k : ColumnKind} (hk : k.isNumeric = true) {vs : List Value} :
    (∃ fault, k.sum vs = .error fault) ↔ k.HasNoSum vs := by
  rw [HasNoSum, sum]
  cases hp : presentValues vs with
  | nil =>
    refine iff_of_false (by simp) ?_
    rintro ⟨-, e, he⟩
    cases he
  | cons v ws =>
    cases k
    case double =>
      dsimp only
      cases Binary64.sumExact ((v :: ws).filterMap Value.double?) <;> simp
    case text => cases hk
    case moment => cases hk
    case mixed => cases hk
    all_goals simp

end ColumnKind

namespace Aggregation

/-- The aggregate of a whole column fails where its values have no sum, or no extreme, and with no
error of its own. -/
theorem ofWhole_eq_error_iff (a : Aggregation) (k : ColumnKind) (vs : List Value)
    (hk : a.needsNumbers = true → k.isNumeric = true) :
    ((∃ fault, a.ofWhole k vs = .error fault) ↔
      (a = .sum ∧ k.HasNoSum vs) ∨ ∃ e, a.extreme? = some e ∧ k.HasNoExtreme e vs) ∧
    ∀ fault, a.ofWhole k vs = .error fault → ∃ f, fault = .unforeseen f := by
  cases a
  case sum =>
    simp only [ofWhole, mapError_eq_error_iff, extreme?, ← ColumnKind.sum_eq_error_iff (hk rfl)]
    refine ⟨by simp, ?_⟩
    rintro _ ⟨f, -, rfl⟩
    exact ⟨f, rfl⟩
  case avg => simp [ofWhole, extreme?]
  case count => simp [ofWhole, extreme?]
  all_goals
    simp only [ofWhole, mapError_eq_error_iff, extreme?, ColumnKind.HasNoExtreme]
    refine ⟨by simp, ?_⟩
    rintro _ ⟨reason, -, rfl⟩
    exact ⟨_, rfl⟩

/-- The aggregate of a group fails where its values have no sum, with no error of its own, or no
extreme, which is one. -/
theorem ofGroup_eq_error_iff (a : Aggregation) (k : ColumnKind) (vs : List Value)
    (hk : a.needsNumbers = true → k.isNumeric = true) :
    ((∃ f, a.ofGroup k vs = .error (.unforeseen f)) ↔ a = .sum ∧ k.HasNoSum vs) ∧
    ((∃ e, a.ofGroup k vs = .error (.chart e)) ↔
      ∃ e, a.extreme? = some e ∧ k.HasNoExtreme e vs) ∧
    ∀ e, a.ofGroup k vs = .error (.chart e) → e = .execution .mixedGroup := by
  cases a
  case sum =>
    simp only [ofGroup, mapError_eq_error_iff, extreme?, ← ColumnKind.sum_eq_error_iff (hk rfl)]
    simp
  case avg => simp [ofGroup, extreme?]
  case count => simp [ofGroup, extreme?]
  all_goals
    simp only [ofGroup, mapError_eq_error_iff, extreme?, ColumnKind.HasNoExtreme,
      Failure.execution]
    simp

theorem exists_ofGroup_error_iff (a : Aggregation) (k : ColumnKind) (vs : List Value)
    (hk : a.needsNumbers = true → k.isNumeric = true) :
    (∃ fault, a.ofGroup k vs = .error fault) ↔
      (a = .sum ∧ k.HasNoSum vs) ∨ ∃ e, a.extreme? = some e ∧ k.HasNoExtreme e vs := by
  rw [← (ofGroup_eq_error_iff a k vs hk).1, ← (ofGroup_eq_error_iff a k vs hk).2.1]
  constructor
  · rintro ⟨e | u, h⟩
    · exact .inr ⟨e, h⟩
    · exact .inl ⟨u, h⟩
  · rintro (⟨u, h⟩ | ⟨e, h⟩)
    · exact ⟨_, h⟩
    · exact ⟨_, h⟩

end Aggregation

/-! ## Failures of a plan -/

namespace ChartPlan

variable (p : ChartPlan)

/-- Columns that are summed or averaged hold numbers or truth values. -/
def HasNumbers (f : Frame) : Prop :=
  p.aggregation.needsNumbers = true → ∀ y ∈ p.yAxis, (f.kind y.name).isNumeric = true

/-- The rows that are aggregated together: those of each group, or without columns to group by, all
of them. -/
def bundles (f : Frame) : Except ExecutionFault (List (List Record)) :=
  if p.groupingKeys.isEmpty then .ok [f.rows] else (p.groups f).map (·.map (·.2))

/-- The plan asks for an extreme of a column: a label is the greatest one of its group. -/
def TakesExtreme (c : Identifier) (e : Extreme) : Prop :=
  (p.drillDownLabel = some c ∧ e = .greatest) ∨ (c ∈ p.yAxis ∧ p.aggregation.extreme? = some e)

/-- Some rows that are aggregated together have no sum. -/
def LacksSum (f : Frame) (bundles : List (List Record)) : Prop :=
  p.aggregation = .sum ∧ ∃ y ∈ p.yAxis, ∃ rows ∈ bundles,
    (f.kind y.name).HasNoSum (rows.map (·.value y.name))

/-- Some rows that are aggregated together have no extreme that the plan asks for. -/
def LacksExtreme (f : Frame) (bundles : List (List Record)) : Prop :=
  ∃ c e, p.TakesExtreme c e ∧ ∃ rows ∈ bundles,
    (f.kind c.name).HasNoExtreme e (rows.map (·.value c.name))

/-- The plan fails over kept records with an error of its own. -/
inductive Refuses (kept : List Record) : Prop
  /-- A column that is to be summed or averaged holds other values. -/
  | notNumeric {f : Frame} (hf : p.frame kept = .ok f) (h : ¬ p.HasNumbers f)
  /-- Rows are to be grouped by a list or an object. -/
  | compoundKey {f : Frame} (hf : p.frame kept = .ok f) (hnumbers : p.HasNumbers f)
    {k : Identifier} (hk : k ∈ p.groupingKeys) {r : Record} (hr : r ∈ f.rows)
    (h : (r.value k.name).isCompound = true)
  /-- Values of a group have no extreme. -/
  | noExtreme {f : Frame} (hf : p.frame kept = .ok f) (hnumbers : p.HasNumbers f)
    (hkeys : p.groupingKeys ≠ []) {groups : List (List Record)} (hgroups : p.bundles f = .ok groups)
    (hsum : ¬ p.LacksSum f groups) (h : p.LacksExtreme f groups)
  /-- The rows of the result have no order. -/
  | unsortable {f : Frame} (hf : p.frame kept = .ok f) {rows : List Record}
    (hrows : p.reduce f = .ok rows) (h : areSortable p.sortKeys rows = false)

/-- The plan fails over kept records, and not with an error of its own. -/
inductive Escapes (kept : List Record) : Prop
  /-- A value that is to be cut writes a day before the calendar. -/
  | beforeCalendar {x : Identifier} (hx : p.xAxis = some x) (hcut : p.resolution.isSome = true)
    {r : Record} (hr : r ∈ kept) (h : (r.value x.name).day? = some .beforeCalendar)
  /-- All values of a shown column are lists of one length. -/
  | lists {c : Identifier} (hc : c ∈ p.outputColumns) (hne : kept ≠ []) (n : Nat)
    (h : ∀ r ∈ kept, ∃ items, p.cell c r = .ok (.list items) ∧ items.length = n)
  /-- Values have no sum. -/
  | noSum {f : Frame} (hf : p.frame kept = .ok f) (hnumbers : p.HasNumbers f)
    {bundles : List (List Record)} (hbundles : p.bundles f = .ok bundles)
    (h : p.LacksSum f bundles)
  /-- All values together, which are not grouped, have no extreme. -/
  | noExtreme {f : Frame} (hf : p.frame kept = .ok f) (hnumbers : p.HasNumbers f)
    (hkeys : p.groupingKeys = []) (h : p.LacksExtreme f [f.rows])

end ChartPlan

/-! ## Frames and their rows -/

section Reducing

variable {p : ChartPlan} {f : Frame}

/-- Only a day before the calendar cannot be shown, and only where it is to be cut. -/
theorem cell_eq_error_iff {c : Identifier} {r : Record} :
    (∃ e, p.cell c r = .error e) ↔
      p.xAxis = some c ∧ p.resolution.isSome = true ∧
        (r.value c.name).day? = some .beforeCalendar := by
  rw [ChartPlan.cell]
  cases p.resolution with
  | none => simp
  | some resolution =>
    by_cases hx : p.xAxis = some c
    · simp only [hx, if_true, Resolution.bucket]
      cases (r.value c.name).day? with
      | none => simp
      | some day => cases day <;> simp
    · simp [hx]

theorem checkNumeric_eq_ok_iff : p.checkNumeric f = .ok () ↔ p.HasNumbers f := by
  rw [ChartPlan.checkNumeric, ChartPlan.HasNumbers]
  cases hfind : p.yAxis.find? fun y => !(f.kind y.name).isNumeric with
  | none =>
    have hall := List.find?_eq_none.1 hfind
    simp only [true_iff]
    intro _ y hy
    simpa using hall y hy
  | some y =>
    have hy : (f.kind y.name).isNumeric = false := by simpa using List.find?_some hfind
    cases hneeds : p.aggregation.needsNumbers with
    | false => simp
    | true =>
      simp only [if_true, reduceCtorEq, false_iff]
      intro hall
      rw [hall trivial y (List.mem_of_find?_eq_some hfind)] at hy
      cases hy

theorem groups_eq_error_iff {e : ExecutionFault} :
    p.groups f = .error e ↔
      e = .mixedGroup ∧ ∃ k ∈ p.groupingKeys, ∃ r ∈ f.rows, (r.value k.name).isCompound = true := by
  rw [ChartPlan.groups]
  split
  · rename_i h
    simp only [List.any_eq_true, List.mem_map] at h
    obtain ⟨r, hr, _, ⟨k, hk, rfl⟩, hcompound⟩ := h
    simp only [Except.error.injEq]
    constructor
    · rintro rfl
      exact ⟨rfl, k, hk, r, hr, hcompound⟩
    · rintro ⟨rfl, -⟩
      rfl
  · rename_i h
    simp only [reduceCtorEq, false_iff]
    rintro ⟨-, k, hk, r, hr, hcompound⟩
    apply h
    simp only [List.any_eq_true, List.mem_map]
    exact ⟨r, hr, k.name, ⟨k, hk, rfl⟩, hcompound⟩

/-- What a plan lacks, it lacks for the label or for a column of the vertical axis. -/
theorem lacks_iff {bundles : List (List Record)} :
    p.LacksSum f bundles ∨ p.LacksExtreme f bundles ↔
      (∃ c ∈ p.drillDownLabel.toList, ∃ rows ∈ bundles,
        (f.kind c.name).HasNoExtreme .greatest (rows.map (·.value c.name))) ∨
      ∃ y ∈ p.yAxis, ∃ rows ∈ bundles,
        (p.aggregation = .sum ∧ (f.kind y.name).HasNoSum (rows.map (·.value y.name))) ∨
        ∃ e, p.aggregation.extreme? = some e ∧
          (f.kind y.name).HasNoExtreme e (rows.map (·.value y.name)) := by
  constructor
  · rintro (⟨hsum, y, hy, rows, hrows, h⟩ | ⟨c, e, ⟨hc, rfl⟩ | ⟨hc, he⟩, rows, hrows, h⟩)
    · exact .inr ⟨y, hy, rows, hrows, .inl ⟨hsum, h⟩⟩
    · exact .inl ⟨c, Option.mem_toList.2 hc, rows, hrows, h⟩
    · exact .inr ⟨c, hc, rows, hrows, .inr ⟨e, he, h⟩⟩
  · rintro (⟨c, hc, rows, hrows, h⟩ | ⟨y, hy, rows, hrows, ⟨hsum, h⟩ | ⟨e, he, h⟩⟩)
    · exact .inr ⟨c, .greatest, .inl ⟨Option.mem_toList.1 hc, rfl⟩, rows, hrows, h⟩
    · exact .inl ⟨hsum, y, hy, rows, hrows, h⟩
    · exact .inr ⟨y, e, .inr ⟨hy, he⟩, rows, hrows, h⟩

/-- The one row of a plan that does not group fails where all rows together have no sum or no
extreme, and with no error of its own. -/
theorem wholeRow_eq_error_iff (hnumbers : p.HasNumbers f) :
    ((∃ fault, p.wholeRow f = .error fault) ↔
      p.LacksSum f [f.rows] ∨ p.LacksExtreme f [f.rows]) ∧
    ∀ fault, p.wholeRow f = .error fault → ∃ u, fault = .unforeseen u := by
  have hlabel (c : Identifier) :=
    Aggregation.ofWhole_eq_error_iff .max (f.kind c.name) (f.column c.name) fun h => by cases h
  have hvalue (y : Identifier) (hy : y ∈ p.yAxis) := Aggregation.ofWhole_eq_error_iff
    p.aggregation (f.kind y.name) (f.column y.name) fun h => hnumbers h y hy
  constructor
  · rw [lacks_iff, ChartPlan.wholeRow, exists_runs_error_iff]
    simp only [bind_eq_error_iff, reduceCtorEq, and_false, exists_false, or_false,
      List.mem_singleton, exists_eq_left]
    refine or_congr ?_ ?_
    · refine exists_congr fun c => and_congr_right fun _ => (hlabel c).1.trans ?_
      simp [Aggregation.extreme?, Frame.column]
    · exact exists_congr fun y => and_congr_right fun hy => (hvalue y hy).1
  · intro fault h
    rcases exists_mem_of_runs_error h with ⟨c, -, hfail⟩ | ⟨y, hy, hfail⟩
    · rcases bind_eq_error_iff.1 hfail with hfail | ⟨v, -, hv⟩
      · exact (hlabel c).2 fault hfail
      · cases hv
    · rcases bind_eq_error_iff.1 hfail with hfail | ⟨v, -, hv⟩
      · exact (hvalue y hy).2 fault hfail
      · cases hv

/-- The aggregates of groups fail as those of a single group do. -/
theorem groupColumn_eq_error_iff {a : Aggregation} {gs : List (List Value × List Record)}
    {c : Identifier} :
    (∃ fault, ChartPlan.groupColumn a f gs c = .error fault) ↔
      ∃ rows ∈ gs.map (·.2), ∃ fault,
        a.ofGroup (f.kind c.name) (rows.map (·.value c.name)) = .error fault := by
  rw [ChartPlan.groupColumn]
  simp only [bind_eq_error_iff, reduceCtorEq, and_false, exists_false, or_false,
    exists_mapM_error_iff, List.mem_map, exists_exists_and_eq_and]

theorem exists_mem_of_groupColumn_error {a : Aggregation} {gs : List (List Value × List Record)}
    {c : Identifier} {fault : Failure} (h : ChartPlan.groupColumn a f gs c = .error fault) :
    ∃ rows ∈ gs.map (·.2),
      a.ofGroup (f.kind c.name) (rows.map (·.value c.name)) = .error fault := by
  rcases bind_eq_error_iff.1 h with h | ⟨vs, -, hvs⟩
  · obtain ⟨g, hg, hfail⟩ := exists_mem_of_mapM_error h
    exact ⟨g.2, List.mem_map_of_mem hg, hfail⟩
  · cases hvs

section Groups

variable {gs : List (List Value × List Record)}

/-- Where rows are grouped, the vertical axis is run through first, then the label. -/
theorem groupedRows_eq_runs (hgs : p.groups f = .ok gs) :
    p.groupedRows f = (do
      let values ← p.yAxis.mapM (ChartPlan.groupColumn p.aggregation f gs)
      let label ← p.drillDownLabel.toList.mapM (ChartPlan.groupColumn .max f gs)
      .ok (ChartPlan.rowsOfColumns gs.length ((p.groupingKeys.mapIdx fun n c =>
        ChartPlan.resultColumn f c.name (gs.map fun g => g.1.getD n .null)) ++ label ++
          values))) := by
  rw [ChartPlan.groupedRows, hgs]
  rfl

theorem groupedRows_of_groups_error {e : ExecutionFault} (h : p.groups f = .error e) :
    p.groupedRows f = .error (.execution e) := by
  rw [ChartPlan.groupedRows, h]
  rfl

/-- The failure of the rows of a plan that groups is that of the aggregate of some group. -/
theorem exists_mem_of_groupedRows_error (hgs : p.groups f = .ok gs) {fault : Failure}
    (h : p.groupedRows f = .error fault) :
    (∃ y ∈ p.yAxis, ∃ rows ∈ gs.map (·.2),
      p.aggregation.ofGroup (f.kind y.name) (rows.map (·.value y.name)) = .error fault) ∨
    ∃ c ∈ p.drillDownLabel.toList, ∃ rows ∈ gs.map (·.2),
      Aggregation.max.ofGroup (f.kind c.name) (rows.map (·.value c.name)) = .error fault := by
  rw [groupedRows_eq_runs hgs] at h
  rcases exists_mem_of_runs_error h with ⟨y, hy, hfail⟩ | ⟨c, hc, hfail⟩
  · exact .inl ⟨y, hy, exists_mem_of_groupColumn_error hfail⟩
  · exact .inr ⟨c, hc, exists_mem_of_groupColumn_error hfail⟩

theorem exists_groupedRows_error_iff (hnumbers : p.HasNumbers f) (hgs : p.groups f = .ok gs) :
    (∃ fault, p.groupedRows f = .error fault) ↔
      p.LacksSum f (gs.map (·.2)) ∨ p.LacksExtreme f (gs.map (·.2)) := by
  rw [lacks_iff, groupedRows_eq_runs hgs, exists_runs_error_iff, or_comm]
  simp only [groupColumn_eq_error_iff]
  refine or_congr ?_ ?_
  · refine exists_congr fun c => and_congr_right fun _ => exists_congr fun rows =>
      and_congr_right fun _ => (Aggregation.exists_ofGroup_error_iff .max (f.kind c.name)
        (rows.map (·.value c.name)) fun h => by cases h).trans ?_
    simp [Aggregation.extreme?]
  · exact exists_congr fun y => and_congr_right fun hy => exists_congr fun rows =>
      and_congr_right fun _ => Aggregation.exists_ofGroup_error_iff p.aggregation
        (f.kind y.name) (rows.map (·.value y.name)) fun h => hnumbers h y hy

/-- Where a group has no sum, the rows of a plan that groups fail with this failure. -/
theorem groupedRows_of_lacksSum (hnumbers : p.HasNumbers f) (hgs : p.groups f = .ok gs)
    (h : p.LacksSum f (gs.map (·.2))) : ∃ u, p.groupedRows f = .error (.unforeseen u) := by
  obtain ⟨hsum, y, hy, rows, hrows, hnone⟩ := h
  have hvalue (c : Identifier) (hc : c ∈ p.yAxis) (rows : List Record) :=
    Aggregation.ofGroup_eq_error_iff p.aggregation (f.kind c.name) (rows.map (·.value c.name))
      fun h => hnumbers h c hc
  obtain ⟨u, hu⟩ := (hvalue y hy rows).1.2 ⟨hsum, hnone⟩
  obtain ⟨fault, hfault⟩ := exists_mapM_error_iff.2
    ⟨y, hy, groupColumn_eq_error_iff.2 ⟨rows, hrows, _, hu⟩⟩
  have hfails : p.groupedRows f = .error fault := by
    rw [groupedRows_eq_runs hgs, hfault]
    rfl
  cases fault with
  | unforeseen u => exact ⟨u, hfails⟩
  | chart e =>
    -- A sum does not fail with an error of its own.
    obtain ⟨c, hc, hfail⟩ := exists_mem_of_mapM_error hfault
    obtain ⟨rows', -, hfail⟩ := exists_mem_of_groupColumn_error hfail
    obtain ⟨e', he', -⟩ := (hvalue c hc rows').2.1.1 ⟨e, hfail⟩
    rw [hsum] at he'
    cases he'

/-- The rows of a plan that groups fail where a group has no sum, which is not foreseen, or else
where a group has no extreme, with an error of its own. -/
theorem groupedRows_eq_error_iff (hnumbers : p.HasNumbers f) (hgs : p.groups f = .ok gs) :
    ((∃ u, p.groupedRows f = .error (.unforeseen u)) ↔ p.LacksSum f (gs.map (·.2))) ∧
    ((∃ e, p.groupedRows f = .error (.chart e)) ↔
      ¬ p.LacksSum f (gs.map (·.2)) ∧ p.LacksExtreme f (gs.map (·.2))) ∧
    ∀ e, p.groupedRows f = .error (.chart e) → e = .execution .mixedGroup := by
  have hlabel (c : Identifier) (rows : List Record) := Aggregation.ofGroup_eq_error_iff .max
    (f.kind c.name) (rows.map (·.value c.name)) fun h => by cases h
  have hvalue (y : Identifier) (hy : y ∈ p.yAxis) (rows : List Record) :=
    Aggregation.ofGroup_eq_error_iff p.aggregation (f.kind y.name) (rows.map (·.value y.name))
      fun h => hnumbers h y hy
  have hunforeseen : (∃ u, p.groupedRows f = .error (.unforeseen u)) ↔
      p.LacksSum f (gs.map (·.2)) := by
    refine ⟨?_, groupedRows_of_lacksSum hnumbers hgs⟩
    rintro ⟨u, h⟩
    rcases exists_mem_of_groupedRows_error hgs h with ⟨y, hy, rows, hrows, hfail⟩ |
      ⟨c, -, rows, -, hfail⟩
    · obtain ⟨hsum, hnone⟩ := (hvalue y hy rows).1.1 ⟨u, hfail⟩
      exact ⟨hsum, y, hy, rows, hrows, hnone⟩
    · obtain ⟨hmax, -⟩ := (hlabel c rows).1.1 ⟨u, hfail⟩
      cases hmax
  have hfails := exists_groupedRows_error_iff hnumbers hgs
  refine ⟨hunforeseen, ?_, ?_⟩
  · rw [← hunforeseen]
    constructor
    · rintro ⟨e, h⟩
      have hnone : ¬ ∃ u, p.groupedRows f = .error (.unforeseen u) := by
        rintro ⟨u, hu⟩
        rw [h] at hu
        cases hu
      exact ⟨hnone, (hfails.1 ⟨_, h⟩).resolve_left fun hlacks => hnone (hunforeseen.2 hlacks)⟩
    · rintro ⟨hnone, hlacks⟩
      obtain ⟨e | u, h⟩ := hfails.2 (.inr hlacks)
      · exact ⟨e, h⟩
      · exact absurd ⟨u, h⟩ hnone
  · intro e h
    rcases exists_mem_of_groupedRows_error hgs h with ⟨y, hy, rows, -, hfail⟩ |
      ⟨c, -, rows, -, hfail⟩
    · exact (hvalue y hy rows).2.2 e hfail
    · exact (hlabel c rows).2.2 e hfail

end Groups

theorem bundles_of_groups {gs : List (List Value × List Record)} (hkeys : p.groupingKeys ≠ [])
    (hgs : p.groups f = .ok gs) : p.bundles f = .ok (gs.map (·.2)) := by
  have hempty : p.groupingKeys.isEmpty = false := by simpa using hkeys
  rw [ChartPlan.bundles, hempty, hgs]
  rfl

theorem groups_of_bundles {bundles : List (List Record)} (hkeys : p.groupingKeys ≠ [])
    (h : p.bundles f = .ok bundles) : ∃ gs, p.groups f = .ok gs ∧ bundles = gs.map (·.2) := by
  have hempty : p.groupingKeys.isEmpty = false := by simpa using hkeys
  rw [ChartPlan.bundles, hempty] at h
  cases hgs : p.groups f with
  | error e =>
    rw [hgs] at h
    cases h
  | ok gs =>
    rw [hgs] at h
    cases h
    exact ⟨gs, rfl, rfl⟩

theorem bundles_of_nil (hkeys : p.groupingKeys = []) : p.bundles f = .ok [f.rows] := by
  rw [ChartPlan.bundles, hkeys]
  rfl

/-- A frame is not reduced where columns lack numbers, or else where its one row, or its rows of
groups, cannot be made. -/
theorem reduce_eq_error_iff {fault : Failure} :
    p.reduce f = .error fault ↔
      (∃ e, p.checkNumeric f = .error e ∧ fault = .execution e) ∨
      (p.HasNumbers f ∧ p.groupingKeys = [] ∧ p.wholeRow f = .error fault) ∨
      (p.HasNumbers f ∧ p.groupingKeys ≠ [] ∧ p.groupedRows f = .error fault) := by
  rw [ChartPlan.reduce, bind_eq_error_iff, mapError_eq_error_iff]
  refine or_congr_right ?_
  simp only [mapError_eq_ok_iff]
  have hnumbers : p.HasNumbers f ↔ ∃ u, p.checkNumeric f = .ok u := by
    rw [← checkNumeric_eq_ok_iff]
    exact exists_const Unit |>.symm
  rw [hnumbers]
  by_cases hkeys : p.groupingKeys = []
  · simp [hkeys, bind_eq_error_iff]
  · simp [hkeys]

/-- A frame is reduced with a failure that was not foreseen exactly if values have no sum, or all of
them together no extreme. -/
theorem reduce_eq_unforeseen_iff :
    (∃ u, p.reduce f = .error (.unforeseen u)) ↔
      p.HasNumbers f ∧ ((∃ bundles, p.bundles f = .ok bundles ∧ p.LacksSum f bundles) ∨
        (p.groupingKeys = [] ∧ p.LacksExtreme f [f.rows])) := by
  simp only [reduce_eq_error_iff]
  constructor
  · rintro ⟨u, ⟨e, -, he⟩ | ⟨hnumbers, hkeys, h⟩ | ⟨hnumbers, hkeys, h⟩⟩
    · cases he
    · refine ⟨hnumbers, ?_⟩
      rcases (wholeRow_eq_error_iff hnumbers).1.1 ⟨_, h⟩ with hsum | hextreme
      · exact .inl ⟨_, bundles_of_nil hkeys, hsum⟩
      · exact .inr ⟨hkeys, hextreme⟩
    · cases hgs : p.groups f with
      | error e =>
        rw [groupedRows_of_groups_error hgs] at h
        cases h
      | ok gs =>
        have hsum := (groupedRows_eq_error_iff hnumbers hgs).1.1 ⟨u, h⟩
        exact ⟨hnumbers, .inl ⟨_, bundles_of_groups hkeys hgs, hsum⟩⟩
  · rintro ⟨hnumbers, h⟩
    by_cases hkeys : p.groupingKeys = []
    -- Without groups, every failure of the one row is of this kind.
    · have hlacks : p.LacksSum f [f.rows] ∨ p.LacksExtreme f [f.rows] := by
        rcases h with ⟨bundles, hbundles, hsum⟩ | ⟨-, hextreme⟩
        · rw [bundles_of_nil hkeys] at hbundles
          cases hbundles
          exact .inl hsum
        · exact .inr hextreme
      obtain ⟨fault, hfault⟩ := (wholeRow_eq_error_iff hnumbers).1.2 hlacks
      obtain ⟨u, rfl⟩ := (wholeRow_eq_error_iff hnumbers).2 fault hfault
      exact ⟨u, .inr (.inl ⟨hnumbers, hkeys, hfault⟩)⟩
    · obtain ⟨bundles, hbundles, hsum⟩ := h.resolve_right fun hnil => hkeys hnil.1
      obtain ⟨gs, hgs, rfl⟩ := groups_of_bundles hkeys hbundles
      obtain ⟨u, hu⟩ := (groupedRows_eq_error_iff hnumbers hgs).1.2 hsum
      exact ⟨u, .inr (.inr ⟨hnumbers, hkeys, hu⟩)⟩

/-- A frame is reduced with an error of its own exactly if columns lack numbers, rows are to be
grouped by compound values, or a group has no extreme. -/
theorem reduce_eq_chart_iff :
    (∃ e, p.reduce f = .error (.chart e)) ↔
      ¬ p.HasNumbers f ∨
      (p.HasNumbers f ∧ ∃ k ∈ p.groupingKeys, ∃ r ∈ f.rows,
        (r.value k.name).isCompound = true) ∨
      (p.HasNumbers f ∧ p.groupingKeys ≠ [] ∧ ∃ groups, p.bundles f = .ok groups ∧
        ¬ p.LacksSum f groups ∧ p.LacksExtreme f groups) := by
  simp only [reduce_eq_error_iff]
  constructor
  · rintro ⟨e, ⟨fault, hfault, -⟩ | ⟨hnumbers, -, h⟩ | ⟨hnumbers, hkeys, h⟩⟩
    · left
      rw [← checkNumeric_eq_ok_iff, hfault]
      intro hok
      cases hok
    · obtain ⟨u, hu⟩ := (wholeRow_eq_error_iff hnumbers).2 _ h
      cases hu
    · right
      cases hgs : p.groups f with
      | error fault => exact .inl ⟨hnumbers, (groups_eq_error_iff.1 hgs).2⟩
      | ok gs =>
        have hlacks := (groupedRows_eq_error_iff hnumbers hgs).2.1.1 ⟨e, h⟩
        exact .inr ⟨hnumbers, hkeys, _, bundles_of_groups hkeys hgs, hlacks⟩
  · rintro (hnone | ⟨hnumbers, k, hk, hcompound⟩ | ⟨hnumbers, hkeys, groups, hgroups, hlacks⟩)
    · rw [← checkNumeric_eq_ok_iff] at hnone
      cases hcheck : p.checkNumeric f with
      | ok _ => exact absurd hcheck hnone
      | error fault => exact ⟨.execution fault, .inl ⟨fault, rfl, rfl⟩⟩
    · have hkeys : p.groupingKeys ≠ [] := List.ne_nil_of_mem hk
      have hgs : p.groups f = .error .mixedGroup := groups_eq_error_iff.2 ⟨rfl, k, hk, hcompound⟩
      exact ⟨_, .inr (.inr ⟨hnumbers, hkeys, groupedRows_of_groups_error hgs⟩)⟩
    · obtain ⟨gs, hgs, rfl⟩ := groups_of_bundles hkeys hgroups
      obtain ⟨e, he⟩ := (groupedRows_eq_error_iff hnumbers hgs).2.1.2 hlacks
      exact ⟨e, .inr (.inr ⟨hnumbers, hkeys, he⟩)⟩

/-- Every error of its own with which a frame is not reduced is one of execution. -/
theorem execution_of_reduce {e : ChartError} (h : p.reduce f = .error (.chart e)) :
    ∃ fault, e = .execution fault := by
  rcases reduce_eq_error_iff.1 h with ⟨fault, -, he⟩ | ⟨hnumbers, -, h⟩ | ⟨hnumbers, -, h⟩
  · cases he
    exact ⟨fault, rfl⟩
  · obtain ⟨u, hu⟩ := (wholeRow_eq_error_iff hnumbers).2 _ h
    cases hu
  · cases hgs : p.groups f with
    | error fault =>
      rw [groupedRows_of_groups_error hgs] at h
      cases h
      exact ⟨fault, rfl⟩
    | ok gs => exact ⟨_, (groupedRows_eq_error_iff hnumbers hgs).2.2 e h⟩

end Reducing

/-! ## Plans over records -/

section Charts

variable {p : ChartPlan} {kept rs : List Record}

/-- The rows that a plan makes of kept records, in order. -/
def ChartPlan.rowsOf (p : ChartPlan) (kept : List Record) : Except Failure (List Record) := do
  let rows ← p.reduce (← (p.frame kept).mapError .unforeseen)
  (p.arrange rows).mapError .execution

theorem mem_groupingKeys_of_xAxis {x : Identifier} (hx : p.xAxis = some x) :
    x ∈ p.groupingKeys := by
  rw [ChartPlan.groupingKeys, hx]
  exact List.mem_cons_self

theorem unlabelledRows_eq_error_iff {fault : Failure} :
    p.unlabelledRows rs = .error fault ↔
      (∃ e, p.filterRows rs = .error e ∧ fault = .execution e) ∨
        ∃ kept, p.filterRows rs = .ok kept ∧ p.rowsOf kept = .error fault := by
  rw [ChartPlan.unlabelledRows, bind_eq_error_iff, mapError_eq_error_iff]
  simp only [mapError_eq_ok_iff, ChartPlan.rowsOf]

/-- Rows are not made where records have no frame, the frame is not reduced, or its rows have no
order. -/
theorem rowsOf_eq_error_iff {fault : Failure} :
    p.rowsOf kept = .error fault ↔
      (∃ u, p.frame kept = .error u ∧ fault = .unforeseen u) ∨
      (∃ f, p.frame kept = .ok f ∧ p.reduce f = .error fault) ∨
      ∃ f rows, p.frame kept = .ok f ∧ p.reduce f = .ok rows ∧
        areSortable p.sortKeys rows = false ∧
        fault = .execution (.mixedOrder (p.sortKeys.map (·.column))) := by
  have harrange (rows : List Record) : (p.arrange rows).mapError .execution = .error fault ↔
      areSortable p.sortKeys rows = false ∧
        fault = .execution (.mixedOrder (p.sortKeys.map (·.column))) := by
    rw [ChartPlan.arrange]
    cases areSortable p.sortKeys rows <;> simp [Except.mapError, eq_comm]
  simp only [ChartPlan.rowsOf, bind_eq_error_iff, mapError_eq_error_iff, mapError_eq_ok_iff,
    harrange]
  constructor
  · rintro (h | ⟨f, hf, h | ⟨rows, hrows, h⟩⟩)
    · exact .inl h
    · exact .inr (.inl ⟨f, hf, h⟩)
    · exact .inr (.inr ⟨f, rows, hf, hrows, h⟩)
  · rintro (h | ⟨f, hf, h⟩ | ⟨f, rows, hf, hrows, h⟩)
    · exact .inl h
    · exact .inr ⟨f, hf, .inl h⟩
    · exact .inr ⟨f, hf, .inr ⟨rows, hrows, h⟩⟩

/-- A failure of a plan over kept records that was not foreseen has one of the four causes. -/
theorem rowsOf_eq_unforeseen_iff :
    (∃ u, p.rowsOf kept = .error (.unforeseen u)) ↔ p.Escapes kept := by
  simp only [rowsOf_eq_error_iff]
  constructor
  · rintro ⟨u, ⟨u', hu, -⟩ | ⟨f, hf, h⟩ | ⟨f, rows, -, -, -, h⟩⟩
    · rcases ChartPlan.frame_eq_error_iff.1 ⟨u', hu⟩ with
        ⟨c, -, r, hr, hcell⟩ | ⟨c, hc, hne, n, hlists⟩
      · obtain ⟨hx, hcut, hday⟩ := cell_eq_error_iff.1 hcell
        exact .beforeCalendar hx hcut hr hday
      · exact .lists hc hne n hlists
    · rcases reduce_eq_unforeseen_iff.1 ⟨u, h⟩ with
        ⟨hnumbers, ⟨bundles, hbundles, hsum⟩ | ⟨hkeys, hextreme⟩⟩
      · exact .noSum hf hnumbers hbundles hsum
      · exact .noExtreme hf hnumbers hkeys hextreme
    · cases h
  · rintro (⟨hx, hcut, hr, hday⟩ | ⟨hc, hne, n, hlists⟩ | ⟨hf, hnumbers, hbundles, hsum⟩ |
      ⟨hf, hnumbers, hkeys, hextreme⟩)
    · have hshown := (ChartPlan.mem_outputColumns p).2 (.inl (mem_groupingKeys_of_xAxis hx))
      obtain ⟨u, hu⟩ := ChartPlan.frame_eq_error_iff.2
        (.inl ⟨_, hshown, _, hr, cell_eq_error_iff.2 ⟨hx, hcut, hday⟩⟩)
      exact ⟨u, .inl ⟨u, hu, rfl⟩⟩
    · obtain ⟨u, hu⟩ := ChartPlan.frame_eq_error_iff.2 (.inr ⟨_, hc, hne, n, hlists⟩)
      exact ⟨u, .inl ⟨u, hu, rfl⟩⟩
    · obtain ⟨u, hu⟩ := reduce_eq_unforeseen_iff.2 ⟨hnumbers, .inl ⟨_, hbundles, hsum⟩⟩
      exact ⟨u, .inr (.inl ⟨_, hf, hu⟩)⟩
    · obtain ⟨u, hu⟩ := reduce_eq_unforeseen_iff.2 ⟨hnumbers, .inr ⟨hkeys, hextreme⟩⟩
      exact ⟨u, .inr (.inl ⟨_, hf, hu⟩)⟩

/-- An error of its own, of a plan over kept records, has one of the causes that are foreseen. -/
theorem rowsOf_eq_chart_iff :
    (∃ e, p.rowsOf kept = .error (.chart e)) ↔ p.Refuses kept := by
  simp only [rowsOf_eq_error_iff]
  constructor
  · rintro ⟨e, ⟨u, -, hu⟩ | ⟨f, hf, h⟩ | ⟨f, rows, hf, hrows, hunsorted, -⟩⟩
    · cases hu
    · rcases reduce_eq_chart_iff.1 ⟨e, h⟩ with hnone | ⟨hnumbers, k, hk, r, hr, hcompound⟩ |
        ⟨hnumbers, hkeys, groups, hgroups, hsum, hextreme⟩
      · exact .notNumeric hf hnone
      · exact .compoundKey hf hnumbers hk hr hcompound
      · exact .noExtreme hf hnumbers hkeys hgroups hsum hextreme
    · exact .unsortable hf hrows hunsorted
  · have hreduced {f : Frame} (hf : p.frame kept = .ok f)
        (h : ∃ e, p.reduce f = .error (.chart e)) :
        ∃ e, ∃ f, p.frame kept = .ok f ∧ p.reduce f = .error (.chart e) := by
      obtain ⟨e, he⟩ := h
      exact ⟨e, f, hf, he⟩
    rintro (⟨hf, hnone⟩ | ⟨hf, hnumbers, hk, hr, hcompound⟩ |
      ⟨hf, hnumbers, hkeys, hgroups, hsum, hextreme⟩ | ⟨hf, hrows, hunsorted⟩)
    · obtain ⟨e, he⟩ := hreduced hf (reduce_eq_chart_iff.2 (.inl hnone))
      exact ⟨e, .inr (.inl he)⟩
    · obtain ⟨e, he⟩ := hreduced hf
        (reduce_eq_chart_iff.2 (.inr (.inl ⟨hnumbers, _, hk, _, hr, hcompound⟩)))
      exact ⟨e, .inr (.inl he)⟩
    · obtain ⟨e, he⟩ := hreduced hf
        (reduce_eq_chart_iff.2 (.inr (.inr ⟨hnumbers, hkeys, _, hgroups, hsum, hextreme⟩)))
      exact ⟨e, .inr (.inl he)⟩
    · exact ⟨_, .inr (.inr ⟨_, _, hf, hrows, hunsorted, rfl⟩)⟩

theorem execution_of_unlabelledRows {e : ChartError}
    (h : p.unlabelledRows rs = .error (.chart e)) : ∃ fault, e = .execution fault := by
  rcases unlabelledRows_eq_error_iff.1 h with ⟨fault, -, he⟩ | ⟨kept, -, h⟩
  · cases he
    exact ⟨fault, rfl⟩
  rcases rowsOf_eq_error_iff.1 h with ⟨u, -, hu⟩ | ⟨f, -, h⟩ | ⟨f, rows, -, -, -, he⟩
  · cases hu
  · exact execution_of_reduce h
  · cases he
    exact ⟨_, rfl⟩

end Charts

/-! ## Charts of records -/

theorem aggregateRecords_eq_error_iff {limits : RowLimits} {spec : ChartSpec} {rows : List Record}
    {maxRows : Option Int} {fault : Failure} :
    aggregateRecords limits spec rows maxRows = .error fault ↔
      (∃ e, resolvePlan limits spec (columnsOfRecords (rows.map Record.cleaned)) maxRows =
        .error e ∧ fault = .chart e) ∨
      ∃ p, resolvePlan limits spec (columnsOfRecords (rows.map Record.cleaned)) maxRows = .ok p ∧
        p.unlabelledRows (rows.map Record.cleaned) = .error fault := by
  have hlabels (p : ChartPlan) (rs : List Record) :
      p.apply rs = .error fault ↔ p.unlabelledRows rs = .error fault := by
    rw [ChartPlan.apply]
    cases p.unlabelledRows rs <;> simp [Except.map]
  simp only [aggregateRecords, bind_eq_error_iff, mapError_eq_error_iff, mapError_eq_ok_iff,
    reduceCtorEq, and_false, exists_false, or_false, hlabels]

/-- The least of some readings. -/
def leastReading : ChartSpec := { ChartSpec.ofTable "Readings" "Value" with aggregation := "min" }

/-- A number and a text, read in one place. -/
def mixedReadings : List Record :=
  [[("Place", .text "hall"), ("Value", .int 1)], [("Place", .text "hall"), ("Value", .text "a")]]

/-- Whether a computation fails with a failure of some kind. -/
def failsWith {α : Type} (kind : Failure → Bool) : Except Failure α → Bool
  | .error fault => kind fault
  | .ok _ => false

theorem failsWith_iff {α : Type} {kind : Failure → Bool} {x : Except Failure α} :
    failsWith kind x = true ↔ ∃ fault, x = .error fault ∧ kind fault = true := by
  cases x <;> simp [failsWith]

/-- Whether a failure was not foreseen. -/
def Failure.isUnforeseen : Failure → Bool
  | chart _ => false
  | unforeseen _ => true

/-- Whether a failure is that of a group whose values have no common order. -/
def Failure.isMixedGroup : Failure → Bool
  | chart (.execution .mixedGroup) => true
  | _ => false

end ChartQuery
