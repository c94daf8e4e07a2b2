import ChartQuery.Proofs.Calendar.Buckets
import ChartQuery.Proofs.Chart.Extremes
import ChartQuery.Proofs.Plan.ResolvedAgain

/-!
# Charts over time

A chart over time groups records by the buckets of one column alone. What it shows of the other
columns does not depend on its resolution, nor do the records that are kept and whether they have a
frame. The buckets of a finer resolution lie within those of a coarser one, and so do the groups;
records without a date are one group in every resolution.

## Main definitions

* `Resolution.enclosing`: the bucket of a coarser resolution within which a bucket lies
* `ChartPlan.withResolution`: the plan with another resolution
* `ChartPlan.GroupsByTime`: a plan that groups by the buckets of one column alone
* `ChartPlan.AddsUp`: a plan that counts, or sums whole numbers

## Main results

* `Resolution.enclosing_bucketOf`: the buckets of one date lie within one another
* `resolvePlan_withResolution`: what the resolution decides of a plan
* `ChartPlan.GroupsByTime.foldsGroups`: a plan that adds up has the aggregates of every group
* `mem_axis_keyedRows_iff`, `nodup_axis_keyedRows`: the rows show the buckets of the records
* `flatMap_recordGroups_perm`: the groups within a bucket together are the records in it
* `mem_keyedRows_null_iff`: the row of the records without a date
-/

namespace ChartQuery

/-! ## Buckets within buckets -/

namespace Resolution

/-- Years consist of months and of days, and months of days. -/
def rollsUpTo : Resolution → Resolution → Bool
  | day, month | day, year | month, year => true
  | _, _ => false

/-- The bucket of a coarser resolution within which a bucket lies: that of the date, or, of a month,
the text in front of its last three characters. Null lies within null. -/
def enclosing (coarse : Resolution) : Value → Value
  | .date d => coarse.cut d
  | .text s => .text (String.ofList (s.toList.take (s.toList.length - 3)))
  | v => v

/-- The text of a month starts with its year. -/
theorem enclosing_cut_month (d : CalendarDate) : year.enclosing (month.cut d) = year.cut d := by
  have hbehind : (behindYear .month d).length = 3 := by
    rw [behindYear, List.length_cons, length_lastDigits]
  rw [cut_eq_text (by decide), cut_eq_text (by decide), enclosing, String.toList_ofList,
    List.length_append, hbehind, Nat.add_sub_cancel,
    List.take_left' rfl, show behindYear .year d = [] from rfl, List.append_nil]

/-- A bucket lies within that of the same date in a coarser resolution. -/
theorem enclosing_bucketOf {fine coarse : Resolution} (h : fine.rollsUpTo coarse = true)
    (d : Option CalendarDate) : coarse.enclosing (fine.bucketOf d) = coarse.bucketOf d := by
  cases d with
  | none => rfl
  | some d =>
    cases fine with
    | day => rfl
    | month =>
      obtain rfl : coarse = .year := by cases coarse <;> first | rfl | cases h
      exact enclosing_cut_month d
    | year => cases coarse <;> cases h

theorem bucketOf_eq_null_iff {r : Resolution} {d : Option CalendarDate} :
    r.bucketOf d = .null ↔ d = none := by
  cases d with
  | none => simp [bucketOf]
  | some d => cases r <;> simp [bucketOf, cut]

/-- Only null is equal to null. -/
theorem eqv_null_bucketOf (r : Resolution) (d : Option CalendarDate) :
    Value.null.eqv (r.bucketOf d) = d.isNone := by
  cases d with
  | none => rfl
  | some d => cases r <;> rfl

end Resolution

/-- The date of a value, if it has one in the calendar. -/
def Value.calendarDate? (v : Value) : Option CalendarDate :=
  match v.day? with
  | some (.date d) => some d
  | _ => none

/-- What is shown of a value that is cut is the bucket of its date. -/
theorem Resolution.getD_bucket (r : Resolution) (v : Value) :
    (r.bucket v).toOption.getD .null = r.bucketOf v.calendarDate? := by
  rw [bucket, Value.calendarDate?]
  cases v.day? with
  | none => rfl
  | some day => cases day <;> rfl

/-! ## Whole numbers -/

/-- A column of nulls and whole numbers that can be summed holds words of one kind. -/
theorem exists_allKeys_of_ints {p : ChartPlan} {c : Identifier} {vs : List Value}
    (hints : ∀ v ∈ vs, v = .null ∨ ∃ n, v = .int n)
    (hnumeric : (p.columnKind c vs).isNumeric = true) : ∃ k, AllKeys k vs := by
  by_cases hsome : ∃ n, Value.int n ∈ vs
  · obtain ⟨n, hn⟩ := hsome
    have hkeys {k : KeyKind} (hwords : ∀ m ∈ vs.filterMap Value.int?, k.has (.int m) = true) :
        AllKeys k vs := fun v hv => (hints v hv).imp_right fun ⟨m, hm⟩ => by
      subst hm
      exact hwords m (List.mem_filterMap.2 ⟨_, hv, rfl⟩)
    -- Numbers of which some fit into words of neither kind would be a mixture.
    rw [p.columnKind_of_int c hn, ColumnKind.ofValues_of_ints hints hn, ColumnKind.ofInts]
      at hnumeric
    split at hnumeric
    · next hsigned => exact ⟨.signed, hkeys (List.all_eq_true.1 hsigned)⟩
    · split at hnumeric
      · next hunsigned => exact ⟨.unsigned, hkeys (List.all_eq_true.1 hunsigned)⟩
      · cases hnumeric
  · exact ⟨.signed, fun v hv => .inl ((hints v hv).resolve_right fun ⟨n, hn⟩ =>
      hsome ⟨n, hn ▸ hv⟩)⟩

/-! ## Plans of another resolution -/

/-- The plan with another resolution. -/
def ChartPlan.withResolution (p : ChartPlan) (r : Resolution) : ChartPlan :=
  { p with resolution := some r }

/-- The resolution asked for decides on nothing else of a plan. -/
theorem resolvePlan_withResolution {limits : RowLimits} {spec : ChartSpec} {columns : ColumnSet}
    {maxRows : Option Int} {fine : Resolution} {p : ChartPlan} {x : Identifier}
    (h : resolvePlan limits { spec with resolution := some fine.name } columns maxRows = .ok p)
    (hx : p.xAxis = some x) (coarse : Resolution) :
    p.resolution = some fine ∧
      resolvePlan limits { spec with resolution := some coarse.name } columns maxRows =
        .ok (p.withResolution coarse) := by
  obtain ⟨x', haxis, hne, rfl⟩ := resolvePlan_eq_ok_iff.1 h
  obtain rfl : x' = some x := hx
  have hyAxis (r : Resolution) :
      yAxisBeside { spec with resolution := some r.name } columns (some x) =
        yAxisBeside spec columns (some x) := rfl
  have hwarnings (r : Resolution) :
      yAxisWarnings { spec with resolution := some r.name } columns (some x) =
        yAxisWarnings spec columns (some x) := rfl
  refine ⟨?_, resolvePlan_eq_ok_iff.2 ⟨some x, haxis, hne, ?_⟩⟩
  · simp only [planBeside, resolveResolution_some_name]
  · simp only [planBeside, ChartPlan.withResolution, resolveResolution_some_name, hyAxis, hwarnings]

section Resolutions

variable {p : ChartPlan} {kept : List Record} {c : Identifier} {r : Resolution}

/-- Only what is shown of the horizontal axis depends on the resolution. -/
theorem shownOf_withResolution (hc : p.xAxis ≠ some c) (rec : Record) :
    (p.withResolution r).shownOf c rec = p.shownOf c rec := by
  have hcut (q : ChartPlan) (hq : q.xAxis = p.xAxis) : q.shownOf c rec = rec.value c.name :=
    shownOf_of_not_cut (fun hcut => hc (hq ▸ hcut.1)) rec
  rw [hcut p rfl, hcut (p.withResolution r) rfl]

theorem heldKind_withResolution (hc : p.xAxis ≠ some c) :
    (p.withResolution r).heldKind kept c = p.heldKind kept c := by
  have hshown : (p.withResolution r).shownOf c = p.shownOf c :=
    funext (shownOf_withResolution hc)
  rw [ChartPlan.heldKind, ChartPlan.heldKind, hshown]
  rfl

theorem groupValue_withResolution (hc : p.xAxis ≠ some c) (a : Aggregation) (rs : List Record) :
    (p.withResolution r).groupValue kept a c rs = p.groupValue kept a c rs := by
  have hheld : (p.withResolution r).held kept c = p.held kept c := by
    funext rec
    rw [ChartPlan.held, ChartPlan.held, heldKind_withResolution hc, shownOf_withResolution hc]
  rw [ChartPlan.groupValue, ChartPlan.groupValue, heldKind_withResolution hc, hheld]

/-- Under the same key the same records have the same row. -/
theorem keyedRow_withResolution (hnodup : (p.outputColumns.map Identifier.name).Nodup)
    (g : List Value × List Record) :
    (p.withResolution r).keyedRow kept g = p.keyedRow kept g := by
  have haxis {c : Identifier} (hc : c ∈ p.drillDownLabel.toList ++ p.yAxis) : p.xAxis ≠ some c :=
    xAxis_ne_of_aggregated hnodup hc
  simp only [ChartPlan.keyedRow, ChartPlan.keyedColumns, List.map_append, List.map_map,
    Function.comp_def]
  congr 1
  · congr 1
    exact List.map_congr_left fun c hc => by
      rw [groupValue_withResolution (haxis (List.mem_append_left _ hc))]
  · exact List.map_congr_left fun c hc => by
      rw [groupValue_withResolution (haxis (List.mem_append_right _ hc))]
      rfl

/-- Values that can be cut to one resolution can be cut to another. -/
theorem cells_withResolution (hcut : p.resolution.isSome = true)
    (h : ∀ c ∈ p.outputColumns, ∀ rec ∈ kept, ∃ v, p.cell c rec = .ok v) :
    ∀ c ∈ (p.withResolution r).outputColumns, ∀ rec ∈ kept,
      ∃ v, (p.withResolution r).cell c rec = .ok v :=
  cutsDays_iff.1 fun x hx _ => cutsDays_iff.2 h x hx hcut

theorem canHold_withResolution (hcut : p.resolution.isSome = true)
    (h : ∀ c ∈ p.outputColumns, p.CanHold kept c) :
    ∀ c ∈ (p.withResolution r).outputColumns, (p.withResolution r).CanHold kept c := by
  intro c hc
  have hcells := cells_withResolution (r := r) hcut (fun c hc => (h c hc).1) c hc
  refine ⟨hcells, ?_⟩
  by_cases hx : p.xAxis = some c
  -- What is cut becomes texts or dates.
  · obtain ⟨k, hk⟩ := exists_allKeys_shownOf (fun hnot => absurd ⟨hx, rfl⟩ hnot) hcells
    rw [hk.columnDepth_eq]
    exact Nat.lt_irrefl 1
  · rw [funext (shownOf_withResolution (r := r) hx)]
    exact (h c hc).2

theorem hasNumbers_withResolution (hnodup : (p.outputColumns.map Identifier.name).Nodup)
    (h : p.HasNumbers (p.heldFrame kept)) :
    (p.withResolution r).HasNumbers ((p.withResolution r).heldFrame kept) := by
  intro hneeds y hy
  have hnumeric := h hneeds y hy
  have hshown := mem_outputColumns_of_mem (List.mem_append_right p.groupingKeys hy)
  have haxis := xAxis_ne_of_aggregated hnodup (List.mem_append_right p.drillDownLabel.toList hy)
  rw [kind_heldFrame hnodup hshown] at hnumeric
  rw [kind_heldFrame (p := p.withResolution r) hnodup hshown, heldKind_withResolution haxis]
  exact hnumeric

end Resolutions

/-! ## Charts over time -/

/-- The plan groups by the buckets of one column alone, and shows no label. -/
structure ChartPlan.GroupsByTime (p : ChartPlan) (x : Identifier) (r : Resolution) : Prop where
  axis : p.xAxis = some x
  resolution : p.resolution = some r
  alone : p.groupBy = []
  unlabelled : p.drillDownLabel = none

/-- The plan counts, or it sums nulls and whole numbers. -/
def ChartPlan.AddsUp (p : ChartPlan) (kept : List Record) : Prop :=
  p.aggregation = .count ∨ p.aggregation = .sum ∧
    ∀ y ∈ p.yAxis, ∀ r ∈ kept, r.value y.name = .null ∨ ∃ n, r.value y.name = .int n

/-- The rows that groups of records give, in the order in which these are found. -/
def ChartPlan.keyedRows (p : ChartPlan) (kept : List Record) : List Record :=
  (p.recordGroups kept).map (p.keyedRow kept)

section Time

variable {p : ChartPlan} {kept : List Record} {x c : Identifier} {r coarse : Resolution}

namespace ChartPlan.GroupsByTime

variable (h : p.GroupsByTime x r)

include h

theorem groupingKeys_eq : p.groupingKeys = [x] := by
  rw [ChartPlan.groupingKeys, h.axis, h.alone]
  rfl

theorem withResolution (coarse : Resolution) : (p.withResolution coarse).GroupsByTime x coarse :=
  ⟨h.axis, rfl, h.alone, h.unlabelled⟩

/-- On the axis the buckets of the records are shown. -/
theorem shownOf_axis (rec : Record) :
    p.shownOf x rec = r.bucketOf (rec.value x.name).calendarDate? := by
  rw [ChartPlan.shownOf, ChartPlan.cell, h.resolution, ← Resolution.getD_bucket]
  dsimp only
  rw [if_pos h.axis]

theorem isCut (hc : c ∈ p.groupingKeys) : p.xAxis = some c ∧ p.resolution.isSome = true := by
  rw [h.groupingKeys_eq, List.mem_singleton] at hc
  rw [hc, h.axis, h.resolution]
  exact ⟨rfl, rfl⟩

theorem mem_outputColumns_iff : c ∈ p.outputColumns ↔ c ∈ p.groupingKeys ∨ c ∈ p.yAxis := by
  rw [ChartPlan.mem_outputColumns, h.unlabelled]
  simp

/-- The buckets of one column need no label. -/
theorem composeLabels_eq (rows : List Record) : composeLabels p rows = rows := by
  rw [composeLabels, h.axis, h.alone]
  rfl

/-- A plan that sums whole numbers forgets the order of the records. -/
theorem foldsKeys (hnodup : (p.outputColumns.map Identifier.name).Nodup)
    (hcells : ∀ c ∈ p.outputColumns, ∀ rec ∈ kept, ∃ v, p.cell c rec = .ok v)
    (hnumbers : p.HasNumbers (p.heldFrame kept)) (hsum : p.aggregation = .sum)
    (hints : ∀ y ∈ p.yAxis, ∀ r ∈ kept, r.value y.name = .null ∨ ∃ n, r.value y.name = .int n) :
    p.FoldsKeys kept := by
  have hyAxis : ∀ y ∈ p.yAxis, ∃ k, AllKeys k (kept.map (·.value y.name)) := by
    intro y hy
    have hnumeric := hnumbers (by rw [hsum]; rfl) y hy
    have hshown : kept.map (p.shownOf y) = kept.map (·.value y.name) :=
      List.map_congr_left fun r _ => shownOf_of_not_cut (not_cut_of_mem_yAxis hnodup hy) r
    rw [kind_heldFrame hnodup (h.mem_outputColumns_iff.2 (.inr hy)), ChartPlan.heldKind,
      hshown] at hnumeric
    refine exists_allKeys_of_ints ?_ hnumeric
    simpa only [List.forall_mem_map] using hints y hy
  have hcolumns : p.HoldsKeys kept := by
    intro c hc hnot
    rcases h.mem_outputColumns_iff.1 hc with hc | hc
    · exact absurd (h.isCut hc) hnot
    · exact hyAxis c hc
  refine ⟨⟨hnodup, hcells, fun c hc => hcolumns c (mem_outputColumns_of_mem hc)⟩, hcolumns, ?_,
    hnumbers⟩
  rw [hsum]
  exact Aggregation.noConfusion

/-- A plan that adds up has the aggregates of every group. -/
theorem foldsGroups (hnodup : (p.outputColumns.map Identifier.name).Nodup)
    (hcells : ∀ c ∈ p.outputColumns, ∀ rec ∈ kept, ∃ v, p.cell c rec = .ok v)
    (hnumbers : p.HasNumbers (p.heldFrame kept)) (hadds : p.AddsUp kept) : p.FoldsGroups kept := by
  rcases hadds with hcount | ⟨hsum, hints⟩
  · refine foldsGroups_of_orderedKinds hnodup hcells (by rw [hcount]; rfl) ?_
    rintro c (hc | ⟨e, ⟨hc, -⟩ | ⟨-, he⟩⟩) hnot
    · exact absurd (h.isCut hc) hnot
    · rw [h.unlabelled] at hc
      cases hc
    · rw [hcount] at he
      cases he
  · exact (h.foldsKeys hnodup hcells hnumbers hsum hints).foldsGroups

end ChartPlan.GroupsByTime

/-! ## Rows of buckets -/

section Rows

variable (h : p.GroupsByTime x r)

include h

theorem groupingKeys_ne_nil : p.groupingKeys ≠ [] := by
  rw [h.groupingKeys_eq]
  exact List.cons_ne_nil _ _

/-- A group consists of the records in its bucket. -/
theorem snd_of_mem_recordGroups {g : List Value × List Record} (hg : g ∈ p.recordGroups kept) :
    g.2 = kept.filter fun rec =>
      (g.1.getD 0 .null).eqv (r.bucketOf (rec.value x.name).calendarDate?) := by
  obtain ⟨hlength, -⟩ := key_of_mem_recordGroups hg
  rw [recordGroups_of_ne_nil (groupingKeys_ne_nil h)] at hg
  obtain ⟨key, -, rfl⟩ := List.mem_map.1 hg
  rw [h.groupingKeys_eq] at hlength
  obtain ⟨v, rfl⟩ := List.length_eq_one_iff.1 hlength
  refine List.filter_congr fun rec _ => ?_
  rw [ChartPlan.shownKeyOf, h.groupingKeys_eq, ← h.shownOf_axis]
  simp [Value.eqvList]

variable (hp : p.FoldsGroups kept)

include hp

/-- A row shows the bucket that is the key of its group. -/
theorem value_axis_keyedRow (g : List Value × List Record) :
    (p.keyedRow kept g).value x.name = g.1.getD 0 .null :=
  value_keyedRow_key hp.nodup (by rw [h.groupingKeys_eq]; rfl)

theorem map_key_recordGroups :
    (p.recordGroups kept).map (·.1) = (p.keyedRows kept).map fun row => [row.value x.name] := by
  rw [ChartPlan.keyedRows, List.map_map]
  refine List.map_congr_left fun g hg => ?_
  rw [Function.comp_apply, value_axis_keyedRow h hp]
  obtain ⟨hlength, -⟩ := key_of_mem_recordGroups hg
  rw [h.groupingKeys_eq] at hlength
  obtain ⟨v, hv⟩ := List.length_eq_one_iff.1 hlength
  rw [hv]
  rfl

/-- No two rows show the same bucket. -/
theorem nodup_axis_keyedRows : ((p.keyedRows kept).map (·.value x.name)).Nodup := by
  have hnodup := nodup_keys_recordGroups hp.toShowsGroups
  rw [map_key_recordGroups h hp] at hnodup
  rw [List.Nodup, List.pairwise_map] at hnodup ⊢
  exact hnodup.imp fun hne heq => hne (by rw [heq])

/-- The rows show the buckets of the records. -/
theorem mem_axis_keyedRows_iff {v : Value} : v ∈ (p.keyedRows kept).map (·.value x.name) ↔
    ∃ rec ∈ kept, r.bucketOf (rec.value x.name).calendarDate? = v := by
  have hkey (rec : Record) (hrec : rec ∈ kept) : p.keyOf rec = .ok [p.shownOf x rec] := by
    rw [hp.toShowsGroups.keyOf_eq hrec, ChartPlan.shownKeyOf, h.groupingKeys_eq]
    rfl
  have hmem : [v] ∈ (p.recordGroups kept).map (·.1) ↔ ∃ rec ∈ kept, p.keyOf rec = .ok [v] :=
    mem_keys_recordGroups_iff hp.toShowsGroups (groupingKeys_ne_nil h)
  rw [map_key_recordGroups h hp] at hmem
  simp only [List.mem_map, List.cons.injEq, and_true] at hmem ⊢
  rw [hmem]
  refine exists_congr fun rec => and_congr_right fun hrec => ?_
  rw [hkey rec hrec, Except.ok.injEq, List.cons.injEq, and_iff_left rfl, h.shownOf_axis]

/-- The groups within a bucket together are the records in it. -/
theorem flatMap_recordGroups_perm (hroll : r.rollsUpTo coarse = true) (v : Value) :
    (((p.recordGroups kept).filter fun g =>
      v.eqv (coarse.enclosing (g.1.getD 0 .null))).flatMap (·.2)).Perm
      (kept.filter fun rec => v.eqv (coarse.bucketOf (rec.value x.name).calendarDate?)) := by
  have hperm := flatMap_filter_groupRows_perm
    (fun _ hr _ hs => hp.toShowsGroups.eqvList_shownKeyOf hr hs)
    fun key => v.eqv (coarse.enclosing (key.getD 0 .null))
  rw [recordGroups_of_ne_nil (groupingKeys_ne_nil h)]
  refine hperm.trans (.of_eq (List.filter_congr fun rec _ => ?_))
  rw [ChartPlan.shownKeyOf, h.groupingKeys_eq, ← Resolution.enclosing_bucketOf hroll,
    ← h.shownOf_axis]
  rfl

/-- A group whose row shows no date is that of all records without one. -/
theorem eq_of_axis_keyedRow_eq_null {g : List Value × List Record} (hg : g ∈ p.recordGroups kept)
    (hnull : (p.keyedRow kept g).value x.name = .null) :
    g = ([.null], kept.filter fun rec => (rec.value x.name).calendarDate?.isNone) := by
  have hrecords := snd_of_mem_recordGroups h hg
  have hkey : g.1 = [.null] := by
    have hmem := List.mem_map_of_mem (f := Prod.fst) hg
    rw [map_key_recordGroups h hp] at hmem
    obtain ⟨row, -, hrow⟩ := List.mem_map.1 hmem
    rw [value_axis_keyedRow h hp, ← hrow] at hnull
    rw [← hrow]
    exact congrArg (fun v => [v]) hnull
  rw [hkey] at hrecords
  simp only [List.getD_cons_zero, Resolution.eqv_null_bucketOf] at hrecords
  exact Prod.ext hkey hrecords

/-- There is a row without a date if there is such a record, and it is that of these records. -/
theorem mem_keyedRows_null_iff (row : Record) :
    row ∈ p.keyedRows kept ∧ row.value x.name = .null ↔
      (∃ rec ∈ kept, (rec.value x.name).calendarDate? = none) ∧ row = p.keyedRow kept ([.null],
        kept.filter fun rec => (rec.value x.name).calendarDate?.isNone) := by
  have hnone (rec : Record) : r.bucketOf (rec.value x.name).calendarDate? = .null ↔
      (rec.value x.name).calendarDate? = none := Resolution.bucketOf_eq_null_iff
  have hmem := mem_axis_keyedRows_iff h hp (v := .null)
  simp only [hnone] at hmem
  rw [← hmem]
  constructor
  · rintro ⟨hrow, hnull⟩
    refine ⟨List.mem_map.2 ⟨row, hrow, hnull⟩, ?_⟩
    obtain ⟨g, hg, rfl⟩ := List.mem_map.1 hrow
    rw [← eq_of_axis_keyedRow_eq_null h hp hg hnull]
  · rintro ⟨hsome, rfl⟩
    obtain ⟨row, hrow, hnull⟩ := List.mem_map.1 hsome
    obtain ⟨g, hg, rfl⟩ := List.mem_map.1 hrow
    rw [← eq_of_axis_keyedRow_eq_null h hp hg hnull]
    exact ⟨hrow, hnull⟩

end Rows

end Time

end ChartQuery
