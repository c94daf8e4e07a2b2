import ChartQuery.Proofs.Chart.TimeCharts

/-!
# Charts over time rolled up

A chart by month can be rolled up into one by year: what the year shows is the total of what its
months show. For the groups of a year are put together from those of its months, counts and sums of
values that are put together add up, and words that wrap around early wrap around again in the end.

## Main definitions

* `ColumnKind.heldSum`: the sum of whole numbers that a column of a kind holds
* `ChartPlan.IsTotal`: a value is the total of others
* `ChartPlan.RollsUp`: the rows of a coarser chart roll up those of a finer one

## Main results

* `ColumnKind.heldSum_flatten`, `aggregateOf_sum_counts`: sums of sums, and totals of counts
* `keyedRows_rollsUp`, `unlabelledRows_rollsUp`: the rows of coarser groups roll up those of finer
  ones, and so do the rows that are shown with room for all of them
* `aggregateRecords_rollsUp`: a coarser chart succeeds where a finer one does, and rolls it up
-/

namespace ChartQuery

/-! ## Totals of totals -/

section Totals

variable {j : ColumnKind} {vs ws : List Value}

theorem wholeTotal_append (vs ws : List Value) :
    wholeTotal (vs ++ ws) = wholeTotal vs + wholeTotal ws := by
  rw [wholeTotal, presentValues, List.filter_append, List.filterMap_append, total_append]
  rfl

theorem wholeTotal_perm (hperm : ws.Perm vs) : wholeTotal ws = wholeTotal vs :=
  total_perm ((presentValues_perm hperm).filterMap _)

theorem aggregateOf_sum_perm (hperm : ws.Perm vs) :
    aggregateOf .sum .bigint ws = aggregateOf .sum .bigint vs := by
  rw [aggregateOf_sum, aggregateOf_sum, (presentValues_perm hperm).isEmpty_eq,
    wholeTotal_perm hperm]

namespace ColumnKind

/-- The sum of whole numbers that a column of a kind holds: null if there are none, or else what its
words leave of the total. -/
def heldSum (j : ColumnKind) (vs : List Value) : Value :=
  if (presentValues vs).isEmpty then .null else .int (j.wrap (wholeTotal vs))

theorem heldSum_perm (hperm : ws.Perm vs) : j.heldSum ws = j.heldSum vs := by
  rw [heldSum, heldSum, (presentValues_perm hperm).isEmpty_eq, wholeTotal_perm hperm]

theorem heldSum_eq_null_iff : j.heldSum vs = .null ↔ presentValues vs = [] := by
  rw [heldSum]
  cases presentValues vs <;> simp

/-- Where the total fits, the sum is that of a database. -/
theorem heldSum_of_fits (h : j.wrap (wholeTotal vs) = wholeTotal vs) :
    j.heldSum vs = aggregateOf .sum .bigint vs := by
  rw [heldSum, aggregateOf_sum, h]

/-- What is wrapped around early is wrapped around again in the end. -/
theorem wrap_wrap_add (m n : Int) : j.wrap (j.wrap m + n) = j.wrap (m + n) := by
  rw [wrap, wrap, wrap]
  split
  · exact Int.emod_add_emod ..
  · exact Int.bmod_add_bmod ..

/-- To add a sum is to add the values. -/
theorem wrap_wholeTotal_heldSum_add (vs : List Value) (n : Int) :
    j.wrap (wholeTotal [j.heldSum vs] + n) = j.wrap (wholeTotal vs + n) := by
  rw [heldSum]
  cases hp : presentValues vs with
  | nil =>
    rw [wholeTotal, wholeTotal, hp]
    rfl
  | cons v rest =>
    have hint (m : Int) : wholeTotal [.int m] = m := Int.add_zero m
    rw [List.isEmpty_cons, if_neg Bool.false_ne_true, hint, wrap_wrap_add]

theorem wrap_wholeTotal_map_heldSum (vss : List (List Value)) (n : Int) :
    j.wrap (wholeTotal (vss.map j.heldSum) + n) = j.wrap (wholeTotal vss.flatten + n) := by
  induction vss generalizing n with
  | nil => rfl
  | cons vs vss ih =>
    rw [List.map_cons, List.flatten_cons, ← List.singleton_append, wholeTotal_append,
      wholeTotal_append, Int.add_assoc, wrap_wholeTotal_heldSum_add, Int.add_left_comm, ih,
      Int.add_left_comm, Int.add_assoc]

theorem presentValues_map_heldSum_iff (vss : List (List Value)) :
    presentValues (vss.map j.heldSum) = [] ↔ presentValues vss.flatten = [] := by
  have hnull (v : Value) : ¬ (!v.isNull) = true ↔ v = .null := by
    cases v <;> simp [Value.isNull]
  simp only [presentValues, List.filter_eq_nil_iff, List.forall_mem_map, hnull,
    heldSum_eq_null_iff, List.mem_flatten, forall_exists_index, and_imp]
  exact ⟨fun h v vs hvs hv => h vs hvs v hv, fun h vs hvs v hv => h v vs hvs hv⟩

/-- **A sum of sums is the sum of all values.** -/
theorem heldSum_flatten (vss : List (List Value)) :
    j.heldSum (vss.map j.heldSum) = j.heldSum vss.flatten := by
  have htotal := wrap_wholeTotal_map_heldSum (j := j) vss 0
  rw [Int.add_zero, Int.add_zero] at htotal
  have hempty : (presentValues (vss.map j.heldSum)).isEmpty =
      (presentValues vss.flatten).isEmpty := by
    rw [Bool.eq_iff_iff, List.isEmpty_iff, List.isEmpty_iff, presentValues_map_heldSum_iff]
  rw [heldSum, heldSum, htotal, hempty]

end ColumnKind

/-- **A total of counts is the count of all values.** -/
theorem aggregateOf_sum_counts (vss : List (List Value)) (hne : vss ≠ []) :
    aggregateOf .sum .bigint (vss.map fun vs => .int (countPresent vs)) =
      .int (countPresent vss.flatten) := by
  have hpresent (vss : List (List Value)) :
      presentValues (vss.map fun vs => .int (countPresent vs)) =
        vss.map fun vs => .int (countPresent vs) :=
    List.filter_eq_self.2 fun v hv => by
      obtain ⟨vs, -, rfl⟩ := List.mem_map.1 hv
      rfl
  have htotal (vss : List (List Value)) :
      wholeTotal (vss.map fun vs => .int (countPresent vs)) = countPresent vss.flatten := by
    induction vss with
    | nil => rfl
    | cons vs vss ih =>
      have hone : wholeTotal [.int (countPresent vs)] = countPresent vs := Int.add_zero _
      rw [List.map_cons, List.flatten_cons, ← List.singleton_append, wholeTotal_append, ih, hone,
        countPresent_append, Int.natCast_add]
  rw [aggregateOf_sum, hpresent, htotal, List.isEmpty_map, List.isEmpty_eq_false_iff.2 hne]
  rfl

end Totals

section Time

variable {p : ChartPlan} {kept : List Record} {x y : Identifier} {fine coarse : Resolution}

/-! ## Values of groups that are put together -/

/-- The total of values fits into the words in which a column is held, if it is summed. -/
def ChartPlan.TotalFits (p : ChartPlan) (kept : List Record) (y : Identifier) (vs : List Value) :
    Prop :=
  p.aggregation = .sum → (p.heldKind kept y).wrap (wholeTotal vs) = wholeTotal vs

/-- A value is the total of others: null exactly if all of them are, or else the sum of the others,
if it fits. -/
structure ChartPlan.IsTotal (p : ChartPlan) (kept : List Record) (y : Identifier)
    (vs : List Value) (v : Value) : Prop where
  eq_null_iff : v = .null ↔ ∀ w ∈ vs, w = .null
  eq_total : p.TotalFits kept y vs → v = aggregateOf .sum .bigint vs

theorem ChartPlan.IsTotal.perm {vs ws : List Value} {v : Value} (h : p.IsTotal kept y vs v)
    (hperm : ws.Perm vs) : p.IsTotal kept y ws v where
  eq_null_iff := by
    rw [h.eq_null_iff]
    simp only [hperm.mem_iff]
  eq_total hfits := by
    rw [aggregateOf_sum_perm hperm]
    refine h.eq_total ?_
    rwa [ChartPlan.TotalFits, ← wholeTotal_perm hperm]

/-- A count of groups put together is the total of their counts. -/
theorem isTotal_of_count {gs : List (List Record)} (hne : gs ≠ []) {rs : List Record}
    (hperm : rs.Perm gs.flatten) :
    p.IsTotal kept y (gs.map (p.groupValue kept .count y)) (p.groupValue kept .count y rs) := by
  have hvalue (rs : List Record) :
      p.groupValue kept .count y rs = .int (countPresent (rs.map (p.held kept y))) := rfl
  have htotal : p.groupValue kept .count y rs =
      aggregateOf .sum .bigint (gs.map (p.groupValue kept .count y)) := by
    have hcounts := aggregateOf_sum_counts (gs.map (List.map (p.held kept y)))
      (by simpa using hne)
    rw [List.map_map] at hcounts
    rw [hvalue, countPresent, (presentValues_perm (hperm.map _)).length_eq, List.map_flatten]
    exact hcounts.symm
  refine ⟨iff_of_false (by simp [hvalue]) fun hnull => ?_, fun _ => htotal⟩
  obtain ⟨g, hg⟩ := List.exists_mem_of_ne_nil gs hne
  have := hnull _ (List.mem_map_of_mem hg)
  rw [hvalue] at this
  cases this

/-- A sum of groups put together is the total of their sums. -/
theorem isTotal_of_sum (hfolds : p.FoldsKeys kept) (hsum : p.aggregation = .sum)
    (hy : y ∈ p.yAxis) {gs : List (List Record)} (hgs : ∀ g ∈ gs, g ⊆ kept) {rs : List Record}
    (hperm : rs.Perm gs.flatten) :
    p.IsTotal kept y (gs.map (p.groupValue kept .sum y)) (p.groupValue kept .sum y rs) := by
  have hshown := p.mem_outputColumns.2 (.inr (.inr hy))
  obtain ⟨k, hk⟩ := hfolds.exists_carries hshown
  have hnumeric := (hfolds.aggregates.2 y hy).numbers (by rw [hsum]; rfl)
  have hvalue {rs : List Record} (hrs : rs ⊆ kept) :
      p.groupValue kept .sum y rs = (p.heldKind kept y).heldSum (rs.map (p.held kept y)) := by
    have hsum := ColumnKind.sum_eq (hk.mono (List.map_subset _ hrs)) hnumeric
    rw [ChartPlan.groupValue, Aggregation.ofGroup, hsum]
    rfl
  have hsub : rs ⊆ kept := fun r hr => by
    obtain ⟨g, hg, hr⟩ := List.mem_flatten.1 (hperm.mem_iff.1 hr)
    exact hgs g hg hr
  have hvalues : gs.map (p.groupValue kept .sum y) =
      (gs.map (List.map (p.held kept y))).map (p.heldKind kept y).heldSum := by
    rw [List.map_map]
    exact List.map_congr_left fun g hg => hvalue (hgs g hg)
  have htotal : p.groupValue kept .sum y rs =
      (p.heldKind kept y).heldSum (gs.map (p.groupValue kept .sum y)) := by
    rw [hvalue hsub, ColumnKind.heldSum_perm (hperm.map _), List.map_flatten, hvalues,
      ColumnKind.heldSum_flatten]
  refine ⟨?_, fun hfits => ?_⟩
  · rw [htotal, ColumnKind.heldSum_eq_null_iff, presentValues, List.filter_eq_nil_iff]
    refine forall₂_congr fun v _ => ?_
    cases v <;> simp [Value.isNull]
  · rw [htotal, ColumnKind.heldSum_of_fits (hfits hsum)]

/-! ## Rows rolled up -/

/-- The rows whose buckets lie within that of a row of a coarser chart. -/
def rowsWithin (coarse : Resolution) (x : Identifier) (rows : List Record) (row : Record) :
    List Record :=
  rows.filter fun s => (row.value x.name).eqv (coarse.enclosing (s.value x.name))

/-- The rows of a coarser chart roll up those of a finer one. In both charts no two rows show the
same bucket; the coarser buckets are those within which the finer ones lie, and the row without a
date is the same. In every column of the vertical axis a row shows the total of the rows within its
bucket. -/
structure ChartPlan.RollsUp (p : ChartPlan) (kept : List Record) (x : Identifier)
    (coarse : Resolution) (finer coarser : List Record) : Prop where
  nodup_finer : (finer.map (·.value x.name)).Nodup
  nodup_coarser : (coarser.map (·.value x.name)).Nodup
  mem_iff : ∀ v, v ∈ coarser.map (·.value x.name) ↔
    v ∈ finer.map fun row => coarse.enclosing (row.value x.name)
  null_iff : ∀ row : Record, row.value x.name = .null → (row ∈ coarser ↔ row ∈ finer)
  total : ∀ row ∈ coarser, ∀ y ∈ p.yAxis,
    p.IsTotal kept y ((rowsWithin coarse x finer row).map (·.value y.name)) (row.value y.name)

theorem ChartPlan.RollsUp.perm {finer coarser finer' coarser' : List Record}
    (h : p.RollsUp kept x coarse finer coarser) (hfiner : finer'.Perm finer)
    (hcoarser : coarser'.Perm coarser) : p.RollsUp kept x coarse finer' coarser' where
  nodup_finer := (hfiner.map _).nodup_iff.2 h.nodup_finer
  nodup_coarser := (hcoarser.map _).nodup_iff.2 h.nodup_coarser
  mem_iff v := by rw [(hcoarser.map _).mem_iff, h.mem_iff, (hfiner.map _).mem_iff]
  null_iff row hnull := by rw [hcoarser.mem_iff, h.null_iff row hnull, hfiner.mem_iff]
  total row hrow y hy :=
    (h.total row (hcoarser.mem_iff.1 hrow) y hy).perm ((hfiner.filter _).map _)

/-- A coarser chart has no more rows. -/
theorem ChartPlan.RollsUp.length_le {finer coarser : List Record}
    (h : p.RollsUp kept x coarse finer coarser) : coarser.length ≤ finer.length := by
  have hsub := List.subperm_of_subset h.nodup_coarser fun v hv => (h.mem_iff v).1 hv
  simpa using hsub.length_le

section RolledUp

variable (h : p.GroupsByTime x fine) (hp : p.FoldsGroups kept)
  (hq : (p.withResolution coarse).FoldsGroups kept) (hroll : fine.rollsUpTo coarse = true)

include h hp hq hroll

/-- The coarser buckets are those within which the finer ones lie. -/
theorem mem_axis_withResolution_iff {v : Value} :
    v ∈ ((p.withResolution coarse).keyedRows kept).map (·.value x.name) ↔
      v ∈ (p.keyedRows kept).map fun row => coarse.enclosing (row.value x.name) := by
  rw [mem_axis_keyedRows_iff (h.withResolution coarse) hq]
  constructor
  · rintro ⟨rec, hrec, rfl⟩
    obtain ⟨row, hrow, hvalue⟩ :=
      List.mem_map.1 ((mem_axis_keyedRows_iff h hp).2 ⟨rec, hrec, rfl⟩)
    refine List.mem_map.2 ⟨row, hrow, ?_⟩
    rw [hvalue, Resolution.enclosing_bucketOf hroll]
  · intro hv
    obtain ⟨row, hrow, rfl⟩ := List.mem_map.1 hv
    obtain ⟨rec, hrec, hvalue⟩ := (mem_axis_keyedRows_iff h hp).1 (List.mem_map_of_mem hrow)
    exact ⟨rec, hrec, by rw [← hvalue, Resolution.enclosing_bucketOf hroll]⟩

/-- The row of a coarser group shows the totals of the rows of the finer groups within it. -/
theorem isTotal_keyedRow (hadds : p.aggregation = .count ∨ p.aggregation = .sum ∧ p.FoldsKeys kept)
    {g : List Value × List Record} (hg : g ∈ (p.withResolution coarse).recordGroups kept)
    (hy : y ∈ p.yAxis) :
    p.IsTotal kept y
      ((rowsWithin coarse x (p.keyedRows kept) ((p.withResolution coarse).keyedRow kept g)).map
        (·.value y.name))
      (((p.withResolution coarse).keyedRow kept g).value y.name) := by
  have h' := h.withResolution coarse
  let gs := (p.recordGroups kept).filter fun g' =>
    (g.1.getD 0 .null).eqv (coarse.enclosing (g'.1.getD 0 .null))
  have hvalue (g : List Value × List Record) :
      (p.keyedRow kept g).value y.name = p.groupValue kept p.aggregation y g.2 :=
    value_keyedRow_aggregate hp.nodup (.inr ⟨hy, rfl⟩)
  have hwithin : (rowsWithin coarse x (p.keyedRows kept)
      ((p.withResolution coarse).keyedRow kept g)).map (·.value y.name) =
      (gs.map (·.2)).map (p.groupValue kept p.aggregation y) := by
    rw [rowsWithin, ChartPlan.keyedRows, List.filter_map, List.map_map, List.map_map,
      value_axis_keyedRow h' hq]
    simp only [Function.comp_def, hvalue, value_axis_keyedRow h hp]
    rfl
  have hperm : g.2.Perm (gs.map (·.2)).flatten := by
    rw [snd_of_mem_recordGroups h' hg, ← List.flatMap_def]
    exact (flatMap_recordGroups_perm h hp hroll _).symm
  rw [hwithin, keyedRow_withResolution hp.nodup, hvalue]
  rcases hadds with hcount | ⟨hsum, hfolds⟩
  · rw [hcount]
    refine isTotal_of_count (fun hnil => ?_) hperm
    rw [hnil] at hperm
    exact ne_nil_of_mem_recordGroups hq.toShowsGroups (groupingKeys_ne_nil h') hg hperm.eq_nil
  · rw [hsum]
    refine isTotal_of_sum hfolds hsum hy (fun rs hrs => ?_) hperm
    obtain ⟨g', hg', rfl⟩ := List.mem_map.1 hrs
    exact subset_of_mem_recordGroups (List.mem_filter.1 hg').1

/-- **The rows of coarser groups roll up those of finer ones.** -/
theorem keyedRows_rollsUp
    (hadds : p.aggregation = .count ∨ p.aggregation = .sum ∧ p.FoldsKeys kept) :
    p.RollsUp kept x coarse (p.keyedRows kept) ((p.withResolution coarse).keyedRows kept) where
  nodup_finer := nodup_axis_keyedRows h hp
  nodup_coarser := nodup_axis_keyedRows (h.withResolution coarse) hq
  mem_iff _ := mem_axis_withResolution_iff h hp hq hroll
  null_iff row hnull := by
    -- The records without a date are the same in both resolutions, and so is their row.
    have hfiner := mem_keyedRows_null_iff h hp row
    have hcoarser := mem_keyedRows_null_iff (h.withResolution coarse) hq row
    rw [keyedRow_withResolution hp.nodup, ← hfiner] at hcoarser
    simpa only [hnull, and_true] using hcoarser
  total row hrow y hy := by
    obtain ⟨g, hg, rfl⟩ := List.mem_map.1 hrow
    exact isTotal_keyedRow h hp hq hroll hadds hg hy

end RolledUp

end Time

/-! ## Charts rolled up -/

/-- With room for all groups, the rows that a plan of a coarser resolution gives roll up those of
the finer one. -/
theorem unlabelledRows_rollsUp {p : ChartPlan} {rs kept out : List Record} {x : Identifier}
    {fine coarse : Resolution} (h : p.GroupsByTime x fine) (hroll : fine.rollsUpTo coarse = true)
    (hnodup : (p.outputColumns.map Identifier.name).Nodup)
    (horder : ∀ c, p.orderBy = some c → c ∈ p.outputColumns) (hkept : p.filterRows rs = .ok kept)
    (hadds : p.AddsUp kept)
    (hlimit : ({k | ∃ rec ∈ kept, p.keyOf rec = .ok k}.ncard : Int) ≤ p.limit)
    (hout : p.unlabelledRows rs = .ok out) :
    ∃ out', (p.withResolution coarse).unlabelledRows rs = .ok out' ∧
      p.RollsUp kept x coarse out out' := by
  have h' := h.withResolution coarse
  obtain ⟨_, reduced, hsame, hhold, hreduced, harranged⟩ := unlabelledRows_eq_ok_iff.1 hout
  obtain rfl := Except.ok.inj (hkept.symm.trans hsame)
  have hnumbers : p.HasNumbers (p.heldFrame kept) := by
    obtain ⟨⟨⟩, hcheck, -⟩ := bind_eq_ok_iff.1 hreduced
    exact checkNumeric_eq_ok_iff.1 (mapError_eq_ok_iff.1 hcheck)
  have hcut : p.resolution.isSome = true := by
    rw [h.resolution]
    rfl
  have hhold' := canHold_withResolution (r := coarse) hcut hhold
  have hp := h.foldsGroups hnodup (fun c hc => (hhold c hc).1) hnumbers hadds
  have hq := h'.foldsGroups hnodup (fun c hc => (hhold' c hc).1)
    (hasNumbers_withResolution hnodup hnumbers) hadds
  have hrolls := keyedRows_rollsUp h hp hq hroll (hadds.imp_right fun ⟨hsum, hints⟩ =>
    ⟨hsum, h.foldsKeys hnodup (fun c hc => (hhold c hc).1) hnumbers hsum hints⟩)
  -- Both charts show the rows of all groups, since the limit leaves room for them.
  obtain rfl := Except.ok.inj (hreduced.symm.trans hp.reduce_eq)
  obtain ⟨out', harranged'⟩ := exists_arrange_of_fitKeys (hq.fitKeys horder)
  have hlength : ((p.keyedRows kept).length : Int) ≤ p.limit := by
    rwa [ChartPlan.keyedRows, List.length_map, length_recordGroups hp.toShowsGroups
      (groupingKeys_ne_nil h)]
  have hperm := perm_of_arrange harranged hlength
  have hperm' := perm_of_arrange harranged'
    ((Int.ofNat_le.2 hrolls.length_le).trans hlength)
  have hkept' : (p.withResolution coarse).filterRows rs = .ok kept :=
    (ChartPlan.filterRows_congr (p.withResolution coarse) p rfl rfl _).trans hkept
  exact ⟨out', unlabelledRows_eq_ok_iff.2 ⟨kept, _, hkept', hhold', hq.reduce_eq, harranged'⟩,
    hrolls.perm hperm hperm'⟩

/-- **Coarser charts roll up finer ones.** Let a chart of records group by the days, months or years
of one column alone, which may hold anything, show no label, and count, or sum nulls and whole
numbers; and let there be no more groups than rows are asked for. If the chart succeeds, so does
that of a coarser resolution. Its rows are those of the buckets within which the buckets of the
finer chart lie, each of them once; each shows in every column of the vertical axis the total of the
rows within its bucket, as long as this fits into words, and null exactly if all of these show null;
and the row without a date is the same in both charts. -/
theorem aggregateRecords_rollsUp (limits : RowLimits) (spec : ChartSpec) (rows : List Record)
    (maxRows : Option Int) (fine coarse : Resolution) (hroll : fine.rollsUpTo coarse = true)
    (finer : ChartResult)
    (hfiner : aggregateRecords limits { spec with resolution := some fine.name } rows maxRows =
      .ok finer) :
    ∃ p kept,
      resolvePlan limits { spec with resolution := some fine.name }
        (columnsOfRecords (rows.map Record.cleaned)) maxRows = .ok p ∧
      p.filterRows (rows.map Record.cleaned) = .ok kept ∧
      ∀ x, p.xAxis = some x → p.groupBy = [] → p.drillDownLabel = none → p.AddsUp kept →
        ({k | ∃ rec ∈ kept, p.keyOf rec = .ok k}.ncard : Int) ≤ p.limit →
        ∃ coarser,
          aggregateRecords limits { spec with resolution := some coarse.name } rows maxRows =
            .ok coarser ∧
          p.RollsUp kept x coarse finer.rows coarser.rows := by
  obtain ⟨p, out, hplan, hout, rfl⟩ := aggregateRecords_eq_ok_iff.1 hfiner
  obtain ⟨kept, _, hkept, -⟩ := unlabelledRows_eq_ok_iff.1 hout
  refine ⟨p, kept, hplan, hkept, fun x hx hgroups hlabel hadds hlimit => ?_⟩
  obtain ⟨hresolution, hplan'⟩ := resolvePlan_withResolution hplan hx coarse
  have h : p.GroupsByTime x fine := ⟨hx, hresolution, hgroups, hlabel⟩
  have hnodup : (p.outputColumns.map Identifier.name).Nodup := by
    obtain ⟨_, -, -, hbeside⟩ := resolvePlan_eq_ok_iff.1 hplan
    rw [hbeside]
    exact Identifier.nodup_names planBeside_nodup
  obtain ⟨out', hout', hrolls⟩ := unlabelledRows_rollsUp h hroll hnodup
    (orderBy_of_resolvePlan hplan) hkept hadds hlimit hout
  refine ⟨_, aggregateRecords_eq_ok_iff.2 ⟨_, out', hplan', hout', rfl⟩, ?_⟩
  show p.RollsUp kept x coarse (composeLabels p out)
    (composeLabels (p.withResolution coarse) out')
  rwa [h.composeLabels_eq, (h.withResolution coarse).composeLabels_eq]

/-! ## Takings by month and by year -/

/-- The sums of the takings of each day, month or year. -/
def takingSpec (r : Resolution) : ChartSpec :=
  { ChartSpec.ofTable "Takings" "Amount" with
    xAxis := some "Day"
    resolution := some r.name
    aggregation := "sum" }

/-- A day is given as a date, with a time or written, or it is not known; so are the amounts. -/
def takings : List Record :=
  [[("Day", .date ⟨2019, 1, 30, by decide⟩), ("Amount", .int 5)],
    [("Day", .text "2019-02-01"), ("Amount", .int 7)],
    [("Day", .timestamp ⟨⟨2018, 12, 31, by decide⟩, 20, 15, 0, 0, none, by decide⟩),
      ("Amount", .null)],
    [("Day", .text "unknown"), ("Amount", .int (-2))],
    [("Day", .text "2019-01-02"), ("Amount", .int 1)]]

theorem aggregateRecords_rollsUp_takings :
    ∃ (p : ChartPlan) (kept : List Record) (x : Identifier) (months years : ChartResult),
      p.xAxis = some x ∧ x.name = "Day" ∧ p.aggregation = .sum ∧ p.AddsUp kept ∧
      aggregateRecords .standard (takingSpec .month) takings none = .ok months ∧
      aggregateRecords .standard (takingSpec .year) takings none = .ok years ∧
      p.RollsUp kept x .year months.rows years.rows := by
  have hok : (aggregateRecords .standard (takingSpec .month) takings none).toBool = true := by
    decide +kernel
  cases hmonths : aggregateRecords .standard (takingSpec .month) takings none with
  | error fault =>
    rw [hmonths] at hok
    cases hok
  | ok months =>
    obtain ⟨p, kept, hplan, hkept, hrolls⟩ := aggregateRecords_rollsUp .standard (takingSpec .month)
      takings none .month .year rfl months hmonths
    have hsub := filterRows_subset hkept
    obtain ⟨-, -, hkeep⟩ := bind_eq_ok_iff.1 hkept
    have hlength : kept.length ≤ 5 := (ChartPlan.keepRows_sublist hkeep).length_le
    obtain ⟨x, hx, -, hp⟩ := resolvePlan_eq_ok_iff.1 hplan
    obtain ⟨-, rfl⟩ := resolveXAxis_eq_ok_iff.1 hx
    have hparts : p.xAxis = some (.ofText "Day") ∧ (Identifier.ofText "Day").name = "Day" ∧
        p.groupBy = [] ∧ p.drillDownLabel = none ∧ p.aggregation = .sum ∧
        p.yAxis.map Identifier.name = ["Amount"] ∧ p.limit = 50 := by
      rw [hp]
      decide +kernel
    obtain ⟨haxis, hname, hgroups, hlabel, hsum, hvalues, hlimit⟩ := hparts
    have hadds : p.AddsUp kept := by
      refine .inr ⟨hsum, fun y hy r hr => ?_⟩
      have hname : y.name = "Amount" := by
        simpa [hvalues] using List.mem_map_of_mem (f := Identifier.name) hy
      have hints : ∀ v ∈ (takings.map Record.cleaned).map (·.value "Amount"),
          v = .null ∨ v.int?.isSome = true :=
        eq_null_or_of_all (by decide +kernel)
      rw [hname]
      refine (hints _ (List.mem_map_of_mem (hsub hr))).imp_right fun hint => ?_
      cases hv : r.value "Amount" <;> simp [hv, Value.int?] at hint ⊢
    have hfew : ({k | ∃ r ∈ kept, p.keyOf r = .ok k}.ncard : Int) ≤ p.limit := by
      have hle : {k | ∃ r ∈ kept, p.keyOf r = .ok k}.ncard ≤ kept.length := ncard_keys_le
      rw [hlimit]
      omega
    obtain ⟨years, hyears, hrolled⟩ := hrolls _ haxis hgroups hlabel hadds hfew
    exact ⟨p, kept, _, months, years, haxis, hname, hsum, hadds, rfl, hyears, hrolled⟩

end ChartQuery
