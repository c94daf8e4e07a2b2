import ChartQuery.Proofs.Chart.OrderedValues
import ChartQuery.Proofs.Chart.ReorderedRecords
import ChartQuery.Proofs.Chart.WordSums

/-!
# The least and the greatest values of groups

The least and the greatest value of a group pass over nulls, whatever kind of values a column holds,
and whether it is a column of the vertical axis or a label: every row shows one of the values of its
group that no other one comes before, and null if the group has no value. Over columns of one kind
each, such a chart fails for two reasons only, which have nothing to do with nulls: a text on the
horizontal axis writes a day before the calendar, or all values of a column that is counted are
lists of one length.

## Main definitions

* `ChartPlan.HasOrderedKinds`: the columns that matter hold nulls and values of one kind each
* `ChartPlan.ShowsExtremes`: rows show the extremes of the groups of records

## Main results

* `foldsGroups_of_orderedKinds`: every group of records has its extremes and its counts
* `showsExtremes_of_orderedKinds`: the rows of groups show their extremes
* `canHold_iff`: when columns of one kind have a frame
* `aggregateRecords_showsExtremes`: when a chart of extremes succeeds, and what it shows
-/

namespace ChartQuery

/-! ## Extremes of groups -/

/-- Where an aggregation asks for an extreme, a group has it. -/
theorem Aggregation.ofGroup_of_extreme {a : Aggregation} {e : Extreme} (ha : a.extreme? = some e)
    {k : ColumnKind} {vs : List Value} {v : Value} (h : k.extreme e vs = .ok v) :
    a.ofGroup k vs = .ok v := by
  cases a
  case min =>
    cases ha
    exact mapError_eq_ok_iff.2 h
  case max =>
    cases ha
    exact mapError_eq_ok_iff.2 h
  all_goals cases ha

/-- An aggregation that needs no numbers counts, or takes an extreme. -/
theorem Aggregation.eq_count_or_extreme {a : Aggregation} (ha : a.needsNumbers = false) :
    a = .count ∨ ∃ e, a.extreme? = some e := by
  cases a
  case count => exact .inl rfl
  case min => exact .inr ⟨.least, rfl⟩
  case max => exact .inr ⟨.greatest, rfl⟩
  all_goals cases ha

namespace ChartPlan

variable (p : ChartPlan) (kept : List Record)

/-- The columns to group by, and those of which an extreme is taken, hold nulls and values of one
kind each. One that is cut to a resolution may hold anything. -/
def HasOrderedKinds : Prop :=
  ∀ c, (c ∈ p.groupingKeys ∨ ∃ e, p.TakesExtreme c e) →
    ¬ (p.xAxis = some c ∧ p.resolution.isSome = true) →
      ∃ k, AllOrdered k (kept.map (·.value c.name))

/-- The values, other than null, that records under a key have in a column. -/
def valuesUnder (key : List Value) (c : Identifier) : Set Value :=
  {v | v ≠ .null ∧ ∃ r ∈ kept, p.keyOf r = .ok key ∧ r.value c.name = v}

/-- Rows show the extremes of the groups of records: their keys are those of the records, each of
them once, or without columns to group by there is a single row; and in each column of which an
extreme is taken they show that of the values under their key. -/
structure ShowsExtremes (rows : List Record) : Prop where
  nodup : (rows.map p.rowKey).Nodup
  mem_iff : p.groupingKeys ≠ [] → ∀ k, k ∈ rows.map p.rowKey ↔ ∃ r ∈ kept, p.keyOf r = .ok k
  single : p.groupingKeys = [] → rows.length = 1
  extreme : ∀ c e, p.TakesExtreme c e → ∀ row ∈ rows,
    e.IsOf (p.valuesUnder kept (p.rowKey row) c) (row.value c.name)

end ChartPlan

section Groups

variable {p : ChartPlan} {kept : List Record} {c : Identifier} {a : Aggregation} {e : Extreme}

theorem ChartPlan.TakesExtreme.exists_aggregate (h : p.TakesExtreme c e) :
    ∃ a, p.TakesAggregate c a ∧ a.extreme? = some e := by
  rcases h with ⟨hc, rfl⟩ | ⟨hc, he⟩
  · exact ⟨.max, .inl ⟨hc, rfl⟩, rfl⟩
  · exact ⟨p.aggregation, .inr ⟨hc, rfl⟩, he⟩

theorem ChartPlan.TakesAggregate.takesExtreme (h : p.TakesAggregate c a)
    (ha : a.extreme? = some e) : p.TakesExtreme c e := by
  rcases h with ⟨hc, rfl⟩ | ⟨hc, rfl⟩
  · cases ha
    exact .inl ⟨hc, rfl⟩
  · exact .inr ⟨hc, ha⟩

theorem ChartPlan.TakesAggregate.mem_aggregated (h : p.TakesAggregate c a) :
    c ∈ p.drillDownLabel.toList ++ p.yAxis := by
  rcases h with ⟨hc, -⟩ | ⟨hc, -⟩
  · exact List.mem_append_left _ (Option.mem_toList.2 hc)
  · exact List.mem_append_right _ hc

/-- A label shows the greatest of its values, whatever the chart aggregates. -/
theorem ChartPlan.TakesAggregate.eq_count_or_extreme (h : p.TakesAggregate c a)
    (hneeds : p.aggregation.needsNumbers = false) : a = .count ∨ ∃ e, a.extreme? = some e := by
  rcases h with ⟨-, rfl⟩ | ⟨-, rfl⟩
  · exact .inr ⟨.greatest, rfl⟩
  · exact Aggregation.eq_count_or_extreme hneeds

/-- What is shown of a column of one kind is of one kind. -/
theorem exists_allOrdered_shownOf (hkind : ¬ (p.xAxis = some c ∧ p.resolution.isSome = true) →
    ∃ k, AllOrdered k (kept.map (·.value c.name)))
    (hcells : ∀ r ∈ kept, ∃ v, p.cell c r = .ok v) :
    ∃ k, AllOrdered k (kept.map (p.shownOf c)) := by
  by_cases hcut : p.xAxis = some c ∧ p.resolution.isSome = true
  · obtain ⟨k, hk⟩ := exists_allKeys_shownOf (fun hnot => absurd hcut hnot) hcells
    exact ⟨.key k, hk⟩
  · obtain ⟨k, hk⟩ := hkind hcut
    refine ⟨k, ?_⟩
    rwa [List.map_congr_left fun r _ => shownOf_of_not_cut hcut r]

/-- A group of records has the extreme of what it shows. -/
theorem ofGroup_extreme {k : OrderedKind} (hk : AllOrdered k (kept.map (p.shownOf c)))
    (ha : a.extreme? = some e) {rs : List Record} (hrs : rs ⊆ kept) :
    a.ofGroup (p.heldKind kept c) (rs.map (p.held kept c)) = .ok (p.groupValue kept a c rs) ∧
      e.IsOf {w | w ∈ rs.map (p.shownOf c) ∧ w ≠ .null} (p.groupValue kept a c rs) := by
  have hheld : rs.map (p.held kept c) = rs.map (p.shownOf c) :=
    List.map_congr_left fun r hr => hk.holdsShown.held_eq r (hrs hr)
  obtain ⟨v, hv, hextreme⟩ :=
    (hk.mono (List.map_subset _ hrs)).exists_extreme (p.heldKind kept c) e
  have hgroup := Aggregation.ofGroup_of_extreme ha hv
  have hvalue : p.groupValue kept a c rs = v := by
    rw [ChartPlan.groupValue, hheld, hgroup]
    rfl
  rw [hheld, hvalue]
  exact ⟨hgroup, hextreme⟩

/-- Extremes and counts are folded group by group. -/
theorem foldsBy_of_allOrdered (hcount : a = .count ∨ ∃ e, a.extreme? = some e ∧
    ∃ k, AllOrdered k (kept.map (p.shownOf c))) : p.FoldsBy kept c a := by
  rcases hcount with rfl | ⟨e, ha, k, hk⟩
  · exact ⟨_, PlainKind.whole.isRanked, fun rs _ => ⟨rfl, .inr rfl, fun _ h => absurd rfl h⟩⟩
  · refine ⟨_, k.isRanked, fun rs hrs => ?_⟩
    obtain ⟨hgroup, hextreme⟩ := ofGroup_extreme hk ha hrs
    rcases hextreme with ⟨-, hnull⟩ | ⟨⟨hmem, hne⟩, -⟩
    · refine ⟨hgroup, .inl hnull, fun _ _ => ?_⟩
      rw [hnull]
      rfl
    -- An extreme is one of the values shown, so it is in their order, and no whole number unless
    -- one of them is.
    · obtain ⟨r, hr, hvalue⟩ := List.mem_map.1 hmem
      refine ⟨hgroup, .inr ?_, fun hmixed _ => ?_⟩
      · rw [← hvalue] at hne ⊢
        exact (hk _ (List.mem_map_of_mem (hrs hr))).resolve_left hne
      · rw [← hvalue]
        exact hk.holdsShown.notInt hmixed r (hrs hr)

section Shown

variable (hnodup : (p.outputColumns.map Identifier.name).Nodup)
  (hcells : ∀ c ∈ p.outputColumns, ∀ r ∈ kept, ∃ v, p.cell c r = .ok v)
  (haggregation : p.aggregation.needsNumbers = false) (hkinds : p.HasOrderedKinds kept)

include hnodup hcells haggregation hkinds

/-- Every group of records has its extremes and its counts. -/
theorem foldsGroups_of_orderedKinds : p.FoldsGroups kept := by
  have hkeys : ∀ c ∈ p.groupingKeys, ∃ k, AllOrdered k (kept.map (p.shownOf c)) := fun c hc =>
    exists_allOrdered_shownOf (hkinds c (.inl hc))
      (hcells c (mem_outputColumns_of_mem (List.mem_append_left _ hc)))
  refine ⟨⟨hnodup, fun c hc => ?_, fun c hc => ?_⟩, fun c hc => ?_, fun c a ha => ?_, ?_, ?_⟩
  · exact hcells c (mem_outputColumns_of_mem (List.mem_append_left _ hc))
  · obtain ⟨k, hk⟩ := hkeys c hc
    exact hk.holdsShown
  · obtain ⟨k, hk⟩ := hkeys c hc
    exact ⟨_, k.isRanked, fun r hr => hk _ (List.mem_map_of_mem hr)⟩
  · refine foldsBy_of_allOrdered ?_
    rcases ha.eq_count_or_extreme haggregation with hcount | ⟨e, he⟩
    · exact .inl hcount
    · refine .inr ⟨e, he, ?_⟩
      exact exists_allOrdered_shownOf (hkinds c (.inr ⟨e, ha.takesExtreme he⟩))
        (hcells c ha.mem_outputColumns)
  · intro hmean
    rw [hmean] at haggregation
    cases haggregation
  · intro hneeds
    rw [haggregation] at hneeds
    cases hneeds

/-- **The rows of groups show their extremes.** -/
theorem showsExtremes_of_orderedKinds :
    p.ShowsExtremes kept ((p.recordGroups kept).map (p.keyedRow kept)) := by
  have hp := foldsGroups_of_orderedKinds hnodup hcells haggregation hkinds
  have hrowKeys : ((p.recordGroups kept).map (p.keyedRow kept)).map p.rowKey =
      (p.recordGroups kept).map (·.1) := by
    rw [List.map_map]
    exact List.map_congr_left fun g hg => rowKey_keyedRow hnodup hg
  refine ⟨?_, fun hkeys key => ?_, fun hkeys => ?_, fun c e htakes row hrow => ?_⟩
  · rw [hrowKeys]
    exact nodup_keys_recordGroups hp.toShowsGroups
  · rw [hrowKeys]
    exact mem_keys_recordGroups_iff hp.toShowsGroups hkeys
  · rw [recordGroups_of_nil hkeys]
    rfl
  · obtain ⟨g, hg, rfl⟩ := List.mem_map.1 hrow
    obtain ⟨a, ha, he⟩ := htakes.exists_aggregate
    obtain ⟨k, hk⟩ := exists_allOrdered_shownOf (hkinds c (.inr ⟨e, htakes⟩))
      (hcells c ha.mem_outputColumns)
    have hsub := subset_of_mem_recordGroups hg
    have hcut : ¬ (p.xAxis = some c ∧ p.resolution.isSome = true) :=
      fun hcut => xAxis_ne_of_aggregated hnodup ha.mem_aggregated hcut.1
    -- What a group shows is what its records have under their key.
    have hvalues : p.valuesUnder kept g.1 c = {w | w ∈ g.2.map (p.shownOf c) ∧ w ≠ .null} := by
      ext w
      simp only [ChartPlan.valuesUnder, Set.mem_ofPred_eq, List.mem_map, shownOf_of_not_cut hcut,
        mem_recordGroups_iff hp.toShowsGroups hg, and_assoc, and_comm (a := w ≠ .null)]
    rw [rowKey_keyedRow hnodup hg, value_keyedRow_aggregate hnodup ha, hvalues]
    exact (ofGroup_extreme hk he hsub).2

end Shown

end Groups

/-! ## Charts of extremes -/

section Charts

variable {p : ChartPlan} {kept : List Record}

/-- Without conditions all records are kept that have a value on the horizontal axis. -/
theorem filterRows_of_nil (hfilters : p.filters = []) (rs : List Record) :
    p.filterRows rs =
      .ok (rs.filter fun r => !p.xAxis.any fun x => (r.value x.name).isNull) := by
  have hkeeps (r : Record) :
      p.keeps r = .ok (!p.xAxis.any fun x => (r.value x.name).isNull) := by
    rw [ChartPlan.keeps, hfilters]
    split <;> simp_all [allHold]
  refine bind_eq_ok_iff.2 ⟨(), by rw [ChartPlan.checkShapes, hfilters]; rfl, ?_⟩
  refine keepRows_eq_ok_iff.2 ⟨fun r _ => ⟨_, hkeeps r⟩, List.filter_congr fun r _ => ?_⟩
  rw [hkeeps]
  rfl

/-- No value that is to be cut writes a day before the calendar. -/
def ChartPlan.CutsDays (p : ChartPlan) (kept : List Record) : Prop :=
  ∀ x, p.xAxis = some x → p.resolution.isSome = true →
    ∀ r ∈ kept, (r.value x.name).day? ≠ some .beforeCalendar

/-- The values of a column that is counted are not all lists of one length. -/
def ChartPlan.CountsFlat (p : ChartPlan) (kept : List Record) : Prop :=
  p.aggregation = .count → ∀ y ∈ p.yAxis, kept ≠ [] →
    ¬ ∃ n, ∀ r ∈ kept, ∃ items, r.value y.name = .list items ∧ items.length = n

theorem cutsDays_iff : p.CutsDays kept ↔
    ∀ c ∈ p.outputColumns, ∀ r ∈ kept, ∃ v, p.cell c r = .ok v := by
  constructor
  · intro hdays c _ r hr
    by_contra hfail
    obtain ⟨hx, hcut, hday⟩ := cell_eq_error_iff.1 (exists_error_iff.2 hfail)
    exact hdays c hx hcut r hr hday
  · intro hcells x hx hcut r hr hday
    have hshown := p.mem_outputColumns.2 (.inl (mem_groupingKeys_of_xAxis hx))
    exact exists_error_iff.1 (cell_eq_error_iff.2 ⟨hx, hcut, hday⟩) (hcells x hshown r hr)

/-- Columns of one kind have a frame unless a day cannot be cut, or what is counted is not flat. -/
theorem canHold_iff (hnodup : (p.outputColumns.map Identifier.name).Nodup)
    (haggregation : p.aggregation.needsNumbers = false) (hkinds : p.HasOrderedKinds kept) :
    (∀ c ∈ p.outputColumns, p.CanHold kept c) ↔ p.CutsDays kept ∧ p.CountsFlat kept := by
  have hdeep (c : Identifier) : 1 < columnDepth (kept.map (p.shownOf c)) ↔
      kept ≠ [] ∧ ∃ n, ∀ r ∈ kept, ∃ items, p.shownOf c r = .list items ∧ items.length = n := by
    simp only [one_lt_columnDepth_iff, ne_eq, List.map_eq_nil_iff, List.forall_mem_map]
  have hshown {y : Identifier} (hy : y ∈ p.yAxis) (r : Record) : p.shownOf y r = r.value y.name :=
    shownOf_of_not_cut (not_cut_of_mem_yAxis hnodup hy) r
  rw [cutsDays_iff]
  constructor
  · intro hhold
    refine ⟨fun c hc => (hhold c hc).1, fun _ y hy hne hlists => ?_⟩
    apply (hhold y (p.mem_outputColumns.2 (.inr (.inr hy)))).2
    simp only [hdeep, hshown hy]
    exact ⟨hne, hlists⟩
  · rintro ⟨hcells, hflat⟩ c hc
    refine ⟨hcells c hc, fun hlists => ?_⟩
    -- All other columns hold values of one kind, among which there are no lists.
    have hcases : (c ∈ p.groupingKeys ∨ ∃ e, p.TakesExtreme c e) ∨
        (c ∈ p.yAxis ∧ p.aggregation = .count) := by
      rcases p.mem_outputColumns.1 hc with hc | hc | hc
      · exact .inl (.inl hc)
      · exact .inl (.inr ⟨.greatest, .inl ⟨hc, rfl⟩⟩)
      · cases ha : p.aggregation
        case count => exact .inr ⟨hc, rfl⟩
        case min => exact .inl (.inr ⟨.least, .inr ⟨hc, by rw [ha]; rfl⟩⟩)
        case max => exact .inl (.inr ⟨.greatest, .inr ⟨hc, by rw [ha]; rfl⟩⟩)
        all_goals
          rw [ha] at haggregation
          cases haggregation
    rcases hcases with hkind | ⟨hy, hcount⟩
    · obtain ⟨k, hk⟩ := exists_allOrdered_shownOf (hkinds c hkind) (hcells c hc)
      rw [columnDepth_of_flat hk.isCompound_eq] at hlists
      exact absurd hlists (Nat.lt_irrefl 1)
    · simp only [hdeep, hshown hy] at hlists
      exact hflat hcount c hy hlists.1 hlists.2

/-- The rows of groups are arranged, and so they are the rows of the plan. -/
theorem exists_arrange_of_fitKeys {rows : List Record} (hfit : FitKeys p.sortKeys rows) :
    ∃ out, p.arrange rows = .ok out := by
  rw [ChartPlan.arrange, areSortable_of_fitKeys hfit]
  exact ⟨_, rfl⟩

end Charts

/-- The first session of each page, labelled with its last day. -/
def sessionSpec : ChartSpec :=
  { ChartSpec.ofTable "Sessions" "Start" with
    groupBy := .one "Page"
    aggregation := "min"
    drillDownLabel := some "Day" }

/-- The start, the day and the page of a session are given, or not known; nothing at all is known of
the sessions of one page. -/
def sessions : List Record :=
  [[("Page", .text "home"), ("Start", .null), ("Day", .date ⟨2024, 2, 28, by decide⟩)],
    [("Page", .text "home"), ("Day", .null),
      ("Start", .timestamp ⟨⟨2024, 3, 1, by decide⟩, 9, 30, 0, 0, none, by decide⟩)],
    [("Page", .text "home"), ("Day", .date ⟨2024, 3, 1, by decide⟩),
      ("Start", .timestamp ⟨⟨2024, 3, 1, by decide⟩, 9, 29, 59, 0, none, by decide⟩)],
    [("Page", .text "help"), ("Start", .null), ("Day", .null)],
    [("Page", .null), ("Start", .timestamp (.midnight ⟨1969, 7, 20, by decide⟩)), ("Day", .null)]]

/-- The fewest visitors of each day. -/
def fewestSpec : ChartSpec :=
  { ChartSpec.ofTable "Visits" "Visitors" with
    xAxis := some "Day"
    resolution := some "day"
    aggregation := "min" }

/-- A day of the year 0, which is none of the calendar. -/
def earlyVisits : List Record := [[("Day", .text "0000-01-01"), ("Visitors", .int 1)]]

end ChartQuery
