import ChartQuery.Proofs.Chart.Agreement
import ChartQuery.Proofs.Chart.KeyedRows
import ChartQuery.Proofs.Chart.ReorderedValues
import ChartQuery.Proofs.Local.KeptRecords

/-!
# Records in another order

A chart of records does not depend on their order, if its columns hold nulls and values of one kind
each and it takes no mean. Records in another order are grouped under the same keys, in the order in
which these are found; every group has the same row, since what is aggregated forgets the order of
the records; and the rows are sorted by their keys, which differ, so that no two of them tie.

## Main definitions

* `ChartPlan.HoldsKeys`: the shown columns hold nulls and values of one kind each
* `ChartPlan.FoldsKeys`: what a plan aggregates does not depend on the order of the records

## Main results

* `ChartPlan.FoldsKeys.foldsGroups`: every group of records has its aggregates
* `rowsOf_perm`: a plan makes the same rows of records in another order
* `aggregateRecords_perm`: the chart of records in another order is the same
-/

namespace ChartQuery

/-- The columns that a plan shows hold nulls and values of one kind each. One that is cut to a
resolution may hold anything. -/
def ChartPlan.HoldsKeys (p : ChartPlan) (rs : List Record) : Prop :=
  ∀ c ∈ p.outputColumns, ¬ (p.xAxis = some c ∧ p.resolution.isSome = true) →
    ∃ k, AllKeys k (rs.map (·.value c.name))

section Reordered

variable {p : ChartPlan} {kept kept' : List Record} {c : Identifier}

theorem ChartPlan.HoldsKeys.mono (h : p.HoldsKeys kept) (hsub : kept' ⊆ kept) :
    p.HoldsKeys kept' := by
  intro c hc hcut
  obtain ⟨k, hk⟩ := h c hc hcut
  exact ⟨k, hk.mono (List.map_subset _ hsub)⟩

/-! ## Frames -/

/-- In the frame of records in another order every column is of the same kind. -/
theorem heldKind_perm (hperm : kept'.Perm kept) (c : Identifier) :
    p.heldKind kept' c = p.heldKind kept c :=
  columnKind_perm (hperm.map _)

theorem held_perm (hperm : kept'.Perm kept) (c : Identifier) : p.held kept' c = p.held kept c := by
  funext r
  rw [ChartPlan.held, ChartPlan.held, heldKind_perm hperm]

theorem kinds_heldFrame_perm (hperm : kept'.Perm kept) :
    (p.heldFrame kept').kinds = (p.heldFrame kept).kinds :=
  List.map_congr_left fun c _ => by rw [heldKind_perm hperm]

theorem checkNumeric_perm (hperm : kept'.Perm kept) :
    p.checkNumeric (p.heldFrame kept') = p.checkNumeric (p.heldFrame kept) := by
  have hkind : (p.heldFrame kept').kind = (p.heldFrame kept).kind := by
    funext name
    rw [Frame.kind, Frame.kind, kinds_heldFrame_perm hperm]
  rw [ChartPlan.checkNumeric, ChartPlan.checkNumeric, hkind]

theorem AllKeys.columnDepth_eq {k : KeyKind} {vs : List Value} (h : AllKeys k vs) :
    columnDepth vs = 1 := by
  refine columnDepth_of_flat fun v hv => ?_
  rcases h v hv with rfl | hhas
  · rfl
  · exact k.isRanked.flat v hhas

/-- What is shown of a column of one kind is flat. -/
theorem ChartPlan.HoldsKeys.canHold (h : p.HoldsKeys kept) (hc : c ∈ p.outputColumns)
    (hcells : ∀ r ∈ kept, ∃ v, p.cell c r = .ok v) : p.CanHold kept c := by
  obtain ⟨k, hk⟩ := exists_allKeys_shownOf (h c hc) hcells
  refine ⟨hcells, ?_⟩
  rw [hk.columnDepth_eq]
  exact Nat.lt_irrefl 1

/-- Only a day before the calendar cannot be shown. -/
theorem eq_beforeCalendar_of_cell {r : Record} {u : Unforeseen} (h : p.cell c r = .error u) :
    u = .beforeCalendar := by
  rw [ChartPlan.cell] at h
  cases hr : p.resolution with
  | none =>
    rw [hr] at h
    cases h
  | some resolution =>
    rw [hr] at h
    dsimp only at h
    split at h
    · rw [Resolution.bucket] at h
      split at h <;> cases h
      rfl
    · cases h

/-- Records of columns of one kind have no frame only because of a day before the calendar. -/
theorem eq_beforeCalendar_of_frame (h : p.HoldsKeys kept) {u : Unforeseen}
    (hu : p.frame kept = .error u) : u = .beforeCalendar := by
  rw [ChartPlan.frame] at hu
  rcases bind_eq_error_iff.1 hu with hcolumns | ⟨columns, -, hok⟩
  · obtain ⟨c, hc, hcolumn⟩ := exists_mem_of_mapM_error hcolumns
    rcases bind_eq_error_iff.1 hcolumn with hcells | ⟨vs, -, hok⟩
    · rcases bind_eq_error_iff.1 hcells with hvalues | ⟨vs, hvalues, -⟩
      · obtain ⟨r, -, hcell⟩ := exists_mem_of_mapM_error hvalues
        exact eq_beforeCalendar_of_cell hcell
      -- Where all values can be shown, so can the column, since it is flat.
      · obtain ⟨hshown, hflat⟩ := h.canHold hc (exists_mapM_ok_iff.1 ⟨vs, hvalues⟩)
        rw [ChartPlan.cells_eq_ok_iff.2 ⟨hshown, hflat, rfl⟩] at hcells
        cases hcells
    · cases hok
  · cases hok

/-! ## Values of groups -/

/-- What a plan aggregates of a column: its label is the greatest one, and of the vertical axis it
takes the aggregate that was asked for, but no mean, and a sum only of numbers. -/
structure ChartPlan.Aggregates (p : ChartPlan) (kept : List Record) (a : Aggregation)
    (c : Identifier) : Prop where
  shown : c ∈ p.outputColumns
  notMean : a ≠ .avg
  numbers : a.needsNumbers = true → (p.heldKind kept c).isNumeric = true

/-- What a plan aggregates does not depend on the order of the records: the columns that it shows
hold nulls and values of one kind each, and it takes no mean, and sums of numbers only. -/
structure ChartPlan.FoldsKeys (p : ChartPlan) (kept : List Record) : Prop extends
    p.ShowsKeys kept where
  columns : p.HoldsKeys kept
  notMean : p.aggregation ≠ .avg
  numbers : p.HasNumbers (p.heldFrame kept)

namespace ChartPlan.FoldsKeys

variable (hp : p.FoldsKeys kept)

include hp

/-- The label and the columns of the vertical axis are aggregated. -/
theorem aggregates : (∀ c ∈ p.drillDownLabel.toList, p.Aggregates kept .max c) ∧
    ∀ c ∈ p.yAxis, p.Aggregates kept p.aggregation c := by
  constructor
  · intro c hc
    refine ⟨p.mem_outputColumns.2 (.inr (.inl (Option.mem_toList.1 hc))), ?_, ?_⟩
    · exact Aggregation.noConfusion
    · exact fun h => Bool.noConfusion h
  · intro c hc
    have hshown := p.mem_outputColumns.2 (.inr (.inr hc))
    refine ⟨hshown, hp.notMean, fun hneeds => ?_⟩
    rw [← kind_heldFrame hp.nodup hshown]
    exact hp.numbers hneeds c hc

/-- A shown column carries nulls and values of one kind, which are held as they are shown. -/
theorem exists_carries (hc : c ∈ p.outputColumns) :
    ∃ k, (p.heldKind kept c).Carries k (kept.map (p.held kept c)) := by
  obtain ⟨k, hk⟩ := exists_allKeys_shownOf (hp.columns c hc) (hp.cells c hc)
  have hheld : ∀ r ∈ kept, p.held kept c r = p.shownOf c r := fun r hr =>
    KeyKind.convert_eq hk (List.mem_map_of_mem hr)
  refine ⟨k, ?_⟩
  rw [List.map_congr_left hheld]
  exact hk.carries p c

/-- Every group has an aggregate in a column that a plan aggregates. -/
theorem exists_groupValue {a : Aggregation} (ha : p.Aggregates kept a c) : p.FoldsBy kept c a := by
  obtain ⟨k, hk⟩ := hp.exists_carries ha.shown
  refine ⟨_, a.isRanked_gives k, fun rs hrs => ?_⟩
  obtain ⟨v, hv, hgives⟩ := Aggregation.exists_ofGroup_eq (hk.mono (List.map_subset _ hrs))
    ha.notMean ha.numbers
  have hvalue : p.groupValue kept a c rs = v := by
    rw [ChartPlan.groupValue, hv]
    rfl
  rw [hvalue]
  exact ⟨hv, hgives⟩

/-- Every group of records has its aggregates. -/
theorem foldsGroups : p.FoldsGroups kept where
  toShowsGroups := hp.showsGroups
  ranked c hc := by
    obtain ⟨k, hk⟩ := hp.exists_allKeys (List.mem_append_left _ hc)
    exact ⟨_, k.isRanked, fun r hr => hk _ (List.mem_map_of_mem hr)⟩
  folds c a ha := by
    rcases ha with ⟨hc, rfl⟩ | ⟨hc, rfl⟩
    · exact hp.exists_groupValue (hp.aggregates.1 c (Option.mem_toList.2 hc))
    · exact hp.exists_groupValue (hp.aggregates.2 c hc)
  notMean := hp.notMean
  numbers := hp.numbers

end ChartPlan.FoldsKeys

/-! ## Another order -/

theorem ChartPlan.ShowsKeys.perm (hp : p.ShowsKeys kept) (hperm : kept'.Perm kept) :
    p.ShowsKeys kept' where
  nodup := hp.nodup
  cells c hc r hr := hp.cells c hc r (hperm.mem_iff.1 hr)
  kinds c hc hcut := by
    obtain ⟨k, hk⟩ := hp.kinds c hc hcut
    exact ⟨k, hk.mono (List.map_subset _ hperm.subset)⟩

theorem ChartPlan.FoldsKeys.perm (hp : p.FoldsKeys kept) (hperm : kept'.Perm kept) :
    p.FoldsKeys kept' where
  toShowsKeys := hp.toShowsKeys.perm hperm
  columns := hp.columns.mono hperm.subset
  notMean := hp.notMean
  numbers := by
    rw [← checkNumeric_eq_ok_iff, checkNumeric_perm hperm]
    exact checkNumeric_eq_ok_iff.2 hp.numbers

/-- A group has the same row, in whichever order its records and all others are. -/
theorem keyedRow_perm (hp : p.FoldsKeys kept) (hperm : kept'.Perm kept) (key : List Value)
    {rs rs' : List Record} (hsub : rs ⊆ kept) (hrs : rs'.Perm rs) :
    p.keyedRow kept' (key, rs') = p.keyedRow kept (key, rs) := by
  obtain ⟨hlabel, hvalue⟩ := hp.aggregates
  have haggregate {a : Aggregation} {c : Identifier} (ha : p.Aggregates kept a c) :
      p.groupValue kept' a c rs' = p.groupValue kept a c rs := by
    obtain ⟨k, hk⟩ := hp.exists_carries ha.shown
    rw [ChartPlan.groupValue, ChartPlan.groupValue, heldKind_perm hperm, held_perm hperm,
      Aggregation.ofGroup_perm (hk.mono (List.map_subset _ hsub)) ha.notMean ha.numbers
        (hrs.map _)]
  -- A key column shows the key, and only the other columns look at the records.
  simp only [ChartPlan.keyedRow, ChartPlan.keyedColumns, List.map_append, List.map_map,
    Function.comp_def]
  congr 1
  · congr 1
    · refine List.ext_getElem (by simp) fun n _ _ => ?_
      simp
    · exact List.map_congr_left fun c hc => by rw [haggregate (hlabel c hc)]
  · exact List.map_congr_left fun c hc => by rw [haggregate (hvalue c hc)]

/-- The rows of groups are the same, in some order. -/
theorem recordGroups_perm (hp : p.FoldsKeys kept) (hperm : kept'.Perm kept) :
    ((p.recordGroups kept').map (p.keyedRow kept')).Perm
      ((p.recordGroups kept).map (p.keyedRow kept)) := by
  by_cases hkeys : p.groupingKeys = []
  · rw [recordGroups_of_nil hkeys, recordGroups_of_nil hkeys, List.map_singleton,
      List.map_singleton, keyedRow_perm hp hperm [] (List.Subset.refl kept) hperm]
  · rw [recordGroups_of_ne_nil hkeys, recordGroups_of_ne_nil hkeys]
    exact map_groupRows_perm hperm (fun _ hr _ hs => hp.showsGroups.eqvList_shownKeyOf hr hs)
      fun key _ _ hsub hrs => keyedRow_perm hp hperm key hsub hrs

/-- Rows that are sorted lawfully, and of which no two tie, are arranged alike. -/
theorem arrange_perm {rows rows' : List Record} (hperm : rows'.Perm rows)
    (hfit : FitKeys p.sortKeys rows)
    (hdistinct : ∀ r ∈ rows, ∀ s ∈ rows,
      (∀ key ∈ p.sortKeys, r.value key.column = s.value key.column) → r = s) :
    p.arrange rows' = p.arrange rows := by
  have hfit' : FitKeys p.sortKeys rows' := by
    intro key hkey
    obtain ⟨P, hP, hvalues⟩ := hfit key hkey
    exact ⟨P, hP, fun r hr => hvalues r (hperm.mem_iff.1 hr)⟩
  rw [ChartPlan.arrange, ChartPlan.arrange, areSortable_of_fitKeys hfit,
    areSortable_of_fitKeys hfit', sortRows_eq_of_perm hperm hfit hdistinct]

/-- The frames of records in another order are reduced to rows that are arranged alike. -/
theorem reduce_perm (hp : p.ShowsKeys kept) (hkeys : p.HoldsKeys kept)
    (havg : p.aggregation ≠ .avg) (horder : ∀ c, p.orderBy = some c → c ∈ p.outputColumns)
    (hperm : kept'.Perm kept) :
    (p.reduce (p.heldFrame kept') >>= fun rows => (p.arrange rows).mapError .execution) =
      p.reduce (p.heldFrame kept) >>= fun rows => (p.arrange rows).mapError .execution := by
  cases hcheck : p.checkNumeric (p.heldFrame kept) with
  | error e =>
    rw [ChartPlan.reduce, ChartPlan.reduce, checkNumeric_perm hperm, hcheck]
    simp only [Except.mapError, bind, Except.bind]
  | ok u =>
    -- Now that the numbers are numbers, what is aggregated forgets the order.
    have hfolds : p.FoldsKeys kept := ⟨hp, hkeys, havg, checkNumeric_eq_ok_iff.1 hcheck⟩
    -- The rows of the groups differ in their order only, which sorting forgets.
    have harrange : p.arrange ((p.recordGroups kept').map (p.keyedRow kept')) =
        p.arrange ((p.recordGroups kept).map (p.keyedRow kept)) := by
      refine arrange_perm (recordGroups_perm hfolds hperm) (hfolds.foldsGroups.fitKeys horder) ?_
      intro r hr s hs hsame
      obtain ⟨g, hg, rfl⟩ := List.mem_map.1 hr
      obtain ⟨g', hg', rfl⟩ := List.mem_map.1 hs
      rw [groups_eq_of_value_eq hp.nodup hg hg' hsame]
    rw [hfolds.foldsGroups.reduce_eq, (hfolds.perm hperm).foldsGroups.reduce_eq]
    simp only [bind, Except.bind, harrange]

/-- **A plan makes the same rows of records in another order.** -/
theorem rowsOf_perm (hnodup : (p.outputColumns.map Identifier.name).Nodup)
    (hkeys : p.HoldsKeys kept) (havg : p.aggregation ≠ .avg)
    (horder : ∀ c, p.orderBy = some c → c ∈ p.outputColumns) (hperm : kept'.Perm kept) :
    p.rowsOf kept' = p.rowsOf kept := by
  have hkeys' := hkeys.mono hperm.subset
  by_cases hcells : ∀ c ∈ p.outputColumns, ∀ r ∈ kept, ∃ v, p.cell c r = .ok v
  · have hp : p.ShowsKeys kept :=
      ⟨hnodup, hcells, fun c hc => hkeys c (mem_outputColumns_of_mem hc)⟩
    have hframe : p.frame kept = .ok (p.heldFrame kept) :=
      ChartPlan.frame_eq_ok_iff.2 ⟨fun c hc => hkeys.canHold hc (hcells c hc), rfl⟩
    have hframe' : p.frame kept' = .ok (p.heldFrame kept') :=
      ChartPlan.frame_eq_ok_iff.2
        ⟨fun c hc => hkeys'.canHold hc ((hp.perm hperm).cells c hc), rfl⟩
    rw [ChartPlan.rowsOf, ChartPlan.rowsOf, hframe, hframe']
    exact reduce_perm hp hkeys havg horder hperm
  -- A value that cannot be shown cannot be shown in any order.
  · simp only [not_forall, exists_prop] at hcells
    obtain ⟨c, hc, r, hr, hfail⟩ := hcells
    obtain ⟨e, he⟩ := exists_error_iff.2 hfail
    obtain ⟨u, hu⟩ := ChartPlan.frame_eq_error_iff.2 (.inl ⟨c, hc, r, hr, e, he⟩)
    obtain ⟨u', hu'⟩ := ChartPlan.frame_eq_error_iff.2
      (.inl ⟨c, hc, r, hperm.mem_iff.2 hr, e, he⟩)
    rw [ChartPlan.rowsOf, ChartPlan.rowsOf, hu, hu', eq_beforeCalendar_of_frame hkeys hu,
      eq_beforeCalendar_of_frame hkeys' hu']

/-! ## Filtered records -/

/-- Of records in another order the same ones are kept. -/
theorem exists_filterRows_perm {rs rs' : List Record} (hperm : rs'.Perm rs)
    (h : p.filterRows rs = .ok kept) : ∃ kept', p.filterRows rs' = .ok kept' ∧ kept'.Perm kept := by
  obtain ⟨u, hshapes, hkeep⟩ := bind_eq_ok_iff.1 h
  obtain ⟨hall, rfl⟩ := keepRows_eq_ok_iff.1 hkeep
  refine ⟨_, bind_eq_ok_iff.2 ⟨u, hshapes, keepRows_eq_ok_iff.2 ⟨fun r hr => ?_, rfl⟩⟩, ?_⟩
  · exact hall r (hperm.mem_iff.1 hr)
  · exact hperm.filter _

theorem filterRows_subset {rs : List Record} (h : p.filterRows rs = .ok kept) : kept ⊆ rs := by
  obtain ⟨-, -, hkeep⟩ := bind_eq_ok_iff.1 h
  exact (ChartPlan.keepRows_sublist hkeep).subset

/-- Records in another order have the same rows, or in both orders a condition cannot be decided. -/
theorem unlabelledRows_perm {rs rs' : List Record}
    (hnodup : (p.outputColumns.map Identifier.name).Nodup) (hkeys : p.HoldsKeys rs)
    (havg : p.aggregation ≠ .avg) (horder : ∀ c, p.orderBy = some c → c ∈ p.outputColumns)
    (hperm : rs'.Perm rs) :
    p.unlabelledRows rs' = p.unlabelledRows rs ∨
      ∃ fault fault', p.unlabelledRows rs' = .error (.execution fault') ∧
        p.unlabelledRows rs = .error (.execution fault) := by
  -- A record that cannot be decided on cannot be in any order, though another may be met first.
  cases hfilter : p.filterRows rs with
  | ok kept =>
    left
    obtain ⟨kept', hfilter', hkept⟩ := exists_filterRows_perm hperm hfilter
    have hrows := rowsOf_perm hnodup (hkeys.mono (filterRows_subset hfilter)) havg horder hkept
    rw [ChartPlan.unlabelledRows, ChartPlan.unlabelledRows, hfilter, hfilter']
    exact hrows
  | error fault =>
    right
    cases hfilter' : p.filterRows rs' with
    | ok kept' =>
      obtain ⟨kept, hkept, -⟩ := exists_filterRows_perm hperm.symm hfilter'
      rw [hfilter] at hkept
      cases hkept
    | error fault' =>
      refine ⟨fault, fault', ?_, ?_⟩
      · rw [ChartPlan.unlabelledRows, hfilter']
        rfl
      · rw [ChartPlan.unlabelledRows, hfilter]
        rfl

end Reordered

/-! ## Charts -/

/-- Records in another order have the same columns. -/
theorem agrees_columnsOfRecords_perm {rs rs' : List Record} (hperm : rs'.Perm rs) :
    (columnsOfRecords rs').Agrees (columnsOfRecords rs) where
  isColumn := by
    refine ColumnSet.isColumn_congr fun name => ?_
    simp only [mem_columnsOfRecords, hperm.mem_iff]
  isFloat := rfl

/-- **The chart of records does not depend on their order.** If every column that the plan shows
holds nulls and values of one kind, and no mean is asked for, then records in another order have the
same chart, with the same rows in the same order and the same warnings, or fail with the same error;
unless a condition cannot be decided, which in both orders is an error of execution. -/
theorem aggregateRecords_perm (limits : RowLimits) (spec : ChartSpec) (rows rows' : List Record)
    (maxRows : Option Int) (hperm : rows'.Perm rows)
    (hkeys : ∀ p, resolvePlan limits spec (columnsOfRecords (rows.map Record.cleaned)) maxRows =
      .ok p → p.aggregation ≠ .avg ∧ p.HoldsKeys (rows.map Record.cleaned)) :
    aggregateRecords limits spec rows' maxRows = aggregateRecords limits spec rows maxRows ∨
      ∃ fault fault', aggregateRecords limits spec rows' maxRows = .error (.execution fault') ∧
        aggregateRecords limits spec rows maxRows = .error (.execution fault) := by
  have hcleaned := hperm.map Record.cleaned
  rw [aggregateRecords, aggregateRecords,
    resolvePlan_congr (agrees_columnsOfRecords_perm hcleaned)]
  cases hplan : resolvePlan limits spec (columnsOfRecords (rows.map Record.cleaned)) maxRows with
  | error e => exact .inl rfl
  | ok p =>
    obtain ⟨havg, hholds⟩ := hkeys p hplan
    obtain ⟨x, -, -, hbeside⟩ := resolvePlan_eq_ok_iff.1 hplan
    have hnodup : (p.outputColumns.map Identifier.name).Nodup := by
      rw [hbeside]
      exact Identifier.nodup_names planBeside_nodup
    rcases unlabelledRows_perm hnodup hholds havg (orderBy_of_resolvePlan hplan) hcleaned with
      hsame | ⟨fault, fault', hfail', hfail⟩
    · left
      simp only [mapError_ok, bind, Except.bind, ChartPlan.apply, hsame]
    · right
      refine ⟨fault, fault', ?_, ?_⟩
      · simp only [mapError_ok, bind, Except.bind, ChartPlan.apply, hfail', Except.map]
      · simp only [mapError_ok, bind, Except.bind, ChartPlan.apply, hfail, Except.map]

/-! ## Sums that tie -/

/-- The three greatest sums of sales by region, and by whether they are settled, each with its last
day. -/
def saleSpec : ChartSpec :=
  { ChartSpec.ofTable "Sales" "Amount" with
    xAxis := some "Region"
    groupBy := .one "Settled"
    aggregation := "sum"
    orderBy := some "Amount"
    orderDirection := "desc"
    limit := some 3
    drillDownLabel := some "Day" }

/-- Three of the sums are seven, and one group has no amount; a region and some of the days are not
known. -/
def sales : List Record :=
  [[("Region", .text "south"), ("Settled", .bool false), ("Amount", .int 7), ("Day", .null)],
    [("Region", .text "north"), ("Settled", .null), ("Amount", .int 7),
      ("Day", .date ⟨2020, 2, 29, by decide⟩)],
    [("Region", .text "north"), ("Settled", .bool true), ("Amount", .int 9),
      ("Day", .date ⟨2020, 1, 30, by decide⟩)],
    [("Region", .null), ("Settled", .bool true), ("Amount", .int 100), ("Day", .null)],
    [("Region", .text "west"), ("Settled", .bool false), ("Amount", .null), ("Day", .null)],
    [("Region", .text "north"), ("Settled", .bool true), ("Amount", .int (-2)),
      ("Day", .date ⟨2020, 1, 31, by decide⟩)]]

theorem aggregateRecords_perm_sales :
    ∃ result, aggregateRecords .standard saleSpec sales none = .ok result ∧
      aggregateRecords .standard saleSpec sales.reverse none = .ok result := by
  have hok : (aggregateRecords .standard saleSpec sales none).toBool = true := by decide +kernel
  have hkeys : ∀ p, resolvePlan .standard saleSpec
      (columnsOfRecords (sales.map Record.cleaned)) none = .ok p →
      p.aggregation ≠ .avg ∧ p.HoldsKeys (sales.map Record.cleaned) := by
    intro p hplan
    obtain ⟨x, hx, -, hp⟩ := resolvePlan_eq_ok_iff.1 hplan
    obtain ⟨-, rfl⟩ := resolveXAxis_eq_ok_iff.1 hx
    have hparts : p.outputColumns.map Identifier.name = ["Region", "Settled", "Day", "Amount"] ∧
        p.aggregation = .sum := by
      rw [hp]
      decide +kernel
    obtain ⟨hcolumns, hsum⟩ := hparts
    refine ⟨by rw [hsum]; exact Aggregation.noConfusion, fun c hc _ => ?_⟩
    have hname : c.name ∈ p.outputColumns.map Identifier.name := List.mem_map_of_mem hc
    rw [hcolumns] at hname
    simp only [List.mem_cons, List.not_mem_nil, or_false] at hname
    rcases hname with hname | hname | hname | hname
    · rw [hname]
      exact ⟨.text, allKeys_of_all (by decide +kernel)⟩
    · rw [hname]
      exact ⟨.truth, allKeys_of_all (by decide +kernel)⟩
    · rw [hname]
      exact ⟨.date, allKeys_of_all (by decide +kernel)⟩
    · rw [hname]
      exact ⟨.signed, allKeys_of_all (by decide +kernel)⟩
  cases hrun : aggregateRecords .standard saleSpec sales none with
  | error fault =>
    rw [hrun] at hok
    cases hok
  | ok result =>
    rcases aggregateRecords_perm .standard saleSpec sales sales.reverse none
      (List.reverse_perm sales) hkeys with hsame | ⟨fault, -, -, hfail⟩
    · exact ⟨result, rfl, hsame.trans hrun⟩
    · rw [hrun] at hfail
      cases hfail

end ChartQuery
