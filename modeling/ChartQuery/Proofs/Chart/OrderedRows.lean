import ChartQuery.Proofs.Chart.KeyedRows
import ChartQuery.Proofs.Chart.ResultPositions
import ChartQuery.Proofs.Chart.ScalarKinds
import ChartQuery.Proofs.Chart.WordSums

/-!
# The order and the number of rows

The rows of a chart over records, before they are labelled, come in the order that was asked for:
by the column of the order in its direction, then by the other keys upwards, nulls always last. No
two rows tie where there are keys, since the keys of groups differ. There are no more rows than asked
for, and fewer rows asked for are the first ones of more.

## Main definitions

* `Precedes`, `Ties`: how two values of a column stand to one another
* `ComesBefore columns r s`: a row is strictly before another by the columns of an order
* `ChartPlan.HoldsScalars p f`: each shown column holds nulls and values of one kind

## Main results

* `comesBefore_of_compareRows`: rows that are compared as such come one before the other
* `ChartPlan.pairwise_comesBefore`: arranged rows are strictly in order
* `aggregateRecords_withLimit`: fewer rows asked for are the first ones of more
* `aggregateRecords_ordersAndCuts`: both, for every chart of records
-/

namespace ChartQuery

/-! ## Rows one before the other -/

/-- A value comes before another one in a direction; null comes before nothing, and everything else
before null, in both directions. -/
def Precedes (descending : Bool) (v w : Value) : Prop :=
  v ≠ .null ∧ (w = .null ∨ v.order w = .ok (some (if descending then .gt else .lt)))

/-- Neither of two values comes before the other: both are null, or they tie. -/
def Ties (v w : Value) : Prop := (v = .null ∧ w = .null) ∨ v.order w = .ok (some .eq)

/-- A row is strictly before another one by several columns with their directions: it precedes the
other in the first of them in which they do not tie. -/
def ComesBefore : List (Identifier × Bool) → Record → Record → Prop
  | [], _, _ => False
  | (c, descending) :: columns, r, s =>
    Precedes descending (r.value c.name) (s.value c.name) ∨
      Ties (r.value c.name) (s.value c.name) ∧ ComesBefore columns r s

/-- Values that tie are equal. -/
theorem Ties.eqv {v w : Value} (h : Ties v w) (hv : v.isCompound = false) : v.eqv w = true := by
  rcases h with ⟨rfl, rfl⟩ | htie
  · rfl
  · exact Value.eqv_of_order hv htie

/-- A value that precedes another one does not tie with it. -/
theorem Precedes.not_ties {descending : Bool} {v w : Value} (h : Precedes descending v w) :
    ¬ Ties v w := by
  obtain ⟨hpresent, hbefore⟩ := h
  rintro (⟨hnull, -⟩ | htie)
  · exact hpresent hnull
  rcases hbefore with rfl | hbefore
  · -- No value has an order with null.
    cases v <;> simp [Value.order, Value.compareNumbers?, Value.asDecimal?, Value.asInt?] at htie
  · rw [htie] at hbefore
    cases descending <;> cases hbefore

/-- A row that comes before another one does not tie with it. -/
theorem ComesBefore.not_ties {columns : List (Identifier × Bool)} {r s : Record}
    (h : ComesBefore columns r s) :
    ¬ ∀ c ∈ columns, Ties (r.value c.1.name) (s.value c.1.name) := by
  intro hties
  induction columns with
  | nil => exact h
  | cons c columns ih =>
    rcases h with hprecedes | ⟨-, hrest⟩
    · exact hprecedes.not_ties (hties c List.mem_cons_self)
    · exact ih hrest fun d hd => hties d (List.mem_cons_of_mem c hd)

namespace SortKey

variable {P : Value → Prop} {v w : Value} {key : SortKey} (hP : IsPreordered P)
  (hv : v = .null ∨ P v) (hw : w = .null ∨ P w)

include hP hv hw

theorem precedes_of_compare (h : key.compare v w = .lt) : Precedes key.descending v w := by
  rcases hv with rfl | hv
  · -- Null is before nothing, not even before itself.
    rcases hw with rfl | hw
    · cases h
    · rw [key.compare_null_left hP hw] at h
      cases h
  · refine ⟨fun hnull => ?_, ?_⟩
    · have := hP.present v hv
      rw [hnull] at this
      cases this
    rcases hw with rfl | hw
    · exact .inl rfl
    · right
      rw [key.compare_of_ranked hP hv hw] at h
      rw [hP.order_eq v w hv hw]
      cases hdesc : key.descending
      · rw [hdesc, if_neg Bool.false_ne_true] at h
        rw [h]
        rfl
      · rw [hdesc, if_pos rfl, Ordering.swap_eq_lt] at h
        rw [h]
        rfl

theorem ties_of_compare (h : key.compare v w = .eq) : Ties v w := by
  rcases hv with rfl | hv
  · rcases hw with rfl | hw
    · exact .inl ⟨rfl, rfl⟩
    · rw [key.compare_null_left hP hw] at h
      cases h
  · rcases hw with rfl | hw
    · rw [key.compare_null_right hP hv] at h
      cases h
    · right
      rw [key.compare_of_ranked hP hv hw] at h
      rw [hP.order_eq v w hv hw]
      split at h
      · rw [Ordering.swap_eq_eq.1 h]
      · rw [h]

end SortKey

/-- A column of an order as one to sort by. -/
def sortKeyOf (c : Identifier × Bool) : SortKey := ⟨c.1.name, c.2⟩

/-- A plan sorts by the columns of its order. -/
theorem ChartPlan.sortKeys_eq {p : ChartPlan} (h : p.groupingKeys.Nodup) :
    p.sortKeys = p.orderColumns.map sortKeyOf := by
  simp only [sortKeys, trailingKeys_eq h, orderColumns, List.map_append, List.map_map]
  rfl

/-- Rows that are compared as one before the other come so. -/
theorem comesBefore_of_compareRows {columns : List (Identifier × Bool)} {rows : List Record}
    (h : OrdersKeys (columns.map sortKeyOf) rows) {r s : Record} (hr : r ∈ rows) (hs : s ∈ rows)
    (hlt : compareRows r s (columns.map sortKeyOf) = .lt) : ComesBefore columns r s := by
  -- Induction on the columns: the first in which the rows do not tie decides.
  induction columns with
  | nil => cases hlt
  | cons c columns ih =>
    obtain ⟨P, hP, hvalues⟩ := h (sortKeyOf c) List.mem_cons_self
    rw [List.map_cons, compareRows, Ordering.then_eq_lt] at hlt
    rcases hlt with hlt | ⟨htie, hlt⟩
    · left
      exact SortKey.precedes_of_compare hP (hvalues r hr) (hvalues s hs) hlt
    · right
      exact ⟨SortKey.ties_of_compare hP (hvalues r hr) (hvalues s hs) htie, ih h.tail hlt⟩

/-! ## Columns of keys -/

/-- The shown columns hold nulls and values of one kind each: in the frame, or else, unless rows are
grouped by it, in the rows that the frame is reduced to, as any column does that is counted. -/
def ChartPlan.HoldsScalars (p : ChartPlan) (f : Frame) (reduced : List Record) : Prop :=
  ∀ c ∈ p.outputColumns, ∃ k, AllScalars k (f.column c.name) ∨
    c ∉ p.groupingKeys ∧ AllScalars k (reduced.map (·.value c.name))

/-- A column to group by holds nulls and values of one kind in the frame. -/
theorem ChartPlan.HoldsScalars.key {p : ChartPlan} {f : Frame} {reduced : List Record}
    (h : p.HoldsScalars f reduced) {c : Identifier} (hc : c ∈ p.groupingKeys) :
    ∃ k, AllScalars k (f.column c.name) := by
  obtain ⟨k, hk | ⟨hnot, -⟩⟩ := h c (mem_outputColumns_of_mem (List.mem_append_left _ hc))
  · exact ⟨k, hk⟩
  · exact absurd hc hnot

section Columns

variable {p : ChartPlan} {kept reduced : List Record} {gs : List (List Value × List Record)}
  (hscalars : p.HoldsScalars (p.heldFrame kept) reduced)
  (hgs : p.groups (p.heldFrame kept) = .ok gs)

include hscalars hgs

/-- Each whole number of a column of whole numbers is in the key of a group. -/
theorem int_mem_keys {n : Nat} {c : Identifier} (hc : p.groupingKeys[n]? = some c)
    (hwhole : AllScalars .whole ((p.heldFrame kept).column c.name)) {i : Int}
    (hi : Value.int i ∈ (p.heldFrame kept).column c.name) :
    Value.int i ∈ gs.map fun g => g.1.getD n .null := by
  obtain ⟨r, hr, hvalue⟩ := List.mem_map.1 hi
  -- The key of the row equals itself, so that some group is under a key equal to it.
  have hself : Value.eqvList (p.frameKey (p.heldFrame kept) r)
      (p.frameKey (p.heldFrame kept) r) = true := by
    refine eqvList_map_eq_true_iff.2 fun d hd => ?_
    obtain ⟨k, hk⟩ := hscalars.key hd
    exact hk.eqv_self (asFirstSeen_mem (List.mem_map_of_mem hr))
  obtain ⟨key, hkey, hsame⟩ := List.any_eq_true.1
    (mem_distinctKeys_self hself (List.mem_map_of_mem hr))
  rw [← groupRows_keys, ← eq_groupRows_of_groups hgs] at hkey
  obtain ⟨g, hg, rfl⟩ := List.mem_map.1 hkey
  refine List.mem_map.2 ⟨g, hg, ?_⟩
  obtain ⟨s, hs, hgkey⟩ := exists_frameKey hgs hg
  -- In this column both show a whole number, which is the same then.
  rw [hgkey, ChartPlan.frameKey, ChartPlan.frameKey, eqvList_map_eq_true_iff] at hsame
  have heqv := hsame c (List.mem_of_getElem? hc)
  rw [hvalue, asFirstSeen_of_eqv hwhole.eq_of_eqv hi] at heqv
  have hfirst := hwhole.eq_of_eqv _ (asFirstSeen_mem (List.mem_map_of_mem hs)) _ hi heqv
  simpa [hgkey, ChartPlan.frameKey, List.getD_eq_getElem?_getD, hc] using hfirst

/-- The column of a key shows the values of the keys as they are. -/
theorem resultColumn_keys (hnodup : (p.outputColumns.map Identifier.name).Nodup) {n : Nat}
    {c : Identifier} (hc : p.groupingKeys[n]? = some c) :
    ChartPlan.resultColumn (p.heldFrame kept) c.name (gs.map fun g => g.1.getD n .null) =
      (c.name, gs.map fun g => g.1.getD n .null) := by
  have hshown : c ∈ p.outputColumns :=
    mem_outputColumns_of_mem (List.mem_append_left _ (List.mem_of_getElem? hc))
  have hsub : (gs.map fun g => g.1.getD n .null) ⊆ (p.heldFrame kept).column c.name := by
    intro v hv
    obtain ⟨g, hg, rfl⟩ := List.mem_map.1 hv
    exact getD_frameKey_mem hgs hg hc
  rw [ChartPlan.resultColumn]
  split
  · rename_i hmixed
    obtain ⟨k, hk⟩ := hscalars.key (List.mem_of_getElem? hc)
    by_cases hwhole : k = .whole
    -- A mixture of whole numbers has some that are too large to be made alike.
    · rw [hwhole] at hk
      rw [kind_heldFrame hnodup hshown, ChartPlan.heldKind] at hmixed
      have hcolumn : (p.heldFrame kept).column c.name =
          (kept.map (p.shownOf c)).map (ColumnKind.convert .mixed) := by
        rw [column_heldFrame hnodup hshown, List.map_map]
        refine List.map_congr_left fun r _ => ?_
        rw [ChartPlan.held, ChartPlan.heldKind, hmixed]
        rfl
      have hwide := ColumnKind.ofInts_of_mixed hmixed (hcolumn ▸ hk)
      rw [← hcolumn] at hwide
      rcases hwide with hnone | hwide
      · rw [unifyNumbers_of_no_int fun v hv => hnone v (hsub hv)]
      · rw [unifyNumbers_of_wide (ColumnKind.ofInts_mono (fun i hi => ?_) hwide)]
        obtain ⟨v, hv, hint⟩ := List.mem_filterMap.1 hi
        refine List.mem_filterMap.2 ⟨v, ?_, hint⟩
        cases v <;> first | exact int_mem_keys hscalars hgs hc hk hv | cases hint
    · rw [unifyNumbers_of_no_int fun v hv => hk.int?_eq_none hwhole v (hsub hv)]
  · rfl

end Columns

/-! ## Rows of groups -/

/-- What is aggregated of a column of one kind is of one kind, and made alike it still is. -/
theorem exists_allScalars_groupColumn {p : ChartPlan} {f : Frame}
    {gs : List (List Value × List Record)} (hgs : p.groups f = .ok gs) {c : Identifier}
    {k : ScalarKind} (hk : AllScalars k (f.column c.name)) {a : Aggregation}
    (hneeds : a.needsNumbers = true → (f.kind c.name).isNumeric = true)
    {column : String × List Value} (h : ChartPlan.groupColumn a f gs c = .ok column) :
    ∃ k', AllScalars k' column.2 := by
  obtain ⟨vs, hvs, h⟩ := bind_eq_ok_iff.1 h
  obtain ⟨k', hk'⟩ := a.exists_has_ofGroup k hneeds
  have hall : AllScalars k' vs := by
    intro v hv
    obtain ⟨g, hg, hvalue⟩ := exists_mem_of_mapM_ok hvs hv
    exact hk' _ v (hk.mono (List.map_subset _ (group_subset hgs hg))) hvalue
  rw [← Except.ok.inj h, ChartPlan.resultColumn]
  split
  · exact hall.exists_unified
  · exact ⟨k', hall⟩

section Rows

variable {p : ChartPlan} {kept reduced : List Record}
  (hnodup : (p.outputColumns.map Identifier.name).Nodup)
  (hscalars : p.HoldsScalars (p.heldFrame kept) reduced)
  (hreduced : p.groupedRows (p.heldFrame kept) = .ok reduced)

include hnodup hscalars hreduced

/-- A key column of the rows of groups shows the values of the keys. -/
theorem column_groupedRows_key {gs : List (List Value × List Record)}
    (hgs : p.groups (p.heldFrame kept) = .ok gs) {n : Nat} {c : Identifier}
    (hn : p.groupingKeys[n]? = some c) :
    reduced.map (·.value c.name) = gs.map fun g => g.1.getD n .null := by
  obtain ⟨values, label, -, -, hcolumns⟩ := exists_columns_of_groupedRows hnodup hgs hreduced
  obtain ⟨hlt, hget⟩ := List.getElem?_eq_some_iff.1 hn
  have hcolumn := hcolumns _ (List.mem_append_left _ (List.mem_append_left _
    (List.mem_mapIdx.2 ⟨n, hlt, rfl⟩)))
  rwa [hget, resultColumn_keys hscalars hgs hnodup hn] at hcolumn

/-- Each column of the rows of groups holds nulls and values of one kind. -/
theorem exists_allScalars_groupedRows (hnumbers : p.HasNumbers (p.heldFrame kept))
    {c : Identifier} (hc : c ∈ p.outputColumns) :
    ∃ k, AllScalars k (reduced.map (·.value c.name)) := by
  obtain ⟨gs, hgs⟩ := exists_groups_of_groupedRows hreduced
  obtain ⟨values, label, hvalues, hlabel, hcolumns⟩ :=
    exists_columns_of_groupedRows hnodup hgs hreduced
  obtain ⟨k, ⟨-, hk⟩ | hk⟩ := (hscalars c hc).imp fun _ => Or.symm
  · exact ⟨k, hk⟩
  -- From here on the column is of one kind in the frame.
  rcases p.mem_outputColumns.1 hc with hkey | hlabelled | hy
  -- A key column shows values of the column itself.
  · obtain ⟨n, hn⟩ := List.mem_iff_getElem?.1 hkey
    refine ⟨k, hk.mono fun v hv => ?_⟩
    rw [column_groupedRows_key hnodup hscalars hreduced hgs hn] at hv
    obtain ⟨g, hg, rfl⟩ := List.mem_map.1 hv
    exact getD_frameKey_mem hgs hg hn
  · have hmem := Option.mem_toList.2 hlabelled
    obtain ⟨column, hcolumn⟩ := exists_mapM_ok_iff.1 ⟨label, hlabel⟩ c hmem
    rw [← (groupColumn_ok hcolumn).1, hcolumns column (List.mem_append_left _
      (List.mem_append_right _ (mem_of_mapM_ok hlabel hmem hcolumn)))]
    exact exists_allScalars_groupColumn hgs hk (fun hneeds => by cases hneeds) hcolumn
  · obtain ⟨column, hcolumn⟩ := exists_mapM_ok_iff.1 ⟨values, hvalues⟩ c hy
    rw [← (groupColumn_ok hcolumn).1, hcolumns column (List.mem_append_right _
      (mem_of_mapM_ok hvalues hy hcolumn))]
    exact exists_allScalars_groupColumn hgs hk (fun hneeds => hnumbers hneeds c hy) hcolumn

/-- The rows of groups are sorted by columns whose values have an order. -/
theorem ordersKeys_groupedRows (hnumbers : p.HasNumbers (p.heldFrame kept))
    (horder : ∀ c, p.orderBy = some c → c ∈ p.outputColumns) : OrdersKeys p.sortKeys reduced := by
  intro key hkey
  obtain ⟨c, hc, hname⟩ := mem_sortKeys horder hkey
  obtain ⟨k, hk⟩ := exists_allScalars_groupedRows hnodup hscalars hreduced hnumbers hc
  refine ⟨_, k.isPreordered, fun r hr => ?_⟩
  rw [← hname]
  exact hk _ (List.mem_map_of_mem hr)

/-- The rows of groups show their keys. -/
theorem map_rowKey_groupedRows {gs : List (List Value × List Record)}
    (hgs : p.groups (p.heldFrame kept) = .ok gs) (hkeys : p.groupingKeys ≠ []) :
    reduced.map p.rowKey = gs.map (·.1) := by
  have hshown := fun n c => column_groupedRows_key (n := n) (c := c) hnodup hscalars hreduced hgs
  refine map_rowKey_of_columns (fun g hg => length_frameKey hgs hg) ?_ hshown
  -- There is a key column, and it has one value for each group.
  obtain ⟨c, cs, hcons⟩ := List.exists_cons_of_ne_nil hkeys
  have hlength := congrArg List.length (hshown 0 c (by rw [hcons]; rfl))
  rwa [List.length_map, List.length_map] at hlength

/-- No two rows of groups tie. -/
theorem pairwise_ne_eq_groupedRows (hnumbers : p.HasNumbers (p.heldFrame kept))
    (hkeys : p.groupingKeys ≠ []) :
    reduced.Pairwise fun r s => compareRows r s p.sortKeys ≠ .eq := by
  obtain ⟨gs, hgs⟩ := exists_groups_of_groupedRows hreduced
  have hdistinct := pairwise_keys hgs
  rw [← map_rowKey_groupedRows hnodup hscalars hreduced hgs hkeys, List.pairwise_map] at hdistinct
  refine hdistinct.imp_of_mem fun {r s} hr hs hdiffer htie => ?_
  -- Rows that tie tie in every key, so that their keys would be equal.
  have hequal : Value.eqvList (p.rowKey r) (p.rowKey s) = true := by
    refine eqvList_map_eq_true_iff.2 fun c hc => ?_
    obtain ⟨key, hkey, hname⟩ := exists_sortKey hc
    obtain ⟨k, hk⟩ := exists_allScalars_groupedRows hnodup hscalars hreduced hnumbers
      (mem_outputColumns_of_mem (List.mem_append_left _ hc))
    have hties := compare_eq_of_compareRows htie key hkey
    rw [hname] at hties
    have hvr := List.mem_map_of_mem (f := fun r : Record => r.value c.name) hr
    have hvs := List.mem_map_of_mem (f := fun r : Record => r.value c.name) hs
    have htied := SortKey.ties_of_compare k.isPreordered (hk _ hvr) (hk _ hvs) hties
    exact htied.eqv (hk.isCompound_eq _ hvr)
  rw [hequal] at hdiffer
  cases hdiffer

end Rows

/-! ## Rows in order -/

section Order

variable {p : ChartPlan} {kept reduced out : List Record}

/-- **Arranged rows are strictly in order.** -/
theorem ChartPlan.pairwise_comesBefore (hnodup : (p.outputColumns.map Identifier.name).Nodup)
    (horder : ∀ c, p.orderBy = some c → c ∈ p.outputColumns)
    (hscalars : p.HoldsScalars (p.heldFrame kept) reduced)
    (hreduced : p.reduce (p.heldFrame kept) = .ok reduced) (hout : p.arrange reduced = .ok out) :
    out.Pairwise (ComesBefore p.orderColumns) ∧ (p.groupingKeys = [] → out.length ≤ 1) := by
  have hnumbers : p.HasNumbers (p.heldFrame kept) := by
    obtain ⟨⟨⟩, hcheck, -⟩ := bind_eq_ok_iff.1 hreduced
    exact checkNumeric_eq_ok_iff.1 (mapError_eq_ok_iff.1 hcheck)
  obtain ⟨n, hn⟩ := exists_firstRows_eq_take p.limit (sortRows p.sortKeys reduced)
  rw [eq_firstRows_of_arrange hout, hn]
  rcases reduce_eq_ok hreduced with ⟨hkeys, hgrouped⟩ | ⟨hkeys, row, -, rfl⟩
  · have hfit := ordersKeys_groupedRows hnodup hscalars hgrouped hnumbers horder
    have hsorted := pairwise_lt_sortRows hfit
      (pairwise_ne_eq_groupedRows hnodup hscalars hgrouped hnumbers hkeys)
    -- Cut from the front, sorted rows are still in order.
    refine ⟨(hsorted.imp_of_mem fun hr hs hlt => ?_).sublist (List.take_sublist n _),
      fun hnil => absurd hnil hkeys⟩
    have hperm := sortRows_perm p.sortKeys reduced
    rw [ChartPlan.sortKeys_eq (ChartPlan.nodup_groupingKeys hnodup.of_map)] at hfit hlt
    exact comesBefore_of_compareRows hfit (hperm.mem_iff.1 hr) (hperm.mem_iff.1 hs) hlt
  -- Without keys there is one row at most.
  · have hlength : ((sortRows p.sortKeys [row]).take n).length ≤ 1 := by
      rw [List.length_take, length_sortRows]
      exact Nat.min_le_right n _
    refine ⟨?_, fun _ => hlength⟩
    rcases Nat.le_one_iff_eq_zero_or_eq_one.1 hlength with hnil | hone
    · rw [List.length_eq_zero_iff.1 hnil]
      exact .nil
    · obtain ⟨r, hr⟩ := List.length_eq_one_iff.1 hone
      rw [hr]
      exact List.pairwise_singleton _ _

/-- There are no more arranged rows than asked for. -/
theorem length_le_of_arrange (h : p.arrange reduced = .ok out) (hlimit : 0 ≤ p.limit) :
    (out.length : Int) ≤ p.limit := by
  obtain ⟨n, hn⟩ := Int.eq_ofNat_of_zero_le hlimit
  rw [eq_firstRows_of_arrange h, hn, firstRows_ofNat, List.length_take]
  exact Int.ofNat_le.2 (Nat.min_le_left n _)

end Order

/-! ## Fewer rows -/

/-- The plan with another number of rows. -/
def ChartPlan.withLimit (p : ChartPlan) (n : Int) : ChartPlan := { p with limit := n }

section Limits

variable (limits : RowLimits) (spec : ChartSpec) (maxRows : Option Int)

theorem planBeside_withLimit (columns : ColumnSet) (x : Option Identifier) (n : Int) :
    planBeside limits { spec with limit := some n } columns maxRows x =
      (planBeside limits spec columns maxRows x).withLimit (limitOf limits (some n) maxRows) := by
  have hyAxis : yAxisBeside { spec with limit := some n } columns x = yAxisBeside spec columns x :=
    rfl
  have hwarnings :
      yAxisWarnings { spec with limit := some n } columns x = yAxisWarnings spec columns x := rfl
  simp only [planBeside, ChartPlan.withLimit, hyAxis, hwarnings]

/-- The number of rows asked for decides on nothing of a plan but its number of rows. -/
theorem resolvePlan_withLimit (columns : ColumnSet) (n : Int) :
    resolvePlan limits { spec with limit := some n } columns maxRows =
      (resolvePlan limits spec columns maxRows).map
        (·.withLimit (limitOf limits (some n) maxRows)) := by
  have hyAxis (x : Option Identifier) :
      yAxisBeside { spec with limit := some n } columns x = yAxisBeside spec columns x := rfl
  have hrejected :
      rejectedYAxis { spec with limit := some n } columns = rejectedYAxis spec columns := rfl
  -- The plan is refused for the same reasons, and made beside the same horizontal axis.
  rw [resolvePlan, resolvePlan]
  simp only [planBeside_withLimit, hyAxis, hrejected]
  cases resolveXAxis columns spec.xAxis with
  | error e => rfl
  | ok x =>
    simp only [bind, Except.bind]
    split <;> rfl

end Limits

/-- A number of rows that is positive and within the most is what a plan is limited to. -/
theorem limitOf_of_le {limits : RowLimits} {maxRows : Option Int} {n : Int} (hpositive : 1 ≤ n)
    (hcap : n ≤ limits.cap maxRows) : limitOf limits (some n) maxRows = n := by
  rw [limitOf, Option.getD_some, if_neg (by omega)]
  exact min_eq_left hcap

section Cuts

variable (p : ChartPlan) {n m : Int}

/-- The number of rows does not decide on which records are kept. -/
theorem filterRows_withLimit (n : Int) (rs : List Record) :
    (p.withLimit n).filterRows rs = p.filterRows rs :=
  ChartPlan.filterRows_congr (p.withLimit n) p rfl rfl rs

/-- Fewer arranged rows are the first ones of more. -/
theorem arrange_withLimit (hn : 0 ≤ n) (hnm : n ≤ m) (rows : List Record) :
    (p.withLimit n).arrange rows = ((p.withLimit m).arrange rows).map (·.take n.toNat) := by
  obtain ⟨n, rfl⟩ := Int.eq_ofNat_of_zero_le hn
  obtain ⟨m, rfl⟩ := Int.eq_ofNat_of_zero_le (hn.trans hnm)
  -- Both sort by the same columns, and fewer rows from the front are among more of them.
  have hkeys (l : Int) : (p.withLimit l).sortKeys = p.sortKeys := rfl
  have hlimit (l : Int) : (p.withLimit l).limit = l := rfl
  simp only [ChartPlan.arrange, hkeys, hlimit, firstRows_ofNat]
  split
  · simp only [Except.map, Int.toNat_natCast, List.take_take]
    rw [min_eq_left (Int.ofNat_le.1 hnm)]
  · rfl

/-- Fewer rows are the first ones of more before they are labelled. -/
theorem unlabelledRows_withLimit (hn : 0 ≤ n) (hnm : n ≤ m) (rs : List Record) :
    (p.withLimit n).unlabelledRows rs =
      ((p.withLimit m).unlabelledRows rs).map (·.take n.toNat) := by
  have hframe (l : Int) (kept : List Record) : (p.withLimit l).frame kept = p.frame kept := rfl
  have hreduce (l : Int) (f : Frame) : (p.withLimit l).reduce f = p.reduce f := rfl
  simp only [ChartPlan.unlabelledRows, filterRows_withLimit, hframe, hreduce,
    arrange_withLimit p hn hnm]
  -- Up to the arrangement both run alike.
  cases p.filterRows rs with
  | error e => rfl
  | ok kept =>
    simp only [bind, Except.bind, Except.mapError]
    cases p.frame kept with
    | error e => rfl
    | ok f =>
      dsimp only
      cases p.reduce f with
      | error e => rfl
      | ok reduced =>
        dsimp only
        cases (p.withLimit m).arrange reduced <;> rfl

/-- The labels of the first rows are the first labelled rows. -/
theorem composeLabels_take (k : Nat) (rows : List Record) :
    composeLabels p (rows.take k) = (composeLabels p rows).take k := by
  unfold composeLabels
  split
  · split
    · rfl
    · rw [List.map_take]
  · rfl

/-- Fewer rows are the first ones of more. -/
theorem apply_withLimit (hn : 0 ≤ n) (hnm : n ≤ m) (rs : List Record) :
    (p.withLimit n).apply rs = ((p.withLimit m).apply rs).map (·.take n.toNat) := by
  have hlabels (l : Int) (rows : List Record) :
      composeLabels (p.withLimit l) rows = composeLabels p rows := rfl
  rw [ChartPlan.apply, ChartPlan.apply, unlabelledRows_withLimit p hn hnm]
  cases (p.withLimit m).unlabelledRows rs with
  | error e => rfl
  | ok rows =>
    refine congrArg Except.ok ?_
    rw [hlabels, hlabels, composeLabels_take]

end Cuts

/-- **Fewer rows asked for are the first ones of more.** -/
theorem aggregateRecords_withLimit (limits : RowLimits) (spec : ChartSpec) (rows : List Record)
    (maxRows : Option Int) {n m : Int} (hn : 1 ≤ n) (hnm : n ≤ m)
    (hm : m ≤ limits.cap maxRows) :
    aggregateRecords limits { spec with limit := some n } rows maxRows =
      (aggregateRecords limits { spec with limit := some m } rows maxRows).map
        fun r => { r with rows := r.rows.take n.toNat } := by
  simp only [aggregateRecords, resolvePlan_withLimit, limitOf_of_le hn (hnm.trans hm),
    limitOf_of_le (hn.trans hnm) hm]
  cases resolvePlan limits spec (columnsOfRecords (rows.map Record.cleaned)) maxRows with
  | error e => rfl
  | ok p =>
    simp only [Except.map, Except.mapError, bind, Except.bind]
    rw [apply_withLimit p (by omega) hnm]
    cases (p.withLimit m).apply (rows.map Record.cleaned) <;> rfl

/-! ## Charts in order -/

/-- **Charts of records come in order, and are cut.** If a chart of records succeeds, and each shown
column holds nulls and values of one kind, then its rows, before they are labelled, are strictly in
the order of the plan: by the column asked for in the direction asked for, then by the other keys
upwards, nulls last in any case. So no two of them tie, and without keys there is one row at most.
There are no more rows than the plan is limited to, unless this is a negative number. And of two
charts that differ in the number of rows asked for, both positive and within the most, the one of
fewer rows has the first rows of the other, and fails as the other does. -/
theorem aggregateRecords_ordersAndCuts (limits : RowLimits) (spec : ChartSpec) (rows : List Record)
    (maxRows : Option Int) :
    (∀ p kept f reduced result,
      resolvePlan limits spec (columnsOfRecords (rows.map Record.cleaned)) maxRows = .ok p →
      p.filterRows (rows.map Record.cleaned) = .ok kept → p.frame kept = .ok f →
      p.reduce f = .ok reduced → p.HoldsScalars f reduced →
      aggregateRecords limits spec rows maxRows = .ok result →
      ∃ out, p.unlabelledRows (rows.map Record.cleaned) = .ok out ∧
        result = p.result (composeLabels p out) ∧
        out.Pairwise (ComesBefore p.orderColumns) ∧
        (out.Pairwise fun r s =>
          ¬ ∀ c ∈ p.orderColumns, Ties (r.value c.1.name) (s.value c.1.name)) ∧
        (p.groupingKeys = [] → out.length ≤ 1) ∧
        (0 ≤ p.limit → (out.length : Int) ≤ p.limit)) ∧
    ∀ n m : Int, 1 ≤ n → n ≤ m → m ≤ limits.cap maxRows →
      aggregateRecords limits { spec with limit := some n } rows maxRows =
        (aggregateRecords limits { spec with limit := some m } rows maxRows).map
          fun r => { r with rows := r.rows.take n.toNat } := by
  refine ⟨?_, fun n m hn hnm hm => aggregateRecords_withLimit limits spec rows maxRows hn hnm hm⟩
  intro p kept f reduced result hplan hkept hframe hreduced hscalars h
  obtain ⟨p', out, hplan', hout, hresult⟩ := aggregateRecords_eq_ok_iff.1 h
  obtain rfl : p' = p := Except.ok.inj (hplan'.symm.trans hplan)
  obtain ⟨-, rfl⟩ := ChartPlan.frame_eq_ok_iff.1 hframe
  -- The chart is made of the same records and the same rows.
  obtain ⟨kept', reduced', hkept', -, hreduced', harranged⟩ := unlabelledRows_eq_ok_iff.1 hout
  obtain rfl : kept' = kept := Except.ok.inj (hkept'.symm.trans hkept)
  obtain rfl : reduced' = reduced := Except.ok.inj (hreduced'.symm.trans hreduced)
  have hnodup : (p'.outputColumns.map Identifier.name).Nodup := by
    obtain ⟨x, -, -, hbeside⟩ := resolvePlan_eq_ok_iff.1 hplan
    rw [hbeside]
    exact Identifier.nodup_names planBeside_nodup
  obtain ⟨hsorted, hone⟩ := ChartPlan.pairwise_comesBefore hnodup (orderBy_of_resolvePlan hplan)
    hscalars hreduced harranged
  exact ⟨out, hout, hresult, hsorted, hsorted.imp fun hbefore => hbefore.not_ties, hone,
    fun hlimit => length_le_of_arrange harranged hlimit⟩

/-! ## Scores by team and round -/

/-- The best score of each team and round, the highest three of them. -/
def scoreSpec : ChartSpec :=
  { ChartSpec.ofTable "Matches" "Score" with
    xAxis := some "Team"
    groupBy := .one "Round"
    aggregation := "max"
    orderBy := some "Score"
    orderDirection := "desc"
    limit := some 3 }

/-- Two teams have a score of zero, of different signs; a round and a score are not known. -/
def scores : List Record :=
  [[("Team", .text "south"), ("Round", .int 1), ("Score", .float (.finite false 0))],
    [("Team", .text "north"), ("Round", .null), ("Score", .float (.finite true 0))],
    [("Team", .text "north"), ("Round", .int 1), ("Score", .null)],
    [("Team", .text "east"), ("Round", .int 2), ("Score", .float (.ofInt 2))]]

theorem aggregateRecords_ordersAndCuts_scores :
    ∃ (p : ChartPlan) (kept : List Record) (f : Frame) (reduced : List Record)
      (result : ChartResult) (out : List Record),
      resolvePlan .standard scoreSpec (columnsOfRecords (scores.map Record.cleaned)) none =
          .ok p ∧
        p.filterRows (scores.map Record.cleaned) = .ok kept ∧ p.frame kept = .ok f ∧
        p.reduce f = .ok reduced ∧ p.HoldsScalars f reduced ∧
        aggregateRecords .standard scoreSpec scores none = .ok result ∧
        p.unlabelledRows (scores.map Record.cleaned) = .ok out ∧
        out.Pairwise (ComesBefore p.orderColumns) ∧ out.length ≤ 3 ∧
        aggregateRecords .standard { scoreSpec with limit := some 2 } scores none =
          .ok { result with rows := result.rows.take 2 } := by
  -- The chart succeeds, and the columns of its frame are of these kinds.
  have hrun : (do
      let p ← (resolvePlan .standard scoreSpec
        (columnsOfRecords (scores.map Record.cleaned)) none).toOption
      let kept ← (p.filterRows (scores.map Record.cleaned)).toOption
      let f ← (p.frame kept).toOption
      let _ ← (p.reduce f).toOption
      let _ ← (aggregateRecords .standard scoreSpec scores none).toOption
      some (p.limit == 3 && p.outputColumns.all fun c =>
        [ScalarKind.text, .whole, .double].any fun k =>
          (f.column c.name).all fun v => v.isNull || k.has v) : Option Bool) = some true := by
    decide +kernel
  simp only [Option.bind_eq_bind, Option.bind_eq_some_iff, toOption_eq_some_iff,
    Option.some.injEq, Bool.and_eq_true, beq_iff_eq, List.all_eq_true] at hrun
  obtain ⟨p, hplan, kept, hkept, f, hframe, reduced, hreduced, result, hresult, hlimit, hkinds⟩ :=
    hrun
  have hscalars : p.HoldsScalars f reduced := by
    intro c hc
    obtain ⟨k, -, hk⟩ := List.any_eq_true.1 (hkinds c hc)
    exact ⟨k, .inl (allScalars_of_all hk)⟩
  obtain ⟨horders, hcuts⟩ := aggregateRecords_ordersAndCuts .standard scoreSpec scores none
  obtain ⟨out, hout, -, hsorted, -, -, hlength⟩ :=
    horders p kept f reduced result hplan hkept hframe hreduced hscalars hresult
  have hfew := hcuts 2 3 (by decide) (by decide) (by decide)
  have hthree : aggregateRecords .standard { scoreSpec with limit := some 3 } scores none =
      .ok result := hresult
  refine ⟨p, kept, f, reduced, result, out, hplan, hkept, hframe, hreduced, hscalars, hresult,
    hout, hsorted, ?_, ?_⟩
  · rw [hlimit] at hlength
    exact Int.ofNat_le.1 (hlength (by decide))
  · rw [hfew, hthree]
    rfl

end ChartQuery
