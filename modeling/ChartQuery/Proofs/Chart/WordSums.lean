import ChartQuery.Proofs.Chart.Counting
import ChartQuery.Proofs.Chart.Failures

/-!
# Sums of words

A column of whole numbers of 64 bits is held in words, and its sums are formed in words too. They
are exact as long as they fit: a total that leaves the range of words wraps around, where a database
gives the total itself. Every other aggregate of the plan may fail, but such a sum does not.

## Main definitions

* `wordSum`: the sum of the values of a column of words, null if there are none
* `HoldsWords`: a column holds nulls and whole numbers of 64 bits, and one of these at least
* `ChartPlan.SumsWords`: the rows of groups show the sums of their words

## Main results

* `ColumnKind.ofValues_words`: nulls and whole numbers of 64 bits make a column of signed words
* `wordSum_eq_iff`: a sum of words is that of a database exactly if it fits
* `ChartPlan.column_reduce`: a reduced frame shows the word sums of what is aggregated together
* `aggregateRecords_sumsWords`: a chart that sums words shows their word sums, group by group
-/

namespace ChartQuery

/-! ## Totals of words -/

/-- A whole number is left as it is exactly if it fits. -/
theorem signedWord_eq_iff {n : Int} : signedWord n = n ↔ isSignedWord n = true := by
  constructor
  · intro h
    have hlow := Int.le_bmod (x := n) (m := 18446744073709551616) (by decide)
    have hhigh := Int.bmod_lt (x := n) (m := 18446744073709551616) (by decide)
    rw [signedWord] at h
    rw [h] at hlow hhigh
    simp only [isSignedWord, Bool.and_eq_true, decide_eq_true_eq]
    omega
  · exact signedWord_of_isSignedWord

/-- The sum of a column of words: null without values, or else the word that the total leaves. -/
def wordSum (vs : List Value) : Value :=
  if (presentValues vs).isEmpty then .null else .int (signedWord (wholeTotal vs))

/-- The sum that a database has of a column of whole numbers: null without values, or the total. -/
theorem aggregateOf_sum (vs : List Value) : aggregateOf .sum .bigint vs =
    if (presentValues vs).isEmpty then .null else .int (wholeTotal vs) := rfl

/-- **A sum of words is that of a database exactly if it fits.** -/
theorem wordSum_eq_iff {vs : List Value} :
    wordSum vs = aggregateOf .sum .bigint vs ↔
      presentValues vs = [] ∨ isSignedWord (wholeTotal vs) = true := by
  rw [aggregateOf_sum, wordSum, ← signedWord_eq_iff]
  cases presentValues vs with
  | nil => simp
  | cons v ws => simp

theorem ColumnKind.sum_signed (vs : List Value) : ColumnKind.signed.sum vs = .ok (wordSum vs) := by
  rw [ColumnKind.sum, wordSum, wholeTotal]
  cases presentValues vs with
  | nil => rfl
  | cons v ws => rfl

/-- Sums of words are formed the same way for a group and for a whole column. -/
theorem Aggregation.sum_words (vs : List Value) :
    Aggregation.sum.ofGroup .signed vs = .ok (wordSum vs) ∧
      Aggregation.sum.ofWhole .signed vs = .ok (wordSum vs) := by
  rw [Aggregation.ofGroup, Aggregation.ofWhole, ColumnKind.sum_signed]
  exact ⟨rfl, rfl⟩

/-! ## Columns of words -/

/-- A column holds nulls and whole numbers of 64 bits, and one of these at least. -/
structure HoldsWords (vs : List Value) : Prop where
  words : AllKeys .signed vs
  exists_int : ∃ n, Value.int n ∈ vs

/-- Nulls and whole numbers of 64 bits make a column of signed words. -/
theorem ColumnKind.ofValues_words {vs : List Value} (h : HoldsWords vs) :
    ColumnKind.ofValues vs = .signed := by
  obtain ⟨n, hn⟩ := h.exists_int
  rw [ofValues_of_ints (h.words.ints (.inl rfl)) hn, ofInts]
  exact if_pos (List.all_eq_true.2 h.words.has_int)

/-- A column of words has a sum: the word that its total leaves. -/
theorem HoldsWords.sum_eq {vs : List Value} (h : HoldsWords vs) :
    ColumnKind.signed.sum vs = .ok (.int (signedWord (wholeTotal vs))) := by
  obtain ⟨n, hn⟩ := h.exists_int
  have hmem : Value.int n ∈ presentValues vs := List.mem_filter.2 ⟨hn, rfl⟩
  have hempty : (presentValues vs).isEmpty = false := by simpa using List.ne_nil_of_mem hmem
  rw [ColumnKind.sum_signed, wordSum, hempty]
  rfl

/-- A plan holds a column of words in words, also one of its vertical axis. -/
theorem HoldsWords.columnKind_eq {vs : List Value} (h : HoldsWords vs) (p : ChartPlan)
    (c : Identifier) : p.columnKind c vs = .signed := by
  obtain ⟨n, hn⟩ := h.exists_int
  rw [p.columnKind_of_int c hn]
  exact ColumnKind.ofValues_words h

/-! ## Columns of results -/

section Results

variable {p : ChartPlan} {f : Frame} {y : Identifier}

/-- The columns of grouped rows have the names of the columns that a plan shows. -/
theorem map_fst_resultColumns {gs : List (List Value × List Record)}
    {label values : List (String × List Value)}
    (hlabel : p.drillDownLabel.toList.mapM (ChartPlan.groupColumn .max f gs) = .ok label)
    (hvalues : p.yAxis.mapM (ChartPlan.groupColumn p.aggregation f gs) = .ok values) :
    ((p.groupingKeys.mapIdx fun n c =>
      ChartPlan.resultColumn f c.name (gs.map fun g => g.1.getD n .null)) ++ label ++
        values).map Prod.fst = p.outputColumns.map Identifier.name := by
  have hkeys : (p.groupingKeys.mapIdx fun n c =>
      ChartPlan.resultColumn f c.name (gs.map fun g => g.1.getD n .null)).map Prod.fst =
      p.groupingKeys.map Identifier.name := by
    refine List.ext_getElem (by simp) fun n _ _ => ?_
    simp [ChartPlan.resultColumn]
  rw [List.map_append, List.map_append, hkeys, (groupColumns_ok hlabel).1,
    (groupColumns_ok hvalues).1, ChartPlan.outputColumns, List.map_append, List.map_append]

/-- Grouped rows show each column as it was formed: those of the keys, and those of the runs through
the label and the vertical axis. -/
theorem exists_columns_of_groupedRows (hnodup : (p.outputColumns.map Identifier.name).Nodup)
    {gs : List (List Value × List Record)} (hgs : p.groups f = .ok gs) {rows : List Record}
    (h : p.groupedRows f = .ok rows) :
    ∃ values label, p.yAxis.mapM (ChartPlan.groupColumn p.aggregation f gs) = .ok values ∧
      p.drillDownLabel.toList.mapM (ChartPlan.groupColumn .max f gs) = .ok label ∧
      ∀ column ∈ (p.groupingKeys.mapIdx fun n c =>
          ChartPlan.resultColumn f c.name (gs.map fun g => g.1.getD n .null)) ++ label ++ values,
        rows.map (·.value column.1) = column.2 := by
  rw [groupedRows_eq_runs hgs] at h
  obtain ⟨values, hvalues, h⟩ := bind_eq_ok_iff.1 h
  obtain ⟨label, hlabel, h⟩ := bind_eq_ok_iff.1 h
  cases h
  refine ⟨values, label, hvalues, hlabel, fun column hmem => ?_⟩
  -- No other column has this name, so that the rows show its values under it.
  refine column_rowsOfColumns ?_ ?_ hmem
  · intro column hcolumn
    simp only [List.mem_append, List.mem_mapIdx] at hcolumn
    rcases hcolumn with (⟨n, hn, rfl⟩ | hcolumn) | hcolumn
    · rw [length_resultColumn, List.length_map]
    · exact (groupColumns_ok hlabel).2 column hcolumn
    · exact (groupColumns_ok hvalues).2 column hcolumn
  · rw [map_fst_resultColumns hlabel hvalues]
    exact hnodup

/-- Grouped rows show an aggregated column as it was formed. -/
theorem column_groupedRows (hnodup : (p.outputColumns.map Identifier.name).Nodup)
    {gs : List (List Value × List Record)} (hgs : p.groups f = .ok gs) {rows : List Record}
    (h : p.groupedRows f = .ok rows) (hy : y ∈ p.yAxis) {vs : List Value}
    (hvs : ChartPlan.groupColumn p.aggregation f gs y = .ok (y.name, vs)) :
    rows.map (·.value y.name) = vs := by
  obtain ⟨values, label, hvalues, -, hcolumns⟩ := exists_columns_of_groupedRows hnodup hgs h
  exact hcolumns (y.name, vs) (List.mem_append_right _ (mem_of_mapM_ok hvalues hy hvs))

/-- The one row of a plan that does not group shows an aggregated column as it was formed. -/
theorem value_wholeRow (hnodup : (p.outputColumns.map Identifier.name).Nodup) {row : Record}
    (h : p.wholeRow f = .ok row) (hy : y ∈ p.yAxis) {v : Value}
    (hv : p.aggregation.ofWhole (f.kind y.name) (f.column y.name) = .ok v) :
    row.value y.name = v := by
  obtain ⟨label, hlabel, h⟩ := bind_eq_ok_iff.1 h
  obtain ⟨values, hvalues, h⟩ := bind_eq_ok_iff.1 h
  cases h
  have hmem : (y.name, v) ∈ values := mem_of_mapM_ok hvalues hy (by rw [hv]; rfl)
  refine Record.value_of_mem ?_ (List.mem_append_right _ hmem)
  rw [ChartPlan.outputColumns, List.append_assoc, List.map_append] at hnodup
  rw [List.map_append, map_fst_wholeColumns hlabel, map_fst_wholeColumns hvalues,
    ← List.map_append]
  exact (List.nodup_append.1 hnodup).2.1

/-- **A reduced frame shows the word sums of what is aggregated together.** -/
theorem ChartPlan.column_reduce (hnodup : (p.outputColumns.map Identifier.name).Nodup)
    (hsum : p.aggregation = .sum) (hy : y ∈ p.yAxis) (hkind : f.kind y.name = .signed)
    {bundles : List (List Record)} (hbundles : p.bundles f = .ok bundles) {rows : List Record}
    (h : p.reduce f = .ok rows) :
    rows.map (·.value y.name) = bundles.map fun b => wordSum (b.map (·.value y.name)) := by
  rcases reduce_eq_ok h with ⟨hkeys, hgrouped⟩ | ⟨hkeys, row, hrow, rfl⟩
  · obtain ⟨gs, hgs, rfl⟩ := groups_of_bundles hkeys hbundles
    have hvalues : gs.mapM (fun g => p.aggregation.ofGroup (f.kind y.name)
        (g.2.map (·.value y.name))) =
        .ok (gs.map fun g => wordSum (g.2.map (·.value y.name))) := by
      refine mapM_eq_ok fun g _ => ?_
      rw [hsum, hkind, (Aggregation.sum_words _).1]
    have hcolumn : ChartPlan.groupColumn p.aggregation f gs y =
        .ok (y.name, gs.map fun g => wordSum (g.2.map (·.value y.name))) := by
      rw [ChartPlan.groupColumn, hvalues]
      refine congrArg Except.ok (resultColumn_eq fun hmixed => ?_)
      rw [hkind] at hmixed
      cases hmixed
    rw [column_groupedRows hnodup hgs hgrouped hy hcolumn, List.map_map]
    rfl
  · rw [bundles_of_nil hkeys] at hbundles
    cases hbundles
    have hvalue : row.value y.name = wordSum (f.column y.name) :=
      value_wholeRow hnodup hrow hy (by rw [hsum, hkind, (Aggregation.sum_words _).2])
    rw [List.map_singleton, hvalue]
    rfl

/-- What is aggregated together is known wherever a frame is reduced. -/
theorem ChartPlan.exists_bundles_of_reduce {rows : List Record} (h : p.reduce f = .ok rows) :
    ∃ bundles, p.bundles f = .ok bundles := by
  rcases reduce_eq_ok h with ⟨hkeys, hgrouped⟩ | ⟨hkeys, -⟩
  · obtain ⟨gs, hgs⟩ := exists_groups_of_groupedRows hgrouped
    exact ⟨_, bundles_of_groups hkeys hgs⟩
  · exact ⟨_, bundles_of_nil hkeys⟩

/-- A plan that sums words only, and shows no label, reduces every frame whose rows it can group. -/
theorem ChartPlan.exists_reduce_eq_ok (hsum : p.aggregation = .sum)
    (hlabel : p.drillDownLabel = none) (hkinds : ∀ y ∈ p.yAxis, f.kind y.name = .signed)
    {bundles : List (List Record)} (hbundles : p.bundles f = .ok bundles) :
    ∃ rows, p.reduce f = .ok rows := by
  have hnumbers : p.HasNumbers f := by
    intro _ y hy
    rw [hkinds y hy]
    rfl
  have hsums : ∀ bs, ¬ p.LacksSum f bs := by
    rintro bs ⟨-, y, hy, rows, -, hdouble, -⟩
    rw [hkinds y hy] at hdouble
    cases hdouble
  have hextremes : ∀ bs, ¬ p.LacksExtreme f bs := by
    rintro bs ⟨c, e, ⟨hc, -⟩ | ⟨-, he⟩, -⟩
    · rw [hlabel] at hc
      cases hc
    · rw [hsum] at he
      cases he
  -- A frame that is not reduced lacks a number, a group, a sum or an extreme value.
  cases h : p.reduce f with
  | ok rows => exact ⟨rows, rfl⟩
  | error fault =>
    cases fault with
    | unforeseen u =>
      rcases (reduce_eq_unforeseen_iff.1 ⟨u, h⟩).2 with ⟨bs, -, hlacks⟩ | ⟨-, hlacks⟩
      · exact absurd hlacks (hsums bs)
      · exact absurd hlacks (hextremes _)
    | chart e =>
      rcases reduce_eq_chart_iff.1 ⟨e, h⟩ with hnone | ⟨-, k, hk, hcompound⟩ |
        ⟨-, -, bs, -, -, hlacks⟩
      · exact absurd hnumbers hnone
      · -- Rows cannot be grouped by compound values.
        have hgs : p.groups f = .error .mixedGroup := groups_eq_error_iff.2 ⟨rfl, k, hk, hcompound⟩
        obtain ⟨gs, hok, -⟩ := groups_of_bundles (List.ne_nil_of_mem hk) hbundles
        rw [hgs] at hok
        cases hok
      · exact absurd hlacks (hextremes bs)

end Results

/-! ## Sums of records -/

/-- The rows of groups of records show the word sums of their values in a column. They show the sums
that a database gives exactly if the total of every group with values fits. -/
structure ChartPlan.SumsWords (y : Identifier) (groups : List (List Record)) (rows : List Record) :
    Prop where
  sums : rows.map (·.value y.name) = groups.map fun g => wordSum (g.map (·.value y.name))
  exact_iff : rows.map (·.value y.name) =
      groups.map (fun g => aggregateOf .sum .bigint (g.map (·.value y.name))) ↔
    ∀ g ∈ groups, presentValues (g.map (·.value y.name)) = [] ∨
      isSignedWord (wholeTotal (g.map (·.value y.name))) = true

section Records

variable {p : ChartPlan} {kept : List Record} {y : Identifier}

theorem ChartPlan.SumsWords.of_sums {groups : List (List Record)} {rows : List Record}
    (h : rows.map (·.value y.name) = groups.map fun g => wordSum (g.map (·.value y.name))) :
    ChartPlan.SumsWords y groups rows := by
  refine ⟨h, ?_⟩
  rw [h, List.map_inj_left]
  exact forall₂_congr fun g _ => wordSum_eq_iff

/-- What is aggregated together are the rows of groups of the records. -/
theorem exists_groups_of_bundles {bundles : List (List Record)}
    (h : p.bundles (p.heldFrame kept) = .ok bundles) :
    ∃ groups : List (List Record), bundles = groups.map (List.map (p.heldRow kept)) ∧
      ∀ g ∈ groups, g ⊆ kept := by
  by_cases hkeys : p.groupingKeys = []
  · rw [bundles_of_nil hkeys] at h
    cases h
    exact ⟨[kept], rfl, by simp⟩
  · obtain ⟨gs, hgs, rfl⟩ := groups_of_bundles hkeys h
    refine ⟨(groupRows Value.eqvList (p.frameKey (p.heldFrame kept) ∘ p.heldRow kept) kept).map
      (·.2), ?_, fun g hg => ?_⟩
    · rw [eq_groupRows_of_groups hgs, show (p.heldFrame kept).rows = kept.map (p.heldRow kept)
        from rfl, groupRows_map, List.map_map, List.map_map]
      rfl
    · obtain ⟨g', hg', rfl⟩ := List.mem_map.1 hg
      exact groupRows_subset hg'

section Words

variable (hnodup : (p.outputColumns.map Identifier.name).Nodup) (hy : y ∈ p.yAxis)
  (hwords : HoldsWords (kept.map (·.value y.name)))

include hnodup hy hwords

/-- A column of words is shown as it is, and held in words. -/
theorem heldKind_words : p.heldKind kept y = .signed := by
  have hshown : kept.map (p.shownOf y) = kept.map (·.value y.name) :=
    List.map_congr_left fun r _ => shownOf_of_not_cut (not_cut_of_mem_yAxis hnodup hy) r
  rw [ChartPlan.heldKind, hshown]
  exact hwords.columnKind_eq p y

theorem kind_heldFrame_words : (p.heldFrame kept).kind y.name = .signed := by
  rw [kind_heldFrame hnodup (mem_outputColumns_of_mem (List.mem_append_right _ hy))]
  exact heldKind_words hnodup hy hwords

/-- The values of a column of words are held as they are. -/
theorem map_value_heldRow_words {g : List Record} (hg : g ⊆ kept) :
    (g.map (p.heldRow kept)).map (·.value y.name) = g.map (·.value y.name) := by
  rw [List.map_map]
  refine List.map_congr_left fun r hr => ?_
  have hshown := mem_outputColumns_of_mem (List.mem_append_right p.groupingKeys hy)
  rw [Function.comp_apply, value_heldRow hnodup hshown, ChartPlan.held,
    heldKind_words hnodup hy hwords, shownOf_of_not_cut (not_cut_of_mem_yAxis hnodup hy)]
  rw [← hwords.columnKind_eq p y]
  exact KeyKind.convert_eq hwords.words (List.mem_map_of_mem (hg hr))

/-- Rows that are reduced show the word sums of the groups. -/
theorem sumsWords_of_reduce (hsum : p.aggregation = .sum) {groups : List (List Record)}
    (hbundles : p.bundles (p.heldFrame kept) = .ok (groups.map (List.map (p.heldRow kept))))
    (hgroups : ∀ g ∈ groups, g ⊆ kept) {rows : List Record}
    (h : p.reduce (p.heldFrame kept) = .ok rows) : ChartPlan.SumsWords y groups rows := by
  have hkind := kind_heldFrame_words hnodup hy hwords
  refine .of_sums ?_
  rw [ChartPlan.column_reduce hnodup hsum hy hkind hbundles h, List.map_map]
  refine List.map_congr_left fun g hg => ?_
  rw [Function.comp_apply, map_value_heldRow_words hnodup hy hwords (hgroups g hg)]

end Words

/-- Cutting rows takes some of them from the front. -/
theorem exists_firstRows_eq_take (n : Int) (rows : List Record) :
    ∃ k, firstRows n rows = rows.take k := by
  rw [firstRows]
  split
  · exact ⟨_, rfl⟩
  · exact ⟨_, rfl⟩

/-- Rows in order are rows from among those that were reduced, each as often. -/
theorem exists_perm_of_arrange {rows out : List Record} (h : p.arrange rows = .ok out) :
    ∃ rest, (out ++ rest).Perm rows := by
  obtain ⟨n, hn⟩ := exists_firstRows_eq_take p.limit (sortRows p.sortKeys rows)
  refine ⟨(sortRows p.sortKeys rows).drop n, ?_⟩
  rw [eq_firstRows_of_arrange h, hn, List.take_append_drop]
  exact sortRows_perm _ _

/-- Labels change no column but that of the horizontal axis. -/
theorem map_value_composeLabels_of_ne {c : Identifier} (hc : p.xAxis ≠ some c)
    (rows : List Record) :
    (composeLabels p rows).map (·.value c.name) = rows.map (·.value c.name) := by
  rw [composeLabels]
  split
  · rename_i x hx
    split
    · rfl
    · have hne : c.name ≠ x.name := fun hname =>
        hc (hx.trans (congrArg some (Identifier.eq_of_name_eq hname).symm))
      rw [List.map_map]
      refine List.map_congr_left fun row _ => ?_
      show ((row.put x.name _).get? c.name).getD .null = row.value c.name
      rw [Record.get?_put, if_neg hne]
      rfl
  · rfl

theorem map_value_composeLabels (hnodup : (p.outputColumns.map Identifier.name).Nodup)
    (hy : y ∈ p.yAxis) (rows : List Record) :
    (composeLabels p rows).map (·.value y.name) = rows.map (·.value y.name) :=
  map_value_composeLabels_of_ne (xAxis_ne_of_aggregated hnodup (List.mem_append_right _ hy)) rows

end Records

/-! ## Charts that sum words -/

/-- **Sums of words are exact as long as they fit.** A column of nulls and whole numbers of 64 bits
is one of signed words, and has as its sum the word that the total leaves, which is the total
exactly if it fits. In every chart of records that sums such a column, each group of records shows
the word sum of its values, before the rows are ordered and cut to their number, and afterwards;
these are the sums that a database gives exactly if each of them fits. If only such columns are
summed and no label is shown, the sums of every frame whose rows can be grouped can be formed. -/
theorem aggregateRecords_sumsWords (limits : RowLimits) (spec : ChartSpec) (rows : List Record)
    (maxRows : Option Int) :
    (∀ vs, HoldsWords vs → ColumnKind.ofValues vs = .signed ∧
      ColumnKind.signed.sum vs = .ok (.int (signedWord (wholeTotal vs))) ∧
      (ColumnKind.signed.sum vs = .ok (.int (wholeTotal vs)) ↔
        isSignedWord (wholeTotal vs) = true)) ∧
    ∀ p kept,
      resolvePlan limits spec (columnsOfRecords (rows.map Record.cleaned)) maxRows = .ok p →
      p.filterRows (rows.map Record.cleaned) = .ok kept → p.aggregation = .sum →
      (∀ result, aggregateRecords limits spec rows maxRows = .ok result →
        ∃ groups reduced out rest,
          p.bundles (p.heldFrame kept) = .ok (groups.map (List.map (p.heldRow kept))) ∧
          (∀ g ∈ groups, g ⊆ kept) ∧ p.reduce (p.heldFrame kept) = .ok reduced ∧
          p.arrange reduced = .ok out ∧ (out ++ rest).Perm reduced ∧
          ∀ y ∈ p.yAxis, HoldsWords (kept.map (·.value y.name)) →
            ChartPlan.SumsWords y groups reduced ∧
            result.rows.map (·.value y.name) = out.map (·.value y.name)) ∧
      (p.drillDownLabel = none → (∀ y ∈ p.yAxis, HoldsWords (kept.map (·.value y.name))) →
        ∀ bundles, p.bundles (p.heldFrame kept) = .ok bundles →
          ∃ reduced, p.reduce (p.heldFrame kept) = .ok reduced) := by
  constructor
  · intro vs hvs
    refine ⟨ColumnKind.ofValues_words hvs, hvs.sum_eq, ?_⟩
    rw [hvs.sum_eq, Except.ok.injEq, Value.int.injEq, signedWord_eq_iff]
  · intro p kept hplan hkept hsum
    obtain ⟨x, -, -, hbeside⟩ := resolvePlan_eq_ok_iff.1 hplan
    have hnodup : (p.outputColumns.map Identifier.name).Nodup := by
      rw [hbeside]
      exact Identifier.nodup_names planBeside_nodup
    constructor
    · intro result hresult
      -- The run has only one plan, and keeps only these records.
      obtain ⟨p', out, hplan', hout, rfl⟩ := aggregateRecords_eq_ok_iff.1 hresult
      obtain rfl : p' = p := Except.ok.inj (hplan'.symm.trans hplan)
      obtain ⟨kept', reduced, hkept', -, hreduced, harranged⟩ := unlabelledRows_eq_ok_iff.1 hout
      obtain rfl : kept' = kept := Except.ok.inj (hkept'.symm.trans hkept)
      obtain ⟨rest, hrest⟩ := exists_perm_of_arrange harranged
      obtain ⟨_, hbundles⟩ := ChartPlan.exists_bundles_of_reduce hreduced
      obtain ⟨groups, rfl, hgroups⟩ := exists_groups_of_bundles hbundles
      refine ⟨groups, reduced, out, rest, hbundles, hgroups, hreduced, harranged, hrest,
        fun y hy hwords => ⟨?_, map_value_composeLabels hnodup hy out⟩⟩
      exact sumsWords_of_reduce hnodup hy hwords hsum hbundles hgroups hreduced
    · intro hlabel hwords bundles hbundles
      exact ChartPlan.exists_reduce_eq_ok hsum hlabel
        (fun y hy => kind_heldFrame_words hnodup hy (hwords y hy)) hbundles

/-! ## Amounts by region -/

/-- The sums of the amounts of each region. -/
def amountSpec : ChartSpec :=
  { ChartSpec.ofTable "Sales" "Amount" with
    xAxis := some "Region"
    aggregation := "sum" }

/-- The amounts of one region leave the range of words together, those of the other do not. -/
def amounts : List Record :=
  [[("Region", .text "north"), ("Amount", .int 9223372036854775807)],
    [("Region", .text "north"), ("Amount", .null)],
    [("Region", .text "south"), ("Amount", .int 9223372036854775807)],
    [("Region", .text "south"), ("Amount", .int 1)]]

theorem aggregateRecords_sumsWords_amounts :
    ∃ (result : ChartResult) (p : ChartPlan) (kept : List Record),
      aggregateRecords .standard amountSpec amounts none = .ok result ∧
      p.filterRows (amounts.map Record.cleaned) = .ok kept ∧
      (∃ y ∈ p.yAxis, y.name = "Amount" ∧ HoldsWords (kept.map (·.value y.name)) ∧
        ∃ groups reduced, (∀ g ∈ groups, g ⊆ kept) ∧ ChartPlan.SumsWords y groups reduced) ∧
      ∃ reduced, p.reduce (p.heldFrame kept) = .ok reduced := by
  have hok : (aggregateRecords .standard amountSpec amounts none).toBool = true := by
    decide +kernel
  cases hrun : aggregateRecords .standard amountSpec amounts none with
  | error fault =>
    rw [hrun] at hok
    cases hok
  | ok result =>
    obtain ⟨p, out, hplan, hout, -⟩ := aggregateRecords_eq_ok_iff.1 hrun
    obtain ⟨kept, reduced, hkept, -, hreduced, -⟩ := unlabelledRows_eq_ok_iff.1 hout
    obtain ⟨x, hx, -, hp⟩ := resolvePlan_eq_ok_iff.1 hplan
    obtain ⟨-, rfl⟩ := resolveXAxis_eq_ok_iff.1 hx
    have hparts : p.yAxis.map Identifier.name = ["Amount"] ∧ p.aggregation = .sum ∧
        p.drillDownLabel = none ∧
        (p.filterRows (amounts.map Record.cleaned)).toOption.map (fun kept =>
          ((kept.map (·.value "Amount")).all fun v => v.isNull || KeyKind.signed.has v) &&
            (kept.map (·.value "Amount")).any fun v => v.int? == some 1) = some true := by
      rw [hp]
      decide +kernel
    obtain ⟨hsummed, hsum, hlabel, hvalues⟩ := hparts
    rw [hkept] at hvalues
    obtain ⟨hall, hany⟩ := Bool.and_eq_true_iff.1 (Option.some.inj hvalues)
    have hwords : HoldsWords (kept.map (·.value "Amount")) := by
      refine ⟨allKeys_of_all hall, 1, ?_⟩
      obtain ⟨v, hv, hone⟩ := List.any_eq_true.1 hany
      cases v <;> simp [Value.int?] at hone
      rwa [hone] at hv
    have hname : ∀ y ∈ p.yAxis, y.name = "Amount" := fun y hy => by
      simpa [hsummed] using List.mem_map_of_mem (f := Identifier.name) hy
    have hcolumns : ∀ y ∈ p.yAxis, HoldsWords (kept.map (·.value y.name)) := fun y hy => by
      rw [hname y hy]
      exact hwords
    obtain ⟨y, hy, -⟩ : ∃ y ∈ p.yAxis, y.name = "Amount" := List.mem_map.1 (by simp [hsummed])
    obtain ⟨hcharts, hreduces⟩ :=
      (aggregateRecords_sumsWords .standard amountSpec amounts none).2 p kept hplan hkept hsum
    obtain ⟨groups, rows, _, _, hbundles, hgroups, -, -, -, hsums⟩ := hcharts result hrun
    refine ⟨result, p, kept, rfl, hkept, ⟨y, hy, hname y hy, hcolumns y hy, groups, rows, hgroups,
      (hsums y hy (hcolumns y hy)).1⟩, hreduces hlabel hcolumns _ hbundles⟩

/-- A total one above the greatest word wraps around to the least, where a database gives it. -/
theorem wordSum_wraps :
    let vs := [Value.int 9223372036854775807, .int 1, .null]
    HoldsWords vs ∧ wholeTotal vs = 9223372036854775808 ∧
    (ColumnKind.ofValues vs).sum vs = .ok (.int (-9223372036854775808)) ∧
    aggregateOf .sum .bigint vs = .int 9223372036854775808 := by
  intro vs
  have hwords : HoldsWords vs := ⟨allKeys_of_all (by decide), 1, by simp [vs]⟩
  refine ⟨hwords, by decide +kernel, ?_, rfl⟩
  rw [ColumnKind.ofValues_words hwords]
  rfl

end ChartQuery
