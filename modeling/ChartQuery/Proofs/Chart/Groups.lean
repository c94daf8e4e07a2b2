import ChartQuery.Proofs.Chart.Frames
import ChartQuery.Proofs.Rows.Grouping

/-!
# Groups of plain rows

Records and rows fall into the same groups, since the keys of both are what the plan shows of the
columns to group by. From each group come the same key, the same label and the same aggregates.

## Main definitions

* `ChartPlan.groupRow`: the row of the result that a group of rows gives
* `ChartPlan.tableGroups`: the groups of rows by what is shown of the columns to group by

## Main results

* `ChartPlan.ShowsPlainly.reduce_eq`: the records give the row of every group of rows
-/

namespace ChartQuery

/-! ## Rows of groups -/

/-- The type of a column. -/
def typeOf (columns : List Column) (c : Identifier) : ColumnType :=
  (((columnNamed? columns c.name).bind (columns[·]?)).map Column.type).getD .varchar

theorem HasColumn.typeOf_eq {columns : List Column} {c : Identifier} {i : Nat} {type : ColumnType}
    (h : HasColumn columns c i type) : typeOf columns c = type := by
  rw [typeOf, h.named, Option.bind_some, h.get]
  rfl

namespace ChartPlan

variable (p : ChartPlan) (columns : List Column)

/-- The key of a row: what is shown of it in the columns to group by. -/
def shownKey (row : List Value) : List Value := p.groupingKeys.map (p.shown columns · row)

/-- The groups of rows by what is shown of the columns to group by; without such columns all rows
are one group. -/
def tableGroups (rows : List (List Value)) : List (List (List Value)) :=
  if p.groupingKeys.isEmpty then [rows]
  else (groupRows sameValues (p.shownKey columns) rows).map (·.2)

/-- The columns of the result: the key of a group, its label and its aggregates. -/
def resultColumns : List (String × (List (List Value) → Value)) :=
  p.groupingKeys.map (fun c => (c.name, fun g => p.shown columns c (g.headD []))) ++
    p.drillDownLabel.toList.map (fun c =>
      (c.name, fun g => aggregateOf .max (typeOf columns c) (g.map (cellOf columns c)))) ++
    p.yAxis.map fun c =>
      (c.name, fun g => aggregateOf p.aggregation (typeOf columns c) (g.map (cellOf columns c)))

/-- The row of the result that a group of rows gives. -/
def groupRow (g : List (List Value)) : Record :=
  (p.resultColumns columns).map fun c => (c.1, c.2 g)

theorem map_fst_resultColumns :
    (p.resultColumns columns).map Prod.fst = p.outputColumns.map Identifier.name := by
  simp [resultColumns, outputColumns, Function.comp_def]

theorem mem_outputColumns {c : Identifier} :
    c ∈ p.outputColumns ↔ c ∈ p.groupingKeys ∨ p.drillDownLabel = some c ∨ c ∈ p.yAxis := by
  simp [outputColumns]

end ChartPlan

section Groups

variable {p : ChartPlan} {columns : List Column} {rows : List (List Value)}

/-- Only the column of the horizontal axis is cut. -/
theorem ChartPlan.ShowsPlainly.shown_eq (hp : p.ShowsPlainly columns) {c : Identifier}
    (hc : c ∈ p.groupBy ∨ p.drillDownLabel = some c ∨ c ∈ p.yAxis) (row : List Value) :
    p.shown columns c row = cellOf columns c row := by
  refine shown_eq_cellOf (fun _ hx => ?_) row
  have hnodup := hp.nodup.of_map
  rw [ChartPlan.outputColumns, ChartPlan.groupingKeys, hx, List.append_assoc,
    List.append_assoc] at hnodup
  refine (List.nodup_cons.1 hnodup).1 ?_
  rcases hc with hc | hc | hc <;> simp [hc]

/-- Rows have the same key for the database exactly if they have it for the records. -/
theorem sameValues_shownKey (hp : p.ShowsPlainly columns) (hrows : HoldCells columns rows)
    {row row' : List Value} (hr : row ∈ rows) (hr' : row' ∈ rows) :
    Value.eqvList (p.shownKey columns row) (p.shownKey columns row') =
      sameValues (p.shownKey columns row) (p.shownKey columns row') := by
  have hkeys : ∀ c ∈ p.groupingKeys, c ∈ p.outputColumns := fun c hc =>
    p.mem_outputColumns.2 (.inl hc)
  rw [ChartPlan.shownKey, ChartPlan.shownKey]
  generalize p.groupingKeys = cs at hkeys
  induction cs with
  | nil => rfl
  | cons c cs ih =>
    obtain ⟨k, hk⟩ := hp.allPlain_shown hrows (hkeys c List.mem_cons_self)
    have heq := eqv_eq_compare (hk _ (List.mem_map_of_mem hr)) (hk _ (List.mem_map_of_mem hr'))
    have hrest := ih fun d hd => hkeys d (List.mem_cons_of_mem c hd)
    rw [List.map_cons, List.map_cons, Value.eqvList, heq, hrest]
    rfl

/-- Rows have the same key only if their keys are equal. -/
theorem sameValues_shownKey_iff (hp : p.ShowsPlainly columns) (hrows : HoldCells columns rows)
    {row row' : List Value} (hr : row ∈ rows) (hr' : row' ∈ rows) :
    sameValues (p.shownKey columns row) (p.shownKey columns row') = true ↔
      p.shownKey columns row = p.shownKey columns row' := by
  rw [← sameValues_shownKey hp hrows hr hr']
  -- Induction on the columns to group by, each of which shows values of one kind.
  have hkeys : ∀ c ∈ p.groupingKeys, c ∈ p.outputColumns := fun c hc =>
    p.mem_outputColumns.2 (.inl hc)
  rw [ChartPlan.shownKey, ChartPlan.shownKey]
  generalize p.groupingKeys = cs at hkeys
  induction cs with
  | nil => exact ⟨fun _ => rfl, fun _ => rfl⟩
  | cons c cs ih =>
    obtain ⟨k, hk⟩ := hp.allPlain_shown hrows (hkeys c List.mem_cons_self)
    have heq := eqv_iff_eq (hk _ (List.mem_map_of_mem hr)) (hk _ (List.mem_map_of_mem hr'))
    have hrest := ih fun d hd => hkeys d (List.mem_cons_of_mem c hd)
    simp only [List.map_cons, Value.eqvList, Bool.and_eq_true, List.cons.injEq, heq]
    exact and_congr_right fun _ => hrest

/-- A group has rows of the table, and its key is what is shown of the first of them. -/
theorem mem_groupRows_shownKey (hp : p.ShowsPlainly columns) (hrows : HoldCells columns rows)
    {g : List Value × List (List Value)}
    (hg : g ∈ groupRows sameValues (p.shownKey columns) rows) :
    g.2 ⊆ rows ∧ g.2 ≠ [] ∧ g.1 = p.shownKey columns (g.2.headD []) := by
  have hne : g.2 ≠ [] := groupRows_ne_nil
    (fun row hr => (sameValues_shownKey_iff hp hrows hr hr).2 rfl) hg
  refine ⟨groupRows_subset hg, hne, ?_⟩
  refine (groupRows_key_eq (fun row hr row' hr' h =>
    (sameValues_shownKey_iff hp hrows hr hr').1 h) hg _ ?_).symm
  obtain ⟨row, rest, hcons⟩ := List.exists_cons_of_ne_nil hne
  rw [hcons]
  exact List.mem_cons_self

/-- Where values are equal only if they are the same, each is written as it is. -/
theorem asFirstSeen_of_eqv {vs : List Value}
    (h : ∀ v ∈ vs, ∀ w ∈ vs, v.eqv w = true → v = w) {v : Value} (hv : v ∈ vs) :
    ChartPlan.asFirstSeen (distinctKeys Value.eqv vs) v = v := by
  rw [ChartPlan.asFirstSeen]
  cases hfind : (distinctKeys Value.eqv vs).find? v.eqv with
  | none => rfl
  | some w =>
    have hw := distinctKeys_subset Value.eqv vs (List.mem_of_find?_eq_some hfind)
    exact (h v hv w hw (List.find?_some hfind)).symm

/-- A key is written as it first occurs, which is as it is. -/
theorem asFirstSeen_eq {k : PlainKind} {vs : List Value} (h : AllPlain k vs) {v : Value}
    (hv : v ∈ vs) : ChartPlan.asFirstSeen (distinctKeys Value.eqv vs) v = v :=
  asFirstSeen_of_eqv (fun v hv w hw => (eqv_iff_eq (h v hv) (h w hw)).1) hv

/-- The groups of records are those of their rows. -/
theorem ChartPlan.ShowsPlainly.groups_eq (hp : p.ShowsPlainly columns)
    (hrows : HoldCells columns rows) :
    p.groups (p.shownFrame columns rows) =
      .ok ((groupRows sameValues (p.shownKey columns) rows).map fun g =>
        (g.1, g.2.map (p.shownRow columns))) := by
  have hkeys : ∀ c ∈ p.groupingKeys, c ∈ p.outputColumns := fun c hc =>
    p.mem_outputColumns.2 (.inl hc)
  have hflat : ((p.shownFrame columns rows).rows.any fun r =>
      (p.groupingKeys.map (·.name)).any fun k => (r.value k).isCompound) = false := by
    refine List.any_eq_false.2 fun r hr => ?_
    obtain ⟨row, hrow, rfl⟩ := List.mem_map.1 hr
    rw [Bool.not_eq_true, List.any_eq_false]
    intro k hk
    obtain ⟨c, hc, rfl⟩ := List.mem_map.1 hk
    rw [value_shownRow hp (hkeys c hc)]
    obtain ⟨k, hk⟩ := hp.allPlain_shown hrows (hkeys c hc)
    rcases hk _ (List.mem_map_of_mem hrow) with hnull | hhas
    · rw [hnull]
      exact Bool.false_ne_true
    · rw [k.isCompound_eq hhas]
      exact Bool.false_ne_true
  -- A key is what is shown of the row: writing it as it first occurs changes nothing.
  have hkey : ∀ row ∈ rows, (((p.groupingKeys.map (·.name)).map fun k =>
      (k, distinctKeys Value.eqv ((p.shownFrame columns rows).column k))).map fun k =>
        asFirstSeen k.2 ((p.shownRow columns row).value k.1)) = p.shownKey columns row := by
    intro row hrow
    rw [List.map_map, List.map_map, shownKey]
    refine List.map_congr_left fun c hc => ?_
    obtain ⟨k, hk⟩ := hp.allPlain_shown hrows (hkeys c hc)
    simp only [Function.comp_apply, value_shownRow hp (hkeys c hc),
      column_shownFrame hp (hkeys c hc)]
    exact asFirstSeen_eq hk (List.mem_map_of_mem hrow)
  rw [ChartPlan.groups, hflat]
  simp only [Bool.false_eq_true, if_false]
  rw [show (p.shownFrame columns rows).rows = rows.map (p.shownRow columns) from rfl,
    groupRows_map]
  refine congrArg (fun G => Except.ok (G.map fun g => (g.1, g.2.map (p.shownRow columns))))
    (groupRows_congr hkey fun row hr row' hr' => ?_)
  simp only [hkey row hr, hkey row' hr']
  exact sameValues_shownKey hp hrows hr hr'

/-! ## Columns of the result -/

/-- The values of a column that is no mixture, or of nothing but or no whole numbers, are alike. -/
theorem resultColumn_eq {f : Frame} {name : String} {vs : List Value}
    (h : f.kind name = .mixed → (∀ v ∈ vs, v.int? = none) ∨ ∀ v ∈ vs, v.int?.isSome = true) :
    ChartPlan.resultColumn f name vs = (name, vs) := by
  rw [ChartPlan.resultColumn]
  split
  · rename_i hmixed
    rcases h hmixed with hnone | hall
    · rw [unifyNumbers_of_no_int hnone]
    · rw [unifyNumbers_of_ints hall]
  · rfl

/-- A mixture of nulls and values of a kind holds no whole numbers. -/
theorem int?_eq_none_of_mixed {k : PlainKind} {vs : List Value} (h : AllPlain k vs)
    (hmixed : ColumnKind.Suits .mixed k vs) : ∀ v ∈ vs, v.int? = none := by
  intro v hv
  rcases h v hv with rfl | hhas
  · rfl
  · rcases hmixed with hk | hnil
    · cases k
      · exact ColumnKind.noConfusion hk
      · exact ColumnKind.noConfusion hk
      · cases v <;> first | rfl | exact Bool.noConfusion hhas
    · have : v ∈ presentValues vs := List.mem_filter.2 ⟨hv, by rw [k.isNull_eq hhas]; rfl⟩
      rw [hnil] at this
      exact absurd this List.not_mem_nil

/-- The column of a key holds what is shown of the first row of each group. -/
theorem keyColumn_eq (hp : p.ShowsPlainly columns) (hrows : HoldCells columns rows)
    {groups : List (List (List Value))} (hgroups : ∀ g ∈ groups, g ⊆ rows ∧ g ≠ [])
    {c : Identifier} (hc : c ∈ p.outputColumns) :
    ChartPlan.resultColumn (p.shownFrame columns rows) c.name
      (groups.map fun g => p.shown columns c (g.headD [])) =
      (c.name, groups.map fun g => p.shown columns c (g.headD [])) := by
  refine resultColumn_eq fun hmixed => .inl fun v hv => ?_
  obtain ⟨g, hg, rfl⟩ := List.mem_map.1 hv
  obtain ⟨hsub, hne⟩ := hgroups g hg
  obtain ⟨row, rest, rfl⟩ := List.exists_cons_of_ne_nil hne
  obtain ⟨k, hk⟩ := hp.allPlain_shown hrows hc
  have hsuits := columnKind_suits (p := p) hk c
  rw [← kind_shownFrame hp hc, hmixed] at hsuits
  exact int?_eq_none_of_mixed hk hsuits _ (List.mem_map_of_mem (hsub List.mem_cons_self))

/-- No sum of a column of the vertical axis leaves the range of 64 bits in any of the groups. -/
def ChartPlan.SumsFit (p : ChartPlan) (columns : List Column)
    (groups : List (List (List Value))) : Prop :=
  p.aggregation = .sum → ∀ g ∈ groups, ∀ y ∈ p.yAxis,
    isSignedWord (wholeTotal (g.map (cellOf columns y))) = true

/-- The facts about an aggregated column that its aggregates depend on. -/
theorem ChartPlan.ShowsPlainly.aggregated (hp : p.ShowsPlainly columns)
    (hrows : HoldCells columns rows) {c : Identifier} {a : Aggregation}
    (hc : p.drillDownLabel = some c ∧ a = .max ∨ c ∈ p.yAxis ∧ a = p.aggregation) :
    ∃ k, (typeOf columns c).plainKind? = some k ∧ a.suits k = true ∧
      AllPlain k (rows.map (cellOf columns c)) ∧
      ((p.shownFrame columns rows).kind c.name).Suits k (rows.map (cellOf columns c)) ∧
      ((p.shownFrame columns rows).kind c.name = .mixed → a = .count ∨
        a = .max ∧ presentValues (rows.map (cellOf columns c)) = []) := by
  have hmem : c ∈ p.outputColumns := by
    rw [p.mem_outputColumns]
    rcases hc with ⟨hc, -⟩ | ⟨hc, -⟩ <;> simp [hc]
  have hshown : rows.map (p.shown columns c) = rows.map (cellOf columns c) :=
    List.map_congr_left fun row _ => hp.shown_eq (.inr (hc.imp And.left And.left)) row
  obtain ⟨i, type, k, hcol, hk⟩ := hp.column c hmem
  have hplain := hrows.allPlain hcol hk
  have hkind := hcol.kindOf?_eq.trans hk
  have hsuits : a.suits k = true := by
    rcases hc with ⟨hlabel, rfl⟩ | ⟨hy, rfl⟩
    · exact hp.label c hlabel k hkind
    · exact hp.values c hy k hkind
  refine ⟨k, by rw [hcol.typeOf_eq, hk], hsuits, hplain, ?_, fun hmixed => ?_⟩
  · rw [kind_shownFrame hp hmem, hshown]
    exact columnKind_suits hplain c
  · rw [kind_shownFrame hp hmem, hshown] at hmixed
    rcases hc with ⟨-, rfl⟩ | ⟨hy, rfl⟩
    -- A label is no date, so that it is a mixture only without values.
    · right
      refine ⟨rfl, ?_⟩
      rcases columnKind_suits (p := p) hplain c with hk' | hnil
      · rw [hmixed] at hk'
        cases k
        · exact ColumnKind.noConfusion hk'
        · exact ColumnKind.noConfusion hk'
        · exact Bool.noConfusion hsuits
      · exact hnil
    -- A column of the vertical axis is a mixture only if it holds dates, which are but counted.
    · left
      obtain rfl : k = .date := by
        rcases columnKind_yAxis hy hplain with hk' | hk'
        · rw [hmixed] at hk'
          exact ColumnKind.noConfusion hk'
        · rw [hmixed] at hk'
          cases k
          · exact ColumnKind.noConfusion hk'
          · exact ColumnKind.noConfusion hk'
          · rfl
      cases ha : p.aggregation
      case count => rfl
      all_goals
        rw [ha] at hsuits
        exact Bool.noConfusion hsuits

/-- The aggregates that the records give for rows are those of the database. -/
theorem ChartPlan.ShowsPlainly.aggregate_eq (hp : p.ShowsPlainly columns)
    (hrows : HoldCells columns rows) {c : Identifier} {a : Aggregation}
    (hc : p.drillDownLabel = some c ∧ a = .max ∨ c ∈ p.yAxis ∧ a = p.aggregation)
    {g : List (List Value)} (hg : g ⊆ rows)
    (hsum : a = .sum → isSignedWord (wholeTotal (g.map (cellOf columns c))) = true) :
    a.ofGroup ((p.shownFrame columns rows).kind c.name) (g.map (cellOf columns c)) =
        .ok (aggregateOf a (typeOf columns c) (g.map (cellOf columns c))) ∧
      a.ofWhole ((p.shownFrame columns rows).kind c.name) (g.map (cellOf columns c)) =
        .ok (aggregateOf a (typeOf columns c) (g.map (cellOf columns c))) := by
  obtain ⟨k, htype, hsuits, hplain, hkind, -⟩ := hp.aggregated hrows hc
  have hsub : g.map (cellOf columns c) ⊆ rows.map (cellOf columns c) := List.map_subset _ hg
  exact aggregate_agrees hsuits htype (hplain.mono hsub) (hkind.mono hsub) hsum

/-- What is shown of an aggregated column are its cells. -/
theorem values_shownRow (hp : p.ShowsPlainly columns) {c : Identifier}
    (hc : p.drillDownLabel = some c ∨ c ∈ p.yAxis) (g : List (List Value)) :
    (g.map (p.shownRow columns)).map (·.value c.name) = g.map (cellOf columns c) := by
  rw [List.map_map]
  refine List.map_congr_left fun row _ => ?_
  exact (value_shownRow hp (p.mem_outputColumns.2 (.inr hc)) row).trans
    (hp.shown_eq (.inr hc) row)

/-- An aggregated column of the result holds the aggregates of the groups. -/
theorem groupColumn_eq (hp : p.ShowsPlainly columns) (hrows : HoldCells columns rows)
    {c : Identifier} {a : Aggregation}
    (hc : p.drillDownLabel = some c ∧ a = .max ∨ c ∈ p.yAxis ∧ a = p.aggregation)
    {groups : List (List Value × List (List Value))} (hgroups : ∀ g ∈ groups, g.2 ⊆ rows)
    (hsum : a = .sum → ∀ g ∈ groups,
      isSignedWord (wholeTotal (g.2.map (cellOf columns c))) = true) :
    ChartPlan.groupColumn a (p.shownFrame columns rows)
        (groups.map fun g => (g.1, g.2.map (p.shownRow columns))) c =
      .ok (c.name, groups.map fun g =>
        aggregateOf a (typeOf columns c) (g.2.map (cellOf columns c))) := by
  obtain ⟨k, -, -, -, -, hmixed⟩ := hp.aggregated hrows hc
  have hshown := values_shownRow hp (hc.imp And.left And.left)
  have hvalues : (groups.map fun g => (g.1, g.2.map (p.shownRow columns))).mapM
      (fun g => a.ofGroup ((p.shownFrame columns rows).kind c.name)
        (g.2.map (·.value c.name))) =
      .ok (groups.map fun g => aggregateOf a (typeOf columns c) (g.2.map (cellOf columns c))) := by
    rw [List.mapM_map]
    refine mapM_eq_ok fun g hg => ?_
    rw [Function.comp_apply, hshown]
    exact (hp.aggregate_eq hrows hc (hgroups g hg) fun ha => hsum ha g hg).1
  rw [ChartPlan.groupColumn, hvalues]
  refine congrArg Except.ok (resultColumn_eq fun hkind => ?_)
  -- A mixture is counted, or else a label without any values.
  rcases hmixed hkind with rfl | ⟨rfl, hnil⟩
  · right
    intro v hv
    obtain ⟨g, -, rfl⟩ := List.mem_map.1 hv
    rfl
  · left
    intro v hv
    obtain ⟨g, hg, rfl⟩ := List.mem_map.1 hv
    have hgnil : presentValues (g.2.map (cellOf columns c)) = [] := by
      refine List.filter_eq_nil_iff.2 fun w hw => ?_
      exact List.filter_eq_nil_iff.1 hnil w (List.map_subset _ (hgroups g hg) hw)
    show (extremeColumn .greatest (presentValues (g.2.map (cellOf columns c)))).int? = none
    rw [hgnil]
    rfl

/-! ## Rows of the result -/

/-- Only numbers are summed. -/
theorem ChartPlan.ShowsPlainly.checkNumeric_eq (hp : p.ShowsPlainly columns)
    (hrows : HoldCells columns rows) : p.checkNumeric (p.shownFrame columns rows) = .ok () := by
  rw [ChartPlan.checkNumeric]
  cases hfind : p.yAxis.find? fun y => !((p.shownFrame columns rows).kind y.name).isNumeric with
  | none => rfl
  | some y =>
    have hy := List.mem_of_find?_eq_some hfind
    have hnumeric := List.find?_some hfind
    have hmem : y ∈ p.outputColumns := p.mem_outputColumns.2 (.inr (.inr hy))
    obtain ⟨k, -, hsuits, hplain, -⟩ := hp.aggregated hrows (.inr ⟨hy, rfl⟩)
    cases ha : p.aggregation
    -- What is summed are whole numbers, whose column is one of numbers even without values.
    case sum =>
      rw [ha] at hsuits
      obtain rfl : k = .whole := by simpa [Aggregation.suits] using hsuits
      rw [kind_shownFrame hp hmem, List.map_congr_left fun row _ =>
        hp.shown_eq (.inr (.inr hy)) row] at hnumeric
      rcases columnKind_yAxis hy hplain with hkind | hkind
      · rw [hkind] at hnumeric
        exact Bool.noConfusion hnumeric
      · rw [hkind] at hnumeric
        exact Bool.noConfusion hnumeric
    case avg =>
      rw [ha] at hsuits
      exact Bool.noConfusion hsuits
    all_goals rfl

/-- The columns of keys hold what is shown of the first row of each group. -/
theorem keyColumns_eq (hp : p.ShowsPlainly columns) (hrows : HoldCells columns rows) :
    (p.groupingKeys.mapIdx fun n c => ChartPlan.resultColumn (p.shownFrame columns rows) c.name
      (((groupRows sameValues (p.shownKey columns) rows).map fun g =>
        (g.1, g.2.map (p.shownRow columns))).map fun g => g.1.getD n .null)) =
      p.groupingKeys.map fun c => (c.name,
        ((groupRows sameValues (p.shownKey columns) rows).map (·.2)).map fun g =>
          p.shown columns c (g.headD [])) := by
  refine List.ext_getElem (by simp) fun n hn hn' => ?_
  have hlt : n < p.groupingKeys.length := by simpa using hn
  have hkeys : ∀ g ∈ groupRows sameValues (p.shownKey columns) rows,
      g.1.getD n .null = p.shown columns p.groupingKeys[n] (g.2.headD []) := by
    intro g hg
    rw [(mem_groupRows_shownKey hp hrows hg).2.2, ChartPlan.shownKey]
    simp [List.getD_eq_getElem?_getD, hlt]
  rw [List.getElem_mapIdx, List.getElem_map, List.map_map, List.map_map,
    List.map_congr_left (g := fun g => p.shown columns p.groupingKeys[n] (g.2.headD [])) hkeys]
  have hgroups : ∀ g ∈ (groupRows sameValues (p.shownKey columns) rows).map (·.2),
      g ⊆ rows ∧ g ≠ [] := by
    intro g hg
    obtain ⟨pair, hpair, rfl⟩ := List.mem_map.1 hg
    obtain ⟨hsub, hne, -⟩ := mem_groupRows_shownKey hp hrows hpair
    exact ⟨hsub, hne⟩
  have hcolumn := keyColumn_eq hp hrows hgroups
    (p.mem_outputColumns.2 (.inl (List.getElem_mem hlt)))
  rwa [List.map_map] at hcolumn

/-- Without columns to group by the records give one row. -/
theorem wholeRow_eq (hp : p.ShowsPlainly columns) (hrows : HoldCells columns rows)
    (hkeys : p.groupingKeys = []) (hsum : p.SumsFit columns [rows]) :
    p.wholeRow (p.shownFrame columns rows) = .ok (p.groupRow columns rows) := by
  have hcolumn {c : Identifier} (hc : p.drillDownLabel = some c ∨ c ∈ p.yAxis) :
      (p.shownFrame columns rows).column c.name = rows.map (cellOf columns c) :=
    values_shownRow hp hc rows
  have hlabel : (p.drillDownLabel.toList.mapM fun c => do
      .ok (c.name, ← Aggregation.max.ofWhole ((p.shownFrame columns rows).kind c.name)
        ((p.shownFrame columns rows).column c.name)) : Except Failure _) =
      .ok (p.drillDownLabel.toList.map fun c => (c.name,
        aggregateOf .max (typeOf columns c) (rows.map (cellOf columns c)))) := by
    refine mapM_eq_ok fun c hc => ?_
    have hc : p.drillDownLabel = some c := Option.mem_toList.1 hc
    rw [hcolumn (.inl hc), (hp.aggregate_eq hrows (.inl ⟨hc, rfl⟩) (List.Subset.refl rows)
      fun h => Aggregation.noConfusion h).2]
    rfl
  have hvalues : (p.yAxis.mapM fun c => do
      .ok (c.name, ← p.aggregation.ofWhole ((p.shownFrame columns rows).kind c.name)
        ((p.shownFrame columns rows).column c.name)) : Except Failure _) =
      .ok (p.yAxis.map fun c => (c.name,
        aggregateOf p.aggregation (typeOf columns c) (rows.map (cellOf columns c)))) := by
    refine mapM_eq_ok fun c hc => ?_
    rw [hcolumn (.inr hc), (hp.aggregate_eq hrows (.inr ⟨hc, rfl⟩) (List.Subset.refl rows)
      fun h => hsum h rows List.mem_cons_self c hc).2]
    rfl
  rw [ChartPlan.wholeRow, hlabel, hvalues, ChartPlan.groupRow, ChartPlan.resultColumns, hkeys]
  simp [bind, Except.bind, Function.comp_def]

/-- With columns to group by the records give one row for each group. -/
theorem groupedRows_eq (hp : p.ShowsPlainly columns) (hrows : HoldCells columns rows)
    (hsum : p.SumsFit columns
      ((groupRows sameValues (p.shownKey columns) rows).map (·.2))) :
    p.groupedRows (p.shownFrame columns rows) =
      .ok (((groupRows sameValues (p.shownKey columns) rows).map (·.2)).map
        (p.groupRow columns)) := by
  have hkeys := keyColumns_eq hp hrows
  have hsub : ∀ g ∈ groupRows sameValues (p.shownKey columns) rows, g.2 ⊆ rows :=
    fun g hg => (mem_groupRows_shownKey hp hrows hg).1
  have hlabel := mapM_eq_ok (l := p.drillDownLabel.toList) fun c hc =>
    groupColumn_eq hp hrows (.inl ⟨Option.mem_toList.1 hc, rfl⟩) hsub
      fun h => Aggregation.noConfusion h
  have hvalues := mapM_eq_ok (l := p.yAxis) fun c hc =>
    groupColumn_eq hp hrows (.inr ⟨hc, rfl⟩) hsub
      fun h g hg => hsum h g.2 (List.mem_map_of_mem hg) c hc
  have hcolumns := rowsOfColumns_map Prod.fst
    (fun (c : String × (List (List Value) → Value)) g => c.2 g) (p.resultColumns columns)
    ((groupRows sameValues (p.shownKey columns) rows).map (·.2))
  rw [ChartPlan.groupedRows, hp.groups_eq hrows]
  simp only [mapError_ok, bind, Except.bind, hkeys, hlabel, hvalues, List.length_map]
  simp only [ChartPlan.resultColumns, List.map_append, List.map_map, List.length_map,
    Function.comp_def] at hcolumns
  simp only [List.map_map, Function.comp_def, hcolumns]
  simp only [ChartPlan.groupRow, ChartPlan.resultColumns, List.map_append, List.map_map,
    Function.comp_def]

/-- **The records give the row of every group of rows.** -/
theorem ChartPlan.ShowsPlainly.reduce_eq (hp : p.ShowsPlainly columns)
    (hrows : HoldCells columns rows) (hsum : p.SumsFit columns (p.tableGroups columns rows)) :
    p.reduce (p.shownFrame columns rows) =
      .ok ((p.tableGroups columns rows).map (p.groupRow columns)) := by
  rw [ChartPlan.reduce, hp.checkNumeric_eq hrows]
  rw [ChartPlan.tableGroups] at hsum ⊢
  by_cases hkeys : p.groupingKeys = []
  · rw [hkeys] at hsum ⊢
    have hwhole := wholeRow_eq hp hrows hkeys hsum
    simp only [mapError_ok, bind, Except.bind, hwhole, List.isEmpty_nil, if_true]
    rfl
  · have hsome : p.groupingKeys.isEmpty = false := by simpa using hkeys
    rw [hsome] at hsum ⊢
    exact groupedRows_eq hp hrows hsum

end Groups

end ChartQuery
