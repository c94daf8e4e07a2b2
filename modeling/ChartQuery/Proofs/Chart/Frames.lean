import ChartQuery.Database.Evaluation
import ChartQuery.Local.Chart
import ChartQuery.Proofs.Calendar.Dates
import ChartQuery.Proofs.Chart.PlainColumns

/-!
# The frame of plain columns

The frame of the records that a plan keeps shows, row by row, the cells of the table: on the
horizontal axis the dates cut to the resolution, everywhere else the cells as they are.

## Main definitions

* `ChartPlan.shown`: the value that a plan shows of a row in a column
* `ChartPlan.ShowsPlainly`: the columns of a plan are plain, and fit what it does with them

## Main results

* `ChartPlan.ShowsPlainly.frame_eq`: the frame holds the shown values
-/

namespace ChartQuery

open Sql

/-! ## Lists run through -/

theorem mapM_eq_ok {ε α β : Type} {f : α → Except ε β} {g : α → β} {l : List α}
    (h : ∀ a ∈ l, f a = .ok (g a)) : l.mapM f = .ok (l.map g) := by
  induction l with
  | nil => rfl
  | cons a l ih =>
    rw [List.mapM_cons, h a List.mem_cons_self, ih fun b hb => h b (List.mem_cons_of_mem a hb)]
    rfl

theorem mapM_eq_some {α β : Type} {f : α → Option β} {g : α → β} {l : List α}
    (h : ∀ a ∈ l, f a = some (g a)) : l.mapM f = some (l.map g) := by
  induction l with
  | nil => rfl
  | cons a l ih =>
    rw [List.mapM_cons, h a List.mem_cons_self, ih fun b hb => h b (List.mem_cons_of_mem a hb)]
    rfl

/-- What is there does not change with the way in which failures are told. -/
theorem mapError_ok {ε δ α : Type} (f : ε → δ) (a : α) :
    (Except.ok a : Except ε α).mapError f = .ok a :=
  rfl

/-- Columns that run through the same rows are the columns of records. -/
theorem rowsOfColumns_map {α γ : Type} (name : γ → String) (val : γ → α → Value) (cs : List γ)
    (rows : List α) :
    ChartPlan.rowsOfColumns rows.length (cs.map fun c => (name c, rows.map (val c))) =
      rows.map fun r => cs.map fun c => (name c, val c r) := by
  have hfold : ∀ (cs : List γ) (front : α → Record),
      (cs.map fun c => (name c, rows.map (val c))).foldl
        (fun done c => List.zipWith (fun r v => r ++ [(c.1, v)]) done c.2) (rows.map front) =
      rows.map fun r => front r ++ cs.map fun c => (name c, val c r) := by
    -- Induction on the columns, over any fields that the rows have already.
    intro cs
    induction cs with
    | nil => intro front; simp
    | cons c cs ih =>
      intro front
      have hstep : List.zipWith (fun r v => r ++ [(name c, v)]) (rows.map front)
          (rows.map (val c)) = rows.map fun r => front r ++ [(name c, val c r)] := by
        rw [List.zipWith_map, List.zipWith_self]
      rw [List.map_cons, List.foldl_cons, hstep, ih]
      simp
  have hempty : List.replicate rows.length ([] : Record) = rows.map fun _ => [] := by
    rw [List.map_const']
  rw [ChartPlan.rowsOfColumns, hempty, hfold]
  simp

/-! ## Shown values -/

/-- A cell cut to a resolution. -/
def Resolution.cutCell (r : Resolution) : Value → Value
  | .date d => r.cut d
  | _ => .null

/-- The value that a plan shows of a row in a column: on the horizontal axis, cut to the
resolution. -/
def ChartPlan.shown (p : ChartPlan) (columns : List Column) (c : Identifier)
    (row : List Value) : Value :=
  match p.resolution with
  | some r => if p.xAxis = some c then r.cutCell (cellOf columns c row) else cellOf columns c row
  | none => cellOf columns c row

/-- What a plan shows of a row. -/
def ChartPlan.shownRow (p : ChartPlan) (columns : List Column) (row : List Value) : Record :=
  p.outputColumns.map fun c => (c.name, p.shown columns c row)

/-- The frame of what a plan shows of rows. -/
def ChartPlan.shownFrame (p : ChartPlan) (columns : List Column) (rows : List (List Value)) :
    Frame where
  kinds := p.outputColumns.map fun c => (c.name, p.columnKind c (rows.map (p.shown columns c)))
  rows := rows.map (p.shownRow columns)

/-- The columns that a plan shows are plain and distinct; dates are cut only if they are dates, and
the aggregates are ones that suit the kinds of their columns. -/
structure ChartPlan.ShowsPlainly (p : ChartPlan) (columns : List Column) : Prop where
  nodup : (p.outputColumns.map Identifier.name).Nodup
  column : ∀ c ∈ p.outputColumns, ∃ i type k, HasColumn columns c i type ∧
    type.plainKind? = some k
  axis : p.resolution.isSome → ∀ x, p.xAxis = some x → kindOf? columns x = some .date
  values : ∀ y ∈ p.yAxis, ∀ k, kindOf? columns y = some k → p.aggregation.suits k = true
  label : ∀ d, p.drillDownLabel = some d → ∀ k, kindOf? columns d = some k →
    Aggregation.max.suits k = true
  compensated : p.compensated = []

theorem shown_eq_cellOf {p : ChartPlan} {columns : List Column} {c : Identifier}
    (h : p.resolution.isSome → p.xAxis ≠ some c) (row : List Value) :
    p.shown columns c row = cellOf columns c row := by
  rw [ChartPlan.shown]
  cases hr : p.resolution with
  | none => rfl
  | some r => exact if_neg (h (by rw [hr]; rfl))

/-- The cells of a column of the rows are those that it may hold. -/
def HoldCells (columns : List Column) (rows : List (List Value)) : Prop :=
  ∀ row ∈ rows, ∀ ⦃c i type⦄, HasColumn columns c i type →
    Column.holds ⟨c.name, type⟩ (cellOf columns c row) = true

theorem HoldCells.of_reads {columns : List Column} {rows : List (List Value)} {rs : List Record}
    (h : List.Forall₂ (Reads columns) rows rs) : HoldCells columns rows := by
  intro row hrow c i type hc
  obtain ⟨n, hn, rfl⟩ := List.mem_iff_getElem.1 hrow
  exact (h.get hn (h.length_eq ▸ hn) hc).2

theorem HoldCells.allPlain {columns : List Column} {rows : List (List Value)}
    (h : HoldCells columns rows) {c : Identifier} {i : Nat} {type : ColumnType} {k : PlainKind}
    (hc : HasColumn columns c i type) (hk : type.plainKind? = some k) :
    AllPlain k (rows.map (cellOf columns c)) := by
  intro v hv
  obtain ⟨row, hrow, rfl⟩ := List.mem_map.1 hv
  have := h row hrow hc
  simp only [Column.holds, hk, Option.any_some, Bool.or_eq_true, Bool.and_eq_true] at this
  rcases this with hnull | ⟨hhas, -⟩
  · left
    cases hv : cellOf columns c row <;> simp_all [Value.isNull]
  · exact .inr hhas

section Shown

variable {p : ChartPlan} {columns : List Column}

/-- What is shown of a column is plain: dates that are cut become texts or stay dates. -/
theorem ChartPlan.ShowsPlainly.allPlain_shown (hp : p.ShowsPlainly columns)
    {rows : List (List Value)} (hrows : HoldCells columns rows) {c : Identifier}
    (hc : c ∈ p.outputColumns) : ∃ k, AllPlain k (rows.map (p.shown columns c)) := by
  obtain ⟨i, type, k, hcol, hk⟩ := hp.column c hc
  have hcells := hrows.allPlain hcol hk
  by_cases hcut : p.resolution.isSome ∧ p.xAxis = some c
  -- Dates are cut to texts, or to days, which are dates again.
  · obtain ⟨r, hr⟩ := Option.isSome_iff_exists.1 hcut.1
    have hdate := hp.axis hcut.1 c hcut.2
    rw [hcol.kindOf?_eq, hk, Option.some.injEq] at hdate
    subst hdate
    have hshown : ∀ row, p.shown columns c row = r.cutCell (cellOf columns c row) := fun row => by
      rw [ChartPlan.shown, hr]
      exact if_pos hcut.2
    refine ⟨if r = .day then .date else .text, fun v hv => ?_⟩
    obtain ⟨row, hrow, rfl⟩ := List.mem_map.1 hv
    rw [hshown]
    rcases hcells _ (List.mem_map_of_mem hrow) with hnull | hhas
    · rw [hnull]
      exact .inl rfl
    · right
      cases hv : cellOf columns c row <;> rw [hv] at hhas <;> try exact Bool.noConfusion hhas
      cases r
      · rfl
      · rfl
      · exact hhas
  · refine ⟨k, fun v hv => ?_⟩
    obtain ⟨row, hrow, rfl⟩ := List.mem_map.1 hv
    rw [shown_eq_cellOf fun hr hx => hcut ⟨hr, hx⟩]
    exact hcells _ (List.mem_map_of_mem hrow)

/-- The frame takes from a record what is shown of its row. -/
theorem ChartPlan.ShowsPlainly.cell_eq (hp : p.ShowsPlainly columns) {c : Identifier}
    (hc : c ∈ p.outputColumns) {row : List Value} {r : Record} (hr : Reads columns row r) :
    p.cell c r = .ok (p.shown columns c row) := by
  obtain ⟨i, type, k, hcol, hk⟩ := hp.column c hc
  obtain ⟨hvalue, hholds⟩ := hr hcol
  rw [ChartPlan.cell, ChartPlan.shown, hvalue]
  cases hres : p.resolution with
  | none => rfl
  | some resolution =>
    by_cases hx : p.xAxis = some c
    · have hdate := hp.axis (by rw [hres]; rfl) c hx
      rw [hcol.kindOf?_eq] at hdate
      simp only [Column.holds, hdate, Option.any_some] at hholds
      dsimp only
      rw [if_pos hx, if_pos hx]
      cases hv : cellOf columns c row <;> rw [hv] at hholds
      case null => rfl
      case date d => rfl
      all_goals exact Bool.noConfusion hholds
    · dsimp only
      rw [if_neg hx, if_neg hx]

/-- The kind under which a frame holds plain values suits them. -/
theorem columnKind_suits {k : PlainKind} {vs : List Value} (h : AllPlain k vs) (c : Identifier) :
    (p.columnKind c vs).Suits k vs := by
  rcases ofValues_plain h with ⟨hnil, -⟩ | ⟨hne, hkind⟩
  · exact .inr hnil
  · left
    have hall : vs.all Value.isNull = false := by
      obtain ⟨v, hv⟩ := List.exists_mem_of_ne_nil _ hne
      obtain ⟨hmem, hnull⟩ := List.mem_filter.1 hv
      refine List.all_eq_false.2 ⟨v, hmem, ?_⟩
      simpa using hnull
    rw [ChartPlan.columnKind, hall, Bool.and_false, if_neg Bool.false_ne_true, hkind]

/-- A column of the vertical axis is held as doubles, if it has no values, or under their kind. -/
theorem columnKind_yAxis {c : Identifier} (hc : c ∈ p.yAxis) {k : PlainKind} {vs : List Value}
    (h : AllPlain k vs) : p.columnKind c vs = .double ∨ p.columnKind c vs = k.columnKind := by
  have hcontains : p.yAxis.contains c = true := by simpa using hc
  rw [ChartPlan.columnKind, hcontains, Bool.true_and]
  split
  · exact .inl rfl
  · rename_i hall
    obtain ⟨v, hv, hnull⟩ := List.all_eq_false.1 (Bool.eq_false_iff.2 hall)
    have hpresent : v ∈ presentValues vs := List.mem_filter.2 ⟨hv, by simpa using hnull⟩
    rcases ofValues_plain h with ⟨hnil, -⟩ | ⟨-, hkind⟩
    · rw [hnil] at hpresent
      exact absurd hpresent List.not_mem_nil
    · exact .inr hkind

/-- The values that a frame takes for a column are those shown of the rows. -/
theorem ChartPlan.ShowsPlainly.cells_eq (hp : p.ShowsPlainly columns) {rows : List (List Value)}
    {rs : List Record} (hrows : HoldCells columns rows)
    (hr : List.Forall₂ (Reads columns) rows rs) {c : Identifier} (hc : c ∈ p.outputColumns) :
    p.cells rs c = .ok (rows.map (p.shown columns c)) := by
  have hvalues : rs.mapM (p.cell c) = .ok (rows.map (p.shown columns c)) := by
    clear hrows
    induction hr with
    | nil => rfl
    | cons hrow _ ih =>
      rw [List.mapM_cons, hp.cell_eq hc hrow, ih]
      rfl
  obtain ⟨k, hk⟩ := hp.allPlain_shown hrows hc
  have hdepth : columnDepth (rows.map (p.shown columns c)) = 1 := by
    refine columnDepth_of_flat fun v hv => ?_
    rcases hk v hv with rfl | hhas
    · rfl
    · exact k.isCompound_eq hhas
  rw [ChartPlan.cells, hvalues]
  simp only [bind, Except.bind, hdepth, Nat.lt_irrefl, if_false]

/-- **The frame of the records that are kept holds what is shown of their rows.** -/
theorem ChartPlan.ShowsPlainly.frame_eq (hp : p.ShowsPlainly columns) {rows : List (List Value)}
    {rs : List Record} (hrows : HoldCells columns rows)
    (hr : List.Forall₂ (Reads columns) rows rs) :
    p.frame rs = .ok (p.shownFrame columns rows) := by
  -- Every column is held as it is, under the kind of its values.
  have hcolumns : (p.outputColumns.mapM fun c => do
      let vs ← p.cells rs c
      let kind := p.columnKind c vs
      .ok (c.name, kind, vs.map kind.convert) : Except Unforeseen _) =
      .ok (p.outputColumns.map fun c =>
        (c.name, p.columnKind c (rows.map (p.shown columns c)), rows.map (p.shown columns c))) := by
    refine mapM_eq_ok fun c hc => ?_
    obtain ⟨k, hk⟩ := hp.allPlain_shown hrows hc
    rw [hp.cells_eq hrows hr hc]
    simp only [bind, Except.bind, ColumnKind.convert_plain hk (columnKind_suits hk c)]
  rw [ChartPlan.frame, hcolumns]
  simp only [bind, Except.bind, List.map_map, Function.comp_def, ← hr.length_eq]
  rw [rowsOfColumns_map]
  rfl

theorem value_shownRow (hp : p.ShowsPlainly columns) {c : Identifier} (hc : c ∈ p.outputColumns)
    (row : List Value) : (p.shownRow columns row).value c.name = p.shown columns c row := by
  refine Record.value_of_mem ?_ (List.mem_map_of_mem hc)
  rw [ChartPlan.shownRow, List.map_map]
  exact hp.nodup

theorem kind_shownFrame (hp : p.ShowsPlainly columns) {c : Identifier} (hc : c ∈ p.outputColumns)
    (rows : List (List Value)) :
    (p.shownFrame columns rows).kind c.name =
      p.columnKind c (rows.map (p.shown columns c)) := by
  have hnodup : ((p.shownFrame columns rows).kinds.map Prod.fst).Nodup := by
    rw [ChartPlan.shownFrame, List.map_map]
    exact hp.nodup
  rw [Frame.kind, (Entries.lookup_eq_some_iff_mem hnodup).2 (List.mem_map_of_mem hc)]
  rfl

theorem column_shownFrame (hp : p.ShowsPlainly columns) {c : Identifier}
    (hc : c ∈ p.outputColumns) (rows : List (List Value)) :
    (p.shownFrame columns rows).column c.name = rows.map (p.shown columns c) := by
  rw [Frame.column, ChartPlan.shownFrame, List.map_map]
  exact List.map_congr_left fun row _ => value_shownRow hp hc row

end Shown

end ChartQuery
