import ChartQuery.Proofs.Chart.Frames
import ChartQuery.Proofs.Computation
import ChartQuery.Proofs.Plan.WellFormed

/-!
# Frames of any records

Whatever values records hold, their frame shows them row by row: each value as the plan shows it,
held under the kind that all values of its column decide together. There is no such frame in two
cases only: a value of the horizontal axis cannot be cut, or all values of a column are lists of one
length.

## Main definitions

* `ChartPlan.heldFrame`: the frame that records have, if they have one

## Main results

* `one_lt_columnDepth_iff`: which columns are not flat
* `ChartPlan.frame_eq_ok_iff`: when records have a frame, and which
* `ChartPlan.frame_eq_error_iff`: when they have none
-/

namespace ChartQuery

/-! ## Lists of one length -/

theorem head?_commonStart {s t : List Nat} {n : Nat} :
    (commonStart s t).head? = some n ↔ s.head? = some n ∧ t.head? = some n := by
  cases s with
  | nil => simp [commonStart]
  | cons i s =>
    cases t with
    | nil => simp [commonStart]
    | cons j t =>
      by_cases h : i = j
      · simp [commonStart, h]
      · simp only [commonStart, if_neg h, List.head?_nil, List.head?_cons, Option.some.injEq]
        constructor
        · intro hnone
          cases hnone
        · rintro ⟨rfl, rfl⟩
          exact absurd rfl h

/-- Shapes begin alike exactly if all of them begin with the same length. -/
theorem head?_foldl_commonStart {shapes : List (List Nat)} {s : List Nat} {n : Nat} :
    (shapes.foldl commonStart s).head? = some n ↔
      s.head? = some n ∧ ∀ t ∈ shapes, t.head? = some n := by
  induction shapes generalizing s with
  | nil => simp
  | cons t shapes ih => rw [List.foldl_cons, ih, head?_commonStart, List.forall_mem_cons, and_assoc]

theorem Value.head?_shape {v : Value} {n : Nat} :
    v.shape.head? = some n ↔ ∃ items, v = .list items ∧ items.length = n := by
  cases v <;> simp [Value.shape]

theorem Value.shapes_eq_map (vs : List Value) : Value.shapes vs = vs.map Value.shape := by
  induction vs with
  | nil => rfl
  | cons v vs ih => rw [Value.shapes, ih, List.map_cons]

/-- The values of a column need several indices exactly if all of them are lists of one length. -/
theorem one_lt_columnDepth_iff {vs : List Value} :
    1 < columnDepth vs ↔
      vs ≠ [] ∧ ∃ n, ∀ v ∈ vs, ∃ items, v = .list items ∧ items.length = n := by
  have hdepth : 1 < columnDepth vs ↔ ∃ n, (commonShape (Value.shapes vs)).head? = some n := by
    rw [columnDepth]
    cases commonShape (Value.shapes vs) <;> simp
  rw [hdepth, Value.shapes_eq_map]
  cases vs with
  | nil => simp [commonShape]
  | cons v vs =>
    simp only [List.map_cons, commonShape, head?_foldl_commonStart, List.forall_mem_map,
      Value.head?_shape, List.forall_mem_cons, ne_eq, reduceCtorEq, not_false_eq_true, true_and]

/-! ## Frames -/

namespace ChartPlan

variable (p : ChartPlan) (rs : List Record)

/-- The value that a plan shows of a record, if it can be shown. -/
def shownOf (c : Identifier) (r : Record) : Value := (p.cell c r).toOption.getD .null

/-- The kind under which a column of records is held. -/
def heldKind (c : Identifier) : ColumnKind := p.columnKind c (rs.map (p.shownOf c))

/-- The value that a frame holds of a record. -/
def held (c : Identifier) (r : Record) : Value := (p.heldKind rs c).convert (p.shownOf c r)

/-- The row that a frame holds for a record. -/
def heldRow (r : Record) : Record := p.outputColumns.map fun c => (c.name, p.held rs c r)

/-- The frame of records. -/
def heldFrame : Frame where
  kinds := p.outputColumns.map fun c => (c.name, p.heldKind rs c)
  rows := rs.map (p.heldRow rs)

variable {p rs}

theorem shownOf_eq {c : Identifier} {r : Record} {v : Value} (h : p.cell c r = .ok v) :
    p.shownOf c r = v := by
  rw [shownOf, h]
  rfl

/-- The values of a column can be shown: each of them can, and not all are lists of one length. -/
theorem cells_eq_ok_iff {c : Identifier} {vs : List Value} :
    p.cells rs c = .ok vs ↔
      (∀ r ∈ rs, ∃ v, p.cell c r = .ok v) ∧ ¬ 1 < columnDepth (rs.map (p.shownOf c)) ∧
        vs = rs.map (p.shownOf c) := by
  rw [cells]
  by_cases hshown : ∀ r ∈ rs, ∃ v, p.cell c r = .ok v
  · have hvalues : rs.mapM (p.cell c) = .ok (rs.map (p.shownOf c)) := by
      refine mapM_eq_ok fun r hr => ?_
      obtain ⟨v, hv⟩ := hshown r hr
      rw [shownOf_eq hv, hv]
    rw [hvalues]
    simp only [bind, Except.bind]
    split
    · rename_i hdeep
      simp [hdeep]
    · rename_i hflat
      simp only [Except.ok.injEq, hflat, not_false_eq_true, true_and]
      exact ⟨fun h => ⟨hshown, h.symm⟩, fun h => h.2.symm⟩
  · refine iff_of_false ?_ fun h => hshown h.1
    cases hvalues : rs.mapM (p.cell c) with
    | error e =>
      intro h
      cases h
    | ok ws => exact absurd (exists_mapM_ok_iff.1 ⟨ws, hvalues⟩) hshown

/-- The values of a column can be held in a frame. -/
def CanHold (p : ChartPlan) (rs : List Record) (c : Identifier) : Prop :=
  (∀ r ∈ rs, ∃ v, p.cell c r = .ok v) ∧ ¬ 1 < columnDepth (rs.map (p.shownOf c))

/-- **Records have a frame exactly if all their columns can be held, and it holds what is shown of
the records.** -/
theorem frame_eq_ok_iff {f : Frame} :
    p.frame rs = .ok f ↔ (∀ c ∈ p.outputColumns, p.CanHold rs c) ∧ f = p.heldFrame rs := by
  have hcolumn (c : Identifier) (hc : p.CanHold rs c) :
      (do
        let vs ← p.cells rs c
        let kind := p.columnKind c vs
        .ok (c.name, kind, vs.map kind.convert) : Except Unforeseen _) =
        .ok (c.name, p.heldKind rs c, rs.map (p.held rs c)) := by
    rw [cells_eq_ok_iff.2 ⟨hc.1, hc.2, rfl⟩]
    simp only [bind, Except.bind, List.map_map]
    rfl
  rw [frame, bind_eq_ok_iff]
  constructor
  · rintro ⟨columns, hcolumns, hf⟩
    -- A frame is made only if every column could be shown.
    have hall : ∀ c ∈ p.outputColumns, p.CanHold rs c := by
      intro c hc
      obtain ⟨_, hshown⟩ := exists_mapM_ok_iff.1 ⟨columns, hcolumns⟩ c hc
      obtain ⟨vs, hcells, -⟩ := bind_eq_ok_iff.1 hshown
      obtain ⟨hcell, hflat, -⟩ := cells_eq_ok_iff.1 hcells
      exact ⟨hcell, hflat⟩
    refine ⟨hall, ?_⟩
    rw [mapM_eq_ok fun c hc => hcolumn c (hall c hc)] at hcolumns
    cases hcolumns
    simp only [List.map_map, Function.comp_def, rowsOfColumns_map, Except.ok.injEq] at hf
    exact hf.symm
  · rintro ⟨hall, rfl⟩
    refine ⟨_, mapM_eq_ok fun c hc => hcolumn c (hall c hc), ?_⟩
    simp only [List.map_map, Function.comp_def, rowsOfColumns_map]
    rfl

/-- Records have no frame exactly if a value of the axis cannot be cut, or all values of a shown
column are lists of one length. -/
theorem frame_eq_error_iff :
    (∃ e, p.frame rs = .error e) ↔
      (∃ c ∈ p.outputColumns, ∃ r ∈ rs, ∃ e, p.cell c r = .error e) ∨
        ∃ c ∈ p.outputColumns, rs ≠ [] ∧
          ∃ n, ∀ r ∈ rs, ∃ items, p.cell c r = .ok (.list items) ∧ items.length = n := by
  have hframe : (∃ f, p.frame rs = .ok f) ↔ ∀ c ∈ p.outputColumns, p.CanHold rs c := by
    constructor
    · rintro ⟨f, hf⟩
      exact (frame_eq_ok_iff.1 hf).1
    · intro hall
      exact ⟨_, frame_eq_ok_iff.2 ⟨hall, rfl⟩⟩
  have hdeep (c : Identifier) (hshown : ∀ r ∈ rs, ∃ v, p.cell c r = .ok v) :
      1 < columnDepth (rs.map (p.shownOf c)) ↔ rs ≠ [] ∧
        ∃ n, ∀ r ∈ rs, ∃ items, p.cell c r = .ok (.list items) ∧ items.length = n := by
    rw [one_lt_columnDepth_iff, ne_eq, List.map_eq_nil_iff]
    refine and_congr_right fun _ => exists_congr fun n => ?_
    rw [List.forall_mem_map]
    refine forall₂_congr fun r hr => exists_congr fun items => and_congr_left fun _ => ?_
    obtain ⟨v, hv⟩ := hshown r hr
    rw [shownOf_eq hv, hv, Except.ok.injEq]
  rw [exists_error_iff, hframe]
  simp only [not_forall, exists_prop]
  constructor
  · rintro ⟨c, hc, hnot⟩
    by_cases hshown : ∀ r ∈ rs, ∃ v, p.cell c r = .ok v
    · right
      refine ⟨c, hc, (hdeep c hshown).1 ?_⟩
      by_contra hflat
      exact hnot ⟨hshown, hflat⟩
    · left
      simp only [not_forall, exists_prop] at hshown
      obtain ⟨r, hr, hfail⟩ := hshown
      exact ⟨c, hc, r, hr, exists_error_iff.2 hfail⟩
  · rintro (⟨c, hc, r, hr, hfail⟩ | ⟨c, hc, hlists⟩)
    · exact ⟨c, hc, fun hcan => exists_error_iff.1 hfail (hcan.1 r hr)⟩
    · exact ⟨c, hc, fun hcan => hcan.2 ((hdeep c hcan.1).2 hlists)⟩

end ChartPlan

section Held

variable {p : ChartPlan} {rs : List Record} {c : Identifier}

theorem value_heldRow (hp : (p.outputColumns.map Identifier.name).Nodup)
    (hc : c ∈ p.outputColumns) (r : Record) : (p.heldRow rs r).value c.name = p.held rs c r := by
  refine Record.value_of_mem ?_ (List.mem_map_of_mem hc)
  rw [ChartPlan.heldRow, List.map_map]
  exact hp

theorem kind_heldFrame (hp : (p.outputColumns.map Identifier.name).Nodup)
    (hc : c ∈ p.outputColumns) : (p.heldFrame rs).kind c.name = p.heldKind rs c := by
  have hnodup : ((p.heldFrame rs).kinds.map Prod.fst).Nodup := by
    rw [ChartPlan.heldFrame, List.map_map]
    exact hp
  rw [Frame.kind, (Entries.lookup_eq_some_iff_mem hnodup).2 (List.mem_map_of_mem hc)]
  rfl

theorem column_heldFrame (hp : (p.outputColumns.map Identifier.name).Nodup)
    (hc : c ∈ p.outputColumns) : (p.heldFrame rs).column c.name = rs.map (p.held rs c) := by
  rw [Frame.column, ChartPlan.heldFrame, List.map_map]
  exact List.map_congr_left fun r _ => value_heldRow hp hc r

end Held

end ChartQuery
