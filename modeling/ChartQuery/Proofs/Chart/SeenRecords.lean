import ChartQuery.Local.Chart
import ChartQuery.Proofs.Computation

/-!
# What plans see of records

A plan looks at the columns that it shows and at those of its conditions, and at nothing else of a
record. So filtering what it sees of records is seeing what filtering keeps of them, their frame is
that of what it sees, and so are its rows.

## Main definitions

* `ChartPlan.readColumns p`: the columns whose values a plan looks at
* `ChartPlan.seen p r`: what a plan sees of a record

## Main results

* `ChartPlan.filterRows_map_seen`: filtering what is seen
* `ChartPlan.frame_map_seen`: the frame of what is seen
* `ChartPlan.apply_congr`: records of which a plan sees the same have the same rows
-/

namespace ChartQuery

namespace ChartPlan

/-- The columns whose values a plan looks at: those that it shows, and those of its conditions. -/
def readColumns (p : ChartPlan) : List Identifier := p.outputColumns ++ p.filters.map (·.column)

/-- What a plan sees of a record: the values of the columns that it looks at. -/
def seen (p : ChartPlan) (r : Record) : Record :=
  p.readColumns.map fun c => (c.name, r.value c.name)

end ChartPlan

/-- Fields made of names hold what is made of the name. -/
theorem Record.value_map_names {cs : List Identifier} (g : String → Value) {c : Identifier}
    (hc : c ∈ cs) : Record.value (cs.map fun c => (c.name, g c.name)) c.name = g c.name := by
  induction cs with
  | nil => cases hc
  | cons d cs ih =>
    by_cases hname : c.name = d.name
    · simp [Record.value, hname]
    · have hne : (c.name == d.name) = false := by simpa using hname
      have hrest : c ∈ cs := (List.mem_cons.1 hc).resolve_left fun h => hname (h ▸ rfl)
      simpa [Record.value, List.lookup_cons, hne] using ih hrest

namespace ChartPlan

section Seen

variable {p : ChartPlan} {c : Identifier} (r : Record) (rs : List Record)

theorem value_seen (hc : c ∈ p.readColumns) : (p.seen r).value c.name = r.value c.name :=
  Record.value_map_names _ hc

theorem value_seen_shown (hc : c ∈ p.outputColumns) : (p.seen r).value c.name = r.value c.name :=
  value_seen r (List.mem_append_left _ hc)

/-! ## Filtering -/

theorem allHold_seen {fs : List PlanFilter} (hfs : ∀ f ∈ fs, f ∈ p.filters) :
    allHold (p.seen r) fs = allHold r fs := by
  induction fs with
  | nil => rfl
  | cons f fs ih =>
    have hf : f.column ∈ p.readColumns :=
      List.mem_append_right _ (List.mem_map_of_mem (hfs f List.mem_cons_self))
    have hholds : f.holds (p.seen r) = f.holds r := by
      rw [PlanFilter.holds, PlanFilter.holds, value_seen r hf]
    rw [allHold, allHold, hholds, ih fun g hg => hfs g (List.mem_cons_of_mem f hg)]

/-- Whether a record is kept is decided by what is seen of it. -/
theorem keeps_seen : p.keeps (p.seen r) = p.keeps r := by
  have haxis : (p.xAxis.any fun x => ((p.seen r).value x.name).isNull) =
      p.xAxis.any fun x => (r.value x.name).isNull := by
    cases hx : p.xAxis with
    | none => rfl
    | some x =>
      have hmem : x ∈ p.outputColumns := by simp [outputColumns, groupingKeys, hx]
      simp only [Option.any_some, value_seen_shown r hmem]
  rw [keeps, keeps, haxis, allHold_seen r fun _ hf => hf]

theorem keepRows_map_seen :
    p.keepRows (rs.map p.seen) = (p.keepRows rs).map (List.map p.seen) := by
  induction rs with
  | nil => rfl
  | cons r rs ih =>
    rw [List.map_cons, keepRows, keepRows, keeps_seen, ih]
    cases p.keeps r with
    | error e => rfl
    | ok keep => cases p.keepRows rs <;> cases keep <;> rfl

/-- What is kept of that which is seen of records is what is seen of those that are kept. -/
theorem filterRows_map_seen :
    p.filterRows (rs.map p.seen) = (p.filterRows rs).map (List.map p.seen) := by
  rw [filterRows, filterRows, keepRows_map_seen]
  cases p.checkShapes <;> rfl

/-! ## Frames and rows -/

theorem cells_map_seen (hc : c ∈ p.outputColumns) : p.cells (rs.map p.seen) c = p.cells rs c := by
  have hcell : p.cell c ∘ p.seen = p.cell c := by
    funext r
    simp only [Function.comp_apply, cell, value_seen_shown r hc]
  rw [cells, cells, List.mapM_map, hcell]

/-- The frame of what is seen of records is theirs. -/
theorem frame_map_seen : p.frame (rs.map p.seen) = p.frame rs := by
  rw [frame, frame, List.length_map]
  exact congrArg (· >>= _) (mapM_congr fun c hc => by rw [cells_map_seen rs hc])

/-- The rows of what is seen of records are theirs. -/
theorem apply_map_seen : p.apply (rs.map p.seen) = p.apply rs := by
  rw [apply, apply, unlabelledRows, unlabelledRows, filterRows_map_seen]
  cases p.filterRows rs with
  | error e => rfl
  | ok kept =>
    simp only [Except.map, Except.mapError, bind, Except.bind, frame_map_seen]

end Seen

/-- **Records of which a plan sees the same have the same rows**, or fail with the same error. -/
theorem apply_congr {p : ChartPlan} {rs rs' : List Record}
    (h : List.Forall₂ (fun r r' => ∀ c ∈ p.readColumns, r'.value c.name = r.value c.name) rs rs') :
    p.apply rs' = p.apply rs := by
  have hseen : rs'.map p.seen = rs.map p.seen := by
    induction h with
    | nil => rfl
    | cons hr _ ih =>
      rw [List.map_cons, List.map_cons, ih]
      exact congrArg (· :: _) (List.map_congr_left fun c hc => by rw [hr c hc])
  rw [← apply_map_seen, hseen, apply_map_seen]

end ChartPlan

end ChartQuery
