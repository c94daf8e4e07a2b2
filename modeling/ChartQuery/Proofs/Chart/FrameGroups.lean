import ChartQuery.Local.Chart
import ChartQuery.Proofs.Computation
import ChartQuery.Proofs.Rows.Grouping

/-!
# Groups of the rows of a frame

The rows of any frame are grouped by keys of which each value is written as it is first seen in its
column. So every key consists of values of the columns, every group of rows of the frame, and no two
keys are equal, whatever the columns hold.

## Main definitions

* `ChartPlan.frameKey`: the key of a row of a frame

## Main results

* `eq_groupRows_of_groups`: the groups of a frame are those of its rows by their keys
* `getD_frameKey_mem`: a value of a key is one of its column
* `pairwise_keys`: no two groups have equal keys
-/

namespace ChartQuery

/-! ## Equal values -/

/-- A value as first seen is one of those among which it is sought. -/
theorem asFirstSeen_mem {vs : List Value} {v : Value} (hv : v ∈ vs) :
    ChartPlan.asFirstSeen (distinctKeys Value.eqv vs) v ∈ vs := by
  rw [ChartPlan.asFirstSeen]
  cases hfind : (distinctKeys Value.eqv vs).find? v.eqv with
  | none => exact hv
  | some w => exact distinctKeys_subset Value.eqv vs (List.mem_of_find?_eq_some hfind)

/-- Lists of values that are equal are equal item by item. -/
theorem eqvList_map_eq_true_iff {α : Type} {cs : List α} {g h : α → Value} :
    Value.eqvList (cs.map g) (cs.map h) = true ↔ ∀ c ∈ cs, (g c).eqv (h c) = true := by
  induction cs with
  | nil => simp [Value.eqvList]
  | cons c cs ih =>
    rw [List.map_cons, List.map_cons, Value.eqvList, Bool.and_eq_true, ih, List.forall_mem_cons]

/-! ## Keys of groups -/

/-- The key of a row of a frame: each value as it is first seen in its column. -/
def ChartPlan.frameKey (p : ChartPlan) (f : Frame) (r : Record) : List Value :=
  p.groupingKeys.map fun c => asFirstSeen (distinctKeys Value.eqv (f.column c.name)) (r.value c.name)

section Keys

variable {p : ChartPlan} {f : Frame} {gs : List (List Value × List Record)}

/-- The groups of a frame are those of its rows by their keys. -/
theorem eq_groupRows_of_groups (h : p.groups f = .ok gs) :
    gs = groupRows Value.eqvList (p.frameKey f) f.rows := by
  simp only [ChartPlan.groups] at h
  split at h
  · cases h
  · rw [← Except.ok.inj h]
    refine groupRows_congr (fun r _ => ?_) fun r _ s _ => rfl
    simp only [ChartPlan.frameKey, List.map_map]
    rfl

/-- Where rows are grouped, there are groups. -/
theorem exists_groups_of_groupedRows {rows : List Record}
    (h : p.groupedRows f = .ok rows) : ∃ gs, p.groups f = .ok gs := by
  obtain ⟨gs, hgs, -⟩ := bind_eq_ok_iff.1 h
  exact ⟨gs, mapError_eq_ok_iff.1 hgs⟩

variable (hgs : p.groups f = .ok gs)

include hgs

/-- The key of a group is that of a row. -/
theorem exists_frameKey {g : List Value × List Record} (hg : g ∈ gs) :
    ∃ r ∈ f.rows, g.1 = p.frameKey f r := by
  rw [eq_groupRows_of_groups hgs] at hg
  exact exists_mem_of_groupRows hg

/-- A group consists of rows of the frame. -/
theorem group_subset {g : List Value × List Record} (hg : g ∈ gs) : g.2 ⊆ f.rows := by
  rw [eq_groupRows_of_groups hgs] at hg
  exact groupRows_subset hg

theorem length_frameKey {g : List Value × List Record} (hg : g ∈ gs) :
    g.1.length = p.groupingKeys.length := by
  obtain ⟨r, -, hkey⟩ := exists_frameKey hgs hg
  rw [hkey, ChartPlan.frameKey, List.length_map]

/-- A value of a key is one of its column. -/
theorem getD_frameKey_mem {g : List Value × List Record} (hg : g ∈ gs) {n : Nat} {c : Identifier}
    (hc : p.groupingKeys[n]? = some c) : g.1.getD n .null ∈ f.column c.name := by
  obtain ⟨r, hr, hkey⟩ := exists_frameKey hgs hg
  have hvalue : g.1.getD n .null =
      ChartPlan.asFirstSeen (distinctKeys Value.eqv (f.column c.name)) (r.value c.name) := by
    simp [hkey, ChartPlan.frameKey, List.getD_eq_getElem?_getD, hc]
  rw [hvalue]
  exact asFirstSeen_mem (List.mem_map_of_mem hr)

/-- No two groups have equal keys. -/
theorem pairwise_keys : (gs.map (·.1)).Pairwise fun k j => Value.eqvList k j = false := by
  rw [eq_groupRows_of_groups hgs, List.pairwise_map]
  exact pairwise_groupRows _ _ _

end Keys

end ChartQuery
