/-!
# Groups of rows

Rows with the same key form a group. Groups stand in the order in which their keys first occur, and
a group shows its key as it first occurred.

## Main definitions

* `distinctKeys same ks`: the keys, each as it first occurs
* `groupRows same key rows`: the groups of a list of rows

## Main results

* `mem_distinctKeys_self`: every key is the same as one of the distinct ones
* `groupRows_keys`: the keys of the groups are the distinct keys of the rows
-/

namespace ChartQuery

variable {α κ : Type}

/-- The keys with one more, unless it is the same as one of them. -/
def addKey (same : κ → κ → Bool) (ks : List κ) (k : κ) : List κ :=
  if ks.any (same · k) then ks else ks ++ [k]

/-- The keys, each as it first occurs. -/
def distinctKeys (same : κ → κ → Bool) (ks : List κ) : List κ := ks.foldl (addKey same) []

/-- The groups of a list of rows: their keys with their rows, in order. -/
def groupRows (same : κ → κ → Bool) (key : α → κ) (rows : List α) : List (κ × List α) :=
  (distinctKeys same (rows.map key)).map fun k => (k, rows.filter fun r => same k (key r))

theorem any_addKey {same : κ → κ → Bool} {ks : List κ} {k j : κ} (h : ks.any (same · j)) :
    (addKey same ks k).any (same · j) := by
  unfold addKey
  split
  · exact h
  · simp [h]

theorem any_foldl_addKey {same : κ → κ → Bool} {js ks : List κ} {k : κ} (h : ks.any (same · k)) :
    (js.foldl (addKey same) ks).any (same · k) := by
  induction js generalizing ks with
  | nil => exact h
  | cons j js ih => exact ih (any_addKey h)

/-- Every key that is the same as itself is the same as one of the distinct ones. -/
theorem mem_distinctKeys_self {same : κ → κ → Bool} {ks : List κ} {k : κ} (hrefl : same k k)
    (h : k ∈ ks) : (distinctKeys same ks).any (same · k) := by
  obtain ⟨before, behind, rfl⟩ := List.append_of_mem h
  rw [distinctKeys, List.foldl_append, List.foldl_cons]
  refine any_foldl_addKey ?_
  unfold addKey
  split
  · assumption
  · simp [hrefl]

/-- The keys of the groups are the distinct keys of the rows. -/
theorem groupRows_keys (same : κ → κ → Bool) (key : α → κ) (rows : List α) :
    (groupRows same key rows).map (·.1) = distinctKeys same (rows.map key) := by
  simp [groupRows, Function.comp_def]

end ChartQuery
