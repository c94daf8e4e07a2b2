import ChartQuery.Name

/-!
# Imported records

The names of an imported record are cleaned before anything looks at them. Of several names that
become the same the first one counts, and a name of which nothing is left is dropped.

## Main definitions

* `Record.cleaned r`: the record under cleaned names
* `columnsOfRecords rs`: the columns of a list of records

## Main results

* `Record.get?_addClean`: what one more field changes
* `Record.keys_cleaned`: the names of a cleaned record are cleaned, and not empty
-/

namespace ChartQuery

namespace Record

/-- The record with one more field under its cleaned name, unless that is empty or taken. -/
def addClean (r : Record) (name : String) (v : Value) : Record :=
  if (clean name).isEmpty || (r.get? (clean name)).isSome then r else r ++ [(clean name, v)]

/-- The record under cleaned names. -/
def cleaned (r : Record) : Record := r.foldl (fun done f => done.addClean f.1 f.2) []

theorem get?_append (r s : Record) (name : String) :
    Record.get? (r ++ s) name = (r.get? name).or (s.get? name) :=
  List.lookup_append

/-- One more field is found under its cleaned name, if none was found before. -/
theorem get?_addClean (r : Record) (name k : String) (v : Value) :
    (r.addClean name v).get? k =
      (r.get? k).or (if k = clean name ∧ k ≠ "" then some v else none) := by
  unfold addClean
  by_cases hempty : clean name = ""
  · have : ¬ (k = clean name ∧ k ≠ "") := fun h => h.2 (h.1.trans hempty)
    simp [hempty]
  by_cases htaken : (r.get? (clean name)).isSome
  · by_cases hk : k = clean name
    · subst hk
      obtain ⟨w, hw⟩ := Option.isSome_iff_exists.1 htaken
      simp [hw]
    · simp [htaken, hk]
  · have hcond : ¬ ((clean name).isEmpty || (r.get? (clean name)).isSome) = true := by
      simp [hempty, htaken]
    rw [if_neg hcond, get?_append]
    by_cases hk : k = clean name
    · subst hk
      simp [hempty, Record.get?]
    · have : (k == clean name) = false := by simpa using hk
      simp [hk, Record.get?, List.lookup_cons, this]

theorem forall_keys_addClean {p : String → Prop} {r : Record} {name : String} {v : Value}
    (hr : ∀ f ∈ r, p f.1) (hname : clean name ≠ "" → p (clean name)) :
    ∀ f ∈ r.addClean name v, p f.1 := by
  unfold addClean
  split
  · exact hr
  · rename_i h
    simp only [Bool.or_eq_true, not_or, Bool.not_eq_true, String.isEmpty_eq_false_iff] at h
    intro f hf
    rcases List.mem_append.1 hf with hf | hf
    · exact hr f hf
    · simp only [List.mem_singleton] at hf
      subst hf
      exact hname h.1

/-- The names of a cleaned record are cleaned, and not empty. -/
theorem keys_cleaned (r : Record) : ∀ f ∈ r.cleaned, clean f.1 = f.1 ∧ f.1 ≠ "" := by
  have step : ∀ (fields done : Record), (∀ f ∈ done, clean f.1 = f.1 ∧ f.1 ≠ "") →
      ∀ f ∈ fields.foldl (fun done f => done.addClean f.1 f.2) done,
        clean f.1 = f.1 ∧ f.1 ≠ "" := by
    intro fields
    induction fields with
    | nil => exact fun _ h => h
    | cons f fields ih =>
      intro done h
      exact ih _ (forall_keys_addClean (p := fun k => clean k = k ∧ k ≠ "") h
        fun hne => ⟨clean_clean _, hne⟩)
  exact step r [] (by simp)

end Record

/-- The columns of a list of records: all their names. -/
def columnsOfRecords (rs : List Record) : ColumnSet :=
  ColumnSet.ofNames (rs.flatMap fun r => r.map (·.1)) []

end ChartQuery
