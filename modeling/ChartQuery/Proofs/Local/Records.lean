import ChartQuery.Local.Records
import Mathlib.Data.List.Nodup

/-!
# Records with distinct names

In a record with distinct names every field is found under its name, in whatever order the fields
stand, and cleaning changes nothing where all names are clean already.

## Main results

* `Record.value_of_mem`: a field is found under its name
* `Record.cleaned_eq_self`: a record with distinct clean names is left as it is
* `mem_columnsOfRecords`: the columns of records are the names of their fields
-/

namespace ChartQuery

namespace Record

/-- A field is found under its name. -/
theorem value_of_mem {r : Record} (h : (r.map Prod.fst).Nodup) {n : String} {v : Value}
    (hmem : (n, v) ∈ r) : r.value n = v :=
  value_of_get? ((Entries.lookup_eq_some_iff_mem h).2 hmem)

/-- A record with distinct clean names is left as it is. -/
theorem cleaned_eq_self {r : Record} (h : (r.map Prod.fst).Nodup)
    (hclean : ∀ n ∈ r.map Prod.fst, clean n = n ∧ n ≠ "") : r.cleaned = r := by
  -- The fields read so far stay as they are, and none of the others is found among them.
  have step : ∀ fields done : Record, ((done ++ fields).map Prod.fst).Nodup →
      (∀ n ∈ fields.map Prod.fst, clean n = n ∧ n ≠ "") →
      fields.foldl (fun done f => done.addClean f.1 f.2) done = done ++ fields := by
    intro fields
    induction fields with
    | nil => simp
    | cons f fields ih =>
      intro done hnodup hnames
      obtain ⟨n, v⟩ := f
      obtain ⟨hn, hne⟩ := hnames n (by simp)
      have hfree : done.get? n = none := by
        rw [List.map_append, List.nodup_append] at hnodup
        rw [Option.eq_none_iff_forall_not_mem]
        intro w hw
        have hmem := (Entries.lookup_eq_some_iff_mem hnodup.1).1 hw
        exact hnodup.2.2 n (List.mem_map.2 ⟨_, hmem, rfl⟩) n (by simp) rfl
      have hadd : done.addClean n v = done ++ [(n, v)] := by
        simp [addClean, hn, hne, hfree]
      rw [List.foldl_cons, hadd, ih]
      · simp
      · simpa using hnodup
      · exact fun m hm => hnames m (List.mem_cons_of_mem _ hm)
  simpa [cleaned] using step r [] (by simpa using h) hclean

end Record

/-- The columns of records with clean names are the names of their fields. -/
theorem mem_columnsOfRecords {rs : List Record} {n : String} :
    n ∈ (columnsOfRecords rs).names ↔
      n ≠ "" ∧ ∃ r ∈ rs, ∃ f ∈ r, clean f.1 = n := by
  rw [columnsOfRecords, ColumnSet.mem_ofNames]
  simp only [List.mem_flatMap, List.mem_map]
  constructor
  · rintro ⟨hne, _, ⟨r, hr, f, hf, rfl⟩, hn⟩
    exact ⟨hne, r, hr, f, hf, hn⟩
  · rintro ⟨hne, r, hr, f, hf, hn⟩
    exact ⟨hne, f.1, ⟨r, hr, f, hf, rfl⟩, hn⟩

end ChartQuery
