import ChartQuery.Proofs.Local.Records
import ChartQuery.Sql.Query

/-!
# The parameters of a plan

The parameters of a query have distinct names, as the digits of the names tell the filters apart,
and those of a membership its candidates. So every parameter is bound to the value it stands for.

## Main results

* `nodup_filtersParameters`: no two parameters have the same name
* `lookup_filtersParameters`: every parameter is bound to the value of its filter
-/

namespace ChartQuery.Sql

theorem toDigits_injective {m n : Nat} (h : Nat.toDigits 10 m = Nat.toDigits 10 n) : m = n := by
  rw [← Nat.ofDigitChars_ten_toDigits (n := m), h, Nat.ofDigitChars_ten_toDigits]

/-- The digits that tell the filter of a parameter. -/
def filterDigits (name : String) : List Char := (name.toList.drop 7).takeWhile Char.isDigit

theorem filterDigits_append (i : Nat) {s : String} (hs : ∀ c ∈ s.toList.head?, c.isDigit = false) :
    filterDigits (parameterName i ++ s) = Nat.toDigits 10 i := by
  have hdigits : ∀ c ∈ Nat.toDigits 10 i, c.isDigit = true := fun c hc =>
    Nat.isDigit_of_mem_toDigits (by omega) (by omega) hc
  have hdrop : (parameterName i ++ s).toList.drop 7 = Nat.toDigits 10 i ++ s.toList := by
    rw [parameterName, String.toList_append, String.toList_append, List.append_assoc]
    simp
  have hnone : s.toList.takeWhile Char.isDigit = [] := by
    cases hcs : s.toList with
    | nil => rfl
    | cons c cs => simp [hs c (by simp [hcs])]
  rw [filterDigits, hdrop, List.takeWhile_append_of_pos hdigits, hnone, List.append_nil]

theorem filterDigits_parameterName (i : Nat) :
    filterDigits (parameterName i) = Nat.toDigits 10 i := by
  simpa using filterDigits_append i (s := "") (by simp)

theorem filterDigits_memberName (i j : Nat) :
    filterDigits (memberName i j) = Nat.toDigits 10 i := by
  rw [memberName, String.append_assoc]
  refine filterDigits_append i fun c hc => ?_
  have : c = '_' := by simpa using hc.symm
  subst this
  rfl

theorem memberName_injective (i : Nat) : Function.Injective (memberName i) := by
  intro j k h
  have hlists := congrArg String.toList h
  simp only [memberName, String.toList_append, List.append_assoc, List.append_cancel_left_eq,
    Nat.toString_eq_repr, Nat.toList_repr] at hlists
  exact toDigits_injective hlists

theorem filterDigits_of_mem {f : PlanFilter} {i : Nat} {e : String × Value}
    (h : e ∈ filterParameters f i) : filterDigits e.1 = Nat.toDigits 10 i := by
  obtain ⟨c, op, v⟩ := f
  cases op
  case isIn =>
    obtain ⟨j, -, hj⟩ := List.mem_map.1 (List.of_mem_zip h).1
    rw [← hj, filterDigits_memberName]
  all_goals
    rw [List.mem_singleton.1 h, filterDigits_parameterName]

theorem nodup_filterParameters (f : PlanFilter) (i : Nat) :
    ((filterParameters f i).map Prod.fst).Nodup := by
  obtain ⟨c, op, v⟩ := f
  cases op
  case isIn =>
    rw [filterParameters, List.map_fst_zip (by simp)]
    exact List.nodup_range.map (memberName_injective i)
  all_goals exact List.nodup_singleton _

/-- No two parameters have the same name. -/
theorem nodup_filtersParameters (fs : List PlanFilter) :
    ((filtersParameters fs).map Prod.fst).Nodup := by
  rw [filtersParameters, List.map_flatten, List.nodup_flatten]
  constructor
  · intro names hnames
    obtain ⟨es, hes, rfl⟩ := List.mem_map.1 hnames
    obtain ⟨i, hi, rfl⟩ := List.mem_mapIdx.1 hes
    exact nodup_filterParameters _ i
  · rw [List.pairwise_map, List.pairwise_iff_getElem]
    intro i j hi hj hij n hn hn'
    simp only [List.getElem_mapIdx] at hn hn'
    obtain ⟨e, he, rfl⟩ := List.mem_map.1 hn
    obtain ⟨e', he', heq⟩ := List.mem_map.1 hn'
    -- The digits in the common name would be those of both filters.
    have hdigits := filterDigits_of_mem he'
    rw [heq, filterDigits_of_mem he] at hdigits
    have := toDigits_injective hdigits
    omega

/-- Every parameter is bound to the value of its filter. -/
theorem lookup_filtersParameters {fs : List PlanFilter} {i : Nat} (hi : i < fs.length)
    {e : String × Value} (he : e ∈ filterParameters fs[i] i) :
    (filtersParameters fs).lookup e.1 = some e.2 := by
  refine (Entries.lookup_eq_some_iff_mem (nodup_filtersParameters fs)).2 ?_
  exact List.mem_flatten.2 ⟨_, List.mem_mapIdx.2 ⟨i, hi, rfl⟩, he⟩

end ChartQuery.Sql
