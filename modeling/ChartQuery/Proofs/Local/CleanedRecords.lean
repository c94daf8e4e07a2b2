import ChartQuery.Local.Chart
import ChartQuery.Proofs.Local.Records
import ChartQuery.Proofs.Plan.Resolution
import Mathlib.Data.List.Induction

/-!
# Records under cleaned names

Cleaning a record asks each of its fields, from the first on, whether anything is left of its name
and whether that is still free. So the names of a cleaned record are those that are left, each once
and in the order in which they first occur, and each holds the value of the first field that bears
it. Such a record is its own cleaned form, and a chart does not tell records from their cleaned
forms.

## Main definitions

* `Record.firstUnder r n`: the value of the first field whose name is cleaned to the given one
* `Record.IsNormalFormOf s r`: what holds of the cleaned form of a record

## Main results

* `Record.get?_cleaned`, `Record.names_cleaned`: the fields of a cleaned record
* `Record.cleaned_cleaned`: a cleaned record is its own cleaned form
* `cleanedRecords_areNormalForms`: cleaning normalizes records, which no chart notices
-/

namespace ChartQuery

namespace Record

/-- The value of the first field whose name is cleaned to the given one. -/
def firstUnder (r : Record) (n : String) : Option Value :=
  (r.find? fun f => clean f.1 == n).map Prod.snd

/-! ## The fields of a cleaned record -/

theorem cleaned_concat (r : Record) (f : String × Value) :
    cleaned (r ++ [f]) = r.cleaned.addClean f.1 f.2 := by
  rw [cleaned, List.foldl_append]
  rfl

theorem firstUnder_append (r s : Record) (n : String) :
    firstUnder (r ++ s) n = (r.firstUnder n).or (s.firstUnder n) := by
  rw [firstUnder, List.find?_append, Option.map_or]
  rfl

theorem firstUnder_cons (f : String × Value) (r : Record) (n : String) :
    firstUnder (f :: r) n = if clean f.1 = n then some f.2 else r.firstUnder n := by
  by_cases h : clean f.1 = n
  · simp [firstUnder, h]
  · have hf : (clean f.1 == n) = false := by simpa using h
    simp [firstUnder, h, hf]

/-- A cleaned record holds under each name what the first field has whose name becomes that one. -/
theorem get?_cleaned (r : Record) {n : String} (hn : n ≠ "") :
    r.cleaned.get? n = r.firstUnder n := by
  induction r using List.reverseRecOn with
  | nil => rfl
  | append_singleton r f ih =>
    rw [cleaned_concat, get?_addClean, ih, firstUnder_append, firstUnder_cons]
    simp [hn, eq_comm, firstUnder]

/-- Nothing is held under the empty name. -/
theorem get?_cleaned_empty (r : Record) : r.cleaned.get? "" = none := by
  induction r using List.reverseRecOn with
  | nil => rfl
  | append_singleton r f ih => simp [cleaned_concat, get?_addClean, ih]

theorem names_addClean (r : Record) (name : String) (v : Value) :
    (r.addClean name v).map Prod.fst =
      if clean name = "" ∨ clean name ∈ r.map Prod.fst then r.map Prod.fst
      else r.map Prod.fst ++ [clean name] := by
  simp only [addClean, Entries.mem_keys_iff, apply_ite (List.map Prod.fst), List.map_append, get?,
    Bool.or_eq_true, String.isEmpty_iff, List.map_cons, List.map_nil]

/-- The names of a cleaned record are those that are left, each once and in the order in which they
first occur. -/
theorem names_cleaned (r : Record) :
    r.cleaned.map Prod.fst = ((r.map fun f => clean f.1).filter (!·.isEmpty)).eraseDups := by
  induction r using List.reverseRecOn with
  | nil => rfl
  | append_singleton r f ih =>
    rw [cleaned_concat, names_addClean, ih, List.map_append, List.filter_append]
    by_cases hempty : clean f.1 = ""
    · simp [hempty]
    · have hlast : ([f].map fun f => clean f.1).filter (!·.isEmpty) = [clean f.1] := by
        simp [hempty]
      rw [hlast, eraseDups_concat]
      simp only [hempty, false_or, List.mem_eraseDups]

theorem nodup_names_cleaned (r : Record) : (r.cleaned.map Prod.fst).Nodup := by
  rw [names_cleaned]
  exact nodup_eraseDups _

/-- A cleaned record is its own cleaned form. -/
@[simp] theorem cleaned_cleaned (r : Record) : r.cleaned.cleaned = r.cleaned := by
  refine cleaned_eq_self r.nodup_names_cleaned fun n hn => ?_
  obtain ⟨f, hf, rfl⟩ := List.mem_map.1 hn
  exact r.keys_cleaned f hf

end Record

/-! ## Normal forms -/

/-- An ASCII letter, a digit, or the underscore. -/
def IsPlainChar (c : Char) : Prop :=
  ('A' ≤ c ∧ c ≤ 'Z') ∨ ('a' ≤ c ∧ c ≤ 'z') ∨ ('0' ≤ c ∧ c ≤ '9') ∨ c = '_'

theorem isPlainChar_of_isNameChar {c : Char} (h : isNameChar c = true) : IsPlainChar c := by
  rcases Bool.or_eq_true_iff.1 (Bool.and_eq_true_iff.1 h).2 with halphanum | hunderscore
  · rcases Bool.or_eq_true_iff.1 halphanum with halpha | hdigit
    · rcases Bool.or_eq_true_iff.1 halpha with hupper | hlower
      · exact .inl (of_decide_eq_true hupper)
      · obtain ⟨hfirst, hlast⟩ := Bool.and_eq_true_iff.1 hlower
        exact .inr (.inl ⟨of_decide_eq_true hfirst, of_decide_eq_true hlast⟩)
    · obtain ⟨hfirst, hlast⟩ := Bool.and_eq_true_iff.1 hdigit
      exact .inr (.inr (.inl ⟨of_decide_eq_true hfirst, of_decide_eq_true hlast⟩))
  · exact .inr (.inr (.inr (eq_of_beq hunderscore)))

/-- A record has the fields of another one under cleaned names. -/
structure Record.IsNormalFormOf (s r : Record) : Prop where
  /-- No name occurs twice. -/
  nodup : (s.map Prod.fst).Nodup
  /-- Names are not empty. -/
  ne_empty : ∀ f ∈ s, f.1 ≠ ""
  /-- Names consist of ASCII letters, digits and underscores. -/
  plain : ∀ f ∈ s, ∀ c ∈ f.1.toList, IsPlainChar c
  /-- Under each name stands the value of the first field whose name is cleaned to it. -/
  first : ∀ n v, (n, v) ∈ s → ∃ before name after,
    r = before ++ (name, v) :: after ∧ clean name = n ∧ ∀ f ∈ before, clean f.1 ≠ n
  /-- Every name of which something is left is there. -/
  complete : ∀ f ∈ r, clean f.1 ≠ "" → clean f.1 ∈ s.map Prod.fst
  /-- Names stand in the order in which they first occur. -/
  inOrder : s.map Prod.fst = ((r.map fun f => clean f.1).filter (!·.isEmpty)).eraseDups

/-- The cleaned form of a record is a normal form of it. -/
theorem Record.cleaned_isNormalFormOf (r : Record) : r.cleaned.IsNormalFormOf r where
  nodup := r.nodup_names_cleaned
  ne_empty f hf := (r.keys_cleaned f hf).2
  plain f hf c hc := by
    rw [← (r.keys_cleaned f hf).1] at hc
    exact isPlainChar_of_isNameChar (clean_chars f.1 c hc)
  first n v hmem := by
    have hn : n ≠ "" := (r.keys_cleaned _ hmem).2
    have hfirst : r.firstUnder n = some v :=
      (r.get?_cleaned hn).symm.trans
        ((Entries.lookup_eq_some_iff_mem r.nodup_names_cleaned).2 hmem)
    obtain ⟨⟨name, w⟩, hfind, rfl⟩ := Option.map_eq_some_iff.1 hfirst
    obtain ⟨hname, before, after, hr, hbefore⟩ := List.find?_eq_some_iff_append.1 hfind
    exact ⟨before, name, after, hr, by simpa using hname, fun f hf => by simpa using hbefore f hf⟩
  complete f hf hne := by
    rw [names_cleaned, List.mem_eraseDups, List.mem_filter]
    exact ⟨List.mem_map_of_mem hf, by simpa using hne⟩
  inOrder := r.names_cleaned

/-- Of two names that become the same the first one counts, and one of which nothing is left is
dropped. -/
example : Record.cleaned [("net sum", .int 1), ("№", .int 2), ("netsum", .int 3), ("day", .null)] =
    [("netsum", .int 1), ("day", .null)] := by
  rfl

/-- **Cleaning normalizes records, which no chart notices.** The cleaned forms of records are normal
forms of them, one by one and in their order, they are their own cleaned forms, and every
specification has the same chart of them as of the records, or fails with the same error. -/
theorem cleanedRecords_areNormalForms (rows : List Record) :
    List.Forall₂ Record.IsNormalFormOf (rows.map Record.cleaned) rows ∧
    (rows.map Record.cleaned).map Record.cleaned = rows.map Record.cleaned ∧
    ∀ (limits : RowLimits) (spec : ChartSpec) (maxRows : Option Int),
      aggregateRecords limits spec (rows.map Record.cleaned) maxRows =
        aggregateRecords limits spec rows maxRows := by
  have hagain : (rows.map Record.cleaned).map Record.cleaned = rows.map Record.cleaned := by
    rw [List.map_map]
    exact List.map_congr_left fun r _ => r.cleaned_cleaned
  refine ⟨?_, hagain, fun limits spec maxRows => ?_⟩
  · rw [List.forall₂_map_left_iff, List.forall₂_same]
    exact fun r _ => r.cleaned_isNormalFormOf
  · rw [aggregateRecords, hagain]
    rfl

end ChartQuery
