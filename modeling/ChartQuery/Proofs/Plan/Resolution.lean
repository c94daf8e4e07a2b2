import ChartQuery.Plan.Resolve
import Mathlib.Data.List.Nodup

/-!
# The parts of a resolved plan

What resolving a specification gives is said once, part by part: a plan comes out exactly when each
of its parts is the one that the specification and the columns determine. Everything that holds of
plans is derived from the facts about their parts.

## Main results

* `resolvePlan_eq_ok_iff`: a plan comes out exactly when its parts are determined so
* `resolvePlan_eq_error_iff`: when no plan comes out, and why
* `nodup_resolveGroups`, `resolveGroups_disjoint`: columns to group by are distinct, and used
  nowhere else
-/

namespace ChartQuery

/-! ## Names and column sets -/

theorem Identifier.eq_of_name_eq {i j : Identifier} (h : i.name = j.name) : i = j := by
  cases i
  cases j
  simp_all

theorem Identifier.ofText_eq_iff {s t : String} :
    Identifier.ofText s = Identifier.ofText t ↔ clean s = clean t :=
  ⟨fun h => congrArg Identifier.name h, fun h => Identifier.eq_of_name_eq h⟩

/-- Distinct identifiers have distinct names. -/
theorem Identifier.nodup_names {is : List Identifier} (h : is.Nodup) :
    (is.map Identifier.name).Nodup :=
  h.map fun _ _ => Identifier.eq_of_name_eq

theorem ColumnSet.isColumn_iff {columns : ColumnSet} {raw : String} :
    columns.isColumn raw = true ↔ clean raw ≠ "" ∧ clean raw ∈ columns.names := by
  simp [ColumnSet.isColumn]

/-! ## First occurrences -/

/-- An induction that follows first occurrences: behind each entry, those that equal it are left
out. -/
@[elab_as_elim]
theorem eraseDups_induction {α : Type} [BEq α] {motive : List α → Prop} (nil : motive [])
    (cons : ∀ a l, motive (l.filter fun b => !b == a) → motive (a :: l)) : ∀ l, motive l
  | [] => nil
  | a :: l => cons a l (eraseDups_induction nil cons _)
termination_by l => l.length
decreasing_by exact Nat.lt_succ_of_le (List.length_filter_le _ l)

theorem nodup_eraseDups {α : Type} [BEq α] [LawfulBEq α] (l : List α) : l.eraseDups.Nodup := by
  induction l using eraseDups_induction with
  | nil => exact List.nodup_nil
  | cons a l ih =>
    rw [List.eraseDups_cons, List.nodup_cons]
    refine ⟨fun hmem => ?_, ih⟩
    simpa using (List.mem_filter.1 (List.mem_eraseDups.1 hmem)).2

/-- Entries that are all different are left as they are. -/
theorem eraseDups_eq_self {α : Type} [BEq α] [LawfulBEq α] {l : List α} (h : l.Nodup) :
    l.eraseDups = l := by
  induction l with
  | nil => rfl
  | cons a l ih =>
    obtain ⟨ha, hl⟩ := List.nodup_cons.1 h
    have hfilter : l.filter (fun b => !b == a) = l := by
      refine List.filter_eq_self.2 fun b hb => ?_
      have hne : b ≠ a := fun h => ha (h ▸ hb)
      simpa using hne
    rw [List.eraseDups_cons, hfilter, ih hl]

/-- First occurrences are chosen alike before and after entries are left out. -/
theorem filter_eraseDups {α : Type} [BEq α] [LawfulBEq α] (q : α → Bool) (l : List α) :
    l.eraseDups.filter q = (l.filter q).eraseDups := by
  induction l using eraseDups_induction with
  | nil => rfl
  | cons a l ih =>
    rw [List.eraseDups_cons, List.filter_cons, List.filter_cons, ih, List.filter_filter]
    by_cases hq : q a = true
    · rw [if_pos hq, if_pos hq, List.eraseDups_cons, List.filter_filter]
      simp only [Bool.and_comm]
    · -- What equals an entry that is left out is left out with it.
      rw [if_neg hq, if_neg hq]
      refine congrArg List.eraseDups (List.filter_congr fun b _ => ?_)
      by_cases hb : b = a
      · simp [hb, hq]
      · simp [hb]

/-- An entry at the end is a first occurrence if it is not there before. -/
theorem eraseDups_concat {α : Type} [BEq α] [LawfulBEq α] (l : List α) (a : α) [Decidable (a ∈ l)] :
    (l ++ [a]).eraseDups = if a ∈ l then l.eraseDups else l.eraseDups ++ [a] := by
  rw [List.eraseDups_append]
  split <;> simp_all [List.removeAll, List.eraseDups_cons]

/-! ## The vertical and the horizontal axis -/

theorem mem_validIdentifiers {columns : ColumnSet} {names : List String} {i : Identifier} :
    i ∈ validIdentifiers columns names ↔
      ∃ s ∈ names, columns.isColumn s = true ∧ Identifier.ofText s = i := by
  simp [validIdentifiers, List.mem_eraseDups, and_assoc]

theorem nodup_validIdentifiers (columns : ColumnSet) (names : List String) :
    (validIdentifiers columns names).Nodup :=
  nodup_eraseDups _

theorem resolveXAxis_eq_ok_iff {columns : ColumnSet} {name : Option String}
    {x : Option Identifier} :
    resolveXAxis columns name = .ok x ↔
      (∀ s, given? name = some s → columns.isColumn s = true) ∧
        x = (given? name).map Identifier.ofText := by
  unfold resolveXAxis
  cases given? name with
  | none => simpa using eq_comm
  | some s =>
    by_cases h : columns.isColumn s = true
    · simpa [h] using eq_comm
    · simp [h]

theorem resolveXAxis_eq_error_iff {columns : ColumnSet} {name : Option String} {e : ChartError} :
    resolveXAxis columns name = .error e ↔
      ∃ s, given? name = some s ∧ columns.isColumn s = false ∧ e = .invalidXAxis s := by
  unfold resolveXAxis
  cases given? name with
  | none => simp
  | some s =>
    by_cases h : columns.isColumn s = true
    · simp [h]
    · simpa [h] using eq_comm

/-! ## The columns by which to group -/

/-- What one name adds to the columns by which to group. -/
theorem resolveGroups_cons (columns : ColumnSet) (taken done : List Identifier) (name : String)
    (rest : List String) :
    (resolveGroups columns taken done (name :: rest)).1 =
      if columns.isColumn name = true ∧ Identifier.ofText name ∉ taken ++ done then
        (resolveGroups columns taken (done ++ [.ofText name]) rest).1
      else (resolveGroups columns taken done rest).1 := by
  by_cases hc : columns.isColumn name = true
  · by_cases hm : Identifier.ofText name ∈ taken ++ done
    · have : (taken ++ done).contains (Identifier.ofText name) = true := by simpa using hm
      rw [if_neg (fun h => h.2 hm)]
      simp only [resolveGroups, hc, this, Bool.not_true, Bool.false_eq_true, if_false, if_true]
    · have : (taken ++ done).contains (Identifier.ofText name) = false := by simpa using hm
      rw [if_pos ⟨hc, hm⟩]
      simp only [resolveGroups, hc, this, Bool.not_true, Bool.false_eq_true, if_false]
  · rw [if_neg (fun h => hc h.1)]
    simp only [resolveGroups, hc, Bool.not_false, if_true]

/-- What holds of the columns found so far, and of every further one that may be added, holds of all
columns by which to group. -/
theorem resolveGroups_induction {columns : ColumnSet} {taken : List Identifier}
    {P : List Identifier → Prop} {names : List String} {done : List Identifier} (hdone : P done)
    (hstep : ∀ gs s, P gs → columns.isColumn s = true → Identifier.ofText s ∉ taken ++ gs →
      P (gs ++ [.ofText s])) :
    P (resolveGroups columns taken done names).1 := by
  induction names generalizing done with
  | nil => exact hdone
  | cons name rest ih =>
    rw [resolveGroups_cons]
    split
    · rename_i h
      exact ih (hstep done name hdone h.1 h.2)
    · exact ih hdone

theorem nodup_resolveGroups (columns : ColumnSet) (taken : List Identifier)
    (names : List String) : (resolveGroups columns taken [] names).1.Nodup := by
  refine resolveGroups_induction (P := List.Nodup) List.nodup_nil fun gs s hgs _ hs => ?_
  have hs' : Identifier.ofText s ∉ gs := fun h => hs (List.mem_append_right _ h)
  exact List.nodup_append.2
    ⟨hgs, List.nodup_singleton _, fun a ha b hb h => hs' (List.mem_singleton.1 hb ▸ h ▸ ha)⟩

/-- No column by which to group is in use elsewhere. -/
theorem resolveGroups_disjoint (columns : ColumnSet) (taken : List Identifier)
    (names : List String) : ∀ g ∈ (resolveGroups columns taken [] names).1, g ∉ taken := by
  refine resolveGroups_induction (P := fun gs => ∀ g ∈ gs, g ∉ taken) (by simp)
    fun gs s hgs _ hs g hg => ?_
  rcases List.mem_append.1 hg with hg | hg
  · exact hgs g hg
  · rw [List.mem_singleton.1 hg]
    exact fun h => hs (List.mem_append_left _ h)

theorem isColumn_of_mem_resolveGroups {columns : ColumnSet} {taken : List Identifier}
    {names : List String} :
    ∀ g ∈ (resolveGroups columns taken [] names).1, columns.isColumn g.name = true := by
  refine resolveGroups_induction (P := fun gs => ∀ g ∈ gs, columns.isColumn g.name = true) (by simp)
    fun gs s hgs hc _ g hg => ?_
  rcases List.mem_append.1 hg with hg | hg
  · exact hgs g hg
  · rw [List.mem_singleton.1 hg]
    simpa [ColumnSet.isColumn] using hc

/-! ## The label, the order and the filters -/

theorem resolveDrillDown_eq_some {columns : ColumnSet} {shown : List Identifier}
    {name : Option String} {d : Identifier} (h : (resolveDrillDown columns shown name).1 = some d) :
    columns.isColumn d.name = true ∧ d ∉ shown := by
  unfold resolveDrillDown at h
  split at h
  · simp at h
  · rename_i s _
    split at h
    · simp at h
    split at h
    · simp at h
    rename_i hc hs
    obtain rfl := Option.some.inj h
    exact ⟨by simpa [ColumnSet.isColumn] using hc, by simpa using hs⟩

theorem resolveOrder_eq_some {columns : ColumnSet} {shown : List Identifier}
    {name : Option String} {c : Identifier} (h : (resolveOrder columns shown name).1 = some c) :
    c ∈ shown := by
  unfold resolveOrder at h
  split at h
  · simp at h
  · split at h
    · simp at h
    split at h
    · simp at h
    rename_i hs
    obtain rfl := Option.some.inj h
    simpa using hs

theorem resolveFilter_eq_ok {columns : ColumnSet} {g : FilterSpec} {f : PlanFilter}
    (h : resolveFilter (some columns) g = .ok f) :
    f.operator.sign = g.operator ∧ f.column = .ofText g.field ∧ f.value = g.value ∧
      columns.isColumn g.field = true ∧ (f.operator = .isIn → f.values ≠ []) := by
  unfold resolveFilter at h
  split at h
  · simp at h
  rename_i op hop
  dsimp only at h
  split at h
  · simp at h
  rename_i hc
  split at h
  · simp at h
  rename_i hv
  obtain rfl := Except.ok.inj h
  refine ⟨?_, rfl, rfl, ?_, fun hin hnil => hv ?_⟩
  · simpa using List.find?_some hop
  · simp only [Option.any_some, Bool.or_eq_true, Bool.not_eq_true', not_or,
      Bool.not_eq_false] at hc
    exact hc.2
  · rw [hnil]
    simpa using hin

theorem mem_resolveFilters {columns : ColumnSet} {fs : List FilterSpec} {f : PlanFilter} :
    f ∈ (resolveFilters (some columns) fs).1 ↔
      ∃ g ∈ fs, resolveFilter (some columns) g = .ok f := by
  simp only [resolveFilters, List.mem_filterMap]
  refine exists_congr fun g => and_congr_right fun _ => ?_
  cases resolveFilter (some columns) g <;> simp [Except.toOption]

/-! ## Plans -/

section Resolving

variable {limits : RowLimits} {spec : ChartSpec} {columns : ColumnSet} {maxRows : Option Int}

theorem mem_yAxisBeside {x : Option Identifier} {y : Identifier} :
    y ∈ yAxisBeside spec columns x ↔ y ∈ validIdentifiers columns spec.yAxis ∧ x ≠ some y := by
  simp [yAxisBeside]

/-- A plan comes out beside a horizontal axis that is a column or not given, if that leaves a column
for the vertical one. -/
theorem resolvePlan_eq_ok_iff {p : ChartPlan} :
    resolvePlan limits spec columns maxRows = .ok p ↔
      ∃ x, resolveXAxis columns spec.xAxis = .ok x ∧ yAxisBeside spec columns x ≠ [] ∧
        p = planBeside limits spec columns maxRows x := by
  unfold resolvePlan
  cases resolveXAxis columns spec.xAxis with
  | error e => simp [bind, Except.bind]
  | ok x =>
    simp only [bind, Except.bind, Except.ok.injEq, exists_eq_left', List.isEmpty_iff]
    split
    · simp_all
    · simp_all [eq_comm]

/-- The reasons for which no plan comes out: a horizontal axis that is no column, or else no column
for the vertical one. -/
theorem resolvePlan_eq_error_iff {e : ChartError} :
    resolvePlan limits spec columns maxRows = .error e ↔
      resolveXAxis columns spec.xAxis = .error e ∨
        ∃ x, resolveXAxis columns spec.xAxis = .ok x ∧ yAxisBeside spec columns x = [] ∧
          e = .noValidYAxis (rejectedYAxis spec columns) := by
  unfold resolvePlan
  cases resolveXAxis columns spec.xAxis with
  | error f => simp [bind, Except.bind]
  | ok x =>
    simp only [bind, Except.bind, Except.ok.injEq, exists_eq_left', List.isEmpty_iff]
    split
    · simp_all [eq_comm]
    · simp_all

end Resolving

end ChartQuery
