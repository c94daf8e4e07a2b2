import ChartQuery.Proofs.Chart.SeenRecords
import ChartQuery.Proofs.Local.CleanedRecords
import ChartQuery.Proofs.Plan.Columns
import ChartQuery.Proofs.Plan.KeptParts
import ChartQuery.Proofs.Service.BatchMaps
import Mathlib.Logic.Relation

/-!
# Columns that a specification mentions

A chart of records depends on the columns that its specification mentions, and on nothing else that
stands in the records: whether any record has such a column decides on the plan, and the values in
them on the rows. A field under any other name may be added to every record, wherever it stands, and
where a record lacks a column that another one has, a null may be added for it.

## Main definitions

* `ChartSpec.Mentions spec name`: a name is mentioned, once all names are cleaned
* `Record.Bears r name`: a record has a field of a name, once all names are cleaned
* `Record.HoldsAlike names r r'`: records hold the same under some names
* `FieldAdded spec rows rows'`: one field is added that does not matter

## Main results

* `exists_mentioned_of_mem_readColumns`: a plan looks at columns that are mentioned
* `aggregateRecords_congr`: records that agree on what is mentioned have the same chart
* `aggregateRecords_unmentioned`, `aggregateRecords_null`: fields that do not matter
* `aggregateRecords_of_fieldsAdded`: records have the same chart whichever such fields are added
-/

namespace ChartQuery

/-- A specification mentions a name, once all names are cleaned. -/
def ChartSpec.Mentions (spec : ChartSpec) (name : String) : Prop :=
  ∃ n ∈ spec.mentionedNames, clean n = clean name

/-- A record has a field of a name, once all names are cleaned. -/
def Record.Bears (r : Record) (name : String) : Prop := ∃ f ∈ r, clean f.1 = clean name

/-- Records hold the same under some names, once all names are cleaned. -/
def Record.HoldsAlike (names : List String) (r r' : Record) : Prop :=
  ∀ n ∈ names, r'.cleaned.value (clean n) = r.cleaned.value (clean n)

/-- One field is added to one of several records: under a name that a specification does not
mention, wherever it stands, or else a null behind all fields of a record that lacks a column which
another record has. -/
inductive FieldAdded (spec : ChartSpec) : List Record → List Record → Prop
  | unmentioned (before after : List Record) (front back : Record) (v : Value) {name : String} :
      ¬ spec.Mentions name →
      FieldAdded spec (before ++ (front ++ back) :: after)
        (before ++ (front ++ (name, v) :: back) :: after)
  | null (before after : List Record) {r : Record} {name : String} :
      ¬ r.Bears name → (∃ other ∈ before ++ after, other.Bears name) →
      FieldAdded spec (before ++ r :: after) (before ++ (r ++ [(name, .null)]) :: after)

/-! ## What a plan looks at -/

section Plans

variable {limits : RowLimits} {spec : ChartSpec} {columns : ColumnSet} {maxRows : Option Int}

theorem exists_of_mem_resolveGroups {taken : List Identifier} {names : List String} {g : Identifier}
    (h : g ∈ (resolveGroups columns taken [] names).1) : ∃ s ∈ names, Identifier.ofText s = g := by
  rw [resolveGroups_eq, List.nil_append, List.mem_eraseDups, List.mem_map] at h
  obtain ⟨s, hs, hg⟩ := h
  exact ⟨s, (List.mem_filter.1 hs).1, hg⟩

theorem exists_of_resolveDrillDown_eq_some {shown : List Identifier} {name : Option String}
    {d : Identifier} (h : (resolveDrillDown columns shown name).1 = some d) :
    ∃ s ∈ name.toList, Identifier.ofText s = d := by
  unfold resolveDrillDown at h
  cases hs : given? name with
  | none => simp [hs] at h
  | some s =>
    refine ⟨s, by simp [eq_some_of_given? hs], ?_⟩
    simp only [hs] at h
    split at h
    · cases h
    · split at h
      · cases h
      · exact Option.some.inj h

/-- A plan looks at columns that its specification mentions. -/
theorem exists_mentioned_of_mem_readColumns {p : ChartPlan}
    (hplan : resolvePlan limits spec columns maxRows = .ok p) {c : Identifier}
    (hc : c ∈ p.readColumns) : ∃ s ∈ spec.mentionedNames, Identifier.ofText s = c := by
  obtain ⟨x, hx, -, rfl⟩ := resolvePlan_eq_ok_iff.1 hplan
  obtain ⟨-, rfl⟩ := resolveXAxis_eq_ok_iff.1 hx
  simp only [ChartPlan.readColumns, ChartPlan.outputColumns, ChartPlan.groupingKeys,
    List.mem_append, Option.mem_toList, List.mem_map] at hc
  simp only [ChartSpec.mentionedNames, List.mem_append]
  -- A column is shown on an axis, grouped by or a label, or else it is that of a condition.
  rcases hc with (((hx | hgroup) | hlabel) | hy) | ⟨f, hf, rfl⟩
  · obtain ⟨s, hs, rfl⟩ := Option.map_eq_some_iff.1 hx
    exact ⟨s, by simp [eq_some_of_given? hs], rfl⟩
  · obtain ⟨s, hs, rfl⟩ := exists_of_mem_resolveGroups hgroup
    exact ⟨s, by simp [hs], rfl⟩
  · obtain ⟨s, hs, rfl⟩ := exists_of_resolveDrillDown_eq_some hlabel
    exact ⟨s, by simp [hs], rfl⟩
  · obtain ⟨s, hs, -, rfl⟩ := mem_validIdentifiers.1 (mem_yAxisBeside.1 hy).1
    exact ⟨s, by simp [hs], rfl⟩
  · obtain ⟨g, hg, hf⟩ := mem_resolveFilters.1 hf
    refine ⟨g.field, ?_, (resolveFilter_eq_ok hf).2.1.symm⟩
    simp only [List.mem_map]
    exact .inr ⟨g, hg, rfl⟩

end Plans

/-! ## What is found in records -/

namespace Record

variable {r : Record} {name : String}

theorem firstUnder_eq_none_iff : r.firstUnder (clean name) = none ↔ ¬ r.Bears name := by
  simp [firstUnder, Bears]

theorem bears_append {s : Record} : Bears (r ++ s) name ↔ r.Bears name ∨ s.Bears name := by
  simp only [Bears, List.mem_append, or_and_right, exists_or]

theorem bears_cons {f : String × Value} :
    Bears (f :: r) name ↔ clean f.1 = clean name ∨ r.Bears name := by
  simp [Bears]

/-- Records with the same first fields under some names hold the same. -/
theorem HoldsAlike.of_firstUnder {names : List String} {r' : Record}
    (h : ∀ n ∈ names, (r'.firstUnder (clean n)).getD .null = (r.firstUnder (clean n)).getD .null) :
    r.HoldsAlike names r' := by
  intro n hn
  change (r'.cleaned.get? (clean n)).getD .null = (r.cleaned.get? (clean n)).getD .null
  by_cases hempty : clean n = ""
  · rw [hempty, get?_cleaned_empty, get?_cleaned_empty]
  · rw [get?_cleaned _ hempty, get?_cleaned _ hempty, h n hn]

theorem HoldsAlike.refl {names : List String} (r : Record) : r.HoldsAlike names r := fun _ _ => rfl

end Record

/-- The columns of cleaned records are the names that any of the records bears. -/
theorem isColumn_columnsOfRecords_cleaned {rows : List Record} {n : String} :
    (columnsOfRecords (rows.map Record.cleaned)).isColumn n = true ↔
      clean n ≠ "" ∧ ∃ r ∈ rows, r.Bears n := by
  have hbears (r : Record) :
      (∃ f ∈ r.cleaned, clean f.1 = clean n) ↔ clean n ≠ "" ∧ r.Bears n := by
    have hnames : (∃ f ∈ r.cleaned, clean f.1 = clean n) ↔ clean n ∈ r.cleaned.map Prod.fst := by
      rw [List.mem_map]
      exact exists_congr fun f => and_congr_right fun hf => by rw [(r.keys_cleaned f hf).1]
    rw [hnames, Record.names_cleaned, List.mem_eraseDups, List.mem_filter, List.mem_map]
    simp [Record.Bears, and_comm]
  rw [ColumnSet.isColumn_iff, mem_columnsOfRecords, ← and_assoc, and_self]
  refine and_congr_right fun hne => ?_
  simp only [List.mem_map, exists_exists_and_eq_and, hbears, and_iff_right hne]

/-- Records have the same columns of some names if they bear the same of them. -/
theorem agreesOn_of_bears {rows rows' : List Record} {names : List String}
    (h : ∀ n ∈ names, (∃ r ∈ rows', r.Bears n) ↔ ∃ r ∈ rows, r.Bears n) :
    (columnsOfRecords (rows'.map Record.cleaned)).AgreesOn
      (columnsOfRecords (rows.map Record.cleaned)) names where
  isColumn n hn := by
    rw [Bool.eq_iff_iff, isColumn_columnsOfRecords_cleaned, isColumn_columnsOfRecords_cleaned,
      h n hn]
  isFloat _ _ := rfl

/-! ## Charts -/

section Charts

variable {spec : ChartSpec} {rows rows' : List Record} (limits : RowLimits) (maxRows : Option Int)

/-- **Records that agree on what a specification mentions have the same chart**, or fail with the
same error: they have the same columns of those that are mentioned, and hold the same in them. -/
theorem aggregateRecords_congr
    (hcolumns : (columnsOfRecords (rows'.map Record.cleaned)).AgreesOn
      (columnsOfRecords (rows.map Record.cleaned)) spec.mentionedNames)
    (hvalues : List.Forall₂ (Record.HoldsAlike spec.mentionedNames) rows rows') :
    aggregateRecords limits spec rows' maxRows = aggregateRecords limits spec rows maxRows := by
  rw [aggregateRecords, aggregateRecords, resolvePlan_congr_mentioned hcolumns]
  cases hplan : resolvePlan limits spec (columnsOfRecords (rows.map Record.cleaned)) maxRows with
  | error e => rfl
  | ok p =>
    have hrows : p.apply (rows'.map Record.cleaned) = p.apply (rows.map Record.cleaned) := by
      refine ChartPlan.apply_congr ?_
      rw [List.forall₂_map_left_iff, List.forall₂_map_right_iff]
      refine hvalues.imp fun r r' halike c hc => ?_
      obtain ⟨s, hs, rfl⟩ := exists_mentioned_of_mem_readColumns hplan hc
      exact halike s hs
    simp only [Except.mapError, bind, Except.bind, hrows]

/-- One record may be replaced by another that holds the same in the columns that are mentioned, and
bears the same of their names, unless other records do so. -/
theorem aggregateRecords_replace {before after : List Record} {r r' : Record}
    (halike : r.HoldsAlike spec.mentionedNames r')
    (hkept : ∀ n ∈ spec.mentionedNames, r.Bears n → r'.Bears n)
    (hnew : ∀ n ∈ spec.mentionedNames, r'.Bears n →
      r.Bears n ∨ ∃ other ∈ before ++ after, other.Bears n) :
    aggregateRecords limits spec (before ++ r' :: after) maxRows =
      aggregateRecords limits spec (before ++ r :: after) maxRows := by
  refine aggregateRecords_congr limits maxRows (agreesOn_of_bears fun n hn => ?_) ?_
  · have hkept := hkept n hn
    have hnew := hnew n hn
    simp only [List.mem_append, List.mem_cons, or_and_right, exists_or, exists_eq_left] at hnew ⊢
    grind
  · have hsame (rows : List Record) :
        List.Forall₂ (Record.HoldsAlike spec.mentionedNames) rows rows :=
      List.forall₂_same.2 fun r _ => .refl r
    exact List.rel_append (hsame before) (.cons halike (hsame after))

/-- A field whose name is not mentioned changes no chart, wherever it stands. -/
theorem aggregateRecords_unmentioned (before after : List Record) (front back : Record) (v : Value)
    {name : String} (hname : ¬ spec.Mentions name) :
    aggregateRecords limits spec (before ++ (front ++ (name, v) :: back) :: after) maxRows =
      aggregateRecords limits spec (before ++ (front ++ back) :: after) maxRows := by
  have hne : ∀ n ∈ spec.mentionedNames, ¬ clean name = clean n :=
    fun n hn heq => hname ⟨n, hn, heq.symm⟩
  have hbears : ∀ n ∈ spec.mentionedNames,
      (Record.Bears (front ++ (name, v) :: back) n ↔ Record.Bears (front ++ back) n) :=
    fun n hn => by simp [Record.bears_append, Record.bears_cons, hne n hn]
  refine aggregateRecords_replace limits maxRows (.of_firstUnder fun n hn => ?_)
    (fun n hn => (hbears n hn).2) fun n hn h => .inl ((hbears n hn).1 h)
  rw [Record.firstUnder_append, Record.firstUnder_cons, if_neg (hne n hn),
    ← Record.firstUnder_append]

/-- A null at the end of a record that lacks a column of another one changes no chart. -/
theorem aggregateRecords_null {before after : List Record} {r : Record} {name : String}
    (hlacks : ¬ r.Bears name) (hother : ∃ other ∈ before ++ after, other.Bears name) :
    aggregateRecords limits spec (before ++ (r ++ [(name, .null)]) :: after) maxRows =
      aggregateRecords limits spec (before ++ r :: after) maxRows := by
  refine aggregateRecords_replace limits maxRows (.of_firstUnder fun n _ => ?_)
    (fun n _ h => Record.bears_append.2 (.inl h)) fun n _ h => ?_
  · -- Under its own name the null takes the place of nothing, and nothing stands for a null too.
    rw [Record.firstUnder_append, Record.firstUnder_cons]
    split
    · rename_i heq
      rw [← heq, Record.firstUnder_eq_none_iff.2 hlacks]
      rfl
    · exact congrArg (Option.getD · _) Option.or_none
  · rcases Record.bears_append.1 h with h | h
    · exact .inl h
    · obtain ⟨other, hmem, f, hf, hname⟩ := hother
      obtain ⟨_, hfield, heq⟩ := h
      cases List.mem_singleton.1 hfield
      exact .inr ⟨other, hmem, f, hf, hname.trans heq⟩

/-- One field that does not matter changes no chart. -/
theorem aggregateRecords_of_fieldAdded (h : FieldAdded spec rows rows') :
    aggregateRecords limits spec rows' maxRows = aggregateRecords limits spec rows maxRows := by
  cases h with
  | unmentioned before after front back v hname =>
    exact aggregateRecords_unmentioned limits maxRows before after front back v hname
  | null before after hlacks hother => exact aggregateRecords_null limits maxRows hlacks hother

/-- **Only columns that are mentioned matter, and a missing value is a null.** Whichever fields are
added one after the other, each of them under a name that the specification does not mention, or a
null at the end of a record that lacks a column of another one: the records have the same chart as
before, with the same rows and warnings, or fail with the same error. -/
theorem aggregateRecords_of_fieldsAdded (h : Relation.ReflTransGen (FieldAdded spec) rows rows') :
    aggregateRecords limits spec rows' maxRows = aggregateRecords limits spec rows maxRows := by
  induction h with
  | refl => rfl
  | tail _ hstep ih => rw [aggregateRecords_of_fieldAdded limits maxRows hstep, ih]

end Charts

/-- The net sums of shops by region, sundays apart. -/
def shopSpec : ChartSpec :=
  { ChartSpec.ofTable "Shops" "net sum" with
    xAxis := some "Region"
    filters := [⟨"day!", "!=", .text "sunday"⟩] }

/-- Each record names its columns in its own way, and one has no net sum. -/
def shops : List Record :=
  [[("Region", .text "north"), ("netsum", .int 7), ("day", .text "monday")],
    [("Re gion", .text "north"), ("net-sum", .int 3), ("day", .text "friday")],
    [("Region", .text "south"), ("d.a.y", .text "friday")]]

/-- The first record has an amount more whose name differs in one capital, and the last one a net
sum that is null. -/
def filledShops : List Record :=
  [[("Net sum", .int 1000), ("Region", .text "north"), ("netsum", .int 7), ("day", .text "monday")],
    [("Re gion", .text "north"), ("net-sum", .int 3), ("day", .text "friday")],
    [("Region", .text "south"), ("d.a.y", .text "friday"), ("net sum?", .null)]]

theorem aggregateRecords_of_fieldsAdded_shops :
    Relation.ReflTransGen (FieldAdded shopSpec) shops filledShops ∧
    ∃ result, aggregateRecords .standard shopSpec shops none = .ok result ∧
      aggregateRecords .standard shopSpec filledShops none = .ok result := by
  have hadded : Relation.ReflTransGen (FieldAdded shopSpec) shops filledShops := by
    have hname : ¬ shopSpec.Mentions "Net sum" := by
      unfold ChartSpec.Mentions
      decide +kernel
    have hlacks : ¬ Record.Bears [("Region", .text "south"), ("d.a.y", .text "friday")]
        "net sum?" := by
      simp only [Record.Bears, List.exists_mem_cons_iff, List.not_mem_nil, false_and, exists_false]
      decide +kernel
    have hother : ∃ other ∈ filledShops.take 2, other.Bears "net sum?" := by
      refine ⟨_, List.mem_cons_self, ("netsum", .int 7), ?_, by decide +kernel⟩
      simp
    exact .tail (.single (.unmentioned [] _ [] _ (.int 1000) hname))
      (.null (filledShops.take 2) [] hlacks hother)
  have hok : (aggregateRecords .standard shopSpec shops none).toBool = true := by decide +kernel
  have hsame := aggregateRecords_of_fieldsAdded .standard none hadded
  cases hrun : aggregateRecords .standard shopSpec shops none with
  | error fault =>
    rw [hrun] at hok
    cases hok
  | ok result => exact ⟨hadded, result, rfl, hsame.trans hrun⟩

end ChartQuery
