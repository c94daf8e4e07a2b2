import ChartQuery.Proofs.Sql.FilteredText
import ChartQuery.Proofs.Sql.Parameters
import ChartQuery.Proofs.Sql.QueryShape
import ChartQuery.Proofs.Sql.QuotedNames

/-!
# Placeholders and the values bound to them

A parameter stands in the text of a query as its name behind a dollar sign. Read from left to right,
the text of a query asks for the parameters of its conditions and for nothing else, each once, and
each is bound to the value of its filter.

## Main definitions

* `placeholders s`: the names behind the dollar signs of a text
* `mapping ps`: the values by name, the last one given to a name counting
* `BindsFilters text ps fs`: a text asks for parameters to which the values of filters are bound

## Main results

* `placeholders_append`: what joined texts ask for
* `Query.placeholders_text`: a query asks for the parameters of its conditions
* `bindsFilters`: the queries of plans and custom queries bind the values of their filters
-/

namespace ChartQuery.Sql

/-! ## Reading placeholders -/

/-- The names behind the dollar signs of characters. -/
def dollarNames : List Char → List String
  | [] => []
  | c :: cs =>
    if c = '$' then String.ofList (cs.takeWhile isNameChar) :: dollarNames cs else dollarNames cs

/-- The names behind the dollar signs of a text, from left to right. -/
def placeholders (s : String) : List String := dollarNames s.toList

/-- No name goes on where the text starts. -/
def EndsName (s : String) : Prop := ∀ c ∈ s.toList.head?, isNameChar c = false

instance (s : String) : Decidable (EndsName s) := Option.decidableForallMem s.toList.head?

theorem EndsName.of_head? {s : String} {c : Char} (h : s.toList.head? = some c)
    (hc : isNameChar c = false) : EndsName s := by
  intro d hd
  rw [h] at hd
  cases hd
  exact hc

theorem EndsName.append {s : String} (hs : EndsName s) (hne : s ≠ "") (t : String) :
    EndsName (s ++ t) := by
  obtain ⟨c, cs, hcs⟩ := List.exists_cons_of_ne_nil (mt String.toList_eq_nil_iff.1 hne)
  unfold EndsName at hs ⊢
  rw [hcs] at hs
  rw [String.toList_append, hcs]
  exact hs

theorem takeWhile_isNameChar {s : String} (hs : EndsName s) (cs : List Char) :
    (cs ++ s.toList).takeWhile isNameChar = cs.takeWhile isNameChar := by
  induction cs with
  | nil =>
    cases h : s.toList with
    | nil => rfl
    | cons c rest =>
      have hc : isNameChar c = false := hs c (by rw [h]; rfl)
      simp [hc]
  | cons c cs ih => simp only [List.cons_append, List.takeWhile_cons, ih]

/-- Joined texts ask for what the one and the other ask for, if no name goes on between them. -/
theorem placeholders_append (s : String) {t : String} (ht : EndsName t) :
    placeholders (s ++ t) = placeholders s ++ placeholders t := by
  unfold placeholders
  rw [String.toList_append]
  induction s.toList with
  | nil => rfl
  | cons c cs ih =>
    rw [List.cons_append, dollarNames, dollarNames, takeWhile_isNameChar ht, ih]
    split
    · rfl
    · rfl

/-! ## Texts without dollar signs -/

/-- The text has no dollar sign. -/
def IsDollarFree (s : String) : Prop := '$' ∉ s.toList

instance (s : String) : Decidable (IsDollarFree s) := inferInstanceAs (Decidable (_ ∉ _))

/-- A text without dollar signs asks for nothing, and leaves what follows as it is. -/
theorem IsDollarFree.placeholders_append {s : String} (hs : IsDollarFree s) (t : String) :
    placeholders (s ++ t) = placeholders t := by
  have hskip : ∀ cs : List Char, '$' ∉ cs →
      dollarNames (cs ++ t.toList) = dollarNames t.toList := by
    intro cs hcs
    induction cs with
    | nil => rfl
    | cons c cs ih =>
      rw [List.mem_cons, not_or] at hcs
      rw [List.cons_append, dollarNames, if_neg (Ne.symm hcs.1), ih hcs.2]
  rw [placeholders, String.toList_append, hskip _ hs]
  rfl

theorem IsDollarFree.placeholders_eq {s : String} (hs : IsDollarFree s) : placeholders s = [] := by
  have h := hs.placeholders_append ""
  rwa [String.append_empty] at h

theorem placeholders_parameter {p : String} (hp : IsBareName p) :
    placeholders ("$" ++ p) = [p] := by
  have hnone : placeholders p = [] :=
    IsDollarFree.placeholders_eq fun h => absurd (hp.chars _ h) (by decide)
  have htake : p.toList.takeWhile isNameChar = p.toList :=
    List.takeWhile_eq_self_iff.mpr hp.chars
  have hchars : ("$" ++ p).toList = '$' :: p.toList := by
    rw [String.toList_append]
    rfl
  rw [placeholders, hchars, dollarNames, if_pos rfl, htake, String.ofList_toList]
  exact congrArg (p :: ·) hnone

/-- A list asks for what its items ask for, one after the other. -/
theorem placeholders_intercalate {sep : String} (hsep : IsDollarFree sep) (hne : sep ≠ "")
    (hend : EndsName sep) {α : Type} (text : α → String) (l : List α) :
    placeholders (sep.intercalate (l.map text)) = l.flatMap fun a => placeholders (text a) := by
  induction l with
  | nil => rfl
  | cons a l ih =>
    cases l with
    | nil => simp
    | cons b l =>
      rw [List.map_cons, List.map_cons, String.intercalate_cons_cons, String.append_assoc,
        Sql.placeholders_append _ (hend.append hne _), hsep.placeholders_append, ← List.map_cons,
        ih, List.flatMap_cons (x := a)]

namespace IsDollarFree

theorem append {s t : String} (hs : IsDollarFree s) (ht : IsDollarFree t) :
    IsDollarFree (s ++ t) := by
  intro h
  rw [String.toList_append, List.mem_append] at h
  exact h.elim hs ht

theorem intercalate {sep : String} (hsep : IsDollarFree sep) {l : List String}
    (h : ∀ s ∈ l, IsDollarFree s) : IsDollarFree (sep.intercalate l) := by
  induction l with
  | nil => exact of_decide_eq_true rfl
  | cons s l ih =>
    have hs := h s List.mem_cons_self
    have hl := ih fun t ht => h t (List.mem_cons_of_mem _ ht)
    cases l with
    | nil => rwa [String.intercalate_singleton]
    | cons t l =>
      rw [String.intercalate_cons_cons]
      exact (hs.append hsep).append hl

theorem inQuotes (c : Identifier) : IsDollarFree c.inQuotes :=
  List.count_eq_zero.1 (count_dollar_inQuotes c)

theorem nat (n : Nat) : IsDollarFree (toString n) := fun h =>
  absurd (isNameChar_toString n _ h) (by decide)

theorem int (n : Int) : IsDollarFree (toString n) := by
  rw [Int.toString_eq_repr, Int.repr_eq_if]
  split
  · exact nat _
  · exact append (by decide) (nat _)

theorem expr (e : Expr) : IsDollarFree e.text := by
  cases e with
  | column c => exact inQuotes c
  | date c =>
    have hfront : IsDollarFree "TRY_CAST(" := by decide
    exact (hfront.append (inQuotes c)).append (by decide)
  | datePart c monthly =>
    have hfront : IsDollarFree "strftime(TRY_CAST(" := by decide
    have hpattern : IsDollarFree (if monthly then "'%Y-%m'" else "'%Y'") := by
      cases monthly <;> decide
    exact (((hfront.append (inQuotes c)).append (by decide)).append hpattern).append (by decide)
  | aggregate f c =>
    have hname : IsDollarFree f.name := by
      cases f with
      | plain a => cases a <;> decide
      | compensated => decide
    exact ((hname.append (by decide)).append (inQuotes c)).append (by decide)

theorem item (i : Item) : IsDollarFree i.text := by
  obtain ⟨e, _ | a⟩ := i
  · exact expr e
  · exact ((expr e).append (by decide)).append (inQuotes a)

theorem orderItem (o : OrderItem) : IsDollarFree o.text := by
  refine ((nat _).append ?_).append (by decide)
  cases o.descending <;> decide

theorem tableText (q : Query) : IsDollarFree q.tableText := by
  unfold Query.tableText
  split
  · exact ((inQuotes _).append (by decide)).append (inQuotes _)
  · exact inQuotes _

theorem clause {keyword separator : String} (hkeyword : IsDollarFree keyword)
    (hseparator : IsDollarFree separator) {l : List String} (h : ∀ s ∈ l, IsDollarFree s) :
    IsDollarFree (clause keyword l separator) := by
  unfold Sql.clause
  split
  · decide
  · have hblank : IsDollarFree " " := by decide
    exact ((hblank.append hkeyword).append hblank).append (hseparator.intercalate h)

end IsDollarFree

/-! ## What conditions and queries ask for -/

/-- Every parameter of the condition has a name. -/
def NamesParameters (c : Condition) : Prop := ∀ p ∈ c.parameters, IsBareName p

/-- A condition asks for its parameters. -/
theorem Condition.placeholders_text {c : Condition} (hc : NamesParameters c) :
    placeholders c.text = c.parameters := by
  cases c with
  | notNull c =>
    have hquotes := IsDollarFree.inQuotes c
    exact (hquotes.append (by decide)).placeholders_eq
  | compare c op p =>
    have hsign : IsDollarFree op.sign := by cases op <;> decide
    have hfront : IsDollarFree (c.inQuotes ++ " " ++ op.sign ++ " ") :=
      (((IsDollarFree.inQuotes c).append (by decide)).append hsign).append (by decide)
    have htext : (compare c op p).text = c.inQuotes ++ " " ++ op.sign ++ " " ++ ("$" ++ p) := by
      rw [text_compare]
      simp only [String.append_assoc]
    rw [htext, hfront.placeholders_append, placeholders_parameter (hc p (by simp [parameters]))]
    rfl
  | member c ps =>
    have hfront : IsDollarFree (c.inQuotes ++ " IN (") :=
      (IsDollarFree.inQuotes c).append (by decide)
    have hclose : EndsName ")" := by decide
    have hlist : placeholders (", ".intercalate (ps.map ("$" ++ ·))) = ps := by
      rw [placeholders_intercalate (by decide) (by decide) (by decide)]
      exact (List.flatMap_congr fun p hp => placeholders_parameter (hc p hp)).trans
        (List.flatMap_singleton' ps)
    rw [Condition.text, placeholders_append _ hclose, hfront.placeholders_append, hlist]
    exact List.append_nil ps

/-- Conditions that all have to hold ask for the parameters of each in turn. -/
theorem placeholders_conjunction {cs : List Condition} (hcs : ∀ c ∈ cs, NamesParameters c) :
    placeholders (conjunction cs) = cs.flatMap Condition.parameters := by
  rw [conjunction, placeholders_intercalate (by decide) (by decide) (by decide)]
  exact List.flatMap_congr fun c hc => Condition.placeholders_text (hcs c hc)

/-- What stands behind the conditions of a query asks for nothing. -/
theorem IsDollarFree.behindConditions (q : Query) :
    IsDollarFree (Sql.clause "GROUP BY" (q.groupBy.map Expr.text) ", " ++
      (Sql.clause "ORDER BY" (q.orderBy.map OrderItem.text) ", " ++
        (" LIMIT " ++ toString q.limit))) := by
  refine append (clause (by decide) (by decide) fun s hs => ?_)
    (append (clause (by decide) (by decide) fun s hs => ?_) (append (by decide) (int q.limit)))
  · obtain ⟨e, -, rfl⟩ := List.mem_map.1 hs
    exact expr e
  · obtain ⟨o, -, rfl⟩ := List.mem_map.1 hs
    exact orderItem o

theorem IsDollarFree.beforeConditions (q : Query) :
    IsDollarFree ("SELECT " ++ q.selectedText ++ " FROM " ++ q.tableText) := by
  have hselect : IsDollarFree "SELECT " := by decide
  refine ((hselect.append ?_).append (by decide)).append (tableText q)
  refine intercalate (by decide) fun s hs => ?_
  obtain ⟨i, -, rfl⟩ := List.mem_map.1 hs
  exact item i

/-- A query asks for the parameters of its conditions, and for no others. -/
theorem Query.placeholders_text {q : Query} (hq : ∀ c ∈ q.conditions, NamesParameters c) :
    placeholders q.text = q.conditions.flatMap Condition.parameters := by
  have hwhere : placeholders (clause "WHERE" (q.conditions.map Condition.text) " AND ") =
      q.conditions.flatMap Condition.parameters := by
    have hfront : IsDollarFree (" " ++ "WHERE" ++ " ") := by decide
    rw [clause]
    split
    · rename_i hnone
      rw [List.isEmpty_iff, List.map_eq_nil_iff] at hnone
      rw [hnone]
      rfl
    · rw [hfront.placeholders_append]
      exact placeholders_conjunction hq
  -- A blank stands in front of whatever follows the conditions.
  have hblank : EndsName (clause "GROUP BY" (q.groupBy.map Expr.text) ", " ++
      (clause "ORDER BY" (q.orderBy.map OrderItem.text) ", " ++
        (" LIMIT " ++ toString q.limit))) := by
    have hhead : (" LIMIT " ++ toString q.limit).toList.head? = some ' ' := by
      rw [String.toList_append]
      rfl
    exact .of_head? (head?_clause_append _ _ _ (head?_clause_append _ _ _ hhead)) (by decide)
  rw [Query.text_eq, restText, (IsDollarFree.beforeConditions q).placeholders_append,
    placeholders_append _ hblank, hwhere, (IsDollarFree.behindConditions q).placeholders_eq,
    List.append_nil]

theorem namesParameters_filterCondition (f : PlanFilter) (i : Nat) :
    NamesParameters (filterCondition f i) := by
  obtain ⟨c, op, v⟩ := f
  intro p hp
  cases op
  case isIn =>
    obtain ⟨j, -, rfl⟩ := List.mem_map.1 hp
    exact isBareName_memberName i j
  all_goals
    rw [List.mem_singleton.1 hp]
    exact isBareName_parameterName i

theorem namesParameters_filterConditions (fs : List PlanFilter) :
    ∀ c ∈ filterConditions fs, NamesParameters c := by
  intro c hc
  obtain ⟨i, hi, rfl⟩ := List.mem_mapIdx.1 hc
  exact namesParameters_filterCondition _ i

/-! ## The values by name -/

/-- The values by name, the last one given to a name counting. -/
def mapping (parameters : List (String × Value)) : Entries Value :=
  parameters.foldl (fun es e => es.assign e.1 e.2) []

/-- Under distinct names no value takes the place of another. -/
theorem mapping_eq_self {parameters : List (String × Value)}
    (h : (parameters.map Prod.fst).Nodup) : mapping parameters = parameters := by
  -- The names assigned so far are none of those that follow, so each entry comes to the end.
  have step : ∀ (rest done : Entries Value), ((done ++ rest).map Prod.fst).Nodup →
      rest.foldl (fun es e => es.assign e.1 e.2) done = done ++ rest := by
    intro rest
    induction rest with
    | nil => simp
    | cons e rest ih =>
      intro done hnodup
      have hnew : e.1 ∉ done.map Prod.fst := by
        rw [List.map_append, List.nodup_append] at hnodup
        intro hmem
        exact hnodup.2.2 _ hmem e.1 (by simp) rfl
      rw [List.foldl_cons, Entries.assign_of_notMem hnew, ih _ (by simpa using hnodup)]
      simp
  simpa [mapping] using step parameters [] (by simpa using h)

/-- The values that a filter gives to the parameters of its condition, in their order. -/
def boundValues (f : PlanFilter) : List Value :=
  match f.operator with
  | .isIn => f.values
  | _ => [f.value]

theorem map_snd_filterParameters (f : PlanFilter) (i : Nat) :
    (filterParameters f i).map Prod.snd = boundValues f := by
  obtain ⟨c, op, v⟩ := f
  cases op
  case isIn => exact List.map_snd_zip (by simp)
  all_goals rfl

/-- A text asks for parameters, each once and in their order, to which the values of filters are
bound. -/
structure BindsFilters (text : String) (parameters : List (String × Value))
    (fs : List PlanFilter) : Prop where
  /-- The parameters have distinct names. -/
  nodup : (parameters.map Prod.fst).Nodup
  /-- None of them is lost in the mapping of names to values. -/
  length_mapping : (mapping parameters).length = parameters.length
  /-- The text asks for them, and for nothing else. -/
  placeholders_eq : placeholders text = parameters.map Prod.fst
  /-- Their values are those of the filters, one after the other. -/
  values_eq : parameters.map Prod.snd = fs.flatMap boundValues
  /-- Under what the condition of a filter asks for, the values of that filter are found. -/
  bound : ∀ i (h : i < fs.length),
    (placeholders (filterCondition fs[i] i).text).map (fun n => (mapping parameters).lookup n) =
      (boundValues fs[i]).map some

/-- A text that asks for the parameters of filters binds these. -/
theorem BindsFilters.of_placeholders {text : String} {fs : List PlanFilter}
    (h : placeholders text = (filtersParameters fs).map Prod.fst) :
    BindsFilters text (filtersParameters fs) fs where
  nodup := nodup_filtersParameters fs
  length_mapping := by rw [mapping_eq_self (nodup_filtersParameters fs)]
  placeholders_eq := h
  values_eq := by
    rw [filtersParameters, List.map_flatten, List.flatMap_def]
    congr 1
    refine List.ext_getElem (by simp) fun n h₁ h₂ => ?_
    simp [map_snd_filterParameters]
  bound i hi := by
    rw [mapping_eq_self (nodup_filtersParameters fs),
      Condition.placeholders_text (namesParameters_filterCondition fs[i] i),
      ← map_fst_filterParameters, ← map_snd_filterParameters fs[i] i, List.map_map, List.map_map]
    exact List.map_congr_left fun e he => lookup_filtersParameters hi he

/-! ## Queries with filters -/

theorem placeholders_filterConditions (fs : List PlanFilter) :
    placeholders (conjunction (filterConditions fs)) = (filtersParameters fs).map Prod.fst := by
  rw [map_fst_filtersParameters, placeholders_conjunction (namesParameters_filterConditions fs)]

/-- The query of a plan asks for the parameters of its filters alone. -/
theorem placeholders_ofPlan (p : ChartPlan) (t : TableRef) :
    placeholders (Query.ofPlan p t).text = (planParameters p).map Prod.fst := by
  have hnames : ∀ c ∈ (Query.ofPlan p t).conditions, NamesParameters c := by
    intro c hc
    rcases List.mem_append.1 hc with hc | hc
    · obtain ⟨x, -, rfl⟩ := Option.map_eq_some_iff.1 (Option.mem_toList.1 hc)
      exact fun p hp => absurd hp List.not_mem_nil
    · exact namesParameters_filterConditions p.filters c hc
  have haxis : (p.xAxis.map Condition.notNull).toList.flatMap Condition.parameters = [] := by
    cases p.xAxis <;> rfl
  rw [Query.placeholders_text hnames, Query.ofPlan, List.flatMap_append, haxis, List.nil_append,
    planParameters, map_fst_filtersParameters]

/-- A custom query asks for what it asks for by itself in front of the parameters of its filters. -/
theorem placeholders_filteredText (query : String) (fs : List PlanFilter) :
    placeholders (filteredText query (filterConditions fs)) =
      placeholders query ++ (filtersParameters fs).map Prod.fst := by
  have hfront : IsDollarFree "SELECT * FROM (" := by decide
  have hbehind : IsDollarFree "\n) AS _filtered_sub WHERE " := by decide
  have hline : EndsName "\n) AS _filtered_sub WHERE " := by decide
  unfold filteredText
  rw [String.append_assoc, String.append_assoc, hfront.placeholders_append,
    placeholders_append _ (hline.append (by decide) _), hbehind.placeholders_append,
    placeholders_filterConditions]

/-- A checked custom query is run as it is where no filter is kept, else inside of a selection. -/
theorem prepareCustom_eq_ok {v : Validation} {filters : List FilterSpec} {q : Prepared}
    (h : prepareCustom v filters = .ok q) :
    ∃ query, v.query = some query ∧
      q = (let kept := (resolveFilters none filters).1
        if kept.isEmpty then ⟨query, [], (resolveFilters none filters).2⟩
        else ⟨filteredText query (filterConditions kept), filtersParameters kept,
          (resolveFilters none filters).2⟩) := by
  unfold prepareCustom at h
  split at h
  · cases h
  · rename_i query hquery
    obtain ⟨hsome, -⟩ := Option.filter_eq_some_iff.1 hquery
    refine ⟨query, hsome, ?_⟩
    split at h
    · cases h
    · dsimp only at h ⊢
      split at h
      · rename_i hnone
        rw [if_pos hnone, ← Except.ok.inj h]
      · rename_i hkept
        split at h
        · cases h
        · rw [if_neg hkept, ← Except.ok.inj h]

/-- **Placeholders and bound parameters match one to one.** The query of a plan, and a checked
custom query with filters around it, ask for the parameters of their filters in the order in which
these are bound, each once, and each is bound to the value of its filter. A custom query asks for
whatever it asks for by itself in front of them. -/
theorem bindsFilters :
    (∀ (p : ChartPlan) (t : TableRef),
      BindsFilters (Query.ofPlan p t).text (planParameters p) p.filters) ∧
    (∀ fs : List PlanFilter,
      BindsFilters (conjunction (filterConditions fs)) (filtersParameters fs) fs) ∧
    ∀ (v : Validation) (filters : List FilterSpec) (q : Prepared),
      prepareCustom v filters = .ok q →
      let kept := (resolveFilters none filters).1
      ∃ query, v.query = some query ∧
        q.text = (if kept.isEmpty then query else filteredText query (filterConditions kept)) ∧
        BindsFilters (conjunction (filterConditions kept)) q.parameters kept ∧
        placeholders q.text = placeholders query ++ q.parameters.map Prod.fst := by
  have hbinds (fs : List PlanFilter) :
      BindsFilters (conjunction (filterConditions fs)) (filtersParameters fs) fs :=
    .of_placeholders (placeholders_filterConditions fs)
  refine ⟨fun p t => .of_placeholders (placeholders_ofPlan p t), hbinds, ?_⟩
  intro v filters q h kept
  obtain ⟨query, hquery, rfl⟩ := prepareCustom_eq_ok h
  refine ⟨query, hquery, ?_⟩
  by_cases hkept : kept.isEmpty
  · have hnil : kept = [] := List.isEmpty_iff.1 hkept
    have hnone := hbinds kept
    rw [if_pos hkept, if_pos hkept]
    rw [hnil] at hnone ⊢
    exact ⟨rfl, hnone, (List.append_nil _).symm⟩
  · rw [if_neg hkept, if_neg hkept]
    exact ⟨rfl, hbinds kept, placeholders_filteredText query kept⟩

/-- A comparison, a filter that is dropped, and a membership around a query that asks for a
parameter by itself. -/
theorem bindsFilters_membership :
    let filters : List FilterSpec :=
      [⟨"a", ">", .int 1⟩, ⟨"a", "~", .int 2⟩, ⟨"b", "IN", .list [.int 3, .text "x"]⟩]
    ∃ q, prepareCustom (.passed "SELECT $own AS a, 2 AS b" false) filters = .ok q ∧
      placeholders q.text = ["own", "filter_0", "filter_1_0", "filter_1_1"] ∧
      (mapping q.parameters).length = 3 := by
  intro filters
  have hown : placeholders "SELECT $own AS a, 2 AS b" = ["own"] := by decide +kernel
  have hrun : ((prepareCustom (.passed "SELECT $own AS a, 2 AS b" false) filters).toOption.map
      fun q => q.parameters.map Prod.fst) = some ["filter_0", "filter_1_0", "filter_1_1"] := by
    decide +kernel
  cases hq : prepareCustom (.passed "SELECT $own AS a, 2 AS b" false) filters with
  | error e =>
    rw [hq] at hrun
    cases hrun
  | ok q =>
    have hnames : q.parameters.map Prod.fst = ["filter_0", "filter_1_0", "filter_1_1"] := by
      rw [hq] at hrun
      exact Option.some.inj hrun
    obtain ⟨query, hsome, -, hbinds, hasked⟩ := bindsFilters.2.2 _ _ q hq
    obtain rfl : "SELECT $own AS a, 2 AS b" = query := Option.some.inj hsome
    refine ⟨q, rfl, ?_, ?_⟩
    · rw [hasked, hown, hnames]
      rfl
    · rw [hbinds.length_mapping, ← List.length_map Prod.fst, hnames]
      rfl

end ChartQuery.Sql
