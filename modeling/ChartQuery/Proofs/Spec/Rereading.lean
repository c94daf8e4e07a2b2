import ChartQuery.Proofs.Text.Capitals
import ChartQuery.Spec.Request
import Mathlib.Data.List.Forall2

/-!
# Reading a specification again

A request for one chart is read, written out and read again before its date range is applied. What
was read once is in its uniform form, and so it is read again as it is. The date range beside the
fields of a specification is none of them.

## Main definitions

* `Checked.Ensures`: what is read, if anything is, has a property
* `FilterSpec.IsUniform`: the operator of a condition has its uniform spelling
* `Record.ranged`: a body with a date range beside its fields

## Main results

* `checkSpec_written`: a specification that was read is read again as it is
* `checkChartRequest_ranged`: the specification of a request is the one that its body is read as,
  with the date range applied
-/

namespace ChartQuery

/-! ## Properties of what is read -/

namespace Checked

variable {α β : Type} {p : β → Prop}

/-- What is read, if anything is, has a property. -/
def Ensures (p : α → Prop) (x : Checked α) : Prop := ∀ a, x = .ok a → p a

theorem Ensures.map {f : α → β} {x : Checked α} (h : ∀ a, p (f a)) : (x.map f).Ensures p := by
  intro b hb
  obtain ⟨a, -, rfl⟩ := map_eq_ok.1 hb
  exact h a

/-- What a function makes of an argument that was read with it. -/
theorem Ensures.apply {q : α → Prop} {f : Checked (α → β)} {x : Checked α} (hx : x.Ensures q)
    (hf : f.Ensures fun g => ∀ a, q a → p (g a)) : (f.apply x).Ensures p := by
  intro b hb
  obtain ⟨g, a, hg, ha, rfl⟩ := apply_eq_ok.1 hb
  exact hf g hg a (hx a ha)

/-- What a function makes of any argument. -/
theorem Ensures.apply_any {f : Checked (α → β)} {x : Checked α}
    (hf : f.Ensures fun g => ∀ a, p (g a)) : (f.apply x).Ensures p := by
  intro b hb
  obtain ⟨g, a, hg, -, rfl⟩ := apply_eq_ok.1 hb
  exact hf g hg a

end Checked

/-- A field that is given has been checked, and else it has its default. -/
theorem ensures_checkField {α : Type} {p : α → Prop} {r : Record} {name alternative : String}
    {default : α} {check : Value → Checked α} (hdefault : p default)
    (hcheck : ∀ v, (check v).Ensures p) :
    (checkField r name alternative default check).Ensures p := by
  intro a ha
  rw [checkField] at ha
  split at ha
  · exact hcheck _ a (Checked.under_eq_ok.1 ha)
  · obtain rfl := Checked.ok.inj ha
    exact hdefault

/-! ## Lists -/

/-- A list is read if each of its items is. -/
theorem Checked.items_eq_ok {α : Type} {check : Value → Checked α} {n : Nat} {vs : List Value}
    {as : List α} :
    Checked.items check n vs = .ok as ↔ List.Forall₂ (fun v a => check v = .ok a) vs as := by
  -- The numbers of the items stand in issues only, so any number may be the first.
  induction vs generalizing n as with
  | nil => simp [items, eq_comm]
  | cons v vs ih =>
    simp only [items, apply_eq_ok, map_eq_ok, under_eq_ok, ih]
    constructor
    · rintro ⟨_, rest, ⟨a, ha, rfl⟩, hrest, rfl⟩
      exact .cons ha hrest
    · rintro (_ | ⟨ha, hrest⟩)
      exact ⟨_, _, ⟨_, ha, rfl⟩, hrest, rfl⟩

theorem Checked.exists_mem_of_forall₂ {α : Type} {check : Value → Checked α} {vs : List Value}
    {as : List α} (h : List.Forall₂ (fun v a => check v = .ok a) vs as) {v : Value} (hv : v ∈ vs) :
    ∃ a ∈ as, check v = .ok a := by
  induction h with
  | nil => cases hv
  | cons hread _ ih =>
    rcases List.mem_cons.1 hv with rfl | hv
    · exact ⟨_, List.mem_cons_self, hread⟩
    · obtain ⟨a, ha, hcheck⟩ := ih hv
      exact ⟨a, List.mem_cons_of_mem _ ha, hcheck⟩

/-- A list that is written out item by item is read as it was. -/
theorem checkList_map {α : Type} {check : Value → Checked α} {written : α → Value} {as : List α}
    (h : ∀ a ∈ as, check (written a) = .ok a) :
    checkList check (.list (as.map written)) = .ok as := by
  rw [checkList, Checked.items_eq_ok, List.forall₂_map_left_iff, List.forall₂_same]
  exact h

/-- The items of a list that is read have what their check ensures. -/
theorem ensures_checkList {α : Type} {p : α → Prop} {check : Value → Checked α}
    (hcheck : ∀ v, (check v).Ensures p) (v : Value) :
    (checkList check v).Ensures fun as => ∀ a ∈ as, p a := by
  cases v with
  | list vs =>
    intro as has
    have hitems := Checked.items_eq_ok.1 has
    clear has
    induction hitems with
    | nil => simp
    | cons hread _ ih => exact List.forall_mem_cons.2 ⟨hcheck _ _ hread, ih⟩
  | _ => rintro as ⟨⟩

/-! ## What is written out -/

theorem checkOptional_writtenText (s : Option String) :
    checkOptional checkText (writtenText s) = .ok s := by
  cases s <;> rfl

theorem checkList_writtenTexts (ss : List String) :
    checkList checkText (writtenTexts ss) = .ok ss :=
  checkList_map fun _ _ => rfl

theorem checkGroupBy_written (g : GroupBy) : checkGroupBy g.written = .ok g := by
  cases g with
  | none => rfl
  | one name => rfl
  | several names =>
    have hnames := checkList_writtenTexts names
    rw [writtenTexts] at hnames
    rw [GroupBy.written, writtenTexts, checkGroupBy, hnames]
    -- A list is neither null nor a text.
    · rintro ⟨⟩
    · rintro _ ⟨⟩

theorem checkMode_name (m : QueryMode) : checkMode (.text m.name) = .ok m := by
  cases m <;> rfl

theorem checkOptional_limit (n : Option Int) :
    checkOptional checkInt ((n.map Value.int).getD .null) = .ok n := by
  cases n <;> rfl

theorem checkOptional_rows (rows : Option (List Record)) :
    checkOptional (checkList checkRecord)
      ((rows.map fun rs => .list (rs.map Value.object)).getD .null) = .ok rows := by
  cases rows with
  | none => rfl
  | some rs =>
    have hrows : checkList checkRecord (.list (rs.map Value.object)) = .ok rs :=
      checkList_map fun _ _ => rfl
    show (checkList checkRecord (.list (rs.map Value.object))).map some = .ok (some rs)
    rw [hrows]
    rfl

/-! ## Uniform operators -/

/-- The operator has its uniform spelling. -/
def FilterSpec.IsUniform (f : FilterSpec) : Prop := operatorName (.text f.operator) = f.operator

theorem operatorName_text_operatorName (v : Value) :
    operatorName (.text (operatorName v)) = operatorName v := by
  cases v with
  | null => decide
  | _ => exact Text.upper_trim_upper_trim _

/-- A condition that is read has its operator in the uniform spelling. -/
theorem ensures_isUniform_checkFilter (v : Value) :
    (checkFilter v).Ensures FilterSpec.IsUniform := by
  cases v with
  | object r =>
    have hoperator : (checkField r "operator" "operator" "=" fun v => .ok (operatorName v)).Ensures
        fun op => operatorName (.text op) = op := by
      apply ensures_checkField
      · decide
      · intro v op hop
        obtain rfl := Checked.ok.inj hop
        exact operatorName_text_operatorName v
    rw [checkFilter, checkModel]
    refine .apply_any (.apply hoperator (.map ?_))
    intro field op hop value
    exact hop
  | _ =>
    rintro f ⟨⟩

/-- A condition in its uniform spelling is read as it was. -/
theorem checkFilter_written {f : FilterSpec} (h : f.IsUniform) : checkFilter f.written = .ok f := by
  have hread : checkFilter f.written =
      .ok ⟨f.field, operatorName (.text f.operator), f.value⟩ := by
    simp [FilterSpec.written, checkFilter, checkModel, checkRequired, checkField, givenField?,
      Record.get?, List.lookup_cons, checkText, Checked.under, Checked.map, Checked.apply]
  rw [hread, h]

/-! ## Specifications -/

/-- The conditions of a specification that is read are in their uniform spelling. -/
theorem ensures_isUniform_checkSpecFields (r : Record) :
    (checkSpecFields r).Ensures fun s => ∀ f ∈ s.filters, f.IsUniform := by
  have hfilters : (checkField r "filters" "filters" [] (checkList checkFilter)).Ensures
      fun fs => ∀ f ∈ fs, f.IsUniform := by
    apply ensures_checkField
    · rintro f ⟨⟩
    · exact ensures_checkList ensures_isUniform_checkFilter
  simp only [checkSpecFields]
  -- The fields behind the conditions, the conditions, and the fields in front of them.
  iterate 9 refine .apply_any ?_
  refine .apply hfilters ?_
  iterate 7 refine .apply_any ?_
  apply Checked.Ensures.map
  intro _ _ _ _ _ _ _ _ fs hfs _ _ _ _ _ _ _ _ _
  exact hfs

theorem checkSpecFields_written {s : ChartSpec} (h : ∀ f ∈ s.filters, f.IsUniform) :
    checkSpecFields s.written = .ok s := by
  have hfilters :
      checkList checkFilter (.list (s.filters.map FilterSpec.written)) = .ok s.filters :=
    checkList_map fun f hf => checkFilter_written (h f hf)
  -- Every field is given under its name, and each is read by what is known of its kind.
  simp [checkSpecFields, ChartSpec.written, checkField, givenField?, Record.get?, List.lookup_cons,
    checkOptional_writtenText, checkList_writtenTexts, checkGroupBy_written, checkMode_name,
    checkOptional_limit, checkOptional_rows, hfilters, checkText,
    Checked.under, Checked.map, Checked.apply]

/-- **A specification that was read is read again as it is.** -/
theorem checkSpec_written {v : Value} {s : ChartSpec} (h : checkSpec v = .ok s) :
    checkSpec (.object s.written) = .ok s := by
  cases v with
  | object r => exact checkSpecFields_written (ensures_isUniform_checkSpecFields r s h)
  | _ => cases h

/-! ## Date ranges -/

/-- A body with a date range beside its fields, if one is sent along. -/
def Record.ranged (r : Record) : Option Value → Record
  | some range => r.put "dateRange" range
  | none => r

theorem get?_ranged (r : Record) (range : Option Value) {name : String} (h : name ≠ "dateRange") :
    (r.ranged range).get? name = r.get? name := by
  cases range with
  | none => rfl
  | some range => rw [Record.ranged, Record.get?_put, if_neg h]

/-- The date range is none of the fields of a specification. -/
theorem checkSpecFields_ranged (r : Record) (range : Option Value) :
    checkSpecFields (r.ranged range) = checkSpecFields r := by
  simp [checkSpecFields, checkField, givenField?, get?_ranged]

/-- The date range of a body is the one that is sent along, unless the body has one of its own. -/
theorem checkRangeField_ranged {r : Record} {range : Option Value}
    (hown : range = none → givenField? r "dateRange" "date_range" = none) :
    checkRangeField (r.ranged range) = checkRangeField (Record.ranged [] range) := by
  cases range with
  | none =>
    rw [Record.ranged, checkRangeField, checkField, hown rfl]
    rfl
  | some range =>
    simp [checkRangeField, checkField, givenField?, Record.ranged, Record.get?_put]

/-- **The specification of a request is the one that its body is read as, with the date range
applied.** -/
theorem checkChartRequest_ranged {r : Record} {s : ChartSpec} {range : Option Value}
    (hspec : checkSpec (.object r) = .ok s)
    (hown : range = none → givenField? r "dateRange" "date_range" = none) :
    checkChartRequest (.object (r.ranged range)) =
      (checkRangeField (Record.ranged [] range)).map s.within := by
  have hfields : checkSpecFields (r.ranged range) = .ok s :=
    (checkSpecFields_ranged r range).trans hspec
  have hsource (dates : Option DateRange) :
      (ChartRequest.mk s dates).source = .ok (s.within dates) := by
    rw [ChartRequest.source, checkSpec_written hspec]
    rfl
  -- What is left to fail is the date range, which is read beside the fields.
  rw [checkChartRequest, checkModel, hfields, checkRangeField_ranged hown]
  cases checkRangeField (Record.ranged [] range) with
  | ok dates => exact hsource dates
  | refused issues => rfl
  | beyondCalendar fault => rfl

end ChartQuery
