import ChartQuery.Proofs.Chart.Counting
import ChartQuery.Proofs.Chart.Ordering

/-!
# Values in another order

The kind of a column depends on its values, and not on their order. Where the values are nulls and
values of one kind, so do its aggregates, means apart: values are counted and added up in any order,
and an extreme is the only value that leads all others.

## Main definitions

* `Extreme.leads e v w`: a value comes before another, or ties with it, towards an extreme
* `ColumnKind.Carries j k vs`: a column of a kind holds nulls and values of one kind

## Main results

* `KeyKind.isRanked`: values of one kind are sorted lawfully
* `columnKind_perm`: a column in another order is of the same kind
* `Aggregation.ofGroup_perm`: values in another order have the same aggregate
* `Aggregation.exists_ofGroup_eq`: a group has an aggregate, and of which kind
-/

namespace ChartQuery

/-! ## Extremes -/

/-- A value comes before another, or ties with it, towards an extreme. -/
def Extreme.leads (e : Extreme) (v w : Value) : Prop := e.keeps (some (v.ranked w)) = true

section Extremes

variable {P : Value → Prop} (hP : IsRanked P) {e : Extreme} {v w u : Value} {vs ws : List Value}

include hP

theorem Extreme.leads_iff (hv : P v) (hw : P w) :
    e.leads v w ↔ match e with
      | .least => (v.ranked w).isLE = true
      | .greatest => (w.ranked v).isLE = true := by
  cases e
  · rw [leads]
    cases v.ranked w <;> simp [keeps]
  -- Towards the greatest the comparison is turned around.
  · rw [leads, hP.swap w v hw hv]
    cases v.ranked w <;> simp [keeps]

namespace IsRanked

theorem leads_trans (hv : P v) (hw : P w) (hu : P u) (hvw : e.leads v w) (hwu : e.leads w u) :
    e.leads v u := by
  rw [Extreme.leads_iff hP hv hw] at hvw
  rw [Extreme.leads_iff hP hw hu] at hwu
  rw [Extreme.leads_iff hP hv hu]
  cases e
  · exact hP.trans v w u hv hw hu hvw hwu
  · exact hP.trans u w v hu hw hv hwu hvw

theorem leads_of_not_leads (hv : P v) (hw : P w) (h : ¬ e.leads v w) : e.leads w v := by
  rw [Extreme.leads_iff hP hv hw] at h
  rw [Extreme.leads_iff hP hw hv]
  cases e <;> dsimp only at h ⊢
  · rw [hP.swap w v hw hv]
    cases hcompare : v.ranked w <;> simp_all
  · rw [hP.swap v w hv hw]
    cases hcompare : w.ranked v <;> simp_all

theorem leads_refl (hv : P v) : e.leads v v := by
  by_contra hnot
  exact hnot (hP.leads_of_not_leads hv hv hnot)

/-- Values that lead one another are the same. -/
theorem eq_of_leads (hv : P v) (hw : P w) (hvw : e.leads v w) (hwv : e.leads w v) : v = w := by
  rw [Extreme.leads_iff hP hv hw] at hvw
  rw [Extreme.leads_iff hP hw hv] at hwv
  refine hP.eq_of_ranked v w hv hw ?_
  cases e <;> dsimp only at hvw hwv
  · rw [hP.swap w v hw hv] at hwv
    exact Ordering.eq_eq_of_isLE_of_isLE_swap hvw hwv
  · rw [hP.swap w v hw hv] at hvw
    exact Ordering.eq_eq_of_isLE_of_isLE_swap hwv hvw

/-- The more extreme of two values is one of them, and leads both. -/
theorem exists_moreExtreme (hv : P v) (hw : P w) :
    ∃ u, (u = v ∨ u = w) ∧ Value.moreExtreme e v w = .ok u ∧ e.leads u v ∧ e.leads u w := by
  have hmore : Value.moreExtreme e v w = .ok (if e.keeps (some (v.ranked w)) then v else w) := by
    rw [Value.moreExtreme, hP.order_eq v w hv hw]
    rfl
  rw [hmore]
  by_cases hkeep : e.keeps (some (v.ranked w)) = true
  · exact ⟨v, .inl rfl, congrArg Except.ok (if_pos hkeep), hP.leads_refl hv, hkeep⟩
  · exact ⟨w, .inr rfl, congrArg Except.ok (if_neg hkeep), hP.leads_of_not_leads hv hw hkeep,
      hP.leads_refl hw⟩

/-- The extreme of some values is one of them, and leads them all. -/
theorem exists_extreme (h : ∀ v ∈ vs, P v) (hne : vs ≠ []) :
    ∃ m ∈ vs, Value.extreme e vs = .ok m ∧ ∀ v ∈ vs, e.leads m v := by
  -- The extreme so far is one of the values, so that it has an order with the next one.
  have hfold : ∀ (ws : List Value) (v : Value), P v → (∀ w ∈ ws, P w) →
      ∃ m ∈ v :: ws, ws.foldlM (Value.moreExtreme e) v = .ok m ∧ ∀ w ∈ v :: ws, e.leads m w := by
    intro ws
    induction ws with
    | nil =>
      intro v hv _
      refine ⟨v, List.mem_cons_self, rfl, fun w hw => ?_⟩
      rw [List.mem_singleton.1 hw]
      exact hP.leads_refl hv
    | cons w ws ih =>
      intro v hv hws
      have hw := hws w List.mem_cons_self
      obtain ⟨u, huvw, hstep, huv, huw⟩ := hP.exists_moreExtreme (e := e) hv hw
      have hu : P u := by
        rcases huvw with rfl | rfl
        · exact hv
        · exact hw
      have hrest : ∀ t ∈ u :: ws, P t :=
        List.forall_mem_cons.2 ⟨hu, fun t ht => hws t (List.mem_cons_of_mem w ht)⟩
      -- What leads the more extreme of the first two leads them both.
      obtain ⟨m, hm, hfold, hleads⟩ := ih u hu fun t ht => hrest t (List.mem_cons_of_mem u ht)
      have hmu := hleads u List.mem_cons_self
      refine ⟨m, ?_, ?_, ?_⟩
      · rcases List.mem_cons.1 hm with rfl | hm
        · rcases huvw with rfl | rfl
          · exact List.mem_cons_self
          · exact List.mem_cons_of_mem v List.mem_cons_self
        · exact List.mem_cons_of_mem v (List.mem_cons_of_mem w hm)
      · rw [List.foldlM_cons, hstep]
        exact hfold
      · rw [List.forall_mem_cons, List.forall_mem_cons]
        exact ⟨hP.leads_trans (hrest m hm) hu hv hmu huv, hP.leads_trans (hrest m hm) hu hw hmu huw,
          fun t ht => hleads t (List.mem_cons_of_mem u ht)⟩
  cases vs with
  | nil => exact absurd rfl hne
  | cons v vs =>
    exact hfold vs v (h v List.mem_cons_self) fun w hw => h w (List.mem_cons_of_mem v hw)

/-- The same values have the same extreme. -/
theorem extreme_congr (h : ∀ v ∈ vs, P v) (hmem : ∀ v, v ∈ ws ↔ v ∈ vs) :
    Value.extreme e ws = Value.extreme e vs := by
  rcases eq_or_ne vs [] with rfl | hne
  · rw [List.eq_nil_iff_forall_not_mem.2 fun v hv => List.not_mem_nil ((hmem v).1 hv)]
  · obtain ⟨v, hv⟩ := List.exists_mem_of_ne_nil vs hne
    have hne' : ws ≠ [] := List.ne_nil_of_mem ((hmem v).2 hv)
    have h' : ∀ v ∈ ws, P v := fun v hv => h v ((hmem v).1 hv)
    obtain ⟨m, hm, hextreme, hleads⟩ := hP.exists_extreme (e := e) h hne
    obtain ⟨m', hm', hextreme', hleads'⟩ := hP.exists_extreme (e := e) h' hne'
    -- Both extremes lead all values, and with them each other.
    have hequal : m' = m := hP.eq_of_leads (h' m' hm') (h m hm) (hleads' m ((hmem m).2 hm))
      (hleads m' ((hmem m').1 hm'))
    rw [hextreme, hextreme', hequal]

end IsRanked

end Extremes

/-! ## Values of one kind -/

section Kinds

variable {k : KeyKind} {vs ws : List Value}

theorem KeyKind.isRanked (k : KeyKind) : IsRanked fun v => k.has v = true := by
  cases k with
  | signed =>
    refine PlainKind.whole.isRanked.mono fun v hv => ?_
    cases v <;> first | rfl | exact Bool.noConfusion hv
  | unsigned =>
    refine PlainKind.whole.isRanked.mono fun v hv => ?_
    cases v <;> first | rfl | exact Bool.noConfusion hv
  | text =>
    refine PlainKind.text.isRanked.mono fun v hv => ?_
    cases v <;> first | rfl | exact Bool.noConfusion hv
  | date =>
    refine PlainKind.date.isRanked.mono fun v hv => ?_
    cases v <;> first | rfl | exact Bool.noConfusion hv
  -- Truth values are compared as the numbers that they count as.
  | truth =>
    have horder : ∀ b c : Bool, (Value.bool b).order (.bool c) =
        .ok (some (Ord.compare b.toNat c.toNat)) := by
      intro b c
      cases b <;> cases c <;>
        simp [Value.order, Value.compareNumbers?, Value.asDecimal?, Value.asInt?] <;> decide
    refine .of_rank (fun v => (v.asInt?.getD 0).toNat) ?_ ?_ ?_ ?_
    · intro v hv
      cases v <;> first | exact ⟨rfl, rfl⟩ | exact Bool.noConfusion hv
    all_goals
      intro v w hv hw
      cases v <;> simp only [has, Bool.false_eq_true] at hv
      cases w <;> simp only [has, Bool.false_eq_true] at hw
      rename_i b c
    · simp [Value.ranked, horder]
    · rw [Value.ranked]
      · simp only [horder]
        cases b <;> cases c <;> rfl
      all_goals intros; contradiction
    · cases b <;> cases c <;> simp [Value.asInt?]

theorem AllKeys.present (h : AllKeys k vs) : ∀ v ∈ presentValues vs, k.has v = true := by
  intro v hv
  obtain ⟨hv, hnull⟩ := List.mem_filter.1 hv
  rcases h v hv with rfl | hhas
  · exact Bool.noConfusion hnull
  · exact hhas

end Kinds

/-! ## Kinds of columns -/

section ColumnKinds

variable {vs ws : List Value}

namespace ColumnKind

/-- Some value is there, and all are timestamps that show the same offset. -/
theorem haveOneOffset_iff : haveOneOffset vs = true ↔
    (∃ v, v ∈ vs) ∧ ∃ o, ∀ v ∈ vs, ∃ t, v = .timestamp t ∧ t.offset = o := by
  cases vs with
  | nil => simp [haveOneOffset]
  | cons v vs =>
    cases v
    case timestamp t =>
      have hsome : ∃ v, v ∈ .timestamp t :: vs := ⟨_, List.mem_cons_self⟩
      rw [and_iff_right hsome]
      simp only [haveOneOffset, List.all_eq_true, List.forall_mem_cons, Value.timestamp.injEq,
        exists_eq_left']
      refine forall₂_congr fun v _ => ?_
      cases v <;> simp
    all_goals simp [haveOneOffset]

theorem haveOneOffset_perm (hperm : ws.Perm vs) : haveOneOffset ws = haveOneOffset vs := by
  rw [Bool.eq_iff_iff, haveOneOffset_iff, haveOneOffset_iff]
  simp only [hperm.mem_iff]

/-- The kind that values decide does not depend on their order. -/
theorem ofValues_perm (hperm : ws.Perm vs) : ofValues ws = ofValues vs := by
  have hints {us us' : List Value} (h : us'.Perm us) :
      ofInts (us'.filterMap Value.int?) = ofInts (us.filterMap Value.int?) := by
    have hints := h.filterMap Value.int?
    rw [ofInts, ofInts, hints.all_eq, hints.all_eq]
  have hpresent {us us' : List Value} (h : us'.Perm us) : ofPresent us' = ofPresent us := by
    simp only [ofPresent, hints h, h.all_eq, haveOneOffset_perm h]
  have hkept := hperm.filter (!·.isMissing)
  rw [ofValues, ofValues, hpresent hkept, hkept.isEmpty_eq, hperm.isEmpty_eq, hperm.any_eq]

end ColumnKind

/-- A column in another order is of the same kind. -/
theorem columnKind_perm {p : ChartPlan} {c : Identifier} (hperm : ws.Perm vs) :
    p.columnKind c ws = p.columnKind c vs := by
  rw [ChartPlan.columnKind, ChartPlan.columnKind, hperm.all_eq, ColumnKind.ofValues_perm hperm]

end ColumnKinds

/-! ## Columns of one kind -/

/-- A column of a kind holds nulls and values of one kind: as doubles nothing but nulls, and in a
mixture no whole numbers. -/
structure ColumnKind.Carries (j : ColumnKind) (k : KeyKind) (vs : List Value) : Prop where
  keys : AllKeys k vs
  double : j = .double → presentValues vs = []
  mixed : j = .mixed → ∀ v ∈ vs, v.int? = none

section Carried

variable {j : ColumnKind} {k : KeyKind} {vs ws : List Value}

theorem ColumnKind.Carries.mono (h : j.Carries k vs) (hsub : ws ⊆ vs) : j.Carries k ws where
  keys := h.keys.mono hsub
  double hj := List.filter_eq_nil_iff.2 fun w hw =>
    List.filter_eq_nil_iff.1 (h.double hj) w (hsub hw)
  mixed hj w hw := h.mixed hj w (hsub hw)

/-- A column of doubles holds nothing but numbers. -/
theorem isNumber_of_double {p : ChartPlan} {c : Identifier} (h : p.columnKind c vs = .double)
    {v : Value} (hv : v ∈ vs) : v.isMissing = true ∨ v.isNumber = true := by
  have hints (ns : List Int) : ColumnKind.ofInts ns ≠ .double := by
    rw [ColumnKind.ofInts]
    split
    · exact ColumnKind.noConfusion
    · split <;> exact ColumnKind.noConfusion
  -- Doubles are columns without values, and those of numbers that are not all whole.
  rw [ChartPlan.columnKind] at h
  split at h
  · rename_i hnulls
    have hnull := List.all_eq_true.1 (Bool.and_eq_true_iff.1 hnulls).2 v hv
    cases v <;> first | exact .inl rfl | exact Bool.noConfusion hnull
  rw [ColumnKind.ofValues] at h
  split at h
  · rename_i hempty
    left
    simpa using List.filter_eq_nil_iff.1 (List.isEmpty_iff.1 hempty) v hv
  · rw [ColumnKind.ofPresent] at h
    split at h
    · exact absurd h (hints _)
    split at h
    · rename_i hnumbers
      by_cases hmissing : v.isMissing = true
      · exact .inl hmissing
      · exact .inr (List.all_eq_true.1 hnumbers v (List.mem_filter.2 ⟨hv, by simpa using hmissing⟩))
    · split at h
      · cases h
      split at h
      · cases h
      split at h <;> cases h

/-- Nulls and values of a kind are carried by the column that they make. -/
theorem AllKeys.carries (h : AllKeys k vs) (p : ChartPlan) (c : Identifier) :
    (p.columnKind c vs).Carries k vs := by
  have hwords {n : Int} (hn : Value.int n ∈ vs) :
      p.columnKind c vs ≠ .double ∧ p.columnKind c vs ≠ .mixed := by
    rcases KeyKind.columnKind_of_int (p := p) (c := c) h hn with hkind | hkind <;> simp [hkind]
  refine ⟨h, fun hdouble => ?_, fun hmixed v hv => ?_⟩
  · refine List.filter_eq_nil_iff.2 fun v hv => ?_
    rcases h v hv with rfl | hhas
    · exact Bool.false_ne_true
    -- A value that is there would be a number, and so a whole number.
    · rcases isNumber_of_double hdouble hv with hmissing | hnumber
      · rw [KeyKind.isMissing_eq hhas] at hmissing
        cases hmissing
      · cases v
        case int n => exact absurd hdouble (hwords hv).1
        case float => cases k <;> cases hhas
        all_goals cases hnumber
  · cases v
    case int n => exact absurd hmixed (hwords hv).2
    all_goals rfl

/-! ## Aggregates -/

theorem presentValues_perm (hperm : ws.Perm vs) : (presentValues ws).Perm (presentValues vs) :=
  hperm.filter _

theorem total_perm {ms ns : List Int} (hperm : ms.Perm ns) : total ms = total ns :=
  hperm.foldr_eq' (fun _ _ _ _ n => by omega) 0

/-- Where nulls are filled up, the same values are there. -/
theorem mem_fillNulls_iff {v : Value} : v ∈ fillNulls vs ↔ v ∈ presentValues vs := by
  rw [fillNulls]
  cases hp : presentValues vs with
  | nil => rfl
  | cons first rest =>
    have hfirst : first ∈ presentValues vs := by
      rw [hp]
      exact List.mem_cons_self
    dsimp only
    rw [← hp]
    constructor
    · intro hv
      obtain ⟨w, hw, rfl⟩ := List.mem_map.1 hv
      split
      · exact hfirst
      · rename_i hnull
        exact List.mem_filter.2 ⟨hw, by simpa using hnull⟩
    · intro hv
      obtain ⟨hmem, hnull⟩ := List.mem_filter.1 hv
      refine List.mem_map.2 ⟨v, hmem, if_neg ?_⟩
      simpa using hnull

namespace ColumnKind

/-- An extreme does not depend on the order of the values. -/
theorem extreme_perm (h : AllKeys k vs) (hperm : ws.Perm vs) (e : Extreme) :
    j.extreme e ws = j.extreme e vs := by
  rw [extreme, extreme]
  split
  · refine k.isRanked.extreme_congr (fun v hv => h.present v (mem_fillNulls_iff.1 hv)) fun v => ?_
    rw [mem_fillNulls_iff, mem_fillNulls_iff, (presentValues_perm hperm).mem_iff]
  · exact k.isRanked.extreme_congr h.present fun v => (presentValues_perm hperm).mem_iff

/-- There is an extreme: one of the values, or null where there are none. -/
theorem exists_extreme_eq (h : AllKeys k vs) (e : Extreme) :
    ∃ v, j.extreme e vs = .ok v ∧ (v = .null ∨ v ∈ vs ∧ k.has v = true) := by
  have hsome {us : List Value} (hus : ∀ v, v ∈ us → v ∈ presentValues vs) :
      ∃ v, Value.extreme e us = .ok v ∧ (v = .null ∨ v ∈ vs ∧ k.has v = true) := by
    rcases eq_or_ne us [] with rfl | hne
    · exact ⟨.null, rfl, .inl rfl⟩
    · obtain ⟨m, hm, hextreme, -⟩ :=
        k.isRanked.exists_extreme (e := e) (fun v hv => h.present v (hus v hv)) hne
      exact ⟨m, hextreme, .inr ⟨(List.mem_filter.1 (hus m hm)).1, h.present m (hus m hm)⟩⟩
  rw [extreme]
  split
  · exact hsome fun v => mem_fillNulls_iff.1
  · exact hsome fun v hv => hv

/-- Values that are carried have a sum, a whole number, or null where there are none. -/
theorem sum_eq (h : j.Carries k vs) (hj : j.isNumeric = true) :
    j.sum vs = .ok (if (presentValues vs).isEmpty then .null
      else .int (j.wrap (total ((presentValues vs).filterMap Value.asInt?)))) := by
  rw [sum]
  cases hp : presentValues vs with
  | nil => rfl
  | cons v rest =>
    -- Doubles would be rounded, but as doubles only nulls are carried.
    cases j
    case double =>
      rw [h.double rfl] at hp
      cases hp
    case text => cases hj
    case moment => cases hj
    case mixed => cases hj
    all_goals rfl

theorem sum_perm (h : j.Carries k vs) (hj : j.isNumeric = true) (hperm : ws.Perm vs) :
    j.sum ws = j.sum vs := by
  have hpresent := presentValues_perm hperm
  rw [sum_eq h hj, sum_eq (h.mono hperm.subset) hj, hpresent.isEmpty_eq,
    total_perm (hpresent.filterMap _)]

end ColumnKind

namespace Aggregation

/-- The aggregate of values of a kind is of this kind, or a whole number. -/
def gives : Aggregation → KeyKind → Value → Bool
  | min, k, v | max, k, v => k.has v
  | _, _, v => PlainKind.whole.describes v

theorem isRanked_gives (a : Aggregation) (k : KeyKind) : IsRanked fun v => a.gives k v = true := by
  cases a
  case min => exact k.isRanked
  case max => exact k.isRanked
  all_goals exact PlainKind.whole.isRanked

variable {a : Aggregation}

/-- Values in another order have the same aggregate in a group. -/
theorem ofGroup_perm (h : j.Carries k vs) (ha : a ≠ .avg)
    (hj : a.needsNumbers = true → j.isNumeric = true) (hperm : ws.Perm vs) :
    a.ofGroup j ws = a.ofGroup j vs := by
  cases a
  case avg => exact absurd rfl ha
  case sum => rw [ofGroup, ofGroup, ColumnKind.sum_perm h (hj rfl) hperm]
  case count =>
    rw [ofGroup, ofGroup, countPresent, countPresent, (presentValues_perm hperm).length_eq]
  all_goals rw [ofGroup, ofGroup, ColumnKind.extreme_perm h.keys hperm]

/-- A group has an aggregate: null or one of the kind that is given. From a mixture come no whole
numbers, unless it is counted. -/
theorem exists_ofGroup_eq (h : j.Carries k vs) (ha : a ≠ .avg)
    (hj : a.needsNumbers = true → j.isNumeric = true) :
    ∃ v, a.ofGroup j vs = .ok v ∧ (v = .null ∨ a.gives k v = true) ∧
      (j = .mixed → a ≠ .count → v.int? = none) := by
  have hextreme (e : Extreme) : ∃ v, j.extreme e vs = .ok v ∧ (v = .null ∨ k.has v = true) ∧
      (j = .mixed → v.int? = none) := by
    obtain ⟨v, hv, hnull | ⟨hmem, hhas⟩⟩ := ColumnKind.exists_extreme_eq (j := j) h.keys e
    · refine ⟨v, hv, .inl hnull, fun _ => ?_⟩
      rw [hnull]
      rfl
    · exact ⟨v, hv, .inr hhas, fun hmixed => h.mixed hmixed v hmem⟩
  cases a
  case avg => exact absurd rfl ha
  case count => exact ⟨_, rfl, .inr rfl, fun _ hcount => absurd rfl hcount⟩
  case sum =>
    have hnumeric := hj rfl
    rw [ofGroup, ColumnKind.sum_eq h hnumeric]
    refine ⟨_, rfl, ?_, fun hmixed => ?_⟩
    · split
      · exact .inl rfl
      · exact .inr rfl
    · rw [hmixed] at hnumeric
      cases hnumeric
  case min =>
    obtain ⟨v, hv, hgives, hmixed⟩ := hextreme .least
    exact ⟨v, by rw [ofGroup, hv]; rfl, hgives, fun hj _ => hmixed hj⟩
  case max =>
    obtain ⟨v, hv, hgives, hmixed⟩ := hextreme .greatest
    exact ⟨v, by rw [ofGroup, hv]; rfl, hgives, fun hj _ => hmixed hj⟩

end Aggregation

end Carried

end ChartQuery
