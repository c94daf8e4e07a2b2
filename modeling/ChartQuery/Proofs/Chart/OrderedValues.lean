import ChartQuery.Proofs.Chart.ReorderedValues

/-!
# Values of one kind and their extremes

Values of one kind have a lawful order: not only those by which records are grouped, but also
timestamps without an offset, which are compared by their clocks. The least and the greatest value
of a column of one kind pass over its nulls, in whichever way the column is held.

## Main definitions

* `OrderedKind`, `AllOrdered`: nulls and values of one kind, timestamps without an offset included
* `Extreme.IsOf e values v`: the least or the greatest of some values, null if there are none

## Main results

* `OrderedKind.isRanked`: values of one kind are sorted lawfully
* `AllOrdered.holdsShown`: columns of values of one kind are held as they are shown
* `AllOrdered.exists_extreme`: a column of one kind has its extreme, null or not
-/

namespace ChartQuery

/-! ## Kinds of values -/

/-- The kinds of values that have an order: those of keys, and timestamps without an offset. -/
inductive OrderedKind where
  | key (k : KeyKind)
  | naive

/-- The value is of the kind. -/
def OrderedKind.has : OrderedKind → Value → Bool
  | key k, v => k.has v
  | naive, .timestamp t => t.offset.isNone
  | naive, _ => false

/-- The values are nulls and values of a kind. -/
def AllOrdered (k : OrderedKind) (vs : List Value) : Prop := ∀ v ∈ vs, v = .null ∨ k.has v = true

theorem allOrdered_of_all {k : OrderedKind} {vs : List Value}
    (h : (vs.all fun v => v.isNull || k.has v) = true) : AllOrdered k vs :=
  eq_null_or_of_all h

theorem AllOrdered.mono {k : OrderedKind} {vs ws : List Value} (h : AllOrdered k vs)
    (hsub : ws ⊆ vs) : AllOrdered k ws :=
  fun v hv => h v (hsub hv)

namespace OrderedKind

theorem exists_timestamp {v : Value} (h : naive.has v = true) :
    ∃ t, v = .timestamp t ∧ t.offset = none := by
  cases v
  case timestamp t => exact ⟨t, rfl, Option.isNone_iff_eq_none.1 h⟩
  all_goals exact Bool.noConfusion h

/-- Timestamps without an offset are compared by their clocks. -/
theorem compare?_naive {t u : Timestamp} (ht : t.offset = none) (hu : u.offset = none) :
    t.compare? u = some (Ord.compare t.clockMicros u.clockMicros) := by
  rw [Timestamp.compare?, ht, hu]

/-- The time that a timestamp shows by its clock; any other value counts as none. -/
def clock : Value → Int
  | .timestamp t => t.clockMicros
  | _ => 0

/-- Values of one kind are sorted lawfully. -/
theorem isRanked (k : OrderedKind) : IsRanked fun v => k.has v = true := by
  cases k with
  | key k => exact k.isRanked
  | naive =>
    have horder : ∀ v w, naive.has v = true → naive.has w = true →
        v.order w = .ok (some (Ord.compare (clock v) (clock w))) ∧
          v.ranked w = Ord.compare (clock v) (clock w) := by
      intro v w hv hw
      obtain ⟨t, rfl, ht⟩ := exists_timestamp hv
      obtain ⟨u, rfl, hu⟩ := exists_timestamp hw
      have hcompare := compare?_naive ht hu
      simp [Value.order, Value.ranked, hcompare, clock]
    refine .of_rank clock ?_ ?_ ?_ ?_
    · intro v hv
      obtain ⟨t, rfl, -⟩ := exists_timestamp hv
      exact ⟨rfl, rfl⟩
    · intro v w hv hw
      rw [(horder v w hv hw).1, (horder v w hv hw).2]
    · intro v w hv hw
      exact (horder v w hv hw).2
    · intro v w hv hw h
      obtain ⟨t, rfl, ht⟩ := exists_timestamp hv
      obtain ⟨u, rfl, hu⟩ := exists_timestamp hw
      exact congrArg Value.timestamp (Timestamp.eq_of_clockMicros_eq ht hu h)

/-- Nulls and values of a kind are equal only if they are the same. -/
theorem eqv_iff {k : OrderedKind} {v w : Value} (hv : v = .null ∨ k.has v = true)
    (hw : w = .null ∨ k.has w = true) : v.eqv w = true ↔ v = w := by
  cases k with
  | key k => exact KeyKind.eqv_iff hv hw
  | naive =>
    rcases hv with rfl | hv
    · rw [KeyKind.eqv_null_iff.1, eq_comm]
    rcases hw with rfl | hw
    · exact KeyKind.eqv_null_iff.2
    obtain ⟨t, rfl, ht⟩ := exists_timestamp hv
    obtain ⟨u, rfl, hu⟩ := exists_timestamp hw
    simp only [Value.eqv, compare?_naive ht hu, beq_iff_eq, Option.some.injEq,
      Value.timestamp.injEq, Int.compare_eq_eq]
    exact ⟨Timestamp.eq_of_clockMicros_eq ht hu, fun h => congrArg Timestamp.clockMicros h⟩

end OrderedKind

namespace AllOrdered

variable {k : OrderedKind} {vs : List Value} {p : ChartPlan} {kept : List Record} {c : Identifier}

theorem present (h : AllOrdered k vs) : ∀ v ∈ presentValues vs, k.has v = true := by
  intro v hv
  obtain ⟨hv, hnull⟩ := List.mem_filter.1 hv
  rcases h v hv with rfl | hhas
  · exact Bool.noConfusion hnull
  · exact hhas

theorem isCompound_eq (h : AllOrdered k vs) : ∀ v ∈ vs, v.isCompound = false := by
  intro v hv
  rcases h v hv with rfl | hhas
  · rfl
  · exact k.isRanked.flat v hhas

/-- Columns of values of one kind are held as they are shown. -/
theorem holdsShown (h : AllOrdered k (kept.map (p.shownOf c))) : p.HoldsShown kept c := by
  cases k with
  | key k =>
    have hkeys : AllKeys k (kept.map (p.shownOf c)) := h
    exact hkeys.holdsShown
  | naive =>
    refine ⟨fun r hr => ?_, fun r hr => h.isCompound_eq _ (List.mem_map_of_mem hr),
      fun r hr s hs => ?_, fun _ r hr => ?_⟩
    · rw [ChartPlan.held, ColumnKind.convert]
      rcases h _ (List.mem_map_of_mem hr) with hnull | hhas
      · rw [hnull]
        rfl
      -- Even among doubles a timestamp would stay what it is.
      · obtain ⟨t, ht, -⟩ := OrderedKind.exists_timestamp hhas
        rw [ht, if_neg (show ¬ (Value.timestamp t).isMissing = true from Bool.false_ne_true)]
        split <;> rfl
    · exact OrderedKind.eqv_iff (h _ (List.mem_map_of_mem hr)) (h _ (List.mem_map_of_mem hs))
    · rcases h _ (List.mem_map_of_mem hr) with hnull | hhas
      · rw [hnull]
        rfl
      · obtain ⟨t, ht, -⟩ := OrderedKind.exists_timestamp hhas
        rw [ht]
        rfl

end AllOrdered

/-! ## Extremes of values -/

namespace Extreme

/-- A value has an order with another, and does not come behind it towards an extreme. -/
def Reaches (e : Extreme) (v w : Value) : Prop :=
  ∃ o, v.order w = .ok (some o) ∧
    match e with
    | least => o.isLE = true
    | greatest => o.isGE = true

/-- A value is the least or the greatest of some values; null if there are none. -/
def IsOf (e : Extreme) (values : Set Value) (v : Value) : Prop :=
  (values = ∅ ∧ v = .null) ∨ (v ∈ values ∧ ∀ w ∈ values, e.Reaches v w)

theorem reaches_of_leads {P : Value → Prop} (hP : IsRanked P) {e : Extreme} {v w : Value}
    (hv : P v) (hw : P w) (h : e.leads v w) : e.Reaches v w := by
  refine ⟨v.ranked w, hP.order_eq v w hv hw, ?_⟩
  rw [leads] at h
  cases e <;> cases hranked : v.ranked w <;> rw [hranked] at h <;>
    first | rfl | exact Bool.noConfusion h

end Extreme

/-- **A column of one kind has its extreme, and nulls are passed over.** -/
theorem AllOrdered.exists_extreme {k : OrderedKind} {vs : List Value} (h : AllOrdered k vs)
    (j : ColumnKind) (e : Extreme) :
    ∃ v, j.extreme e vs = .ok v ∧ e.IsOf {w | w ∈ vs ∧ w ≠ .null} v := by
  have hpresent (w : Value) : w ∈ presentValues vs ↔ w ∈ vs ∧ w ≠ .null := by
    rw [presentValues, List.mem_filter]
    refine and_congr_right fun _ => ?_
    cases w <;> simp [Value.isNull]
  -- Whether or not nulls are filled up first, the same values are compared.
  obtain ⟨us, hus, hextreme⟩ : ∃ us, (∀ w, w ∈ us ↔ w ∈ vs ∧ w ≠ .null) ∧
      j.extreme e vs = Value.extreme e us := by
    rw [ColumnKind.extreme]
    split
    · exact ⟨_, fun w => mem_fillNulls_iff.trans (hpresent w), rfl⟩
    · exact ⟨_, hpresent, rfl⟩
  rw [hextreme]
  rcases eq_or_ne us [] with rfl | hne
  · refine ⟨.null, rfl, .inl ⟨?_, rfl⟩⟩
    refine Set.eq_empty_iff_forall_notMem.2 fun w hw => ?_
    exact absurd ((hus w).2 hw) List.not_mem_nil
  · have hkind : ∀ w ∈ us, k.has w = true := fun w hw =>
      h.present w ((hpresent w).2 ((hus w).1 hw))
    obtain ⟨m, hm, hvalue, hleads⟩ := k.isRanked.exists_extreme (e := e) hkind hne
    refine ⟨m, hvalue, .inr ⟨(hus m).1 hm, fun w hw => ?_⟩⟩
    have hw' := (hus w).2 hw
    exact Extreme.reaches_of_leads k.isRanked (hkind m hm) (hkind w hw') (hleads w hw')

end ChartQuery
