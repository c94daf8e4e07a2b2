import ChartQuery.Proofs.Chart.OrderedValues

/-!
# Kinds of scalar values

Whole numbers of any size, doubles, truth values, texts, dates, and timestamps with an offset or
without have an order each. Equal values need not be the same there: zeros of both signs tie, and so
do timestamps that show one moment by different clocks. Whatever is aggregated of values of one kind
is of one kind again, also where the numbers of a result are made alike.

## Main definitions

* `Binary64.place`: where a double stands in the order of doubles
* `ScalarKind`, `AllScalars`: nulls and values of one kind

## Main results

* `Value.eqv_of_order_eq`: values that have an order are equal exactly where they tie
* `ScalarKind.isPreordered`: values of one kind have an order
* `AllScalars.exists_unified`: numbers of one kind that are made alike are of one kind
* `ColumnKind.ofInts_of_mixed`, `unifyNumbers_of_wide`: whole numbers of a mixture are left alone
* `Aggregation.exists_has_ofGroup`: the aggregates of values of one kind are of one kind
-/

namespace ChartQuery

/-! ## Orders of values -/

namespace Value

variable {v w : Value}

/-- Values that have an order are ranked by it. -/
theorem ranked_of_order {o : Ordering} (h : v.order w = .ok (some o)) : v.ranked w = o := by
  unfold ranked
  split
  · rw [order] at h
    cases h
    rfl
  -- A text has an order with texts only, and what is no number has none with any number.
  · cases w <;> simp_all [order, compareNumbers?, asDecimal?, asInt?]
  · cases v <;> simp_all [order, compareNumbers?, asDecimal?, asInt?]
  · simp [order, compareNumbers?, Binary64.compare?] at h
  · cases w <;> simp_all [order, compareNumbers?, asDecimal?, asInt?, Binary64.compare?,
      Binary64.compareDecimal?]
  · cases v <;> simp_all [order, compareNumbers?, asDecimal?, asInt?, Binary64.compare?,
      Binary64.compareDecimal?]
  · rw [h]

/-- Values that have an order are equal exactly where they tie. -/
theorem eqv_of_order_eq (hv : v.isCompound = false) {o : Ordering}
    (h : v.order w = .ok (some o)) : v.eqv w = (o == .eq) := by
  -- One case for each way in which values have an order; all others are numbers.
  unfold order at h
  split at h
  case h_1 s t =>
    cases h
    exact eqv_text s t
  case h_2 d e =>
    cases h
    exact eqv_date d e
  case h_3 t u =>
    split at h
    · rename_i hmoments
      cases h
      simp [eqv, hmoments]
    · cases h
  case h_4 | h_5 => cases h
  case h_6 => cases hv
  case h_7 =>
    split at h
    · rename_i hnumbers
      cases h
      unfold eqv
      split <;> simp_all [compareNumbers?, asDecimal?, asInt?]
    · cases h

/-- Values that tie are equal. -/
theorem eqv_of_order (hv : v.isCompound = false) (h : v.order w = .ok (some .eq)) :
    v.eqv w = true := by
  rw [eqv_of_order_eq hv h]
  rfl

end Value

/-- Values have an order where they are compared as places in one. -/
theorem IsPreordered.of_rank {P : Value → Prop} {κ : Type} (cmp : κ → κ → Ordering)
    [Std.TransCmp cmp] (rank : Value → κ)
    (hflat : ∀ v, P v → v.isNull = false ∧ v.isCompound = false)
    (horder : ∀ v w, P v → P w → v.order w = .ok (some (cmp (rank v) (rank w)))) :
    IsPreordered P := by
  have hranked : ∀ v w, P v → P w → v.ranked w = cmp (rank v) (rank w) :=
    fun v w hv hw => Value.ranked_of_order (horder v w hv hw)
  refine ⟨fun v hv => (hflat v hv).1, fun v hv => (hflat v hv).2, ?_, ?_, ?_⟩
  · intro v w hv hw
    rw [horder v w hv hw, hranked v w hv hw]
  · intro v w hv hw
    rw [hranked v w hv hw, hranked w v hw hv]
    exact Std.OrientedCmp.eq_swap
  · intro v w u hv hw hu hvw hwu
    rw [hranked v w hv hw] at hvw
    rw [hranked w u hw hu] at hwu
    rw [hranked v u hv hu]
    exact Std.TransCmp.isLE_trans hvw hwu

theorem IsPreordered.mono {P Q : Value → Prop} (hP : IsPreordered P) (h : ∀ v, Q v → P v) :
    IsPreordered Q where
  present v hv := hP.present v (h v hv)
  flat v hv := hP.flat v (h v hv)
  order_eq v w hv hw := hP.order_eq v w (h v hv) (h w hw)
  swap v w hv hw := hP.swap v w (h v hv) (h w hw)
  trans v w u hv hw hu := hP.trans v w u (h v hv) (h w hw) (h u hu)

/-! ## Doubles -/

namespace Binary64

variable {x y : Binary64}

/-- Where a double stands: below or above all finite numbers, or among them at its units. -/
def place : Binary64 → Int × Int
  | .nan => (0, 0)
  | .infinite negative => (if negative then -1 else 1, 0)
  | .finite negative units => (0, signed negative units)

/-- Doubles are compared by where they stand. -/
theorem compare?_eq_place (hx : x.isNan = false) (hy : y.isNan = false) :
    x.compare? y =
      some (compareLex (compareOn Prod.fst) (compareOn Prod.snd) x.place y.place) := by
  cases x with
  | nan => cases hx
  | infinite a =>
    cases y with
    | nan => cases hy
    | infinite b => cases a <;> cases b <;> rfl
    | finite b n => cases a <;> rfl
  | finite a m =>
    cases y with
    | nan => cases hy
    | infinite b => cases b <;> rfl
    | finite b n => rfl

theorem isNan_ofQuotient (negative : Bool) (n d : Nat) :
    (ofQuotient negative n d).isNan = false := by
  unfold ofQuotient
  dsimp only
  split <;> rfl

theorem isNan_ofUnits (n : Int) : (ofUnits n).isNan = false := by
  rw [ofUnits]
  exact isNan_ofQuotient _ _ _

theorem isNan_ofInt (n : Int) : (ofInt n).isNan = false := by
  rw [ofInt]
  exact isNan_ofUnits _

/-- An exact sum is a number. -/
theorem isNan_of_sumExact {xs : List Binary64} (h : sumExact xs = .ok x) : x.isNan = false := by
  obtain ⟨s, -, h⟩ := bind_eq_ok_iff.1 h
  split at h
  · cases h
  · rename_i hnumber _
    cases h
    cases x with
    | nan => exact absurd rfl hnumber
    | infinite _ => rfl
    | finite _ _ => rfl
  · rw [← Except.ok.inj h]
    exact isNan_ofUnits _

end Binary64

/-! ## Extremes -/

theorem Value.eq_or_eq_of_moreExtreme {e : Extreme} {u v w : Value}
    (h : Value.moreExtreme e u w = .ok v) : v = u ∨ v = w := by
  rw [Value.moreExtreme] at h
  cases horder : u.order w with
  | error reason =>
    rw [horder] at h
    cases h
  | ok o =>
    rw [horder] at h
    cases hkeep : e.keeps o <;> simp_all [Except.map]

/-- The extreme of some values is one of them. -/
theorem Value.mem_of_extreme {e : Extreme} {vs : List Value} {v : Value}
    (h : Value.extreme e vs = .ok v) : v = .null ∨ v ∈ vs := by
  -- The extreme so far is one of the values met.
  have hfold : ∀ (ws : List Value) (u : Value), ws.foldlM (Value.moreExtreme e) u = .ok v →
      v ∈ u :: ws := by
    intro ws
    induction ws with
    | nil =>
      intro u hu
      cases hu
      exact List.mem_cons_self
    | cons w ws ih =>
      intro u hu
      rw [List.foldlM_cons] at hu
      obtain ⟨m, hm, hrest⟩ := bind_eq_ok_iff.1 hu
      rcases List.mem_cons.1 (ih m hrest) with rfl | hmem
      · rcases Value.eq_or_eq_of_moreExtreme hm with rfl | rfl
        · exact List.mem_cons_self
        · exact List.mem_cons_of_mem u List.mem_cons_self
      · exact List.mem_cons_of_mem u (List.mem_cons_of_mem w hmem)
  cases vs with
  | nil => exact .inl (Except.ok.inj h).symm
  | cons u ws => exact .inr (hfold ws u h)

/-! ## Kinds -/

/-- The kinds of values that have an order: whole numbers of any size, doubles that are numbers,
truth values, texts, dates, and timestamps without an offset and with one. -/
inductive ScalarKind where
  | whole
  | double
  | truth
  | text
  | date
  | naive
  | aware

namespace ScalarKind

/-- The value is of the kind. -/
def has : ScalarKind → Value → Bool
  | whole, .int _ | truth, .bool _ | text, .text _ | date, .date _ => true
  | double, .float x => !x.isNan
  | naive, .timestamp t => t.offset.isNone
  | aware, .timestamp t => t.offset.isSome
  | _, _ => false

variable {v w : Value}

theorem exists_float (h : double.has v = true) : ∃ x, v = .float x ∧ x.isNan = false := by
  cases v
  case float x =>
    rw [has, Bool.not_eq_true'] at h
    exact ⟨x, rfl, h⟩
  all_goals exact Bool.noConfusion h

theorem exists_timestamp (h : aware.has v = true) :
    ∃ t o, v = .timestamp t ∧ t.offset = some o := by
  cases v
  case timestamp t =>
    obtain ⟨o, ho⟩ := Option.isSome_iff_exists.1 h
    exact ⟨t, o, rfl, ho⟩
  all_goals exact Bool.noConfusion h

/-- Where a double stands; any other value counts as zero. -/
def place : Value → Int × Int
  | .float x => x.place
  | _ => (0, 0)

/-- The moment of a timestamp; any other value counts as the first one. -/
def moment : Value → Int
  | .timestamp t => t.instant
  | _ => 0

/-- Values of one kind have an order. -/
theorem isPreordered (k : ScalarKind) : IsPreordered fun v => k.has v = true := by
  cases k with
  | whole =>
    refine (PlainKind.isRanked .whole).isPreordered.mono fun v hv => ?_
    cases v <;> first | rfl | exact Bool.noConfusion hv
  | truth =>
    refine (KeyKind.isRanked .truth).isPreordered.mono fun v hv => ?_
    cases v <;> first | rfl | exact Bool.noConfusion hv
  | text =>
    refine (PlainKind.isRanked .text).isPreordered.mono fun v hv => ?_
    cases v <;> first | rfl | exact Bool.noConfusion hv
  | date =>
    refine (PlainKind.isRanked .date).isPreordered.mono fun v hv => ?_
    cases v <;> first | rfl | exact Bool.noConfusion hv
  | naive =>
    exact (OrderedKind.isRanked .naive).isPreordered.mono fun v hv => by cases v <;> exact hv
  -- Zeros of both signs tie, so that doubles are but preordered.
  | double =>
    refine .of_rank (compareLex (compareOn Prod.fst) (compareOn Prod.snd)) place ?_ ?_
    · intro v hv
      obtain ⟨x, rfl, -⟩ := exists_float hv
      exact ⟨rfl, rfl⟩
    · intro v w hv hw
      obtain ⟨x, rfl, hx⟩ := exists_float hv
      obtain ⟨y, rfl, hy⟩ := exists_float hw
      simp [Value.order, Value.compareNumbers?, Binary64.compare?_eq_place hx hy, place]
  -- So are moments, which may be shown by different clocks.
  | aware =>
    refine .of_rank Ord.compare moment ?_ ?_
    · intro v hv
      obtain ⟨t, o, rfl, -⟩ := exists_timestamp hv
      exact ⟨rfl, rfl⟩
    · intro v w hv hw
      obtain ⟨t, o, rfl, ht⟩ := exists_timestamp hv
      obtain ⟨u, o', rfl, hu⟩ := exists_timestamp hw
      simp [Value.order, Timestamp.compare?, ht, hu, moment]

end ScalarKind

/-- The values are nulls and values of a kind. -/
def AllScalars (k : ScalarKind) (vs : List Value) : Prop := ∀ v ∈ vs, v = .null ∨ k.has v = true

theorem allScalars_of_all {k : ScalarKind} {vs : List Value}
    (h : (vs.all fun v => v.isNull || k.has v) = true) : AllScalars k vs :=
  eq_null_or_of_all h

namespace AllScalars

variable {k : ScalarKind} {vs ws : List Value}

theorem mono (h : AllScalars k vs) (hsub : ws ⊆ vs) : AllScalars k ws := fun v hv => h v (hsub hv)

theorem isCompound_eq (h : AllScalars k vs) : ∀ v ∈ vs, v.isCompound = false := by
  intro v hv
  rcases h v hv with rfl | hhas
  · rfl
  · exact k.isPreordered.flat v hhas

/-- A value of a kind equals itself. -/
theorem eqv_self (h : AllScalars k vs) {v : Value} (hv : v ∈ vs) : v.eqv v = true := by
  rcases h v hv with rfl | hhas
  · rfl
  · refine Value.eqv_of_order (h.isCompound_eq v hv) ?_
    -- Any other order with itself would be its own opposite.
    have hswap := k.isPreordered.swap v v hhas hhas
    rw [k.isPreordered.order_eq v v hhas hhas]
    cases hranked : v.ranked v <;> rw [hranked] at hswap <;> first | rfl | cases hswap

/-- Whole numbers are equal only if they are the same. -/
theorem eq_of_eqv (h : AllScalars .whole vs) : ∀ v ∈ vs, ∀ w ∈ vs, v.eqv w = true → v = w := by
  intro v hv w hw heq
  rcases h v hv with rfl | hhas
  · exact (KeyKind.eqv_null_iff.1.1 heq).symm
  rcases h w hw with rfl | hhas'
  · exact KeyKind.eqv_null_iff.2.1 heq
  cases v <;> first | exact Bool.noConfusion hhas | skip
  cases w <;> first | exact Bool.noConfusion hhas' | skip
  rw [Value.eqv_int] at heq
  rw [heq]

/-- Only a column of whole numbers holds one. -/
theorem int?_eq_none (h : AllScalars k vs) (hk : k ≠ .whole) : ∀ v ∈ vs, v.int? = none := by
  intro v hv
  rcases h v hv with rfl | hhas
  · rfl
  · cases v
    case int n => cases k <;> first | exact absurd rfl hk | exact Bool.noConfusion hhas
    all_goals rfl

/-- Made alike, values of one kind are doubles, or as they were. -/
theorem exists_unified (h : AllScalars k vs) : ∃ k', AllScalars k' (unifyNumbers vs) := by
  by_cases hk : k = .whole
  · subst hk
    rw [unifyNumbers]
    split
    · refine ⟨.double, fun v hv => ?_⟩
      obtain ⟨u, hu, rfl⟩ := List.mem_map.1 hv
      rcases h u hu with rfl | hhas
      · exact .inl rfl
      cases u
      case int n => exact .inr (by simp [Value.toDouble, ScalarKind.has, Binary64.isNan_ofInt])
      all_goals exact Bool.noConfusion hhas
    · exact ⟨.whole, h⟩
  -- Only whole numbers are made into doubles, and no other kind has any.
  · rw [unifyNumbers_of_no_int (h.int?_eq_none hk)]
    exact ⟨k, h⟩

end AllScalars

/-! ## Mixtures of whole numbers -/

namespace ColumnKind

/-- Whole numbers that fit into no words do so all the less with others. -/
theorem ofInts_mono {ns ms : List Int} (hsub : ns ⊆ ms) (h : ofInts ns = .mixed) :
    ofInts ms = .mixed := by
  have hfits (word : Int → Bool) (hms : ms.all word = true) : ns.all word = true :=
    List.all_eq_true.2 fun n hn => List.all_eq_true.1 hms n (hsub hn)
  rw [ofInts] at h ⊢
  split at h
  · cases h
  split at h
  · cases h
  rename_i hsigned hunsigned
  rw [if_neg fun hms => hsigned (hfits _ hms), if_neg fun hms => hunsigned (hfits _ hms)]

/-- A mixture holds values as they are, where none is missing. -/
theorem convert_mixed {v : Value} (h : v.isMissing = false) : convert .mixed v = v := by
  rw [convert, h, if_neg Bool.false_ne_true, if_neg ColumnKind.noConfusion]

/-- In a mixture of nothing but whole numbers and nulls whatever is not missing is a whole number. -/
theorem isSome_int?_of_mixed {vs : List Value} (h : AllScalars .whole (vs.map (convert .mixed)))
    {v : Value} (hv : v ∈ vs) (hpresent : v.isMissing = false) : v.int?.isSome = true := by
  have hheld := h _ (List.mem_map_of_mem hv)
  rw [convert_mixed hpresent] at hheld
  rcases hheld with rfl | hhas
  · cases hpresent
  · cases v <;> first | rfl | exact Bool.noConfusion hhas

/-- A mixture of nothing but whole numbers and nulls holds no whole numbers, or some that fit into no
words. -/
theorem ofInts_of_mixed {p : ChartPlan} {c : Identifier} {vs : List Value}
    (hkind : p.columnKind c vs = .mixed)
    (h : AllScalars .whole (vs.map (convert .mixed))) :
    (∀ v ∈ vs.map (convert .mixed), v.int? = none) ∨
      ofInts ((vs.map (convert .mixed)).filterMap Value.int?) = .mixed := by
  have hvalues : ofValues vs = .mixed := by
    rw [ChartPlan.columnKind] at hkind
    split at hkind
    · cases hkind
    · exact hkind
  have hpresent {v : Value} (hv : v ∈ vs.filter (!·.isMissing)) : v ∈ vs ∧ v.isMissing = false := by
    simpa using hv
  rw [ofValues] at hvalues
  by_cases hnone : (vs.filter (!·.isMissing)).isEmpty = true
  · left
    intro v hv
    obtain ⟨u, hu, rfl⟩ := List.mem_map.1 hv
    have hmissing := List.filter_eq_nil_iff.1 (List.isEmpty_iff.1 hnone) u hu
    rw [Bool.not_eq_true', Bool.not_eq_false] at hmissing
    rw [convert, if_pos hmissing]
    rfl
  · right
    have hints : ((vs.filter (!·.isMissing)).all fun v => v.int?.isSome) = true :=
      List.all_eq_true.2 fun v hv => isSome_int?_of_mixed h (hpresent hv).1 (hpresent hv).2
    rw [if_neg hnone, ofPresent, if_pos hints] at hvalues
    -- The mixture holds the whole numbers that were too large already.
    refine ofInts_mono (fun n hn => ?_) hvalues
    obtain ⟨v, hv, hint⟩ := List.mem_filterMap.1 hn
    refine List.mem_filterMap.2 ⟨v, List.mem_map.2 ⟨v, (hpresent hv).1, ?_⟩, hint⟩
    exact convert_mixed (hpresent hv).2

end ColumnKind

/-- Whole numbers that fit into no words are left as they are. -/
theorem unifyNumbers_of_wide {vs : List Value}
    (h : ColumnKind.ofInts (vs.filterMap Value.int?) = .mixed) : unifyNumbers vs = vs := by
  rw [unifyNumbers]
  simp [h]

/-! ## Aggregates -/

section Aggregates

variable {j : ColumnKind} {k : ScalarKind} {vs : List Value} {v : Value}

/-- A sum of numbers is a double for doubles, else a whole number. -/
theorem ColumnKind.has_sum (hj : j.isNumeric = true) (h : j.sum vs = .ok v) :
    v = .null ∨ ScalarKind.has (if j = .double then .double else .whole) v = true := by
  rw [ColumnKind.sum] at h
  split at h
  · exact .inl (Except.ok.inj h).symm
  · right
    cases j with
    | double =>
      dsimp only at h
      split at h
      · rename_i hsum
        rw [← Except.ok.inj h]
        simp [ScalarKind.has, Binary64.isNan_of_sumExact hsum]
      · cases h
    | signed | unsigned | truth =>
      rw [← Except.ok.inj h]
      rfl
    | text | moment | mixed => cases hj

/-- A mean is a double. -/
theorem has_groupMean (vs : List Value) :
    groupMean vs = .null ∨ ScalarKind.double.has (groupMean vs) = true := by
  rw [groupMean]
  split
  · exact .inl rfl
  · rw [meanOf]
    cases Binary64.divNat _ _ with
    | nan => exact .inl rfl
    | infinite _ => exact .inr rfl
    | finite _ _ => exact .inr rfl

/-- An extreme of values of one kind is of this kind. -/
theorem ColumnKind.has_extreme (hvs : AllScalars k vs) {e : Extreme}
    (h : j.extreme e vs = .ok v) : v = .null ∨ k.has v = true := by
  rcases Value.mem_of_extreme h with hnull | hmem
  · exact .inl hnull
  -- Whether or not nulls are filled up first, it is one of the values.
  · refine hvs v ?_
    split at hmem
    · exact (List.mem_filter.1 (mem_fillNulls_iff.1 hmem)).1
    · exact (List.mem_filter.1 hmem).1

/-- **The aggregates of values of one kind are of one kind.** -/
theorem Aggregation.exists_has_ofGroup (a : Aggregation) (k : ScalarKind)
    (hnumbers : a.needsNumbers = true → j.isNumeric = true) :
    ∃ k' : ScalarKind, ∀ vs v, AllScalars k vs → a.ofGroup j vs = .ok v →
      v = .null ∨ k'.has v = true := by
  cases a with
  | sum =>
    refine ⟨_, fun vs v _ h => ColumnKind.has_sum (hnumbers rfl) (mapError_eq_ok_iff.1 h)⟩
  | avg =>
    refine ⟨.double, fun vs v _ h => ?_⟩
    rw [← Except.ok.inj h]
    exact has_groupMean vs
  | count =>
    refine ⟨.whole, fun vs v _ h => ?_⟩
    rw [← Except.ok.inj h]
    exact .inr rfl
  | min | max =>
    exact ⟨k, fun vs v hvs h => ColumnKind.has_extreme hvs (mapError_eq_ok_iff.1 h)⟩

end Aggregates

end ChartQuery
