import ChartQuery.Database.Aggregate
import ChartQuery.Proofs.Calendar.Dates
import ChartQuery.Proofs.Database.PlainTable

/-!
# Columns of one kind

A column of nulls and values of one kind is held as it is, whatever kind its values decide, and its
aggregates are those that a database gives for it: counts always, extremes of whole numbers and of
texts, and sums of whole numbers that fit into 64 bits.

## Main definitions

* `AllPlain`: nulls and values of one kind

## Main results

* `ColumnKind.convert_plain`: a column of one kind is held as it is
* `extreme_agrees`, `sum_agrees`: both ways have the same extremes and sums
-/

namespace ChartQuery

/-- The values are nulls and values of a kind. -/
def AllPlain (k : PlainKind) (vs : List Value) : Prop :=
  ∀ v ∈ vs, v = .null ∨ k.has v = true

namespace AllPlain

variable {k : PlainKind} {vs ws : List Value}

theorem mono (h : AllPlain k vs) (hsub : ws ⊆ vs) : AllPlain k ws := fun v hv => h v (hsub hv)

theorem present (h : AllPlain k vs) : ∀ v ∈ presentValues vs, k.has v = true := by
  intro v hv
  obtain ⟨hmem, hnull⟩ := List.mem_filter.1 hv
  rcases h v hmem with rfl | hhas
  · exact Bool.noConfusion hnull
  · exact hhas

end AllPlain

theorem PlainKind.isMissing_eq {k : PlainKind} {v : Value} (h : k.has v = true) :
    v.isMissing = false := by
  cases v
  case null => cases k <;> exact Bool.noConfusion h
  case float => cases k <;> exact Bool.noConfusion h
  all_goals rfl

theorem PlainKind.isCompound_eq {k : PlainKind} {v : Value} (h : k.has v = true) :
    v.isCompound = false := by
  cases v
  case list => cases k <;> exact Bool.noConfusion h
  case object => cases k <;> exact Bool.noConfusion h
  all_goals rfl

/-! ## Kinds of columns -/

/-- A column is flat if none of its values is a list. -/
theorem columnDepth_of_flat {vs : List Value} (h : ∀ v ∈ vs, v.isCompound = false) :
    columnDepth vs = 1 := by
  have hshapes : Value.shapes vs = vs.map fun _ => [] := by
    induction vs with
    | nil => rfl
    | cons v vs ih =>
      have hv : v.shape = [] := by
        have := h v List.mem_cons_self
        cases v <;> first | rfl | exact Bool.noConfusion this
      rw [Value.shapes, hv, ih fun w hw => h w (List.mem_cons_of_mem v hw), List.map_cons]
  have hfold : ∀ us : List Value, (us.map fun _ => ([] : List Nat)).foldl commonStart [] = [] := by
    intro us
    induction us with
    | nil => rfl
    | cons u us ih => exact ih
  cases vs with
  | nil => rfl
  | cons v vs => rw [columnDepth, hshapes, List.map_cons, commonShape, hfold]; rfl

/-- The kind of a column that holds values of a kind. -/
def PlainKind.columnKind : PlainKind → ColumnKind
  | whole => .signed
  | text => .text
  | date => .mixed

theorem filter_isMissing {k : PlainKind} {vs : List Value} (h : AllPlain k vs) :
    vs.filter (!·.isMissing) = presentValues vs := by
  refine List.filter_congr fun v hv => ?_
  rcases h v hv with rfl | hhas
  · rfl
  · rw [k.isMissing_eq hhas]
    cases v <;> first | rfl | (cases k <;> exact Bool.noConfusion hhas)

/-- Values that are whole numbers of 64 bits come from such numbers. -/
theorem exists_ints {vs : List Value} (h : ∀ v ∈ vs, PlainKind.whole.has v = true) :
    ∃ ns : List Int, vs = ns.map Value.int ∧ ns.all isSignedWord = true := by
  induction vs with
  | nil => exact ⟨[], rfl, rfl⟩
  | cons v vs ih =>
    obtain ⟨ns, rfl, hall⟩ := ih fun w hw => h w (List.mem_cons_of_mem v hw)
    have hv := h v List.mem_cons_self
    cases v
    case int n => exact ⟨n :: ns, rfl, by rw [List.all_cons, hall, Bool.and_true]; exact hv⟩
    all_goals exact Bool.noConfusion hv

/-- The values of a column decide its kind, if there are any. -/
theorem ofPresent_plain {k : PlainKind} {vs : List Value} (h : ∀ v ∈ vs, k.has v = true)
    (hne : vs ≠ []) : ColumnKind.ofPresent vs = k.columnKind := by
  cases k with
  | whole =>
    obtain ⟨ns, rfl, hall⟩ := exists_ints h
    exact ColumnKind.ofPresent_ints hall
  | text =>
    obtain ⟨v, vs, rfl⟩ := List.exists_cons_of_ne_nil hne
    have hv := h v List.mem_cons_self
    have hall : (v :: vs).all Value.isText = true := by
      refine List.all_eq_true.2 fun w hw => ?_
      have := h w hw
      cases w <;> first | rfl | exact Bool.noConfusion this
    cases v
    case text s =>
      simp only [ColumnKind.ofPresent, hall]
      simp [Value.int?, Value.isNumber, Value.isBool, PlainKind.columnKind]
    all_goals exact Bool.noConfusion hv
  | date =>
    obtain ⟨v, vs, rfl⟩ := List.exists_cons_of_ne_nil hne
    have hv := h v List.mem_cons_self
    cases v
    case date d =>
      simp [ColumnKind.ofPresent, ColumnKind.haveOneOffset, Value.int?, Value.isNumber,
        Value.isBool, Value.isText, PlainKind.columnKind]
    all_goals exact Bool.noConfusion hv

/-- A column without values counts as doubles or as a mixture; any other has the kind of its
values. -/
theorem ofValues_plain {k : PlainKind} {vs : List Value} (h : AllPlain k vs) :
    (presentValues vs = [] ∧ (ColumnKind.ofValues vs = .double ∨ ColumnKind.ofValues vs = .mixed)) ∨
      (presentValues vs ≠ [] ∧ ColumnKind.ofValues vs = k.columnKind) := by
  -- Nulls decide no kind, and no other value of a kind is missing.
  by_cases hne : presentValues vs = []
  · refine .inl ⟨hne, ?_⟩
    rw [ColumnKind.ofValues, filter_isMissing h, hne]
    cases vs.isEmpty || vs.any (!·.isNull) with
    | true => exact .inl rfl
    | false => exact .inr rfl
  · refine .inr ⟨hne, ?_⟩
    have : (presentValues vs).isEmpty = false := by simpa using hne
    rw [ColumnKind.ofValues, filter_isMissing h, this]
    exact ofPresent_plain h.present hne

/-- A column of nulls and values of a kind was held under this kind; without values it may have
been held under another one. -/
def ColumnKind.Suits (j : ColumnKind) (k : PlainKind) (vs : List Value) : Prop :=
  j = k.columnKind ∨ presentValues vs = []

theorem ColumnKind.Suits.mono {j : ColumnKind} {k : PlainKind} {vs ws : List Value}
    (h : j.Suits k vs) (hsub : ws ⊆ vs) : j.Suits k ws := by
  rcases h with h | h
  · exact .inl h
  · refine .inr (List.filter_eq_nil_iff.2 fun w hw => ?_)
    exact List.filter_eq_nil_iff.1 h w (hsub hw)

/-- A column of one kind is held as it is. -/
theorem ColumnKind.convert_plain {k : PlainKind} {vs : List Value} (h : AllPlain k vs)
    {j : ColumnKind} (hj : j.Suits k vs) : vs.map j.convert = vs := by
  -- Only a column of doubles would convert whole numbers, and it has none of them.
  have hid : ∀ v ∈ vs, j.convert v = id v := fun v hv => by
    rcases h v hv with rfl | hhas
    · rfl
    · rw [convert, k.isMissing_eq hhas]
      rcases hj with rfl | hnil
      · cases k <;> rfl
      · have hmem : v ∈ presentValues vs := by
          rw [← filter_isMissing h]
          exact List.mem_filter.2 ⟨hv, by rw [k.isMissing_eq hhas]; rfl⟩
        rw [hnil] at hmem
        exact absurd hmem List.not_mem_nil
  rw [List.map_congr_left hid, List.map_id]

/-! ## Extremes -/

/-- Whole numbers, and texts, are ordered among one another as a database ranks them. -/
theorem PlainKind.order_eq_ranked {k : PlainKind} (hk : k ≠ .date) {v w : Value}
    (hv : k.has v = true) (hw : k.has w = true) : v.order w = .ok (some (v.ranked w)) := by
  cases k with
  | whole =>
    cases v <;> simp only [has, Bool.false_eq_true] at hv
    cases w <;> simp only [has, Bool.false_eq_true] at hw
    simp [Value.ranked, Value.order_int]
  | text =>
    cases v <;> simp only [has, Bool.false_eq_true] at hv
    cases w <;> simp only [has, Bool.false_eq_true] at hw
    simp [Value.ranked, Value.order]
  | date => exact absurd rfl hk

theorem extreme_eq_extremeColumn {k : PlainKind} (hk : k ≠ .date) (e : Extreme) {vs : List Value}
    (h : ∀ v ∈ vs, k.has v = true) :
    Value.extreme e vs = .ok (extremeColumn e vs) ∧
      (vs ≠ [] → k.has (extremeColumn e vs) = true) := by
  -- The extreme so far is one of the values, so that it has an order with the next one.
  have hfold : ∀ (ws : List Value) (v : Value), k.has v = true → (∀ w ∈ ws, k.has w = true) →
      ws.foldlM (Value.moreExtreme e) v = .ok (extremeColumn e (v :: ws)) ∧
        k.has (extremeColumn e (v :: ws)) = true := by
    intro ws
    induction ws with
    | nil => exact fun v hv _ => ⟨rfl, hv⟩
    | cons w ws ih =>
      intro v hv hws
      have hw := hws w List.mem_cons_self
      have hstep : Value.moreExtreme e v w =
          .ok (if e.keeps (some (v.ranked w)) then v else w) := by
        rw [Value.moreExtreme, k.order_eq_ranked hk hv hw]
        rfl
      have hnext : k.has (if e.keeps (some (v.ranked w)) then v else w) = true := by
        split
        · exact hv
        · exact hw
      rw [List.foldlM_cons, hstep]
      exact ih _ hnext fun u hu => hws u (List.mem_cons_of_mem w hu)
  cases vs with
  | nil => exact ⟨rfl, fun hne => absurd rfl hne⟩
  | cons v vs =>
    obtain ⟨hextreme, hhas⟩ :=
      hfold vs v (h v List.mem_cons_self) fun w hw => h w (List.mem_cons_of_mem v hw)
    exact ⟨hextreme, fun _ => hhas⟩

/-- Extremes of whole numbers, and of texts, are those of a database. -/
theorem extreme_agrees {k : PlainKind} (hk : k ≠ .date) (e : Extreme) {vs : List Value}
    (h : AllPlain k vs) {j : ColumnKind} (hj : j.Suits k vs) :
    j.extreme e vs = .ok (extremeColumn e (presentValues vs)) := by
  rw [ColumnKind.extreme]
  -- Only dates are held as a mixture, in which nulls would be filled up.
  rcases hj with rfl | hnil
  · have hmixed : k.columnKind ≠ .mixed := by cases k <;> simp_all [PlainKind.columnKind]
    rw [if_neg hmixed]
    exact (extreme_eq_extremeColumn hk e h.present).1
  · rw [fillNulls, hnil]
    split <;> rfl

/-! ## Sums -/

/-- The sum of the whole numbers among values. -/
def wholeTotal (vs : List Value) : Int := total ((presentValues vs).filterMap Value.asInt?)

/-- Sums of whole numbers that fit into 64 bits are those of a database. -/
theorem sum_agrees {t : ColumnType} (ht : t.plainKind? = some .whole) {vs : List Value}
    (hfits : isSignedWord (wholeTotal vs) = true) {j : ColumnKind} (hj : j.Suits .whole vs) :
    ∃ v, j.sum vs = .ok v ∧ sumColumn? t (presentValues vs) = some v ∧
      (v = .null ∨ ∃ n, v = .int n) := by
  have hcolumn : sumColumn? t (presentValues vs) =
      some (if (presentValues vs).isEmpty then .null else .int (wholeTotal vs)) := by
    cases t <;> first | rfl | simp [ColumnType.plainKind?] at ht
  rw [hcolumn, ColumnKind.sum]
  cases hp : presentValues vs with
  | nil => exact ⟨.null, rfl, rfl, .inl rfl⟩
  | cons v ws =>
    rcases hj with rfl | hnil
    -- The total of words wraps around, but not if it fits.
    · refine ⟨.int (wholeTotal vs), ?_, rfl, .inr ⟨_, rfl⟩⟩
      show Except.ok (Value.int (ColumnKind.wrap .signed
        (total ((v :: ws).filterMap Value.asInt?)))) = _
      rw [← hp]
      exact congrArg (fun n => Except.ok (Value.int n)) (ColumnKind.wrap_of_isSignedWord hfits)
    · rw [hp] at hnil
      exact absurd hnil (List.cons_ne_nil v ws)

/-! ## Aggregates -/

/-- The aggregation of values of the kind gives the same on both sides. -/
def Aggregation.suits : Aggregation → PlainKind → Bool
  | count, _ => true
  | min, k | max, k => k != .date
  | sum, k => k == .whole
  | avg, _ => false

/-- The kind of the aggregates of values of a kind. -/
def Aggregation.resultKind : Aggregation → PlainKind → PlainKind
  | min, k | max, k => k
  | _, _ => .whole

/-- The value is of the kind, in whatever range. -/
def PlainKind.describes : PlainKind → Value → Bool
  | whole, .int _ | text, .text _ | date, .date _ => true
  | _, _ => false

theorem PlainKind.describes_of_has {k : PlainKind} {v : Value} (h : k.has v = true) :
    k.describes v = true := by
  cases k <;> cases v <;> first | rfl | exact Bool.noConfusion h

/-- The aggregate that a database has for values of a type. -/
def aggregateOf (a : Aggregation) (t : ColumnType) (vs : List Value) : Value :=
  (aggregateColumn? (.plain a) t vs).getD .null

section Aggregates

variable {a : Aggregation} {k : PlainKind} {t : ColumnType} {vs : List Value} {j : ColumnKind}

/-- A database has an aggregate that suits the kind of the values. -/
theorem aggregateColumn?_eq (ha : a.suits k = true) (ht : t.plainKind? = some k) :
    aggregateColumn? (.plain a) t vs = some (aggregateOf a t vs) := by
  cases a with
  | sum =>
    obtain rfl : k = .whole := by simpa [Aggregation.suits] using ha
    cases t <;> first | rfl | simp [ColumnType.plainKind?] at ht
  | avg => exact Bool.noConfusion ha
  | count => rfl
  | min => rfl
  | max => rfl

/-- The aggregates of plain columns are those of a database, of a whole column and of a group. -/
theorem aggregate_agrees (ha : a.suits k = true) (ht : t.plainKind? = some k) (h : AllPlain k vs)
    (hj : j.Suits k vs) (hsum : a = .sum → isSignedWord (wholeTotal vs) = true) :
    a.ofGroup j vs = .ok (aggregateOf a t vs) ∧ a.ofWhole j vs = .ok (aggregateOf a t vs) := by
  have hextreme (hk : (k != .date) = true) (e : Extreme) :=
    extreme_agrees (by simpa using hk) e h hj
  cases a with
  | sum =>
    obtain rfl : k = .whole := by simpa [Aggregation.suits] using ha
    obtain ⟨v, hlocal, hcolumn, -⟩ := sum_agrees ht (hsum rfl) hj
    have hvalue : aggregateOf .sum t vs = v := by
      show (sumColumn? t (presentValues vs)).getD .null = v
      rw [hcolumn]
      rfl
    rw [hvalue]
    refine ⟨?_, ?_⟩
    · rw [Aggregation.ofGroup, hlocal]
      rfl
    · rw [Aggregation.ofWhole, hlocal]
      rfl
  | avg => exact Bool.noConfusion ha
  | count => exact ⟨rfl, rfl⟩
  | min =>
    refine ⟨?_, ?_⟩
    · rw [Aggregation.ofGroup, hextreme ha]
      rfl
    · rw [Aggregation.ofWhole, hextreme ha]
      rfl
  | max =>
    refine ⟨?_, ?_⟩
    · rw [Aggregation.ofGroup, hextreme ha]
      rfl
    · rw [Aggregation.ofWhole, hextreme ha]
      rfl

theorem aggregateOf_describes (ha : a.suits k = true) (ht : t.plainKind? = some k)
    (h : AllPlain k vs) :
    aggregateOf a t vs = .null ∨ (a.resultKind k).describes (aggregateOf a t vs) = true := by
  have hextreme (hk : (k != .date) = true) (e : Extreme) :
      extremeColumn e (presentValues vs) = .null ∨
        k.describes (extremeColumn e (presentValues vs)) = true := by
    by_cases hne : presentValues vs = []
    · rw [hne]
      exact .inl rfl
    · exact .inr (k.describes_of_has
        ((extreme_eq_extremeColumn (by simpa using hk) e h.present).2 hne))
  cases a with
  | sum =>
    obtain rfl : k = .whole := by simpa [Aggregation.suits] using ha
    have hcolumn : aggregateOf .sum t vs =
        if (presentValues vs).isEmpty then .null else .int (wholeTotal vs) := by
      cases t <;> first | rfl | simp [ColumnType.plainKind?] at ht
    rw [hcolumn]
    split
    · exact .inl rfl
    · exact .inr rfl
  | avg => exact Bool.noConfusion ha
  | count => exact .inr rfl
  | min => exact hextreme ha .least
  | max => exact hextreme ha .greatest

end Aggregates

/-! ## Equal values -/

theorem PlainKind.eqv_null_left {k : PlainKind} {w : Value} (hw : k.has w = true) :
    Value.eqv .null w = false := by
  cases k <;> cases w <;> simp only [has, Bool.false_eq_true] at hw
  all_goals simp [Value.eqv, Value.compareNumbers?, Value.asDecimal?, Value.asInt?]

theorem PlainKind.eqv_null_right {k : PlainKind} {v : Value} (hv : k.has v = true) :
    Value.eqv v .null = false := by
  cases k <;> cases v <;> simp only [has, Bool.false_eq_true] at hv
  all_goals simp [Value.eqv, Value.compareNumbers?, Value.asDecimal?, Value.asInt?]

theorem PlainKind.isNull_eq {k : PlainKind} {v : Value} (h : k.has v = true) :
    v.isNull = false := by
  cases v
  case null => cases k <;> exact Bool.noConfusion h
  all_goals rfl

/-- Values of a kind are equal only if they are the same, and where a database ranks them alike. -/
theorem PlainKind.eqv_iff {k : PlainKind} {v w : Value} (hv : k.has v = true)
    (hw : k.has w = true) : (v.eqv w = true ↔ v = w) ∧ v.eqv w = (v.ranked w == .eq) := by
  cases k with
  | whole =>
    cases v <;> simp only [has, Bool.false_eq_true] at hv
    cases w <;> simp only [has, Bool.false_eq_true] at hw
    refine ⟨by rw [Value.eqv_int, Value.int.injEq], ?_⟩
    rw [Bool.eq_iff_iff, Value.eqv_int, beq_iff_eq]
    simp [Value.ranked, Value.order_int]
  | text =>
    cases v <;> simp only [has, Bool.false_eq_true] at hv
    cases w <;> simp only [has, Bool.false_eq_true] at hw
    exact ⟨by simp [Value.eqv], Value.eqv_text _ _⟩
  | date =>
    cases v <;> simp only [has, Bool.false_eq_true] at hv
    cases w <;> simp only [has, Bool.false_eq_true] at hw
    refine ⟨by simp [Value.eqv], ?_⟩
    rw [Value.eqv_date]
    simp [Value.ranked, Value.order]

/-- Values of a kind are equal where a database has them tie. -/
theorem eqv_eq_compare {k : PlainKind} {v w : Value} (hv : v = .null ∨ k.has v = true)
    (hw : w = .null ∨ k.has w = true) : v.eqv w = (SortKey.compare ⟨"", false⟩ v w == .eq) := by
  rcases hv with rfl | hv
  · rcases hw with rfl | hw
    · rfl
    · rw [k.eqv_null_left hw, SortKey.compare, k.isNull_eq hw]
      rfl
  · rcases hw with rfl | hw
    · rw [k.eqv_null_right hv, SortKey.compare, k.isNull_eq hv]
      rfl
    · rw [(k.eqv_iff hv hw).2, SortKey.compare, k.isNull_eq hv, k.isNull_eq hw]
      rfl

/-- Nulls and values of a kind are equal only if they are the same. -/
theorem eqv_iff_eq {k : PlainKind} {v w : Value} (hv : v = .null ∨ k.has v = true)
    (hw : w = .null ∨ k.has w = true) : v.eqv w = true ↔ v = w := by
  rcases hv with rfl | hv
  · rcases hw with rfl | hw
    · exact ⟨fun _ => rfl, fun _ => rfl⟩
    · rw [k.eqv_null_left hw]
      refine ⟨fun h => Bool.noConfusion h, ?_⟩
      rintro rfl
      exact Bool.noConfusion (k.isNull_eq hw)
  · rcases hw with rfl | hw
    · rw [k.eqv_null_right hv]
      refine ⟨fun h => Bool.noConfusion h, ?_⟩
      rintro rfl
      exact Bool.noConfusion (k.isNull_eq hv)
    · exact (k.eqv_iff hv hw).1

/-! ## Columns of results -/

/-- The numbers of a column are alike already if it holds no whole numbers. -/
theorem unifyNumbers_of_no_int {vs : List Value} (h : ∀ v ∈ vs, v.int? = none) :
    unifyNumbers vs = vs := by
  have hid : ∀ v ∈ vs, v.toDouble = id v := fun v hv => by
    have := h v hv
    cases v <;> first | rfl | simp [Value.int?] at this
  rw [unifyNumbers]
  split
  · rw [List.map_congr_left hid, List.map_id]
  · rfl

/-- The numbers of a column are alike already if it holds nothing but whole numbers. -/
theorem unifyNumbers_of_ints {vs : List Value} (h : ∀ v ∈ vs, v.int?.isSome = true) :
    unifyNumbers vs = vs := by
  have hany : (vs.any fun v => v.isMissing || v.isDouble) = false := by
    refine List.any_eq_false.2 fun v hv => ?_
    have := h v hv
    cases v <;> simp_all [Value.int?, Value.isMissing, Value.isDouble]
  rw [unifyNumbers]
  simp [hany]

end ChartQuery
