import ChartQuery.Local.Filter
import ChartQuery.Proofs.Local.Records
import ChartQuery.Proofs.Number.WholeTexts

/-!
# Whole numbers beside their texts

A condition that compares a whole number with the text of another one reads the text as a double.
So it compares with the nearest number of at most 53 significant binary digits in place of the one
that is written, whichever of the two is the text, and so does a membership among texts. It is the
comparison of whole numbers exactly for texts of numbers with no more digits.

## Main definitions

* `FilterOperator.decidesInt op a b`: what a comparison says about two whole numbers
* `textFilter`, `wholeFilter`, `memberFilter`: a column compared with the text of a whole number,
  with a whole number, and with the texts of several

## Main results

* `SignedFilter.holds_wholeTexts`: what such conditions hold of
-/

namespace ChartQuery

open Binary64 (nearest HasFewDigits)

/-! ## Comparisons of whole numbers -/

namespace FilterOperator

/-- The comparison is one of two single values. -/
def isComparison : FilterOperator → Bool
  | like | isIn => false
  | _ => true

/-- What a comparison says about two whole numbers. -/
def decidesInt : FilterOperator → Int → Int → Bool
  | eq, a, b => a = b
  | ne, a, b => a ≠ b
  | gt, a, b => b < a
  | lt, a, b => a < b
  | ge, a, b => b ≤ a
  | le, a, b => a ≤ b
  | like, _, _ | isIn, _, _ => false

/-- Values are compared as the whole numbers in whose order they stand. -/
theorem compare_eq_decidesInt {op : FilterOperator} (hop : op.isComparison = true) {v w : Value}
    {a b : Int} (heqv : v.eqv w = (Ord.compare a b == .eq))
    (horder : v.order w = .ok (some (Ord.compare a b))) :
    op.compare v w = .ok (op.decidesInt a b) := by
  have hlt : (Ord.compare a b == .lt) = decide (a < b) := by
    rw [Bool.eq_iff_iff, beq_iff_eq, decide_eq_true_eq, compare_lt_iff_lt]
  have hgt : (Ord.compare a b == .gt) = decide (b < a) := by
    rw [Bool.eq_iff_iff, beq_iff_eq, decide_eq_true_eq, compare_gt_iff_gt]
  have heq : (Ord.compare a b == .eq) = decide (a = b) := by
    rw [Bool.eq_iff_iff, beq_iff_eq, decide_eq_true_eq, compare_eq_iff_eq]
  cases op
  case like => simp [isComparison] at hop
  case isIn => simp [isComparison] at hop
  all_goals
    simp only [compare, decidesInt, heqv, horder, Except.map, Option.some_beq_some, hlt, hgt, heq,
      ← decide_not, ← Bool.decide_or, Except.ok.injEq, decide_eq_decide]
  case ge => omega
  case le => omega

end FilterOperator

/-! ## Numbers and their texts -/

theorem lt_of_isSignedWord {n : Int} (h : isSignedWord n = true) : n.natAbs < 2 ^ 64 := by
  simp only [isSignedWord, Bool.and_eq_true, decide_eq_true_eq] at h
  omega

/-- Beside a number, the text of a whole number is the double nearest to it. -/
theorem readNumber_toString {n : Int} (hn : isSignedWord n = true) :
    Value.readNumber (toString n) = .ok (.float (.ofInt n)) := by
  rw [Value.readNumber, readBinary64?_toString (lt_of_isSignedWord hn)]

theorem coercePair_wholeText (a : Int) {b : Int} (hb : isSignedWord b = true) :
    coercePair (.int a) (.text (toString b)) = .ok (.int a, .float (.ofInt b)) := by
  simp only [coercePair, coercedPair, readNumber_toString hb, Except.map, Except.mapError]

theorem coercePair_textWhole {a : Int} (ha : isSignedWord a = true) (b : Int) :
    coercePair (.text (toString a)) (.int b) = .ok (.float (.ofInt a), .int b) := by
  simp only [coercePair, coercedPair, Value.isNumber, readNumber_toString ha, Except.map,
    Except.mapError, if_true]

theorem compareNumbers?_int_ofInt (a : Int) {b : Int} (hb : isSignedWord b = true) :
    Value.compareNumbers? (.int a) (.float (.ofInt b)) =
      some (some (Ord.compare a (nearest b))) := by
  have hswap := Std.OrientedOrd.eq_swap (a := a) (b := nearest b)
  simp only [Value.compareNumbers?, Value.asDecimal?, Value.asInt?, Option.map_some,
    Binary64.compareDecimal?_ofInt (lt_of_isSignedWord hb), ← hswap]

theorem compareNumbers?_ofInt_int {a : Int} (ha : isSignedWord a = true) (b : Int) :
    Value.compareNumbers? (.float (.ofInt a)) (.int b) =
      some (some (Ord.compare (nearest a) b)) := by
  simp only [Value.compareNumbers?, Value.asDecimal?, Value.asInt?, Option.map_some,
    Binary64.compareDecimal?_ofInt (lt_of_isSignedWord ha)]

/-! ## Conditions -/

theorem SignedFilter.holds_sign {c : Identifier} {op : FilterOperator} {v : Value} {r : Record} :
    SignedFilter.holds ⟨c, op.sign, v⟩ r =
      (PlanFilter.holds ⟨c, op, v⟩ r).mapError SignedFault.execution := by
  rw [SignedFilter.holds, FilterOperator.ofSign?_sign]

section Conditions

variable (c : Identifier) {r : Record} {a : Int}

/-- A column compared with the text of a whole number. -/
def textFilter (op : FilterOperator) (b : Int) : SignedFilter :=
  ⟨c, op.sign, .text (toString b)⟩

/-- A column compared with a whole number. -/
def wholeFilter (op : FilterOperator) (b : Int) : SignedFilter := ⟨c, op.sign, .int b⟩

/-- A column of which the texts of whole numbers are the candidates. -/
def memberFilter (bs : List Int) : SignedFilter :=
  ⟨c, FilterOperator.isIn.sign, .list (bs.map fun b => .text (toString b))⟩

variable {c}

theorem holdsOf_comparison {op : FilterOperator} (hop : op.isComparison = true) {v w v' w' : Value}
    {m n : Int} (hw : w.isNull = false) (hpair : coercePair v w = .ok (v', w'))
    (heqv : v'.eqv w' = (Ord.compare m n == .eq))
    (horder : v'.order w' = .ok (some (Ord.compare m n))) :
    PlanFilter.holdsOf ⟨c, op, w⟩ v = .ok (op.decidesInt m n) := by
  have hcompare := FilterOperator.compare_eq_decidesInt hop heqv horder
  cases op
  case like => simp [FilterOperator.isComparison] at hop
  case isIn => simp [FilterOperator.isComparison] at hop
  all_goals
    simp only [PlanFilter.holdsOf, hw, Bool.false_eq_true, if_false, hpair, bind, Except.bind,
      hcompare, Except.mapError]

/-- The text of a condition counts as the nearest number. -/
theorem holds_textFilter (hr : r.value c.name = .int a) {op : FilterOperator}
    (hop : op.isComparison = true) {b : Int} (hb : isSignedWord b = true) :
    (textFilter c op b).holds r = .ok (op.decidesInt a (nearest b)) := by
  have hnumbers := compareNumbers?_int_ofInt a hb
  have hpair := coercePair_wholeText a hb
  have hof := holdsOf_comparison (c := c) (m := a) (n := nearest b) hop rfl hpair
    (by simp [Value.eqv, hnumbers]) (by simp [Value.order, hnumbers])
  rw [textFilter, SignedFilter.holds_sign, PlanFilter.holds, hr, hof]
  rfl

/-- The text of a record counts as the nearest number. -/
theorem holds_wholeFilter (ha : isSignedWord a = true) (hr : r.value c.name = .text (toString a))
    {op : FilterOperator} (hop : op.isComparison = true) (b : Int) :
    (wholeFilter c op b).holds r = .ok (op.decidesInt (nearest a) b) := by
  have hnumbers := compareNumbers?_ofInt_int ha b
  have hpair := coercePair_textWhole ha b
  have hof := holdsOf_comparison (c := c) (m := nearest a) (n := b) hop rfl hpair
    (by simp [Value.eqv, hnumbers]) (by simp [Value.order, hnumbers])
  rw [wholeFilter, SignedFilter.holds_sign, PlanFilter.holds, hr, hof]
  rfl

theorem isAmong_wholeTexts (a : Int) {bs : List Int} (hbs : ∀ b ∈ bs, isSignedWord b = true) :
    (Value.int a).isAmong (bs.map fun b => .text (toString b)) =
      .ok (decide (a ∈ bs.map nearest)) := by
  induction bs with
  | nil => rfl
  | cons b bs ih =>
    have hrest := ih fun b hb => hbs b (List.mem_cons_of_mem _ hb)
    have hnumbers := compareNumbers?_int_ofInt a (hbs b List.mem_cons_self)
    have heqv : (Value.int a).eqv (.float (.ofInt b)) = decide (a = nearest b) := by
      rw [Bool.eq_iff_iff, decide_eq_true_eq, ← compare_eq_iff_eq (a := a)]
      simp [Value.eqv, hnumbers]
    rw [List.map_cons, Value.isAmong, coercePair_wholeText a (hbs b List.mem_cons_self)]
    simp only [Value.isNull, Bool.false_eq_true, if_false, bind, Except.bind, heqv, hrest,
      decide_eq_true_eq, List.map_cons, List.mem_cons, Bool.decide_or]
    by_cases h : a = nearest b <;> simp [h]

/-- The texts of a membership count as the nearest numbers. -/
theorem holds_memberFilter (hr : r.value c.name = .int a) {bs : List Int}
    (hbs : ∀ b ∈ bs, isSignedWord b = true) :
    (memberFilter c bs).holds r = .ok (decide (a ∈ bs.map nearest)) := by
  rw [memberFilter, SignedFilter.holds_sign, PlanFilter.holds, hr]
  simp only [Value.isNull, Bool.false_eq_true, if_false, PlanFilter.holdsOf, PlanFilter.values,
    isAmong_wholeTexts a hbs, Except.mapError]

end Conditions

/-! ## The comparison of whole numbers -/

/-- A number with more digits than a double holds does not equal itself. -/
theorem hasFewDigits_of_decidesInt {n : Int}
    (h : FilterOperator.eq.decidesInt n (nearest n) = FilterOperator.eq.decidesInt n n) :
    HasFewDigits n.natAbs := by
  have hself : n = nearest n := by simpa [FilterOperator.decidesInt] using h
  exact Binary64.nearest_eq_self_iff.1 hself.symm

/-- Whole numbers beside their texts, whichever of both is the text: the text counts as the nearest
number of at most 53 significant binary digits. So the six comparisons and the membership are those
of the whole numbers exactly if the numbers that are written have no more digits than that. -/
theorem SignedFilter.holds_wholeTexts (c : Identifier) :
    (∀ b, isSignedWord b = true →
      (∀ a op, op.isComparison = true → ∀ r : Record, r.value c.name = .int a →
        (textFilter c op b).holds r = .ok (op.decidesInt a (nearest b))) ∧
      ((∀ a op, isSignedWord a = true → op.isComparison = true → ∀ r : Record,
        r.value c.name = .int a → (textFilter c op b).holds r = .ok (op.decidesInt a b)) ↔
          HasFewDigits b.natAbs)) ∧
    (∀ a, isSignedWord a = true →
      (∀ b op, op.isComparison = true → ∀ r : Record, r.value c.name = .text (toString a) →
        (wholeFilter c op b).holds r = .ok (op.decidesInt (nearest a) b)) ∧
      ((∀ b op, isSignedWord b = true → op.isComparison = true → ∀ r : Record,
        r.value c.name = .text (toString a) →
          (wholeFilter c op b).holds r = .ok (op.decidesInt a b)) ↔
          HasFewDigits a.natAbs)) ∧
    (∀ bs : List Int, (∀ b ∈ bs, isSignedWord b = true) →
      (∀ a, ∀ r : Record, r.value c.name = .int a →
        (memberFilter c bs).holds r = .ok (decide (a ∈ bs.map nearest))) ∧
      ((∀ a, isSignedWord a = true → ∀ r : Record, r.value c.name = .int a →
        (memberFilter c bs).holds r = .ok (decide (a ∈ bs))) ↔
          ∀ b ∈ bs, HasFewDigits b.natAbs)) := by
  -- Some record holds every value in the column.
  have hholds : ∀ v : Value, Record.value [(c.name, v)] c.name = v := fun v =>
    Record.value_of_mem (by simp) (by simp)
  refine ⟨fun b hb => ⟨?_, ?_, ?_⟩, fun a ha => ⟨?_, ?_, ?_⟩, fun bs hbs => ⟨?_, ?_, ?_⟩⟩
  · intro a op hop r hr
    exact holds_textFilter hr hop hb
  · intro hexact
    have hself := hexact b .eq hb rfl _ (hholds _)
    rw [holds_textFilter (hholds _) rfl hb, Except.ok.injEq] at hself
    exact hasFewDigits_of_decidesInt hself
  · intro hfew a op _ hop r hr
    rw [holds_textFilter hr hop hb, Binary64.nearest_eq_self_iff.2 hfew]
  · intro b op hop r hr
    exact holds_wholeFilter ha hr hop b
  · intro hexact
    have hself := hexact a .eq ha rfl _ (hholds _)
    rw [holds_wholeFilter ha (hholds _) rfl a, Except.ok.injEq] at hself
    refine hasFewDigits_of_decidesInt (hself ▸ ?_)
    simp [FilterOperator.decidesInt, eq_comm]
  · intro hfew b op _ hop r hr
    rw [holds_wholeFilter ha hr hop b, Binary64.nearest_eq_self_iff.2 hfew]
  · intro a r hr
    exact holds_memberFilter hr hbs
  · intro hexact b hmem
    have hself := hexact b (hbs b hmem) _ (hholds _)
    rw [holds_memberFilter (hholds _) hbs, Except.ok.injEq, decide_eq_decide] at hself
    obtain ⟨b', -, hb'⟩ := List.mem_map.1 (hself.2 hmem)
    rw [← hb', Binary64.natAbs_nearest]
    exact Binary64.hasFewDigits_nearestNat _
  · intro hfew a _ r hr
    have hmap : bs.map nearest = bs :=
      (List.map_congr_left fun b hb => Binary64.nearest_eq_self_iff.2 (hfew b hb)).trans
        (List.map_id bs)
    rw [holds_memberFilter hr hbs, hmap]

/-- A count of seven beside the texts of smaller and greater numbers. -/
theorem SignedFilter.holds_wholeTexts_count :
    let c := Identifier.ofText "count"
    let r : Record := [("count", .int 7)]
    let r' : Record := [("count", .text (toString (-7)))]
    (textFilter c .lt 4611686018427387904).holds r = .ok true ∧
    (wholeFilter c .ge (-9007199254740993)).holds r' = .ok true ∧
    (memberFilter c [-7, 12, 7]).holds r = .ok true := by
  intro c r r'
  obtain ⟨htext, hwhole, hmember⟩ := SignedFilter.holds_wholeTexts c
  refine ⟨?_, ?_, ?_⟩
  · exact ((htext 4611686018427387904 (by decide)).2.2 ⟨1, 62, by decide, by decide⟩) 7 .lt
      (by decide) rfl r rfl
  · exact ((hwhole (-7) (by decide)).2.2 ⟨7, 0, by decide, by decide⟩) (-9007199254740993) .ge
      (by decide) rfl r' rfl
  · refine ((hmember [-7, 12, 7] (by decide)).2.2 ?_) 7 (by decide) r rfl
    intro b hb
    refine ⟨b.natAbs, 0, ?_, by simp⟩
    revert b
    decide

/-- The least positive whole number that no double holds is not equal to its own text. -/
theorem longNumber_differsFromText :
    let c := Identifier.ofText "v"
    let r : Record := [("v", .int 9007199254740993)]
    (textFilter c .eq 9007199254740993).holds r = .ok false ∧
    (memberFilter c [9007199254740993]).holds r = .ok false ∧
    FilterOperator.eq.decidesInt 9007199254740993 9007199254740993 = true := by
  intro c r
  have hnearest : nearest 9007199254740993 = 9007199254740992 := by decide +kernel
  refine ⟨?_, ?_, by decide⟩
  · rw [holds_textFilter (a := 9007199254740993) rfl rfl (by decide), hnearest]
    rfl
  · rw [holds_memberFilter (a := 9007199254740993) rfl (by decide)]
    simp [hnearest]

end ChartQuery
