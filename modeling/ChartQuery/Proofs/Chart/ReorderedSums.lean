import ChartQuery.Proofs.Chart.ReorderedValues
import ChartQuery.Proofs.Number.ExactSums

/-!
# Sums of columns in another order

A sum of words does not depend on the order of the values, nor does a sum of doubles that is formed:
it is the double nearest to the exact sum. But whether it is formed depends on the order, as numbers
of one sign may leave the range of doubles before those of the other sign bring them back.

## Main definitions

* `doublesOf vs`: the doubles of the values that are not null
* `AllNumbers vs`: the values are nulls and finite doubles
* `exactDoubleSum vs`: null, or the double nearest to the sum of all values

## Main results

* `ColumnKind.sum_double_cases`: a sum of doubles is the exact one, or fails
* `ColumnKind.sum_reordered`: what a sum owes to the order of the values
-/

namespace ChartQuery

open Binary64 (IsNumber AreNumbers totalUnits totalSize)

/-- The doubles of the values that are not null. -/
def doublesOf (vs : List Value) : List Binary64 := (presentValues vs).filterMap Value.double?

/-- The values are nulls and finite doubles. -/
def AllNumbers (vs : List Value) : Prop := ∀ v ∈ vs, v = .null ∨ ∃ x, v = .float x ∧ IsNumber x

/-- Null if there is no value, or else the double nearest to the sum of all of them. -/
def exactDoubleSum (vs : List Value) : Value :=
  if (presentValues vs).isEmpty then .null else .float (.ofUnits (totalUnits (doublesOf vs)))

variable {vs ws : List Value}

theorem AllNumbers.perm (h : AllNumbers vs) (hperm : ws.Perm vs) : AllNumbers ws :=
  fun v hv => h v (hperm.mem_iff.1 hv)

theorem AllNumbers.areNumbers (h : AllNumbers vs) : AreNumbers (doublesOf vs) := by
  intro x hx
  obtain ⟨v, hv, hdouble⟩ := List.mem_filterMap.1 hx
  obtain ⟨hmem, hpresent⟩ := List.mem_filter.1 hv
  rcases h v hmem with rfl | ⟨y, rfl, hy⟩
  · cases hpresent
  · obtain rfl := Option.some.inj hdouble
    exact hy

theorem doublesOf_perm (hperm : ws.Perm vs) : (doublesOf ws).Perm (doublesOf vs) :=
  (presentValues_perm hperm).filterMap _

theorem exactDoubleSum_perm (hperm : ws.Perm vs) : exactDoubleSum ws = exactDoubleSum vs := by
  have htotal : totalUnits (doublesOf ws) = totalUnits (doublesOf vs) :=
    total_perm ((doublesOf_perm hperm).map _)
  rw [exactDoubleSum, exactDoubleSum, (presentValues_perm hperm).isEmpty_eq, htotal]

theorem totalSize_doublesOf_perm (hperm : ws.Perm vs) :
    totalSize (doublesOf ws) = totalSize (doublesOf vs) :=
  ((doublesOf_perm hperm).map _).sum_nat

namespace ColumnKind

/-- A sum of words is formed of whatever values. -/
theorem sum_words {k : ColumnKind} (hk : k = signed ∨ k = unsigned) (vs : List Value) :
    k.sum vs = .ok (if (presentValues vs).isEmpty then .null
      else .int (k.wrap (total ((presentValues vs).filterMap Value.asInt?)))) := by
  rw [sum]
  rcases hk with rfl | rfl
  · cases presentValues vs <;> rfl
  · cases presentValues vs <;> rfl

/-- A sum of doubles comes out as their exact sum does. -/
theorem sum_double_of_sumExact {outcome : Except SumError Binary64}
    (h : Binary64.sumExact (doublesOf vs) = outcome) :
    double.sum vs = if (presentValues vs).isEmpty then .ok .null
      else (outcome.map Value.float).mapError .doubles := by
  rw [doublesOf] at h
  rw [sum]
  cases hp : presentValues vs with
  | nil => rfl
  | cons v rest =>
    rw [hp] at h
    simp only [h]
    cases outcome <;> rfl

/-- A sum of finite doubles is the exact one, unless a partial sum leaves the range. -/
theorem sum_double_cases (h : AllNumbers vs) :
    double.sum vs = .ok (exactDoubleSum vs) ∨ double.sum vs = .error (.doubles .overflow) := by
  rcases Binary64.sumExact_cases h.areNumbers with hsum | hsum
  · left
    rw [sum_double_of_sumExact hsum, exactDoubleSum]
    split <;> rfl
  · rw [sum_double_of_sumExact hsum, exactDoubleSum]
    split
    · exact .inl rfl
    · exact .inr rfl

theorem sum_double_of_totalSize_lt (h : AllNumbers vs)
    (hroom : 8 * totalSize (doublesOf vs) < Binary64.overflow) :
    double.sum vs = .ok (exactDoubleSum vs) := by
  rw [sum_double_of_sumExact (Binary64.sumExact_of_totalSize_lt h.areNumbers hroom),
    exactDoubleSum]
  split <;> rfl

/-- **What a sum owes to the order of the values.** A sum of words comes out the same in every
order. A sum of finite doubles is the double nearest to their exact sum in every order in which it
is formed, and in any other a partial sum has left the range; while the magnitudes of the values are
less than an eighth of what is out of range together, it is formed in every order. -/
theorem sum_reordered (hperm : ws.Perm vs) :
    (∀ k, k = signed ∨ k = unsigned → k.sum ws = k.sum vs ∧ ∃ v, k.sum vs = .ok v) ∧
    (AllNumbers vs →
      (double.sum ws = .ok (exactDoubleSum vs) ∨
        double.sum ws = .error (.doubles .overflow)) ∧
      (double.sum ws = double.sum vs ∨ double.sum ws = .error (.doubles .overflow) ∨
        double.sum vs = .error (.doubles .overflow)) ∧
      (8 * totalSize (doublesOf vs) < Binary64.overflow →
        double.sum ws = .ok (exactDoubleSum vs))) := by
  refine ⟨fun k hk => ⟨?_, _, sum_words hk vs⟩, fun hnumbers => ⟨?_, ?_, fun hroom => ?_⟩⟩
  · have hpresent := presentValues_perm hperm
    rw [sum_words hk, sum_words hk, hpresent.isEmpty_eq, total_perm (hpresent.filterMap _)]
  · rw [← exactDoubleSum_perm hperm]
    exact sum_double_cases (hnumbers.perm hperm)
  · rcases sum_double_cases (hnumbers.perm hperm) with hws | hws
    · rcases sum_double_cases hnumbers with hvs | hvs
      · exact .inl (by rw [hws, hvs, exactDoubleSum_perm hperm])
      · exact .inr (.inr hvs)
    · exact .inr (.inl hws)
  · rw [← exactDoubleSum_perm hperm]
    exact sum_double_of_totalSize_lt (hnumbers.perm hperm)
      (by rwa [totalSize_doublesOf_perm hperm])

/-- Powers of two in range are numbers. -/
theorem isNumber_two_pow {e : Nat} (h : 2 ^ e < Binary64.overflow) (negative : Bool) :
    IsNumber (.finite negative (2 ^ e)) := by
  refine ⟨rfl, ?_⟩
  have hunits : (Binary64.unitsOf (.finite negative (2 ^ e))).natAbs = 2 ^ e := by
    cases negative <;> simp [Binary64.unitsOf, Binary64.signed]
  rw [Binary64.IsHeld, hunits]
  exact ⟨⟨1, e, by omega, (Nat.one_mul _).symm⟩, h⟩

/-- The numbers 2⁵³, one and −2⁵³ with a null between them: added one by one, the one would be
rounded away. -/
def cancellingValues : List Value :=
  [.float (.finite false (2 ^ 1127)), .float (.finite false (2 ^ 1074)), .null,
    .float (.finite true (2 ^ 1127))]

/-- The numbers that cancel out leave the one, in the order given and backwards. -/
theorem sum_reordered_cancellingValues :
    double.sum cancellingValues.reverse = .ok (exactDoubleSum cancellingValues) ∧
      Binary64.ofUnits (totalUnits (doublesOf cancellingValues)) = .ofInt 1 := by
  have hnumbers : AllNumbers cancellingValues := by
    have hbig : 2 ^ 1127 < Binary64.overflow := by decide +kernel
    have hone : 2 ^ 1074 < Binary64.overflow := by decide +kernel
    simp only [AllNumbers, cancellingValues, List.forall_mem_cons]
    exact ⟨.inr ⟨_, rfl, isNumber_two_pow hbig false⟩, .inr ⟨_, rfl, isNumber_two_pow hone false⟩,
      .inl trivial, .inr ⟨_, rfl, isNumber_two_pow hbig true⟩, List.forall_mem_nil _⟩
  have hsum := (sum_reordered (List.reverse_perm cancellingValues)).2 hnumbers
  exact ⟨hsum.2.2 (by decide +kernel), by decide +kernel⟩

/-- Twice 2¹⁰²³ leaves the range of doubles before −2¹⁰²³ can bring it back; in another order the
same values have a sum. -/
theorem sum_depends_on_order : ¬ ∀ vs ws : List Value, ws.Perm vs → AllNumbers vs →
    double.sum ws = double.sum vs := by
  intro h
  have hlast : 2 ^ 2097 < Binary64.overflow := by decide +kernel
  let up : Value := .float (.finite false (2 ^ 2097))
  let down : Value := .float (.finite true (2 ^ 2097))
  have hnumbers : AllNumbers [up, down, up] := by
    simp only [AllNumbers, List.forall_mem_cons]
    exact ⟨.inr ⟨_, rfl, isNumber_two_pow hlast false⟩, .inr ⟨_, rfl, isNumber_two_pow hlast true⟩,
      .inr ⟨_, rfl, isNumber_two_pow hlast false⟩, List.forall_mem_nil _⟩
  have hformed : Binary64.sumExact (doublesOf [up, down, up]) = .ok (.finite false (2 ^ 2097)) := by
    decide +kernel
  have hfails : Binary64.sumExact (doublesOf [up, up, down]) = .error .overflow := by
    decide +kernel
  have hsame := h [up, down, up] [up, up, down] (.cons up (.swap down up [])) hnumbers
  rw [sum_double_of_sumExact hformed, sum_double_of_sumExact hfails] at hsame
  cases hsame

end ColumnKind

end ChartQuery
