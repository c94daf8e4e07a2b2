import ChartQuery.Number.ExactSum
import ChartQuery.Proofs.Number.NearestWhole

/-!
# Exact sums of doubles

Two doubles are added with a rounding whose error is a double again, found by two subtractions. An
exact sum adds each number through the parts kept so far and keeps the errors as parts, so that the
parts always make up the sum of all numbers met and the last step rounds once. It fails only where a
running number leaves the range of doubles. As the parts do not overlap, they are hardly larger than
their sum, and nothing leaves the range while the magnitudes of the numbers are small together.

## Main definitions

* `IsHeld n`, `IsNumber x`: a double holds a number of units; a double is finite and in range
* `totalUnits xs`, `totalSize xs`: the units, and the magnitudes, of all numbers together
* `LiesAbove below n`, `AreLayered below xs`: parts that do not overlap

## Main results

* `isHeld_error`, `IsNumber.error`: the error of a rounded sum is a double, and how it is found
* `addThrough_cases`, `Partials.add_cases`: no step loses anything, unless it fails
* `sumExact_cases`: an exact sum is the double nearest to the sum, or fails
* `addThrough_layered`, `Partials.FitWithin.add`: what stays behind is layered and small
* `sumExact_of_totalSize_lt`: when an exact sum does not fail
-/

namespace ChartQuery

theorem div_le_roundDiv (n d : Nat) : n / d ≤ roundDiv n d := by
  simp only [roundDiv]
  split
  · omega
  split <;> omega

namespace Binary64

/-! ## The nearest number and its last digit -/

/-- The multiples of a power of two up to its 2⁵³-fold have few digits. -/
theorem hasFewDigits_of_dvd {m k : Nat} (hdvd : 2 ^ k ∣ m) (h : m ≤ 2 ^ k * 2 ^ 53) :
    HasFewDigits m := by
  obtain ⟨q, rfl⟩ := hdvd
  rcases Nat.lt_or_eq_of_le (Nat.le_of_mul_le_mul_left h (Nat.two_pow_pos k)) with hlt | rfl
  · exact ⟨q, k, hlt, Nat.mul_comm _ _⟩
  · exact ⟨1, 53 + k, by omega, by rw [Nat.pow_add, Nat.one_mul, Nat.mul_comm]⟩

theorem lt_two_pow_spareDigits_mul (m : Nat) : m < 2 ^ spareDigits m * 2 ^ 53 := by
  by_cases h : spareDigits m = 0
  · rw [h, Nat.pow_zero, Nat.one_mul]
    exact lt_of_spareDigits_eq_zero h
  · exact (two_pow_spareDigits_mul_le h).2

theorem spareDigits_mono {m n : Nat} (h : m ≤ n) : spareDigits m ≤ spareDigits n := by
  have hlog : m.log2 ≤ n.log2 := by
    rw [Nat.log2_eq_log_two, Nat.log2_eq_log_two]
    exact Nat.log_mono_right h
  unfold spareDigits
  omega

theorem spareDigits_two_mul_le (m : Nat) : spareDigits (2 * m) ≤ spareDigits m + 1 := by
  rcases Nat.eq_zero_or_pos m with rfl | hm
  · exact Nat.le_succ _
  · have hlog : (2 * m).log2 = m.log2 + 1 := Nat.log2_two_mul (by omega)
    unfold spareDigits
    omega

theorem two_pow_dvd_iff {k : Nat} {n : Int} : (2 : Int) ^ k ∣ n ↔ 2 ^ k ∣ n.natAbs := by
  rw [← Int.natCast_dvd]
  push_cast
  rfl

theorem two_pow_dvd_of_le {j k : Nat} {n : Int} (h : j ≤ k) (hdvd : (2 : Int) ^ k ∣ n) :
    (2 : Int) ^ j ∣ n :=
  (pow_dvd_pow 2 h).trans hdvd

/-- The nearest number is a multiple of the last digit that there is room for. -/
theorem two_pow_dvd_nearest (n : Int) : (2 : Int) ^ spareDigits n.natAbs ∣ nearest n := by
  rw [two_pow_dvd_iff, natAbs_nearest]
  exact Nat.dvd_mul_left _ _

/-- A multiple of the last digit that there is room for is held as it is. -/
theorem nearest_eq_self_of_dvd {n : Int} (h : (2 : Int) ^ spareDigits n.natAbs ∣ n) :
    nearest n = n :=
  nearest_eq_self_iff.2 (nearestNat_eq_self_iff_hasFewDigits.1
    (nearestNat_eq_self_iff.2 (two_pow_dvd_iff.1 h)))

theorem two_pow_dvd_of_hasFewDigits {n : Int} (h : HasFewDigits n.natAbs) :
    (2 : Int) ^ spareDigits n.natAbs ∣ n :=
  two_pow_dvd_iff.2 (nearestNat_eq_self_iff.1 (nearestNat_eq_self_iff_hasFewDigits.2 h))

/-- The nearest number is off by at most half of the last digit. -/
theorem two_mul_dist_nearest_le (n : Int) :
    2 * (n - nearest n).natAbs ≤ 2 ^ spareDigits n.natAbs := by
  obtain ⟨hle, hge⟩ := two_mul_roundDiv_mul n.natAbs (Nat.two_pow_pos (spareDigits n.natAbs))
  change 2 * nearestNat n.natAbs ≤ _ at hle
  change _ ≤ 2 * nearestNat n.natAbs + _ at hge
  rcases Int.lt_or_le n 0 with hneg | hpos
  · rw [nearest_of_neg hneg]
    omega
  · rw [nearest_of_nonneg hpos]
    omega

/-- What is off has a digit that the number has no room for. -/
theorem lt_spareDigits_of_nearest_ne {n : Int} {k : Nat} (hdvd : (2 : Int) ^ k ∣ n)
    (hne : nearest n ≠ n) : k < spareDigits n.natAbs := by
  by_contra hle
  exact hne (nearest_eq_self_of_dvd (two_pow_dvd_of_le (Nat.le_of_not_lt hle) hdvd))

/-- The nearest number is no smaller than the first digit. -/
theorem two_pow_mul_le_natAbs_nearest {n : Int} (h : spareDigits n.natAbs ≠ 0) :
    2 ^ spareDigits n.natAbs * 2 ^ 52 ≤ (nearest n).natAbs := by
  rw [natAbs_nearest, nearestNat, Nat.mul_comm]
  refine Nat.mul_le_mul_right _ (Nat.le_trans ?_ (div_le_roundDiv _ _))
  rw [Nat.le_div_iff_mul_le (Nat.two_pow_pos _), Nat.mul_comm]
  exact (two_pow_spareDigits_mul_le h).1

theorem nearest_zero : nearest 0 = 0 := nearest_of_le (Nat.zero_le _)

theorem overflow_pos : 0 < overflow := by
  obtain ⟨e, -, -, hover⟩ := exists_one_eq
  rw [hover]
  exact Nat.two_pow_pos _

/-! ## Numbers that a double holds -/

/-- A double holds the number of units. -/
def IsHeld (n : Int) : Prop := HasFewDigits n.natAbs ∧ n.natAbs < overflow

theorem isHeld_neg {n : Int} : IsHeld (-n) ↔ IsHeld n := by
  rw [IsHeld, IsHeld, Int.natAbs_neg]

theorem isHeld_nearest {n : Int} (h : (nearest n).natAbs < overflow) : IsHeld (nearest n) :=
  ⟨by rw [natAbs_nearest]; exact hasFewDigits_nearestNat _, h⟩

variable {a b : Int}

/-- Two numbers have the last digit of the smaller one in common. -/
theorem two_pow_dvd_add (ha : IsHeld a) (hb : IsHeld b) (hle : b.natAbs ≤ a.natAbs) :
    (2 : Int) ^ spareDigits b.natAbs ∣ a + b :=
  Int.dvd_add (two_pow_dvd_of_le (spareDigits_mono hle) (two_pow_dvd_of_hasFewDigits ha.1))
    (two_pow_dvd_of_hasFewDigits hb.1)

/-- What the rounding of a sum is off is no larger than either number. -/
theorem natAbs_error_le (ha : IsHeld a) : (a + b - nearest (a + b)).natAbs ≤ b.natAbs := by
  have := dist_nearest_le (a + b) ha.1
  omega

/-- A double holds what the rounding of a sum is off. -/
theorem isHeld_error (ha : IsHeld a) (hb : IsHeld b) (hle : b.natAbs ≤ a.natAbs) :
    IsHeld (a + b - nearest (a + b)) := by
  have hsmall := natAbs_error_le (b := b) ha
  refine ⟨?_, Nat.lt_of_le_of_lt hsmall hb.2⟩
  refine hasFewDigits_of_dvd (k := spareDigits b.natAbs) (two_pow_dvd_iff.1 ?_)
    (Nat.le_of_lt (Nat.lt_of_le_of_lt hsmall (lt_two_pow_spareDigits_mul _)))
  have hsum := two_pow_dvd_add ha hb hle
  by_cases hexact : nearest (a + b) = a + b
  · rw [hexact, sub_self]
    exact Int.dvd_zero _
  · have hlt := lt_spareDigits_of_nearest_ne hsum hexact
    exact Int.dvd_sub hsum (two_pow_dvd_of_le (Nat.le_of_lt hlt) (two_pow_dvd_nearest _))

/-- A double holds the difference of a rounded sum and the larger number. -/
theorem isHeld_nearest_sub (ha : IsHeld a) (hb : IsHeld b) (hle : b.natAbs ≤ a.natAbs)
    (hover : (nearest (a + b)).natAbs < overflow) : IsHeld (nearest (a + b) - a) := by
  by_cases hexact : nearest (a + b) = a + b
  · rw [hexact, add_sub_cancel_left]
    exact hb
  have hsum := two_pow_dvd_add ha hb hle
  have hspare := lt_spareDigits_of_nearest_ne hsum hexact
  obtain ⟨k, hk⟩ : ∃ k, spareDigits (a + b).natAbs = k + 1 :=
    ⟨spareDigits (a + b).natAbs - 1, by omega⟩
  -- The larger number has room for one digit less at most, and so does not end before it.
  have ha' : (2 : Int) ^ k ∣ a := by
    have hmono := spareDigits_mono (show (a + b).natAbs ≤ 2 * a.natAbs by omega)
    have htwice := spareDigits_two_mul_le a.natAbs
    exact two_pow_dvd_of_le (by omega) (two_pow_dvd_of_hasFewDigits ha.1)
  have hdvd : (2 : Int) ^ k ∣ nearest (a + b) - a :=
    Int.dvd_sub (two_pow_dvd_of_le (by omega) (two_pow_dvd_nearest _)) ha'
  have herror := two_mul_dist_nearest_le (a + b)
  have hfirst := two_pow_mul_le_natAbs_nearest (n := a + b) (by omega)
  have hb' : b.natAbs < 2 ^ k * 2 ^ 53 :=
    Nat.lt_of_lt_of_le (lt_two_pow_spareDigits_mul _)
      (Nat.mul_le_mul_right _ (Nat.pow_le_pow_right (by omega) (by omega)))
  rw [hk, Nat.pow_succ] at herror hfirst
  have hle' : (nearest (a + b) - a).natAbs ≤ 2 ^ k * 2 ^ 53 := by
    obtain ⟨q, hq⟩ := two_pow_dvd_iff.1 hdvd
    rw [hq]
    refine Nat.mul_le_mul_left _ ?_
    by_contra hmore
    have := Nat.mul_le_mul_left (2 ^ k) (Nat.lt_of_not_le hmore)
    rw [Nat.mul_succ, ← hq] at this
    omega
  exact ⟨hasFewDigits_of_dvd (two_pow_dvd_iff.1 hdvd) hle', by omega⟩

/-! ## Doubles added -/

/-- The double is a number: finite, with 53 digits at most, and in range. -/
def IsNumber (x : Binary64) : Prop := x.isFinite = true ∧ IsHeld (unitsOf x)

variable {x y : Binary64}

theorem unitsOf_neg (x : Binary64) : unitsOf x.neg = -unitsOf x := by
  cases x with
  | finite negative m => cases negative <;> simp [neg, unitsOf, signed]
  | _ => rfl

theorem IsNumber.neg (hx : x.IsNumber) : x.neg.IsNumber := by
  refine ⟨?_, ?_⟩
  · cases x <;> exact hx.1
  · rw [unitsOf_neg]
    exact isHeld_neg.2 hx.2

theorem isZero_iff (hx : x.isFinite = true) : x.isZero = true ↔ unitsOf x = 0 := by
  cases x with
  | finite negative m => cases m <;> cases negative <;> simp [isZero, unitsOf, signed] <;> omega
  | _ => cases hx

theorem absLt_iff (hx : x.isFinite = true) (hy : y.isFinite = true) :
    x.absLt y = true ↔ (unitsOf x).natAbs < (unitsOf y).natAbs := by
  cases x with
  | finite a m =>
    cases y with
    | finite b n => cases a <;> cases b <;> simp [absLt, unitsOf, signed]
    | _ => cases hy
  | _ => cases hx

/-- A number of units is rounded to the nearest double, or to an infinity beyond the range. -/
theorem ofUnits_eq (n : Int) :
    ofUnits n = if overflow ≤ (nearest n).natAbs then .infinite (n < 0)
      else .finite (n < 0) (nearest n).natAbs := by
  rw [natAbs_nearest]
  simp [ofUnits, ofQuotient, nearestNat, spareDigits]

theorem unitsOf_ofUnits {n : Int} (h : (nearest n).natAbs < overflow) :
    (ofUnits n).isFinite = true ∧ unitsOf (ofUnits n) = nearest n := by
  rw [ofUnits_eq, if_neg (Nat.not_le.2 h)]
  refine ⟨rfl, ?_⟩
  rw [natAbs_nearest, unitsOf, nearest]

/-- The sum of two numbers is the nearest double to the exact sum, if this is in range. -/
theorem IsNumber.add (hx : x.IsNumber) (hy : y.IsNumber)
    (h : (nearest (unitsOf x + unitsOf y)).natAbs < overflow) :
    (x.add y).IsNumber ∧ unitsOf (x.add y) = nearest (unitsOf x + unitsOf y) := by
  have hadd : (x.add y).isFinite = true ∧ unitsOf (x.add y) = nearest (unitsOf x + unitsOf y) := by
    cases x with
    | finite a m =>
      cases y with
      | finite b n =>
        by_cases hzero : signed a m + signed b n = 0
        · have hunits : unitsOf (.finite a m) + unitsOf (.finite b n) = 0 := hzero
          rw [hunits, Binary64.add, if_pos hzero, nearest_zero]
          exact ⟨rfl, by simp [unitsOf, signed]⟩
        · simpa [Binary64.add, unitsOf, hzero] using unitsOf_ofUnits h
      | _ => cases hy.1
    | _ => cases hx.1
  refine ⟨⟨hadd.1, ?_⟩, hadd.2⟩
  rw [hadd.2]
  exact isHeld_nearest h

/-- Beyond the range the sum of two numbers is infinite. -/
theorem IsNumber.exists_add_eq (hx : x.IsNumber) (hy : y.IsNumber)
    (h : overflow ≤ (nearest (unitsOf x + unitsOf y)).natAbs) :
    ∃ negative, x.add y = .infinite negative := by
  cases x with
  | finite a m =>
    cases y with
    | finite b n =>
      have hne : signed a m + signed b n ≠ 0 := by
        intro hzero
        have hunits : unitsOf (.finite a m) + unitsOf (.finite b n) = 0 := hzero
        rw [hunits, nearest_zero] at h
        exact absurd h (Nat.not_le.2 overflow_pos)
      refine ⟨decide (signed a m + signed b n < 0), ?_⟩
      rw [Binary64.add, if_neg hne, ofUnits_eq]
      exact if_pos h
    | _ => cases hy.1
  | _ => cases hx.1

/-- A sum that a double holds is exact. -/
theorem IsNumber.add_of_isHeld (hx : x.IsNumber) (hy : y.IsNumber)
    (h : IsHeld (unitsOf x + unitsOf y)) :
    (x.add y).IsNumber ∧ unitsOf (x.add y) = unitsOf x + unitsOf y := by
  have hexact := nearest_eq_self_iff.2 h.1
  have hadd := hx.add hy (by rw [hexact]; exact h.2)
  rwa [hexact] at hadd

theorem IsNumber.sub_of_isHeld (hx : x.IsNumber) (hy : y.IsNumber)
    (h : IsHeld (unitsOf x - unitsOf y)) :
    (x.sub y).IsNumber ∧ unitsOf (x.sub y) = unitsOf x - unitsOf y := by
  have hsub := hx.add_of_isHeld hy.neg (by rwa [unitsOf_neg, ← sub_eq_add_neg])
  rwa [unitsOf_neg, ← sub_eq_add_neg] at hsub

/-- What the rounding of a sum is off is found exactly, by taking the larger number away from the
rounded sum and the rest from the smaller one. -/
theorem IsNumber.error {big small : Binary64} (hbig : big.IsNumber) (hsmall : small.IsNumber)
    (hle : (unitsOf small).natAbs ≤ (unitsOf big).natAbs)
    (h : (nearest (unitsOf big + unitsOf small)).natAbs < overflow) :
    (small.sub ((big.add small).sub big)).IsNumber ∧
      unitsOf (small.sub ((big.add small).sub big)) =
        unitsOf big + unitsOf small - nearest (unitsOf big + unitsOf small) := by
  obtain ⟨hhi, hunits⟩ := hbig.add hsmall h
  have hrest := hhi.sub_of_isHeld hbig
    (by rw [hunits]; exact isHeld_nearest_sub hbig.2 hsmall.2 hle h)
  rw [hunits] at hrest
  have heq : unitsOf small - (nearest (unitsOf big + unitsOf small) - unitsOf big) =
      unitsOf big + unitsOf small - nearest (unitsOf big + unitsOf small) := by
    omega
  have hlo := hsmall.sub_of_isHeld hrest.1
    (by rw [hrest.2, heq]; exact isHeld_error hbig.2 hsmall.2 hle)
  rwa [hrest.2, heq] at hlo

/-! ## Partial sums -/

/-- All of the doubles are numbers. -/
def AreNumbers (xs : List Binary64) : Prop := ∀ x ∈ xs, x.IsNumber

/-- The units of all the numbers together. -/
def totalUnits (xs : List Binary64) : Int := total (xs.map unitsOf)

@[simp] theorem totalUnits_nil : totalUnits [] = 0 := rfl

@[simp] theorem totalUnits_cons (x : Binary64) (xs : List Binary64) :
    totalUnits (x :: xs) = unitsOf x + totalUnits xs := rfl

theorem totalUnits_append (xs ys : List Binary64) :
    totalUnits (xs ++ ys) = totalUnits xs + totalUnits ys := by
  rw [totalUnits, List.map_append, total_append]
  rfl

section Through

variable {ys : List Binary64}

/-- An infinite running number stays what it is. -/
theorem addThrough_infinite (negative : Bool) (hys : AreNumbers ys) :
    (addThrough (.infinite negative) ys).2 = .infinite negative := by
  induction ys with
  | nil => rfl
  | cons y ys ih =>
    obtain ⟨hy, hrest⟩ := List.forall_mem_cons.1 hys
    cases y with
    | finite b n => exact ih hrest
    | _ => cases hy.1

/-- A number in range is added to a part without loss: what is rounded away stays behind. -/
theorem addThrough_cons (hx : x.IsNumber) (hy : y.IsNumber)
    (h : (nearest (unitsOf x + unitsOf y)).natAbs < overflow) (ys : List Binary64) :
    ∃ hi lo : Binary64, hi.IsNumber ∧ lo.IsNumber ∧
      unitsOf hi = nearest (unitsOf x + unitsOf y) ∧
      unitsOf lo = unitsOf x + unitsOf y - nearest (unitsOf x + unitsOf y) ∧
      addThrough x (y :: ys) =
        (if lo.isZero then (addThrough hi ys).1 else lo :: (addThrough hi ys).1,
          (addThrough hi ys).2) := by
  have hlt := absLt_iff hx.1 hy.1
  rw [addThrough]
  by_cases hless : x.absLt y = true
  · have hcomm := Int.add_comm (unitsOf x) (unitsOf y)
    rw [hcomm] at h ⊢
    have hhi := hy.add hx h
    have hlo := hy.error hx (Nat.le_of_lt (hlt.1 hless)) h
    refine ⟨_, _, hhi.1, hlo.1, hhi.2, hlo.2, ?_⟩
    rw [if_pos hless]
  · have hhi := hx.add hy h
    have hlo := hx.error hy (Nat.le_of_not_lt fun h => hless (hlt.2 h)) h
    refine ⟨_, _, hhi.1, hlo.1, hhi.2, hlo.2, ?_⟩
    rw [if_neg hless]

/-- Beyond the range the running number becomes infinite, and stays so. -/
theorem exists_addThrough_cons_eq (hx : x.IsNumber) (hy : y.IsNumber) (hys : AreNumbers ys)
    (h : overflow ≤ (nearest (unitsOf x + unitsOf y)).natAbs) :
    ∃ negative, (addThrough x (y :: ys)).2 = .infinite negative := by
  rw [addThrough]
  by_cases hless : x.absLt y = true
  · rw [Int.add_comm] at h
    obtain ⟨negative, hadd⟩ := hy.exists_add_eq hx h
    exact ⟨negative, by simp [hless, hadd, addThrough_infinite negative hys]⟩
  · obtain ⟨negative, hadd⟩ := hx.exists_add_eq hy h
    exact ⟨negative, by simp [hless, hadd, addThrough_infinite negative hys]⟩

/-- A number is added through the parts without loss, unless it leaves the range on the way. -/
theorem addThrough_cases (hx : x.IsNumber) (hys : AreNumbers ys) :
    (∃ negative, (addThrough x ys).2 = .infinite negative) ∨
      AreNumbers ((addThrough x ys).1 ++ [(addThrough x ys).2]) ∧
        totalUnits ((addThrough x ys).1 ++ [(addThrough x ys).2]) = unitsOf x + totalUnits ys := by
  induction ys generalizing x with
  | nil => exact .inr ⟨List.forall_mem_singleton.2 hx, rfl⟩
  | cons y ys ih =>
    obtain ⟨hy, hys⟩ := List.forall_mem_cons.1 hys
    by_cases hover : (nearest (unitsOf x + unitsOf y)).natAbs < overflow
    · obtain ⟨hi, lo, hhi, hlo, hhiUnits, hloUnits, hcons⟩ := addThrough_cons hx hy hover ys
      rw [hcons]
      refine (ih hhi hys).imp_right fun ⟨hnumbers, htotal⟩ => ?_
      by_cases hzero : lo.isZero = true
      · have := (isZero_iff hlo.1).1 hzero
        rw [if_pos hzero]
        refine ⟨hnumbers, htotal.trans ?_⟩
        rw [totalUnits_cons]
        omega
      · rw [if_neg hzero, List.cons_append]
        refine ⟨List.forall_mem_cons.2 ⟨hlo, hnumbers⟩, ?_⟩
        rw [totalUnits_cons, totalUnits_cons, htotal]
        omega
    · exact .inl (exists_addThrough_cons_eq hx hy hys (Nat.le_of_not_lt hover))

end Through

namespace Partials

variable {parts : List Binary64}

/-- A finite running number is kept as the last part, unless it is zero. -/
theorem exists_add_eq (h : (addThrough x parts).2.isFinite = true) :
    ∃ kept, add ⟨parts, none⟩ x = .ok ⟨kept, none⟩ ∧
      (kept = (addThrough x parts).1 ++ [(addThrough x parts).2] ∨
        unitsOf (addThrough x parts).2 = 0 ∧ kept = (addThrough x parts).1) := by
  simp only [add]
  by_cases hzero : (addThrough x parts).2.isZero = true
  · exact ⟨_, if_pos hzero, .inr ⟨(isZero_iff h).1 hzero, rfl⟩⟩
  · exact ⟨_, (if_neg hzero).trans (if_pos h), .inl rfl⟩

/-- One step of an exact sum keeps the exact sum of the parts, or fails. -/
theorem add_cases (hparts : AreNumbers parts) (hx : x.IsNumber) :
    (∃ kept, add ⟨parts, none⟩ x = .ok ⟨kept, none⟩ ∧ AreNumbers kept ∧
      totalUnits kept = totalUnits parts + unitsOf x) ∨
    add ⟨parts, none⟩ x = .error .overflow := by
  rcases addThrough_cases hx hparts with ⟨negative, htop⟩ | ⟨hnumbers, htotal⟩
  · right
    simp only [add, htop]
    exact (if_neg Bool.false_ne_true).trans ((if_neg Bool.false_ne_true).trans (if_pos hx.1))
  · left
    obtain ⟨hleft, htop⟩ := List.forall_mem_append.1 hnumbers
    obtain ⟨kept, hadd, hkept⟩ := exists_add_eq (htop _ (List.mem_singleton_self _)).1
    rw [Int.add_comm] at htotal
    rcases hkept with rfl | ⟨hzero, rfl⟩
    · exact ⟨_, hadd, hnumbers, htotal⟩
    · rw [totalUnits_append, totalUnits_cons, totalUnits_nil, hzero] at htotal
      exact ⟨_, hadd, hleft, by omega⟩

end Partials

/-- A run of steps keeps the exact sum, or fails. -/
theorem foldlM_add_cases {xs parts : List Binary64} (hparts : AreNumbers parts)
    (hxs : AreNumbers xs) :
    (∃ qs, xs.foldlM Partials.add ⟨parts, none⟩ = .ok ⟨qs, none⟩ ∧
      totalUnits qs = totalUnits parts + totalUnits xs) ∨
    xs.foldlM Partials.add ⟨parts, none⟩ = .error .overflow := by
  induction xs generalizing parts with
  | nil => exact .inl ⟨parts, rfl, (Int.add_zero _).symm⟩
  | cons x xs ih =>
    obtain ⟨hx, hxs⟩ := List.forall_mem_cons.1 hxs
    rw [List.foldlM_cons]
    rcases Partials.add_cases hparts hx with ⟨qs, hstep, hqs, htotal⟩ | hstep
    · rw [hstep]
      refine (ih hqs hxs).imp_left fun ⟨rs, hrun, hrs⟩ => ⟨rs, hrun, ?_⟩
      rw [hrs, htotal, totalUnits_cons, Int.add_assoc]
    · right
      rw [hstep]
      rfl

/-- **The exact sum of numbers is rounded once.** It is the double nearest to the sum of all of them
or, where a partial sum leaves the range, an error. -/
theorem sumExact_cases {xs : List Binary64} (hxs : AreNumbers xs) :
    sumExact xs = .ok (ofUnits (totalUnits xs)) ∨ sumExact xs = .error .overflow := by
  rw [sumExact]
  rcases foldlM_add_cases (List.forall_mem_nil _) hxs with ⟨qs, hrun, hqs⟩ | hrun
  · left
    rw [totalUnits_nil, Int.zero_add] at hqs
    rw [hrun, ← hqs]
    rfl
  · right
    rw [hrun]
    rfl

/-! ## Sums that stay in range -/

/-- The magnitudes of all the numbers together. -/
def totalSize (xs : List Binary64) : Nat := (xs.map fun x => (unitsOf x).natAbs).sum

@[simp] theorem totalSize_nil : totalSize [] = 0 := rfl

@[simp] theorem totalSize_cons (x : Binary64) (xs : List Binary64) :
    totalSize (x :: xs) = (unitsOf x).natAbs + totalSize xs :=
  List.sum_cons

theorem totalSize_append (xs ys : List Binary64) :
    totalSize (xs ++ ys) = totalSize xs + totalSize ys := by
  rw [totalSize, List.map_append, List.sum_append]
  rfl

theorem natAbs_totalUnits_le (xs : List Binary64) : (totalUnits xs).natAbs ≤ totalSize xs := by
  induction xs with
  | nil => exact Nat.le_refl _
  | cons x xs ih =>
    rw [totalUnits_cons, totalSize_cons]
    omega

/-- A number lies above a magnitude: it is a multiple of a power of two that exceeds this. -/
def LiesAbove (below : Nat) (n : Int) : Prop := ∃ k, below < 2 ^ k ∧ (2 : Int) ^ k ∣ n

/-- Partial sums that do not overlap: each lies above the magnitudes of those before it. -/
def AreLayered : Nat → List Binary64 → Prop
  | _, [] => True
  | below, x :: xs => LiesAbove below (unitsOf x) ∧ AreLayered (below + (unitsOf x).natAbs) xs

theorem areLayered_of_append {below : Nat} {xs ys : List Binary64}
    (h : AreLayered below (xs ++ ys)) : AreLayered below xs := by
  induction xs generalizing below with
  | nil => trivial
  | cons x xs ih => exact ⟨h.1, ih h.2⟩

theorem lt_natAbs_of_liesAbove {below : Nat} {n : Int} (h : LiesAbove below n) (hn : n ≠ 0) :
    below < n.natAbs := by
  obtain ⟨k, hlt, hdvd⟩ := h
  exact Nat.lt_of_lt_of_le hlt (Nat.le_of_dvd (Int.natAbs_pos.2 hn) (two_pow_dvd_iff.1 hdvd))

/-- What the rounding of a sum is off lies above what both numbers lie above, and the rounded sum
above that and what it is off. -/
theorem liesAbove_error {left : Nat} (ha : LiesAbove left a) (hb : LiesAbove left b) :
    LiesAbove left (a + b - nearest (a + b)) ∧
      LiesAbove (left + (a + b - nearest (a + b)).natAbs) (nearest (a + b)) := by
  obtain ⟨k, hk, hsum⟩ : LiesAbove left (a + b) := by
    obtain ⟨j, hj, hja⟩ := ha
    obtain ⟨k, hk, hkb⟩ := hb
    rcases Nat.le_total j k with hle | hle
    · exact ⟨j, hj, Int.dvd_add hja (two_pow_dvd_of_le hle hkb)⟩
    · exact ⟨k, hk, Int.dvd_add (two_pow_dvd_of_le hle hja) hkb⟩
  by_cases hexact : nearest (a + b) = a + b
  · rw [hexact, sub_self]
    exact ⟨⟨k, hk, Int.dvd_zero _⟩, ⟨k, hk, hsum⟩⟩
  · have hlt := lt_spareDigits_of_nearest_ne hsum hexact
    have hdvd := two_pow_dvd_nearest (a + b)
    have herror := two_mul_dist_nearest_le (a + b)
    refine ⟨⟨k, hk, Int.dvd_sub hsum (two_pow_dvd_of_le (Nat.le_of_lt hlt) hdvd)⟩, _, ?_, hdvd⟩
    -- Both the magnitude below and the error fill at most half of the last digit.
    have hhalf : 2 * 2 ^ k ≤ 2 ^ spareDigits (a + b).natAbs := by
      rw [← Nat.pow_succ']
      exact Nat.pow_le_pow_right (by omega) hlt
    omega

/-- What the rounding of a number is off is small beside it; a factor far below 2⁵³ will do. -/
theorem error_mul_le (n : Int) : 1024 * (n - nearest n).natAbs ≤ n.natAbs := by
  by_cases hzero : spareDigits n.natAbs = 0
  · have hexact : nearest n = n := nearest_eq_self_of_dvd (by rw [hzero]; exact one_dvd _)
    rw [hexact, sub_self]
    simp
  · have herror := two_mul_dist_nearest_le n
    have hfirst : 2 ^ spareDigits n.natAbs * 2 ^ 9 ≤ n.natAbs :=
      Nat.le_trans (Nat.mul_le_mul_left _ (Nat.pow_le_pow_right (by omega) (by omega)))
        (two_pow_spareDigits_mul_le hzero).1
    omega

/-- A number is added through layered parts that leave room for it: nothing leaves the range, what
stays behind is layered again, and is small beside the numbers. -/
theorem addThrough_layered (bound : Nat) (hbound : 2 * bound < overflow) {ys : List Binary64}
    {below left : Nat} (hx : x.IsNumber) (hys : AreNumbers ys) (hlayers : AreLayered below ys)
    (hle : left ≤ below) (habove : LiesAbove left (unitsOf x)) (hsmall : 512 * left ≤ bound)
    (hroom : (unitsOf x).natAbs + 2 * totalSize ys ≤ bound) :
    (addThrough x ys).2.isFinite = true ∧
      AreLayered left ((addThrough x ys).1 ++ [(addThrough x ys).2]) ∧
      512 * (left + totalSize (addThrough x ys).1) ≤ bound := by
  induction ys generalizing x below left with
  | nil => exact ⟨hx.1, ⟨habove, trivial⟩, hsmall⟩
  | cons y ys ih =>
    obtain ⟨hy, hrest⟩ := List.forall_mem_cons.1 hys
    obtain ⟨⟨k, hk, hdvd⟩, hlayers⟩ := hlayers
    rw [totalSize_cons] at hroom
    have hnearest := nearestNat_le (unitsOf x + unitsOf y).natAbs
    rw [← natAbs_nearest] at hnearest
    obtain ⟨hi, lo, hhi, hlo, hhiUnits, hloUnits, hcons⟩ :=
      addThrough_cons hx hy (by omega) ys
    have herror := natAbs_error_le (b := unitsOf y) hx.2
    obtain ⟨hloAbove, hhiAbove⟩ :=
      liesAbove_error habove ⟨k, Nat.lt_of_le_of_lt hle hk, hdvd⟩
    have hratio := error_mul_le (unitsOf x + unitsOf y)
    rw [← hloUnits] at herror hloAbove hhiAbove hratio
    rw [← hhiUnits] at hhiAbove
    have hloSmall : 512 * (left + (unitsOf lo).natAbs) ≤ bound := by
      by_cases hzero : unitsOf lo = 0
      · rwa [hzero, Int.natAbs_zero, Nat.add_zero]
      · have := lt_natAbs_of_liesAbove hloAbove hzero
        omega
    obtain ⟨hfinite, hlayered, hleft⟩ := ih hhi hrest hlayers
      (show left + (unitsOf lo).natAbs ≤ below + (unitsOf y).natAbs by omega) hhiAbove hloSmall
      (by omega)
    rw [hcons]
    by_cases hzero : lo.isZero = true
    · have hnone := (isZero_iff hlo.1).1 hzero
      rw [hnone, Int.natAbs_zero, Nat.add_zero] at hlayered hleft
      rw [if_pos hzero]
      exact ⟨hfinite, hlayered, hleft⟩
    · rw [if_neg hzero, List.cons_append, totalSize_cons, ← Nat.add_assoc]
      exact ⟨hfinite, ⟨hloAbove, hlayered⟩, hleft⟩

/-- What holds of the parts between the steps of an exact sum, where the magnitudes of all numbers
met are at most `size` together. -/
structure Partials.FitWithin (size : Nat) (parts : List Binary64) : Prop where
  numbers : AreNumbers parts
  layered : AreLayered 0 parts
  parts_le : totalSize parts ≤ 2 * size
  total_le : (totalUnits parts).natAbs ≤ size

theorem Partials.fitWithin_nil : FitWithin 0 [] :=
  ⟨List.forall_mem_nil _, trivial, Nat.le_refl _, Nat.le_refl _⟩

/-- A step does not fail while the magnitudes are an eighth of what is out of range. -/
theorem Partials.FitWithin.add {size : Nat} {parts : List Binary64} (h : FitWithin size parts)
    (hx : x.IsNumber) (hroom : 8 * (size + (unitsOf x).natAbs) < overflow) :
    ∃ kept, Partials.add ⟨parts, none⟩ x = .ok ⟨kept, none⟩ ∧
      FitWithin (size + (unitsOf x).natAbs) kept := by
  have hparts := h.parts_le
  have hsum := h.total_le
  have habove : LiesAbove 0 (unitsOf x) := ⟨0, Nat.one_pos, one_dvd _⟩
  obtain ⟨hfinite, hlayered, hleft⟩ := addThrough_layered
    ((unitsOf x).natAbs + 2 * totalSize parts) (by omega) hx h.numbers h.layered (Nat.le_refl 0)
    habove (Nat.zero_le _) (Nat.le_refl _)
  -- As the top is finite, nothing got lost on the way.
  obtain ⟨hnumbers, htotal⟩ : AreNumbers ((addThrough x parts).1 ++ [(addThrough x parts).2]) ∧
      totalUnits ((addThrough x parts).1 ++ [(addThrough x parts).2]) =
        unitsOf x + totalUnits parts := by
    rcases addThrough_cases hx h.numbers with ⟨negative, htop⟩ | hexact
    · rw [htop] at hfinite
      cases hfinite
    · exact hexact
  rw [totalUnits_append, totalUnits_cons, totalUnits_nil] at htotal
  have hleftTotal := natAbs_totalUnits_le (addThrough x parts).1
  obtain ⟨kept, hadd, hkept⟩ := exists_add_eq hfinite
  obtain ⟨hkept, hkeptLayers, hkeptSize, hkeptTotal⟩ : AreNumbers kept ∧ AreLayered 0 kept ∧
      totalSize kept =
        totalSize (addThrough x parts).1 + (unitsOf (addThrough x parts).2).natAbs ∧
      totalUnits kept = totalUnits (addThrough x parts).1 + unitsOf (addThrough x parts).2 := by
    rcases hkept with rfl | ⟨hzero, rfl⟩
    · exact ⟨hnumbers, hlayered, by simp [totalSize_append], by simp [totalUnits_append]⟩
    · exact ⟨(List.forall_mem_append.1 hnumbers).1, areLayered_of_append hlayered,
        by rw [hzero, Int.natAbs_zero, Nat.add_zero], by rw [hzero, Int.add_zero]⟩
  exact ⟨kept, hadd, ⟨hkept, hkeptLayers, by omega, by omega⟩⟩

/-- A run of steps does not fail while the magnitudes are an eighth of what is out of range. -/
theorem Partials.FitWithin.foldlM_add {size : Nat} {xs parts : List Binary64}
    (h : FitWithin size parts) (hxs : AreNumbers xs)
    (hroom : 8 * (size + totalSize xs) < overflow) :
    ∃ kept, xs.foldlM Partials.add ⟨parts, none⟩ = .ok ⟨kept, none⟩ := by
  induction xs generalizing size parts with
  | nil => exact ⟨parts, rfl⟩
  | cons x xs ih =>
    obtain ⟨hx, hxs⟩ := List.forall_mem_cons.1 hxs
    rw [totalSize_cons] at hroom
    obtain ⟨kept, hadd, hkept⟩ := h.add hx (by omega)
    obtain ⟨final, hfinal⟩ := ih hkept hxs (by omega)
    refine ⟨final, ?_⟩
    rw [List.foldlM_cons, hadd]
    exact hfinal

/-- **An exact sum in range does not fail.** If the magnitudes of all numbers together are less than
an eighth of what is out of range, no partial sum leaves the range. -/
theorem sumExact_of_totalSize_lt {xs : List Binary64} (hxs : AreNumbers xs)
    (hroom : 8 * totalSize xs < overflow) : sumExact xs = .ok (ofUnits (totalUnits xs)) := by
  obtain ⟨kept, hrun⟩ := Partials.fitWithin_nil.foldlM_add hxs (by rwa [Nat.zero_add])
  refine (sumExact_cases hxs).resolve_right fun hfails => ?_
  rw [sumExact, hrun] at hfails
  cases hfails

end Binary64

end ChartQuery
