import ChartQuery.Number.Binary64
import Mathlib.Data.Nat.Log
import Mathlib.Tactic.Ring
import Mathlib.Tactic.Zify

/-!
# Whole numbers as doubles

The double nearest to a whole number is a whole number again: of those with no more than 53
significant binary digits the nearest one. It is the number itself exactly if this has no more
digits, so at least up to 2⁵³.

## Main definitions

* `Binary64.spareDigits m`: how many binary digits of a magnitude a double has no room for
* `Binary64.nearestNat m`, `Binary64.nearest n`: the nearest whole number that a double holds

## Main results

* `Binary64.ofInt_eq`: the double nearest to a whole number
* `Binary64.dist_nearest_le`: no whole number with 53 significant digits is nearer
* `Binary64.nearest_eq_self_iff`, `Binary64.nearest_of_le`: the numbers that a double holds
-/

namespace ChartQuery

/-! ## Rounded quotients -/

theorem roundDiv_mul_right {c : Nat} (hc : 0 < c) (n d : Nat) :
    roundDiv (n * c) (d * c) = roundDiv n d := by
  have hlt : 2 * (n * c % (d * c)) < d * c ↔ 2 * (n % d) < d := by
    rw [Nat.mul_mod_mul_right, ← Nat.mul_assoc, Nat.mul_lt_mul_right hc]
  have hgt : d * c < 2 * (n * c % (d * c)) ↔ d < 2 * (n % d) := by
    rw [Nat.mul_mod_mul_right, ← Nat.mul_assoc, Nat.mul_lt_mul_right hc]
  simp only [roundDiv, hlt, hgt, Nat.mul_div_mul_right _ _ hc]

/-- A multiple is divided exactly. -/
theorem roundDiv_of_dvd {n d : Nat} (h : d ∣ n) : roundDiv n d = n / d := by
  rcases Nat.eq_zero_or_pos d with rfl | hd
  · have : n = 0 := Nat.eq_zero_of_zero_dvd h
    simp [roundDiv, this]
  · simp [roundDiv, Nat.mod_eq_zero_of_dvd h, hd]

/-- The rounded quotient is off by at most a half. -/
theorem two_mul_roundDiv_mul (n : Nat) {d : Nat} (hd : 0 < d) :
    2 * (roundDiv n d * d) ≤ 2 * n + d ∧ 2 * n ≤ 2 * (roundDiv n d * d) + d := by
  have hn := Nat.div_add_mod' n d
  have hlt := Nat.mod_lt n hd
  have hsucc : (n / d + 1) * d = n / d * d + d := Nat.succ_mul _ _
  simp only [roundDiv]
  split
  · omega
  split
  · rw [hsucc]
    omega
  -- Half way between two quotients, the even one is taken.
  · rcases Nat.mod_two_eq_zero_or_one (n / d) with heven | hodd
    · rw [heven, Nat.add_zero]
      omega
    · rw [hodd]
      omega

/-- No multiple of the divisor is nearer than the rounded quotient. -/
theorem dist_roundDiv_le (n q : Nat) {d : Nat} (hd : 0 < d) :
    ((roundDiv n d * d : Nat) - n : Int).natAbs ≤ ((q * d : Nat) - n : Int).natAbs := by
  obtain ⟨hle, hge⟩ := two_mul_roundDiv_mul n hd
  rcases Nat.lt_trichotomy q (roundDiv n d) with hlt | rfl | hgt
  · have : (q + 1) * d ≤ roundDiv n d * d := Nat.mul_le_mul_right d hlt
    rw [Nat.succ_mul] at this
    omega
  · exact Nat.le_refl _
  · have : (roundDiv n d + 1) * d ≤ q * d := Nat.mul_le_mul_right d hgt
    rw [Nat.succ_mul] at this
    omega

namespace Binary64

/-! ## Magnitudes -/

/-- How many binary digits of a magnitude a double has no room for. -/
def spareDigits (m : Nat) : Nat := m.log2 + 1 - 53

/-- The nearest whole number with no more than 53 significant binary digits. -/
def nearestNat (m : Nat) : Nat := roundDiv m (2 ^ spareDigits m) * 2 ^ spareDigits m

theorem spareDigits_of_lt {m : Nat} (h : m < 2 ^ 53) : spareDigits m = 0 := by
  rcases Nat.eq_zero_or_pos m with rfl | hm
  · simp [spareDigits]
  · have := (Nat.log2_lt (by omega)).2 h
    unfold spareDigits
    omega

theorem lt_of_spareDigits_eq_zero {m : Nat} (h : spareDigits m = 0) : m < 2 ^ 53 := by
  have hlog : m.log2 + 1 ≤ 53 := by
    unfold spareDigits at h
    omega
  exact Nat.lt_of_lt_of_le Nat.lt_log2_self (Nat.pow_le_pow_right (by omega) hlog)

/-- Where digits are spare, the first 53 of them make up the magnitude but for a rest. -/
theorem two_pow_spareDigits_mul_le {m : Nat} (h : spareDigits m ≠ 0) :
    2 ^ spareDigits m * 2 ^ 52 ≤ m ∧ m < 2 ^ spareDigits m * 2 ^ 53 := by
  have hlog : m.log2 = spareDigits m + 52 := by
    unfold spareDigits at h ⊢
    omega
  have hm : m ≠ 0 := by
    rintro rfl
    simp [spareDigits] at h
  obtain ⟨hle, hlt⟩ := (Nat.log2_eq_iff hm).1 hlog
  rw [← Nat.pow_add, ← Nat.pow_add]
  exact ⟨hle, hlt⟩

theorem nearestNat_eq_self_iff {m : Nat} : nearestNat m = m ↔ 2 ^ spareDigits m ∣ m := by
  constructor
  · intro h
    exact ⟨roundDiv m (2 ^ spareDigits m), by rw [Nat.mul_comm]; exact h.symm⟩
  · intro h
    rw [nearestNat, roundDiv_of_dvd h, Nat.div_mul_cancel h]

/-- The magnitudes up to 2⁵³ are doubles. -/
theorem nearestNat_of_le {m : Nat} (h : m ≤ 2 ^ 53) : nearestNat m = m := by
  rw [nearestNat_eq_self_iff]
  rcases Nat.lt_or_eq_of_le h with hlt | rfl
  · simp [spareDigits_of_lt hlt]
  · refine Nat.pow_dvd_pow 2 ?_
    rw [spareDigits, Nat.log2_two_pow]
    decide

/-- The nearest magnitude is no more than twice as large. -/
theorem nearestNat_le (m : Nat) : nearestNat m ≤ 2 * m := by
  by_cases h : spareDigits m = 0
  · simp [nearestNat, h, roundDiv_one]
    omega
  · have hle := (two_mul_roundDiv_mul m (Nat.two_pow_pos (spareDigits m))).1
    have hbig := (two_pow_spareDigits_mul_le h).1
    unfold nearestNat
    omega

/-- A magnitude with no more than 53 significant binary digits. -/
def HasFewDigits (m : Nat) : Prop := ∃ q k, q < 2 ^ 53 ∧ m = q * 2 ^ k

/-- Of the magnitudes from a digit on, the multiples have few digits. -/
theorem dvd_of_hasFewDigits {m x : Nat} (hx : HasFewDigits x)
    (h : 2 ^ spareDigits m * 2 ^ 52 ≤ x) : 2 ^ spareDigits m ∣ x := by
  obtain ⟨q, k, hq, rfl⟩ := hx
  refine Nat.dvd_mul_left_of_dvd (Nat.pow_dvd_pow 2 ?_) q
  by_contra hk
  -- A smaller power leaves no room for the number in 53 digits.
  have hpow : 2 ^ (k + 1) ≤ 2 ^ spareDigits m := Nat.pow_le_pow_right (by omega) (by omega)
  have hlt : q * 2 ^ k < 2 ^ 53 * 2 ^ k :=
    Nat.mul_lt_mul_of_pos_right hq (Nat.two_pow_pos k)
  rw [Nat.pow_succ] at hpow
  omega

/-- The nearest magnitude has few digits itself, though it may have one digit more. -/
theorem hasFewDigits_nearestNat (m : Nat) : HasFewDigits (nearestNat m) := by
  by_cases h : spareDigits m = 0
  · exact ⟨m, 0, lt_of_spareDigits_eq_zero h, by simp [nearestNat, h, roundDiv_one]⟩
  have hle : roundDiv m (2 ^ spareDigits m) ≤ 2 ^ 53 := by
    have hbelow := (two_mul_roundDiv_mul m (Nat.two_pow_pos (spareDigits m))).1
    have hlt := (two_pow_spareDigits_mul_le h).2
    by_contra hmore
    have := Nat.mul_le_mul_right (2 ^ spareDigits m) (Nat.lt_of_not_le hmore)
    rw [Nat.succ_mul, Nat.mul_comm] at this
    omega
  rcases Nat.lt_or_eq_of_le hle with hlt | heq
  · exact ⟨_, _, hlt, rfl⟩
  · refine ⟨1, 53 + spareDigits m, by omega, ?_⟩
    rw [nearestNat, heq, Nat.pow_add, Nat.one_mul]

/-- A magnitude is its own nearest one exactly if it has few digits. -/
theorem nearestNat_eq_self_iff_hasFewDigits {m : Nat} : nearestNat m = m ↔ HasFewDigits m := by
  rw [nearestNat_eq_self_iff]
  by_cases h : spareDigits m = 0
  · simp only [h, Nat.pow_zero, Nat.one_dvd, true_iff]
    exact ⟨m, 0, lt_of_spareDigits_eq_zero h, by simp⟩
  · obtain ⟨hle, hlt⟩ := two_pow_spareDigits_mul_le h
    constructor
    · rintro ⟨q, hq⟩
      refine ⟨q, spareDigits m, ?_, hq.trans (Nat.mul_comm _ _)⟩
      by_contra hbig
      have := Nat.mul_le_mul_left (2 ^ spareDigits m) (Nat.le_of_not_lt hbig)
      omega
    · intro hfew
      exact dvd_of_hasFewDigits hfew hle

/-- No magnitude with few digits is nearer than the nearest one. -/
theorem dist_nearestNat_le (m : Nat) {x : Nat} (hx : HasFewDigits x) :
    (nearestNat m - m : Int).natAbs ≤ (x - m : Int).natAbs := by
  by_cases h : spareDigits m = 0
  · simp [nearestNat, h, roundDiv_one]
  obtain ⟨hle, -⟩ := two_pow_spareDigits_mul_le h
  by_cases hbelow : x < 2 ^ spareDigits m * 2 ^ 52
  -- Below the magnitude's leading digit, that digit alone is nearer, and a multiple itself.
  · have := dist_roundDiv_le m (2 ^ 52) (Nat.two_pow_pos (spareDigits m))
    rw [Nat.mul_comm (2 ^ 52)] at this
    unfold nearestNat
    omega
  · obtain ⟨q, rfl⟩ := dvd_of_hasFewDigits hx (Nat.le_of_not_lt hbelow)
    have := dist_roundDiv_le m q (Nat.two_pow_pos (spareDigits m))
    rw [Nat.mul_comm q] at this
    exact this

/-! ## Whole numbers -/

/-- The nearest whole number that a double holds. -/
def nearest (n : Int) : Int := signed (n < 0) (nearestNat n.natAbs)

theorem nearest_of_neg {n : Int} (h : n < 0) : nearest n = -(nearestNat n.natAbs : Int) := by
  rw [nearest, signed, if_pos (decide_eq_true h)]

theorem nearest_of_nonneg {n : Int} (h : 0 ≤ n) : nearest n = nearestNat n.natAbs := by
  rw [nearest, signed, if_neg (by simpa using h)]

theorem nearest_eq_self_iff {n : Int} : nearest n = n ↔ HasFewDigits n.natAbs := by
  rw [← nearestNat_eq_self_iff_hasFewDigits]
  rcases Int.lt_or_le n 0 with h | h
  · rw [nearest_of_neg h]
    omega
  · rw [nearest_of_nonneg h]
    omega

/-- No whole number with few digits is nearer than the nearest one. -/
theorem dist_nearest_le (n : Int) {x : Int} (hx : HasFewDigits x.natAbs) :
    (nearest n - n).natAbs ≤ (x - n).natAbs := by
  have hzero := dist_nearestNat_le n.natAbs (x := 0) ⟨0, 0, by omega, by omega⟩
  have hsame := dist_nearestNat_le n.natAbs hx
  -- A number of the other sign is further away than zero.
  rcases Int.lt_or_le n 0 with h | h
  · rw [nearest_of_neg h]
    omega
  · rw [nearest_of_nonneg h]
    omega

theorem natAbs_nearest (n : Int) : (nearest n).natAbs = nearestNat n.natAbs := by
  rcases Int.lt_or_le n 0 with h | h
  · rw [nearest_of_neg h, Int.natAbs_neg, Int.natAbs_natCast]
  · rw [nearest_of_nonneg h, Int.natAbs_natCast]

/-- The whole numbers up to 2⁵³ are doubles. -/
theorem nearest_of_le {n : Int} (h : n.natAbs ≤ 2 ^ 53) : nearest n = n := by
  rcases Int.lt_or_le n 0 with hneg | hpos
  · rw [nearest_of_neg hneg, nearestNat_of_le h]
    omega
  · rw [nearest_of_nonneg hpos, nearestNat_of_le h]
    omega

/-- The units of the number one and of the least number that is too large, as powers of two. -/
theorem exists_one_eq : ∃ e, e = 1074 ∧ one = 2 ^ e ∧ overflow = 2 ^ (e + 1024) := by
  -- Under names for the exponents no power is ever computed.
  have h : ∀ e o, e + 1024 = o → Nat.pow 2 o = 2 ^ (e + 1024) := by
    intro e o h
    rw [← h, Nat.pow_eq]
  unfold one overflow
  generalize he : 1074 = e
  exact ⟨e, rfl, rfl, h e 2098 (by omega)⟩

theorem one_pos : 0 < one := by
  obtain ⟨e, -, hone, -⟩ := exists_one_eq
  rw [hone]
  exact Nat.two_pow_pos e

theorem mul_one_lt_zero_iff (n : Int) : n * (one : Int) < 0 ↔ n < 0 := by
  have := one_pos
  constructor
  · intro h
    by_contra hn
    have := Int.mul_nonneg (Int.not_lt.1 hn) (Int.natCast_nonneg one)
    omega
  · intro h
    exact Int.mul_neg_of_neg_of_pos h (by omega)

theorem log2_mul_one {m : Nat} (hm : m ≠ 0) : (m * one).log2 = m.log2 + 1074 := by
  obtain ⟨e, he, hone, -⟩ := exists_one_eq
  have hne : m * one ≠ 0 := Nat.mul_ne_zero hm one_pos.ne'
  obtain ⟨hle, hlt⟩ := (Nat.log2_eq_iff hm).1 rfl
  rw [← he, Nat.log2_eq_iff hne, hone, Nat.add_right_comm, Nat.pow_add, Nat.pow_add _ (_ + 1)]
  have hpos := Nat.two_pow_pos e
  exact ⟨Nat.mul_le_mul_right _ hle, Nat.mul_lt_mul_of_pos_right hlt hpos⟩

/-- Rounded to 53 digits in units, a magnitude becomes the nearest one. -/
theorem roundDiv_units {m : Nat} :
    roundDiv (m * one) (2 ^ (m.log2 + 1022)) * 2 ^ (m.log2 + 1022) = nearestNat m * one := by
  obtain ⟨e, he, hone, -⟩ := exists_one_eq
  by_cases h : spareDigits m = 0
  -- The units of a whole number of at most 53 digits are not rounded.
  · have hdvd : 2 ^ (m.log2 + 1022) ∣ m * one := by
      rw [hone]
      refine Nat.dvd_mul_left_of_dvd (Nat.pow_dvd_pow 2 ?_) m
      unfold spareDigits at h
      omega
    rw [roundDiv_of_dvd hdvd, Nat.div_mul_cancel hdvd]
    simp [nearestNat, h, roundDiv_one]
  · have hlog : m.log2 + 1022 = spareDigits m + e := by
      unfold spareDigits at h ⊢
      omega
    rw [hlog, Nat.pow_add, ← hone, roundDiv_mul_right one_pos, ← Nat.mul_assoc]
    rfl

theorem nearestNat_mul_one_lt_overflow {m : Nat} (hm : m < 2 ^ 64) :
    nearestNat m * one < overflow := by
  obtain ⟨e, -, hone, hover⟩ := exists_one_eq
  have hle := nearestNat_le m
  have hlt : nearestNat m < 2 ^ 65 := by omega
  have hpow : 2 ^ 65 * one ≤ overflow := by
    rw [hover, hone, ← Nat.pow_add]
    exact Nat.pow_le_pow_right (by omega) (by omega)
  exact Nat.lt_of_lt_of_le (Nat.mul_lt_mul_of_pos_right hlt one_pos) hpow

/-- The double nearest to the units of a magnitude holds the nearest magnitude. -/
theorem ofQuotient_mul_one (negative : Bool) {m : Nat} (hm : m < 2 ^ 64) :
    ofQuotient negative (m * one) 1 = .finite negative (nearestNat m * one) := by
  have hover := nearestNat_mul_one_lt_overflow hm
  rcases Nat.eq_zero_or_pos m with rfl | hpos
  · have hzero : nearestNat 0 = 0 := nearestNat_of_le (Nat.zero_le _)
    rw [hzero, Nat.zero_mul] at hover ⊢
    simp [ofQuotient, roundDiv, Nat.not_le.2 hover]
  · have hspare : (m * one / 1).log2 + 1 - 53 = m.log2 + 1022 := by
      rw [Nat.div_one, log2_mul_one (by omega)]
      omega
    simp only [ofQuotient, hspare, Nat.pow_eq, Nat.one_mul, roundDiv_units,
      if_neg (Nat.not_le.2 hover)]

/-- The double nearest to a whole number holds the nearest whole number. -/
theorem ofInt_eq {n : Int} (hn : n.natAbs < 2 ^ 64) :
    ofInt n = .finite (n < 0) (nearestNat n.natAbs * one) := by
  rw [ofInt, ofUnits, Int.natAbs_mul, Int.natAbs_natCast, ofQuotient_mul_one _ hn]
  simp only [mul_one_lt_zero_iff]

/-- Beside a whole number, the double of another one counts as the nearest whole number. -/
theorem compareDecimal?_ofInt {n : Int} (hn : n.natAbs < 2 ^ 64) (m : Int) :
    (ofInt n).compareDecimal? m 0 = some (compare (nearest n) m) := by
  have hsigned : signed (n < 0) (nearestNat n.natAbs * one) = nearest n * one := by
    unfold nearest signed
    split <;> push_cast <;> ring
  have hone : (0 : Int) < one := Int.natCast_pos.2 one_pos
  rw [ofInt_eq hn, compareDecimal?, hsigned]
  simp only [Nat.pow_eq, Nat.pow_zero, Nat.cast_one, mul_one, Option.some.injEq]
  simp only [compare, compareOfLessAndEq, Int.mul_lt_mul_right hone,
    Int.mul_eq_mul_right_iff hone.ne']

end Binary64

end ChartQuery
