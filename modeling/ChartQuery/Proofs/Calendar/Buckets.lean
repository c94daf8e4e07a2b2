import ChartQuery.Proofs.Calendar.Dates
import ChartQuery.Proofs.Chart.Ordering
import Mathlib.Data.String.Basic

/-!
# The order of buckets

Dates fall into one bucket exactly if they lie in one year, one month or on one day, so that the
buckets of a finer resolution lie within those of a coarser one. As texts are ordered by their
characters and years are written without leading zeros, the buckets of years and months are in the
order of time only where the digits of the earlier year are not greater than the first digits of
the later one; among years of four digits they always are.

## Main definitions

* `Resolution.comparePeriods r d e`: the order of the years, months or days of two dates
* `WritesInOrder y z`: the text of the year `y` comes before that of the later year `z`
* `Resolution.bucketOf`, `Resolution.compareTimes`: the bucket of a date or of none, and their order

## Main results

* `toDigits_append_lt`: the order of texts that start with years
* `Resolution.ranked_cut_iff`: when two buckets are in the order of time
* `Resolution.cut_eq_cut_iff`: dates of one bucket
* `Resolution.sortRows_bucketOf`: sorting by a column of buckets
* `Resolution.buckets_nest_and_order`: buckets nest and, where years are written in order, are
  ordered by time
-/

namespace ChartQuery

/-! ## Texts of digits -/

/-- The last digits of a number are the last ones of what stands in front of them, and they. -/
theorem lastDigits_add (width more n : Nat) :
    lastDigits (width + more) n = lastDigits width (n / 10 ^ more) ++ lastDigits more n := by
  induction more generalizing n with
  | zero => simp [lastDigits]
  | succ more ih =>
    have hdiv : n / 10 / 10 ^ more = n / 10 ^ (more + 1) := by
      rw [Nat.div_div_eq_div_mul, Nat.pow_succ']
    rw [← Nat.add_assoc, lastDigits, ih, hdiv, List.append_assoc]
    rfl

theorem digitChar_lt {a b : Nat} (h : a < b) (hb : b < 10) : a.digitChar < b.digitChar := by
  have hall : ∀ b < 10, ∀ a < b, a.digitChar < b.digitChar := by decide
  exact hall b hb a h

/-- Texts that start with as many digits of two numbers are ordered as these. -/
theorem lastDigits_append_lt {width m n : Nat} (h : m < n) (hn : n < 10 ^ width)
    (s t : List Char) : lastDigits width m ++ s < lastDigits width n ++ t := by
  induction width generalizing m n s t with
  | zero =>
    rw [Nat.pow_zero] at hn
    omega
  | succ width ih =>
    rw [lastDigits, lastDigits, List.append_assoc, List.append_assoc]
    rcases Nat.lt_or_eq_of_le (Nat.div_le_div_right (c := 10) (Nat.le_of_lt h)) with hlt | heq
    · exact ih hlt (div_ten_lt hn) _ _
    · -- Only the last digits differ.
      rw [heq]
      exact List.append_left_lt (List.cons_lt_cons_iff.2
        (.inl (digitChar_lt (by omega) (Nat.mod_lt n (by omega)))))

/-- The number of digits of a number. -/
def digitCount (n : Nat) : Nat := (Nat.toDigits 10 n).length

theorem digitCount_pos (n : Nat) : 0 < digitCount n := Nat.length_toDigits_pos

theorem digitCount_le_iff {n k : Nat} (hk : 0 < k) : digitCount n ≤ k ↔ n < 10 ^ k :=
  Nat.length_toDigits_le_iff (by omega) hk

theorem lt_pow_digitCount (n : Nat) : n < 10 ^ digitCount n :=
  (digitCount_le_iff (digitCount_pos n)).1 (Nat.le_refl _)

theorem digitCount_mono {m n : Nat} (h : m ≤ n) : digitCount m ≤ digitCount n :=
  (digitCount_le_iff (digitCount_pos n)).2 (Nat.lt_of_le_of_lt h (lt_pow_digitCount n))

/-- A number is written with its last digits, as many as it has. -/
theorem toDigits_eq_lastDigits (n : Nat) : Nat.toDigits 10 n = lastDigits (digitCount n) n := by
  rw [← toList_padded (digitCount_pos n) (lt_pow_digitCount n), toList_padded_eq, digitCount,
    Nat.sub_self]
  rfl

/-- The digits of a number are not greater than as many first digits of a later one, so that its
text comes before that of the other. -/
def WritesInOrder (y z : Nat) : Prop := y * 10 ^ (digitCount z - digitCount y) ≤ z

instance (y z : Nat) : Decidable (WritesInOrder y z) := inferInstanceAs (Decidable (_ ≤ _))

/-- Numbers of equally many digits are written in order. -/
theorem writesInOrder_of_digitCount_eq {y z : Nat} (h : y ≤ z) (heq : digitCount y = digitCount z) :
    WritesInOrder y z := by
  rw [WritesInOrder, heq, Nat.sub_self, Nat.pow_zero, Nat.mul_one]
  exact h

/-- Of two numbers, with characters behind the smaller one that come before all digits, the smaller
is written first exactly if its digits are not greater than the first digits of the other. -/
theorem toDigits_append_lt {y z : Nat} (h : y < z) {s : List Char} (hs : ∀ c ∈ s.head?, c < '0')
    (t : List Char) :
    if WritesInOrder y z then Nat.toDigits 10 y ++ s < Nat.toDigits 10 z ++ t
    else Nat.toDigits 10 z ++ t < Nat.toDigits 10 y ++ s := by
  obtain ⟨more, hmore⟩ := Nat.exists_eq_add_of_le (digitCount_mono (Nat.le_of_lt h))
  have horder : WritesInOrder y z ↔ y ≤ z / 10 ^ more := by
    rw [WritesInOrder, hmore, Nat.add_sub_cancel_left,
      Nat.le_div_iff_mul_le (Nat.pow_pos (by omega))]
  have hfirst : z / 10 ^ more < 10 ^ digitCount y := by
    rw [Nat.div_lt_iff_lt_mul (Nat.pow_pos (by omega)), ← Nat.pow_add, ← hmore]
    exact lt_pow_digitCount z
  rw [toDigits_eq_lastDigits y, toDigits_eq_lastDigits z, hmore, lastDigits_add, List.append_assoc]
  rcases Nat.lt_trichotomy y (z / 10 ^ more) with hlt | heq | hgt
  · rw [if_pos (horder.2 (Nat.le_of_lt hlt))]
    exact lastDigits_append_lt hlt hfirst _ _
  · rw [if_pos (horder.2 (Nat.le_of_eq heq)), ← heq]
    refine List.append_left_lt ?_
    -- Further digits stand behind those that both have in common.
    obtain ⟨more, rfl⟩ : ∃ n, more = n + 1 := by
      refine Nat.exists_eq_succ_of_ne_zero ?_
      rintro rfl
      rw [Nat.pow_zero, Nat.div_one] at heq
      omega
    obtain ⟨c, r, hr⟩ := List.exists_cons_of_ne_nil (l := lastDigits (more + 1) z)
      (List.ne_nil_of_length_pos (by rw [length_lastDigits]; omega))
    have hc : '0' ≤ c :=
      Char.le_def.2 (Text.toNat_of_isDigit (isDigit_of_mem_lastDigits c (by rw [hr]; simp))).1
    rw [hr]
    cases s with
    | nil => exact List.nil_lt_cons _ _
    | cons a s => exact List.cons_lt_cons_iff.2 (.inl (lt_of_lt_of_le (hs a rfl) hc))
  · rw [if_neg fun hle => absurd (horder.1 hle) (by omega)]
    exact lastDigits_append_lt hgt (lt_pow_digitCount y) _ _

/-! ## Buckets of dates -/

namespace Resolution

/-- The order of the years, the months or the days in which two dates lie. -/
def comparePeriods : Resolution → CalendarDate → CalendarDate → Ordering
  | year, d, e => Ord.compare d.year e.year
  | month, d, e => (Ord.compare d.year e.year).then (Ord.compare d.month e.month)
  | day, d, e => d.compare e

/-- The characters behind the year of a bucket. -/
def behindYear : Resolution → CalendarDate → List Char
  | month, d => '-' :: lastDigits 2 d.month
  | year, _ => []
  | day, _ => []

variable {r : Resolution} {d e : CalendarDate}

theorem comparePeriods_swap (r : Resolution) (d e : CalendarDate) :
    (r.comparePeriods d e).swap = r.comparePeriods e d := by
  cases r with
  | year => exact Nat.compare_swap _ _
  | month => simp only [comparePeriods, Ordering.swap_then, Nat.compare_swap]
  | day => exact CalendarDate.compare_swap d e

theorem comparePeriods_of_year_lt (hr : r ≠ .day) (h : d.year < e.year) :
    r.comparePeriods d e = .lt := by
  have hyear := Nat.compare_eq_lt.2 h
  cases r with
  | year => exact hyear
  | month => rw [comparePeriods, hyear, Ordering.lt_then]
  | day => exact absurd rfl hr

/-- A bucket of a year or a month is the text of the year and what stands behind it. -/
theorem cut_eq_text (hr : r ≠ .day) (d : CalendarDate) :
    r.cut d = .text (String.ofList (Nat.toDigits 10 d.year ++ r.behindYear d)) := by
  have hyear : toString d.year = String.ofList (Nat.toDigits 10 d.year) :=
    Nat.toString_eq_ofList_toDigits
  cases r with
  | year => rw [cut, hyear, behindYear, List.append_nil]
  | month =>
    have hmonth : "-" ++ CalendarDate.padded 2 d.month = String.ofList (behindYear .month d) := by
      rw [← String.toList_inj, String.toList_append, toList_padded (by omega) d.month_lt,
        String.toList_ofList, String.toList_ofList, behindYear, List.singleton_append]
    rw [cut, hyear, String.append_assoc, hmonth, String.ofList_append]
  | day => exact absurd rfl hr

theorem ranked_cut_eq_lt_iff (hr : r ≠ .day) :
    (r.cut d).ranked (r.cut e) = .lt ↔
      Nat.toDigits 10 d.year ++ r.behindYear d < Nat.toDigits 10 e.year ++ r.behindYear e := by
  rw [cut_eq_text hr, cut_eq_text hr, Value.ranked, compare_lt_iff_lt, String.lt_iff,
    String.toList_ofList, String.toList_ofList]

theorem ranked_cut_swap (r : Resolution) (d e : CalendarDate) :
    ((r.cut d).ranked (r.cut e)).swap = (r.cut e).ranked (r.cut d) := by
  by_cases hr : r = .day
  · subst hr
    rw [cut, cut, Value.ranked_date, Value.ranked_date, Nat.compare_swap]
  · rw [cut_eq_text hr, cut_eq_text hr, Value.ranked, Value.ranked]
    exact Std.OrientedCmp.eq_swap.symm

/-- Buckets of different years are ordered by time exactly if the years are written in order. -/
theorem ranked_cut_of_year_lt (hr : r ≠ .day) (h : d.year < e.year) :
    (r.cut d).ranked (r.cut e) = if WritesInOrder d.year e.year then .lt else .gt := by
  have hbehind : ∀ c ∈ (r.behindYear d).head?, c < '0' := by
    intro c hc
    cases r with
    | month =>
      obtain rfl := Option.some.inj hc
      decide
    | year => cases hc
    | day => cases hc
  have hlt := toDigits_append_lt h hbehind (r.behindYear e)
  split at hlt
  · rename_i hwrites
    rw [if_pos hwrites, (ranked_cut_eq_lt_iff hr).2 hlt]
  · rename_i hwrites
    rw [if_neg hwrites, ← ranked_cut_swap, (ranked_cut_eq_lt_iff hr).2 hlt]
    rfl

/-- Within a year buckets are ordered by time. -/
theorem ranked_cut_of_year_eq (hr : r ≠ .day) (h : d.year = e.year) :
    (r.cut d).ranked (r.cut e) = r.comparePeriods d e := by
  cases r with
  | year => simp [cut, Value.ranked, comparePeriods, h]
  | month =>
    -- Both start with the same year, and the months have two digits each.
    have hmonth : ∀ {d e : CalendarDate}, d.year = e.year → d.month < e.month →
        (month.cut d).ranked (month.cut e) = .lt := by
      intro d e h hlt
      have := lastDigits_append_lt hlt e.month_lt [] []
      rw [List.append_nil, List.append_nil] at this
      rw [ranked_cut_eq_lt_iff hr, h]
      exact List.append_left_lt (List.cons_lt_cons_iff.2 (.inr ⟨rfl, this⟩))
    rw [comparePeriods, h, Nat.compare_eq_eq.2 rfl, Ordering.eq_then]
    rcases Nat.lt_trichotomy d.month e.month with hlt | heq | hgt
    · rw [hmonth h hlt, Nat.compare_eq_lt.2 hlt]
    · rw [Nat.compare_eq_eq.2 heq]
      simp [cut, Value.ranked, h, heq]
    · rw [← ranked_cut_swap, hmonth h.symm hgt, Nat.compare_eq_gt.2 hgt]
      rfl
  | day => exact absurd rfl hr

/-- The text of the earlier year of two dates comes before that of the later year. -/
def YearsInOrder (d e : CalendarDate) : Prop :=
  WritesInOrder (min d.year e.year) (max d.year e.year)

instance (d e : CalendarDate) : Decidable (YearsInOrder d e) :=
  inferInstanceAs (Decidable (WritesInOrder _ _))

theorem yearsInOrder_comm : YearsInOrder d e ↔ YearsInOrder e d := by
  rw [YearsInOrder, YearsInOrder, min_comm, max_comm]

/-- The years of four digits are written in order. -/
theorem yearsInOrder_of_four_digits (hd : 1000 ≤ d.year) (he : 1000 ≤ e.year) :
    YearsInOrder d e := by
  have hcount : ∀ {n : Nat}, 1000 ≤ n → n < 10 ^ 4 → digitCount n = 4 := by
    intro n hn hlt
    have hle : digitCount n ≤ 4 := (digitCount_le_iff (by omega)).2 hlt
    have hnot : ¬ digitCount n ≤ 3 := fun hle => by
      have := (digitCount_le_iff (by omega)).1 hle
      omega
    omega
  have hmin := hcount (le_min hd he) (min_lt_of_left_lt d.year_lt)
  have hmax := hcount (le_max_of_le_left hd) (max_lt d.year_lt e.year_lt)
  exact writesInOrder_of_digitCount_eq min_le_max (hmin.trans hmax.symm)

/-- Two buckets are in the order of time exactly if they are days or their years are written in
order. -/
theorem ranked_cut_iff :
    (r.cut d).ranked (r.cut e) = r.comparePeriods d e ↔ r = .day ∨ YearsInOrder d e := by
  by_cases hr : r = .day
  · subst hr
    simp [cut, Value.ranked_date, comparePeriods, CalendarDate.compare_ordinal]
  have hlater : ∀ {d e : CalendarDate}, d.year < e.year →
      ((r.cut d).ranked (r.cut e) = r.comparePeriods d e ↔ YearsInOrder d e) := by
    intro d e h
    rw [ranked_cut_of_year_lt hr h, comparePeriods_of_year_lt hr h, YearsInOrder,
      min_eq_left_of_lt h, max_eq_right_of_lt h]
    simp
  rw [or_iff_right hr]
  rcases Nat.lt_trichotomy d.year e.year with hlt | heq | hgt
  · exact hlater hlt
  · have hsame : YearsInOrder d e := by
      rw [YearsInOrder, heq, min_self, max_self]
      exact writesInOrder_of_digitCount_eq (Nat.le_refl _) rfl
    exact iff_of_true (ranked_cut_of_year_eq hr heq) hsame
  · rw [← ranked_cut_swap, ← comparePeriods_swap, Ordering.swap_inj, hlater hgt,
      yearsInOrder_comm]

/-- Buckets that tie are of one year. -/
theorem year_eq_of_ranked_cut (hr : r ≠ .day) (h : (r.cut d).ranked (r.cut e) = .eq) :
    d.year = e.year := by
  have hnotLt : ∀ {d e : CalendarDate}, (r.cut d).ranked (r.cut e) = .eq → ¬ d.year < e.year := by
    intro d e h hlt
    rw [ranked_cut_of_year_lt hr hlt] at h
    split at h
    · exact Ordering.noConfusion h
    · exact Ordering.noConfusion h
  have hswap : (r.cut e).ranked (r.cut d) = .eq := by
    rw [← ranked_cut_swap, h]
    rfl
  exact Nat.le_antisymm (Nat.le_of_not_lt (hnotLt hswap)) (Nat.le_of_not_lt (hnotLt h))

theorem ranked_cut_self (r : Resolution) (d : CalendarDate) : (r.cut d).ranked (r.cut d) = .eq := by
  have h := ranked_cut_swap r d d
  cases hd : (r.cut d).ranked (r.cut d) with
  | eq => rfl
  | lt => simp [hd] at h
  | gt => simp [hd] at h

/-- Dates fall into one bucket exactly if they lie in one year or month or on one day. -/
theorem cut_eq_cut_iff : r.cut d = r.cut e ↔ r.comparePeriods d e = .eq := by
  by_cases hr : r = .day
  · subst hr
    simp [cut, comparePeriods, CalendarDate.compare_eq_iff]
  · constructor
    · intro h
      have htie : (r.cut d).ranked (r.cut e) = .eq := by rw [h, ranked_cut_self]
      rw [← ranked_cut_of_year_eq hr (year_eq_of_ranked_cut hr htie), htie]
    · intro h
      cases r with
      | year => simp [cut, Nat.compare_eq_eq.1 h]
      | month =>
        simp only [comparePeriods, Ordering.then_eq_eq, Nat.compare_eq_eq] at h
        simp [cut, h]
      | day => exact absurd rfl hr

/-! ## Columns of buckets -/

/-- The bucket of a date; where there is none, the bucket is null. -/
def bucketOf (r : Resolution) (d : Option CalendarDate) : Value := d.elim .null r.cut

/-- The order of time of the years, months or days of two dates; none comes last. -/
def compareTimes (r : Resolution) : Option CalendarDate → Option CalendarDate → Ordering
  | some d, some e => r.comparePeriods d e
  | some _, none => .lt
  | none, some _ => .gt
  | none, none => .eq

theorem isNull_cut (r : Resolution) (d : CalendarDate) : (r.cut d).isNull = false := by
  cases r <;> rfl

/-- A column of buckets is compared as the times are. -/
theorem compare_bucketOf (x : String) {d e : Option CalendarDate}
    (h : r = .day ∨ ∀ t ∈ d, ∀ u ∈ e, YearsInOrder t u) :
    (SortKey.mk x false).compare (r.bucketOf d) (r.bucketOf e) = r.compareTimes d e := by
  have hnull : Value.isNull .null = true := rfl
  cases d with
  | none => cases e <;> simp [bucketOf, SortKey.compare, isNull_cut, hnull, compareTimes]
  | some d =>
    cases e with
    | none => simp [bucketOf, SortKey.compare, isNull_cut, hnull, compareTimes]
    | some e =>
      have hranked := ranked_cut_iff.2 (h.imp_right fun h => h d rfl e rfl)
      simp [bucketOf, SortKey.compare, isNull_cut, compareTimes, hranked]

/-- Sorting by a column of buckets is sorting by time. -/
theorem sortRows_bucketOf (x : String) {rows : List Record} {time : Record → Option CalendarDate}
    (hx : ∀ row ∈ rows, row.value x = r.bucketOf (time row))
    (h : r = .day ∨ ∀ row ∈ rows, ∀ row' ∈ rows, ∀ d ∈ time row, ∀ e ∈ time row',
      YearsInOrder d e) :
    sortRows [⟨x, false⟩] rows =
      rows.mergeSort fun row row' => r.compareTimes (time row) (time row') != .gt := by
  have hsame : ∀ row ∈ rows, ∀ row' ∈ rows, (compareRows row row' [⟨x, false⟩] != .gt) =
      (r.compareTimes (time row) (time row') != .gt) := by
    intro row hrow row' hrow'
    rw [compareRows, compareRows, Ordering.then_eq, hx row hrow, hx row' hrow',
      compare_bucketOf x (h.imp_right fun h => h row hrow row' hrow')]
  have hmap := List.map_mergeSort (f := id) (s := fun row row' => r.compareTimes (time row)
    (time row') != .gt) hsame
  rwa [List.map_id, List.map_id] at hmap

/-! ## Buckets in time -/

/-- **Buckets nest, and are in the order of time where years are written in order.** Dates fall into
one bucket exactly if they lie in one year or month or on one day; so what falls into one bucket by
days does so by months, and by months by years. Two buckets are in the order of time exactly if they
are days or the digits of the earlier year are not greater than the first digits of the later one,
as it is among years of four digits. To sort rows by a column of such buckets is to sort them by
time, behind which the rows without a date come. -/
theorem buckets_nest_and_order (r : Resolution) (d e : CalendarDate) :
    (r.bucket (.date d) = r.bucket (.date e) ↔ r.comparePeriods d e = .eq) ∧
    (day.bucket (.date d) = day.bucket (.date e) →
      month.bucket (.date d) = month.bucket (.date e)) ∧
    (month.bucket (.date d) = month.bucket (.date e) →
      year.bucket (.date d) = year.bucket (.date e)) ∧
    ((r.cut d).ranked (r.cut e) = r.comparePeriods d e ↔ r = .day ∨ YearsInOrder d e) ∧
    (1000 ≤ d.year → 1000 ≤ e.year → YearsInOrder d e) ∧
    ∀ (x : String) (rows : List Record) (time : Record → Option CalendarDate),
      (∀ row ∈ rows, row.value x = r.bucketOf (time row)) →
      (r = .day ∨ ∀ row ∈ rows, ∀ row' ∈ rows, ∀ d' ∈ time row, ∀ e' ∈ time row',
        YearsInOrder d' e') →
      sortRows [⟨x, false⟩] rows =
        rows.mergeSort fun row row' => r.compareTimes (time row) (time row') != .gt := by
  have hbucket (r : Resolution) :
      r.bucket (.date d) = r.bucket (.date e) ↔ r.comparePeriods d e = .eq := by
    rw [bucket_date, bucket_date, Except.ok.injEq]
    exact cut_eq_cut_iff
  refine ⟨hbucket r, fun h => ?_, fun h => ?_, ranked_cut_iff, yearsInOrder_of_four_digits,
    fun x rows time => sortRows_bucketOf x⟩
  · obtain rfl := CalendarDate.compare_eq_iff.1 ((hbucket day).1 h)
    rfl
  · exact (hbucket year).2 (Ordering.then_eq_eq.1 ((hbucket month).1 h)).1

/-- Visits by month, with the first day of each month that has any; some visits have no day. -/
def monthlyVisits : List Record :=
  [[("month", .null)],
    [("month", .text "2022-02"), ("first", .date ⟨2022, 2, 25, by decide⟩)],
    [("month", .text "2021-11"), ("first", .date ⟨2021, 11, 3, by decide⟩)]]

/-- The first day of the visits of a month. -/
def firstVisit (row : Record) : Option CalendarDate :=
  match row.value "first" with
  | .date d => some d
  | _ => none

/-- November comes before the next February, and sorted by the texts of their months the visits
stand in the order of time. -/
theorem buckets_nest_and_order_monthlyVisits :
    (month.cut ⟨2021, 11, 3, by decide⟩).ranked (month.cut ⟨2022, 2, 25, by decide⟩) = .lt ∧
    sortRows [⟨"month", false⟩] monthlyVisits =
      monthlyVisits.mergeSort
        fun row row' => month.compareTimes (firstVisit row) (firstVisit row') != .gt := by
  have hbuckets : ∀ row ∈ monthlyVisits, row.value "month" = month.bucketOf (firstVisit row) := by
    have hfebruary : month.cut ⟨2022, 2, 25, by decide⟩ = .text "2022-02" :=
      congrArg Value.text (by decide +kernel)
    have hnovember : month.cut ⟨2021, 11, 3, by decide⟩ = .text "2021-11" :=
      congrArg Value.text (by decide +kernel)
    simp only [monthlyVisits, List.forall_mem_cons]
    exact ⟨rfl, hfebruary.symm, hnovember.symm, by simp⟩
  have hfour : ∀ row ∈ monthlyVisits, ∀ d ∈ firstVisit row, 1000 ≤ d.year := by
    simp only [monthlyVisits, List.forall_mem_cons]
    refine ⟨?_, ?_, ?_, by simp⟩
    · rintro d ⟨⟩
    · rintro d ⟨⟩
      decide
    · rintro d ⟨⟩
      decide
  obtain ⟨-, -, -, horder, hyears, hsorted⟩ :=
    buckets_nest_and_order month ⟨2021, 11, 3, by decide⟩ ⟨2022, 2, 25, by decide⟩
  exact ⟨horder.2 (.inr (hyears (by decide) (by decide))),
    hsorted "month" monthlyVisits firstVisit hbuckets
      (.inr fun row hrow row' hrow' d hd e he =>
        yearsInOrder_of_four_digits (hfour row hrow d hd) (hfour row' hrow' e he))⟩

/-- December of the year 999 comes before January of the year 1000, and its text behind. -/
theorem cut_month_out_of_order :
    ¬ ∀ d e : CalendarDate, d.compare e ≠ .gt →
      (month.cut d).ranked (month.cut e) = month.comparePeriods d e := by
  intro h
  have hyears := ranked_cut_iff.1 (h ⟨999, 12, 1, by decide⟩ ⟨1000, 1, 1, by decide⟩ (by decide))
  exact absurd hyears (by decide)

end Resolution

end ChartQuery
