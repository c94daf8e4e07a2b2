import ChartQuery.Database.CommonType
import ChartQuery.Local.Bucket
import ChartQuery.Local.Coerce
import Mathlib.Algebra.Group.Nat.Defs

/-!
# Dates written and compared

Both readers of dates read back the written form of a date, and the number of a day orders days as
their years, months and days do. So a date is the same whether it is kept as such, written in a
condition, or turned into a moment.

## Main definitions

* `lastDigits width n`: the last digits of a number
* `Timestamp.timeOfDay`: microseconds since the first moment of the day

## Main results

* `DayText.read?_isoText`, `Iso.readDate_isoText`: written dates are read back
* `Iso.readTimestamp_isoText`: as a moment, a written date is the first one of its day
* `CalendarDate.compare_ordinal`: days are ordered as their numbers
* `Timestamp.compare?_midnight`: the first moment of a day lies behind the days before it only
* `DayText.partText_eq_cut`: years of four digits are cut alike
-/

namespace ChartQuery

/-! ## Digits -/

/-- The last digits of a number, as many as asked for. -/
def lastDigits : Nat → Nat → List Char
  | 0, _ => []
  | width + 1, n => lastDigits width (n / 10) ++ [(n % 10).digitChar]

theorem div_ten_lt {width n : Nat} (h : n < 10 ^ (width + 1)) : n / 10 < 10 ^ width := by
  rw [Nat.pow_succ] at h
  omega

theorem lastDigits_zero (width : Nat) : lastDigits width 0 = List.replicate width '0' := by
  induction width with
  | zero => rfl
  | succ width ih =>
    show lastDigits width 0 ++ ['0'] = _
    rw [ih, ← List.replicate_succ']

theorem length_lastDigits (width n : Nat) : (lastDigits width n).length = width := by
  induction width generalizing n with
  | zero => rfl
  | succ width ih => rw [lastDigits, List.length_append, ih, List.length_singleton]

theorem toList_padded_eq (width n : Nat) :
    (CalendarDate.padded width n).toList =
      List.replicate (width - (Nat.toDigits 10 n).length) '0' ++ Nat.toDigits 10 n := by
  simp [CalendarDate.padded, ← String.length_toList]

/-- A number that needs no more digits is written with them. -/
theorem toList_padded {width n : Nat} (hw : 0 < width) (h : n < 10 ^ width) :
    (CalendarDate.padded width n).toList = lastDigits width n := by
  induction width generalizing n with
  | zero => omega
  | succ width ih =>
    by_cases hn : n < 10
    · rw [toList_padded_eq, Nat.toDigits_of_lt_base hn, lastDigits, Nat.div_eq_of_lt hn,
        Nat.mod_eq_of_lt hn, lastDigits_zero]
      rfl
    · have hwidth : 0 < width := by
        rcases Nat.eq_zero_or_pos width with rfl | hpos
        · omega
        · exact hpos
      -- The last digit stands behind the number of tens, padded to one place less.
      rw [toList_padded_eq, Nat.toDigits_of_base_le (by omega) (by omega), lastDigits,
        ← ih hwidth (div_ten_lt h), toList_padded_eq, List.length_append, List.length_singleton,
        Nat.add_sub_add_right, List.append_assoc]

theorem digit?_digitChar {k : Nat} (h : k < 10) : Iso.digit? k.digitChar = some k := by
  rw [Iso.digit?, Nat.isDigit_digitChar, decide_eq_true h, if_pos rfl,
    Nat.toNat_digitChar_sub_48_of_lt_ten h]

/-- Reading one digit more is reading it behind the others. -/
theorem digitsFrom?_succ (acc width : Nat) (cs : List Char) :
    Iso.digitsFrom? acc (width + 1) cs =
      (Iso.digitsFrom? acc width cs).bind fun r => Iso.digitsFrom? r.1 1 r.2 := by
  induction width generalizing acc cs with
  | zero => rfl
  | succ width ih =>
    cases cs with
    | nil => rfl
    | cons c cs =>
      rw [Iso.digitsFrom?, Iso.digitsFrom?]
      cases Iso.digit? c with
      | none => rfl
      | some d => exact ih _ _

/-- Reading digits that were written gives the number, behind what was read before them. -/
theorem digitsFrom?_lastDigits (width acc n : Nat) (rest : List Char) (h : n < 10 ^ width) :
    Iso.digitsFrom? acc width (lastDigits width n ++ rest) =
      some (10 ^ width * acc + n, rest) := by
  induction width generalizing acc n rest with
  | zero =>
    have : n = 0 := by simpa using h
    subst this
    simp [Iso.digitsFrom?, lastDigits]
  | succ width ih =>
    rw [digitsFrom?_succ, lastDigits, List.append_assoc, ih _ _ _ (div_ten_lt h),
      Option.bind_some]
    have hvalue : 10 * (10 ^ width * acc + n / 10) + n % 10 = 10 ^ (width + 1) * acc + n := by
      rw [Nat.pow_succ, Nat.mul_add, ← Nat.mul_assoc, Nat.mul_comm 10]
      omega
    rw [← hvalue]
    simp [Iso.digitsFrom?, digit?_digitChar (Nat.mod_lt n (by omega))]

theorem isDigit_of_mem_lastDigits {width n : Nat} : ∀ c ∈ lastDigits width n, c.isDigit = true := by
  induction width generalizing n with
  | zero => simp [lastDigits]
  | succ width ih =>
    intro c hc
    rcases List.mem_append.1 hc with hc | hc
    · exact ih c hc
    · rw [List.mem_singleton.1 hc, Nat.isDigit_digitChar, decide_eq_true (Nat.mod_lt n (by omega))]

theorem digitsValue_lastDigits {width n : Nat} (h : n < 10 ^ width) :
    digitsValue (lastDigits width n) = n := by
  induction width generalizing n with
  | zero => exact (Nat.lt_one_iff.1 h).symm
  | succ width ih =>
    have hdigit : (n % 10).digitChar.toNat - 0x30 = n % 10 :=
      Nat.toNat_digitChar_sub_48_of_lt_ten (Nat.mod_lt n (by omega))
    have hlast : digitsValue (lastDigits (width + 1) n) =
        10 * digitsValue (lastDigits width (n / 10)) + ((n % 10).digitChar.toNat - 0x30) := by
      rw [digitsValue, lastDigits, List.foldl_append]
      rfl
    rw [hlast, ih (div_ten_lt h), hdigit]
    omega

theorem shortNumber?_lastDigits {n : Nat} (h : n < 100) (rest : List Char) :
    Written.shortNumber? true (lastDigits 2 n ++ rest) = some (n, rest) := by
  have htens : n / 10 % 10 < 10 := Nat.mod_lt _ (by omega)
  have hones : n % 10 < 10 := Nat.mod_lt _ (by omega)
  show Written.shortNumber? true ((n / 10 % 10).digitChar :: (n % 10).digitChar :: rest) = _
  simp only [Written.shortNumber?, digit?_digitChar htens, digit?_digitChar hones,
    Option.some.injEq, Prod.mk.injEq, and_true]
  omega

/-! ## Written dates -/

namespace CalendarDate

theorem year_lt (d : CalendarDate) : d.year < 10 ^ 4 := by
  have := d.valid.1.2
  omega

theorem month_lt (d : CalendarDate) : d.month < 10 ^ 2 := by
  have := d.valid.2.1.2
  omega

theorem day_lt (d : CalendarDate) : d.day < 10 ^ 2 := by
  have hlast : daysInMonth d.year d.month ≤ 31 := by
    unfold daysInMonth
    split
    · split <;> omega
    · split <;> omega
  have := d.valid.2.2.2
  omega

/-- The written form of a date: four digits, two and two, with hyphens between them. -/
theorem toList_isoText (d : CalendarDate) :
    d.isoText.toList =
      lastDigits 4 d.year ++ ('-' :: (lastDigits 2 d.month ++ ('-' :: lastDigits 2 d.day))) := by
  simp only [isoText, String.toList_append, toList_padded (by omega) d.year_lt,
    toList_padded (by omega) d.month_lt, toList_padded (by omega) d.day_lt, List.append_assoc]
  rfl

theorem length_isoText (d : CalendarDate) : d.isoText.toList.length = 10 := by
  simp [toList_isoText, length_lastDigits]

end CalendarDate

/-- The written form is one of digits and hyphens. -/
theorem CalendarDate.isDigit_of_mem_isoText {d : CalendarDate} :
    ∀ c ∈ d.isoText.toList, c.isDigit = true ∨ c = '-' := by
  intro c hc
  simp only [d.toList_isoText, List.mem_append, List.mem_cons] at hc
  rcases hc with hc | rfl | hc | rfl | hc
  · exact .inl (isDigit_of_mem_lastDigits c hc)
  · exact .inr rfl
  · exact .inl (isDigit_of_mem_lastDigits c hc)
  · exact .inr rfl
  · exact .inl (isDigit_of_mem_lastDigits c hc)

theorem CalendarDate.byteChars_isoText (d : CalendarDate) :
    Text.byteChars d.isoText = d.isoText.toList := by
  refine Text.byteChars_ascii fun c hc => ?_
  rcases CalendarDate.isDigit_of_mem_isoText c hc with h | rfl
  · have := (Text.toNat_of_isDigit h).2
    omega
  · decide

/-- Behind the year stands a digit of the month and not the letter of a week. -/
theorem CalendarDate.tensOfMonth_ne_W (d : CalendarDate) : (d.month / 10 % 10).digitChar ≠ 'W' := by
  intro h
  have hdigit := congrArg Char.isDigit h
  rw [Nat.isDigit_digitChar, decide_eq_true (Nat.mod_lt _ (by omega))] at hdigit
  exact absurd hdigit (by decide)

/-- The numbers of a written date are its own. -/
theorem Iso.dateNumbers?_isoText (d : CalendarDate) :
    Iso.dateNumbers? d.isoText.toList = some (.day d.year d.month d.day) := by
  have hyear : digits? 4 d.isoText.toList =
      some (d.year, '-' :: (lastDigits 2 d.month ++ ('-' :: lastDigits 2 d.day))) := by
    rw [d.toList_isoText, digits?, digitsFrom?_lastDigits 4 0 _ _ d.year_lt]
    simp
  have hmonth : digits? 2 (lastDigits 2 d.month ++ ('-' :: lastDigits 2 d.day)) =
      some (d.month, '-' :: lastDigits 2 d.day) := by
    rw [digits?, digitsFrom?_lastDigits 2 0 _ _ d.month_lt]
    simp
  have hday : digits? 2 (lastDigits 2 d.day) = some (d.day, []) := by
    have := digitsFrom?_lastDigits 2 0 d.day [] d.day_lt
    rw [List.append_nil] at this
    rw [digits?, this]
    simp
  have hsecond : lastDigits 2 d.month ++ ('-' :: lastDigits 2 d.day) =
      (d.month / 10 % 10).digitChar :: ([(d.month % 10).digitChar] ++
        ('-' :: lastDigits 2 d.day)) := rfl
  simp only [dateNumbers?, hyear, bind, Option.bind, List.head?_cons, BEq.rfl, hyphen?]
  rw [hsecond]
  split
  · rename_i h
    exact absurd (List.cons.inj h).1 d.tensOfMonth_ne_W
  · rw [← hsecond, hmonth]
    simp only [hday]

/-- A written date is read as that date. -/
theorem Iso.readDate_isoText (d : CalendarDate) : Iso.readDate d.isoText = .ok d := by
  rw [Iso.readDate, d.byteChars_isoText, Iso.dateNumbers?_isoText]
  simp only [d.length_isoText, Iso.DateNumbers.date, CalendarDate.of?_self]
  rfl

theorem Iso.dateLength_isoText (d : CalendarDate) : Iso.dateLength d.isoText.toList = 10 := by
  have hyear := length_lastDigits 4 d.year
  have hhyphen : d.isoText.toList[4]? = some '-' := by
    rw [d.toList_isoText, List.getElem?_append_right (by omega), hyear]
    rfl
  have hmonth : d.isoText.toList[5]? = some (d.month / 10 % 10).digitChar := by
    rw [d.toList_isoText, List.getElem?_append_right (by omega), hyear]
    rfl
  have hnoWeek : (some (d.month / 10 % 10).digitChar == some 'W') = false := by
    simp [d.tensOfMonth_ne_W]
  simp only [Iso.dateLength, d.length_isoText, hhyphen, hmonth, hnoWeek, BEq.rfl]
  rfl

/-- A timestamp is the one of its own parts. -/
theorem Timestamp.of?_self (t : Timestamp) :
    Timestamp.of? t.date t.hour t.minute t.second t.micro t.offset = .ok t := by
  simp [Timestamp.of?, t.valid]

/-- As a moment a written date is read as the first one of its day. -/
theorem Iso.readTimestamp_isoText (d : CalendarDate) :
    Iso.readTimestamp d.isoText = .ok (.midnight d) := by
  have hlength := d.length_isoText
  have hmidnight : Timestamp.of? d 0 0 0 0 none = .ok (.midnight d) :=
    Timestamp.of?_self (.midnight d)
  have hdate : (DateNumbers.day d.year d.month d.day).date = .ok d := by
    rw [DateNumbers.date, CalendarDate.of?_self]
    rfl
  rw [Iso.readTimestamp, d.byteChars_isoText, Iso.dateLength_isoText,
    List.take_of_length_le (Nat.le_of_eq hlength), Iso.dateNumbers?_isoText,
    List.drop_of_length_le (Nat.le_of_eq hlength)]
  simp only [List.isEmpty_nil, if_true, bind, Except.bind, hdate, hmidnight]
  rfl

theorem isSpace_of_isDigit {c : Char} (h : c.isDigit = true) : Written.isSpace c = false := by
  have hc := Text.toNat_of_isDigit h
  have hne : c ≠ ' ' := by
    rintro rfl
    exact absurd hc.1 (by decide)
  have hnot : ¬ (9 ≤ c.toNat ∧ c.toNat ≤ 13) := by omega
  simpa [Written.isSpace, hne] using hnot

/-- A day is read from the digits of its year, a month and a day of the month. -/
theorem DayText.inFront?_digits {ds rest : List Char} {month day : Nat}
    (hds : ∀ c ∈ ds, c.isDigit = true) (hne : ds ≠ []) (hlen : ds.length ≤ 9)
    (hrest : rest.head? = some '-') (hread : monthAndDay? rest = some ((month, day), []))
    (hyear : isYear (digitsValue ds) = true) (hmonth : 1 ≤ month ∧ month ≤ 12)
    (hday : 1 ≤ day ∧ day ≤ daysInMonth (digitsValue ds) month) :
    inFront? (ds ++ rest) = some (.day (digitsValue ds) month day, []) := by
  obtain ⟨c, cs, rfl⟩ := List.exists_cons_of_ne_nil hne
  obtain ⟨rest, rfl⟩ := List.head?_eq_some_iff.1 hrest
  have hc := hds c List.mem_cons_self
  have hhead : ((c :: cs ++ '-' :: rest).head? == some '-') = false := by
    refine beq_eq_false_iff_ne.2 fun h => ?_
    rw [Option.some.inj h] at hc
    exact absurd hc (by decide)
  -- No blanks stand in front, and the digits end with the hyphen.
  have hdrop : (c :: cs ++ '-' :: rest).dropWhile Written.isSpace = c :: cs ++ '-' :: rest := by
    rw [List.cons_append, List.dropWhile_cons_of_neg (by simp [isSpace_of_isDigit hc])]
  have htake : (c :: cs ++ '-' :: rest).takeWhile Char.isDigit = c :: cs := by
    rw [List.takeWhile_append_of_pos hds]
    simp
  have hbehind : (c :: cs ++ '-' :: rest).dropWhile Char.isDigit = '-' :: rest := by
    rw [List.dropWhile_append_of_pos hds]
    simp
  have hlong : ¬ 9 < (c :: cs).length := by omega
  simp only [inFront?, hdrop, hhead, htake, hbehind, hread, Bool.false_eq_true, if_false, hlong]
  simp [beforeYearOne?, hyear, hmonth, hday]

/-- A database reads a written date as that date. -/
theorem DayText.read?_isoText (d : CalendarDate) :
    DayText.read? d.isoText = some (.day d.year d.month d.day) := by
  have hmonth : monthAndDay? ('-' :: (lastDigits 2 d.month ++ ('-' :: lastDigits 2 d.day))) =
      some ((d.month, d.day), []) := by
    have := shortNumber?_lastDigits d.day_lt []
    rw [List.append_nil] at this
    simp [monthAndDay?, isMark, shortNumber?_lastDigits d.month_lt, this]
  have hvalue := digitsValue_lastDigits d.year_lt
  have hyear : isYear (d.year : Int) = true := by
    have := d.year_lt
    simp only [isYear, Bool.and_eq_true, decide_eq_true_eq]
    omega
  have hdigits : ∀ c ∈ lastDigits 4 d.year, c.isDigit = true := isDigit_of_mem_lastDigits
  have hfront := inFront?_digits hdigits
    (List.ne_nil_of_length_pos (by rw [length_lastDigits]; omega))
    (by rw [length_lastDigits]; omega) rfl hmonth (by rwa [hvalue]) d.valid.2.1
    (by rw [hvalue]; exact d.valid.2.2)
  rw [hvalue, ← d.toList_isoText] at hfront
  rw [DayText.read?, hfront]
  rfl

/-! ## The order of days -/

namespace CalendarDate

theorem daysBeforeMonth_succ (year : Nat) {month : Nat} (h : 1 ≤ month) :
    daysBeforeMonth year (month + 1) = daysBeforeMonth year month + daysInMonth year month := by
  obtain ⟨m, rfl⟩ : ∃ m, month = m + 1 := ⟨month - 1, by omega⟩
  simp [daysBeforeMonth, List.range_succ]

theorem daysBeforeMonth_le (year : Nat) {m n : Nat} (hm : 1 ≤ m) (h : m < n) :
    daysBeforeMonth year m + daysInMonth year m ≤ daysBeforeMonth year n := by
  induction h with
  | refl => exact Nat.le_of_eq (daysBeforeMonth_succ year hm).symm
  | step hn ih =>
    have hn' := Nat.le_of_succ_le hn
    rw [daysBeforeMonth_succ year (Nat.le_trans hm hn')]
    exact Nat.le_add_right_of_le ih

theorem daysBeforeMonth_thirteen (year : Nat) :
    daysBeforeMonth year 13 = 365 + (if isLeapYear year then 1 else 0) := by
  cases h : isLeapYear year <;> simp [daysBeforeMonth, List.range_succ, daysInMonth, h]

theorem daysBeforeYear_succ {year : Nat} (h : 1 ≤ year) :
    daysBeforeYear (year + 1) = daysBeforeYear year + 365 + (if isLeapYear year then 1 else 0) := by
  obtain ⟨y, rfl⟩ : ∃ y, year = y + 1 := ⟨year - 1, by omega⟩
  have hleap : isLeapYear (y + 1) = true ↔ 4 ∣ y + 1 ∧ (¬ 100 ∣ y + 1 ∨ 400 ∣ y + 1) := by
    simp [isLeapYear, Nat.dvd_iff_mod_eq_zero]
  have h100 : 100 ∣ y + 1 → 4 ∣ y + 1 := fun h => Nat.dvd_trans ⟨25, rfl⟩ h
  have h400 : 400 ∣ y + 1 → 100 ∣ y + 1 := fun h => Nat.dvd_trans ⟨4, rfl⟩ h
  have hle : y / 100 ≤ y / 4 := Nat.div_le_div_left (by omega) (by omega)
  simp only [daysBeforeYear, Nat.add_sub_cancel, Nat.succ_div, hleap]
  -- The quotients by 4, 100 and 400 grow at the multiples of each, which are those of the one
  -- before it as well.
  by_cases h4 : 4 ∣ y + 1
  · by_cases hc : 100 ∣ y + 1
    · by_cases hq : 400 ∣ y + 1
      · simp only [h4, hc, hq, if_true, not_true, or_true, and_true]
        omega
      · simp only [h4, hc, hq, if_true, if_false, not_true, or_false, and_false]
        omega
    · have hq : ¬ 400 ∣ y + 1 := fun h => hc (h400 h)
      simp only [h4, hc, hq, if_true, if_false, not_false_eq_true, true_or, and_true]
      omega
  · have hc : ¬ 100 ∣ y + 1 := fun h => h4 (h100 h)
    have hq : ¬ 400 ∣ y + 1 := fun h => hc (h400 h)
    simp only [h4, hc, hq, if_false, false_and]
    omega

theorem daysBeforeYear_le {y z : Nat} (hy : 1 ≤ y) (h : y < z) :
    daysBeforeYear (y + 1) ≤ daysBeforeYear z := by
  induction h with
  | refl => exact Nat.le_refl _
  | step hz ih =>
    rw [daysBeforeYear_succ (Nat.le_trans hy (Nat.le_of_succ_le hz))]
    omega

/-- No day has a number beyond its year. -/
theorem ordinal_le (d : CalendarDate) : d.ordinal ≤ daysBeforeYear (d.year + 1) := by
  obtain ⟨⟨hy, -⟩, ⟨hm, hm'⟩, -, hday⟩ := d.valid
  have := daysBeforeMonth_le d.year hm (by omega : d.month < 13)
  rw [daysBeforeMonth_thirteen] at this
  rw [daysBeforeYear_succ hy, ordinal]
  omega

theorem ordinal_lt_of_compare {d e : CalendarDate} (h : d.compare e = .lt) :
    d.ordinal < e.ordinal := by
  obtain ⟨⟨hy, -⟩, ⟨hm, -⟩, -, hday⟩ := d.valid
  have hday' := e.valid.2.2.1
  simp only [compare, Ordering.then_eq_lt, Nat.compare_eq_lt, Nat.compare_eq_eq] at h
  rcases h with hlt | ⟨heq, hlt | ⟨heq', hlt⟩⟩
  -- The first of year, month and day that differs decides, as what is behind it is too small.
  · have := daysBeforeYear_le hy hlt
    have := d.ordinal_le
    rw [ordinal.eq_def e]
    omega
  · have := daysBeforeMonth_le e.year hm hlt
    rw [ordinal, ordinal, heq]
    rw [heq] at hday
    omega
  · rw [ordinal, ordinal, heq, heq']
    omega

theorem compare_swap (d e : CalendarDate) : (d.compare e).swap = e.compare d := by
  simp only [compare, Ordering.swap_then, Nat.compare_swap]

theorem compare_eq_iff {d e : CalendarDate} : d.compare e = .eq ↔ d = e := by
  cases d
  cases e
  simp [compare]

/-- Days are ordered as their numbers. -/
theorem compare_ordinal (d e : CalendarDate) : Ord.compare d.ordinal e.ordinal = d.compare e := by
  cases h : d.compare e with
  | lt => exact Nat.compare_eq_lt.2 (ordinal_lt_of_compare h)
  | eq => rw [compare_eq_iff.1 h, Nat.compare_eq_eq]
  | gt =>
    refine Nat.compare_eq_gt.2 (ordinal_lt_of_compare ?_)
    rw [← compare_swap, h]
    rfl

end CalendarDate

/-! ## Times of day -/

/-- Microseconds since the first moment of the day. -/
def Timestamp.timeOfDay (t : Timestamp) : Nat :=
  ((t.hour * 60 + t.minute) * 60 + t.second) * 1000000 + t.micro

namespace Timestamp

theorem timeOfDay_lt (t : Timestamp) : t.timeOfDay < 86400000000 := by
  obtain ⟨⟨hhour, hminute, hsecond, hmicro⟩, -⟩ := t.valid
  rw [timeOfDay]
  omega

theorem clockMicros_eq (t : Timestamp) :
    t.clockMicros = t.date.ordinal * 86400000000 + t.timeOfDay := by
  simp only [clockMicros, timeOfDay]
  omega

/-- Timestamps without an offset are the same if they show the same time by their clocks. -/
theorem eq_of_clockMicros_eq {t u : Timestamp} (ht : t.offset = none) (hu : u.offset = none)
    (h : t.clockMicros = u.clockMicros) : t = u := by
  have htlt := t.timeOfDay_lt
  have hult := u.timeOfDay_lt
  rw [clockMicros_eq, clockMicros_eq] at h
  have hday : t.date.ordinal = u.date.ordinal := by omega
  have htime : t.timeOfDay = u.timeOfDay := by omega
  have hdate : t.date = u.date :=
    CalendarDate.compare_eq_iff.1 (by rw [← CalendarDate.compare_ordinal, Nat.compare_eq_eq, hday])
  obtain ⟨⟨htHour, htMinute, htSecond, htMicro⟩, -⟩ := t.valid
  obtain ⟨⟨huHour, huMinute, huSecond, huMicro⟩, -⟩ := u.valid
  -- Each part of the time is a digit of its own in the number of microseconds.
  rw [timeOfDay, timeOfDay] at htime
  have hhour : t.hour = u.hour := by omega
  have hminute : t.minute = u.minute := by omega
  have hsecond : t.second = u.second := by omega
  have hmicro : t.micro = u.micro := by omega
  cases t
  cases u
  rw [mk.injEq]
  exact ⟨hdate, hhour, hminute, hsecond, hmicro, ht.trans hu.symm⟩

theorem isMidnight_iff {t : Timestamp} : t.isMidnight = true ↔ t.timeOfDay = 0 := by
  simp only [isMidnight, timeOfDay, Bool.and_eq_true, beq_iff_eq]
  omega

/-- A timestamp without an offset is compared with the first moment of a day as its own day is, and
on that day itself by its time. -/
theorem compare?_midnight {t : Timestamp} (h : t.offset = none) (d : CalendarDate) :
    t.compare? (midnight d) =
      some ((t.date.compare d).then (if t.isMidnight then .eq else .gt)) := by
  have hlt := t.timeOfDay_lt
  have hmidnight : (midnight d).clockMicros = d.ordinal * 86400000000 := by
    rw [clockMicros_eq]
    simp [midnight, timeOfDay]
  have hoffset : (midnight d).offset = none := rfl
  simp only [compare?, h, hoffset, Option.some.injEq]
  rw [clockMicros_eq, hmidnight, ← CalendarDate.compare_ordinal]
  rcases Nat.lt_trichotomy t.date.ordinal d.ordinal with hday | hday | hday
  · rw [Nat.compare_eq_lt.2 hday, Int.compare_eq_lt.2 (by omega)]
    rfl
  · rw [Nat.compare_eq_eq.2 hday, hday]
    by_cases hzero : t.isMidnight = true
    · rw [if_pos hzero, isMidnight_iff.1 hzero]
      exact Int.compare_eq_eq.2 (by omega)
    · have hpos : t.timeOfDay ≠ 0 := fun h => hzero (isMidnight_iff.2 h)
      rw [if_neg hzero]
      exact Int.compare_eq_gt.2 (by omega)
  · rw [Nat.compare_eq_gt.2 hday, Int.compare_eq_gt.2 (by omega)]
    rfl

end Timestamp

/-! ## Dates within comparisons -/

/-- The first moment of a day. -/
def CalendarDate.clockTime (d : CalendarDate) : ClockTime := .at (d.ordinal * 86400000000)

theorem CalendarDate.compare_clockTime (d e : CalendarDate) :
    d.clockTime.compare e.clockTime = d.compare e := by
  rw [← compare_ordinal]
  show Ord.compare ((d.ordinal : Int) * 86400000000) (e.ordinal * 86400000000) = _
  rcases Nat.lt_trichotomy d.ordinal e.ordinal with h | h | h
  · rw [Nat.compare_eq_lt.2 h, Int.compare_eq_lt]
    omega
  · rw [Nat.compare_eq_eq.2 h, h, Int.compare_eq_eq]
  · rw [Nat.compare_eq_gt.2 h, Int.compare_eq_gt]
    omega

theorem Value.eqv_text (s t : String) : eqv (text s) (text t) = (Ord.compare s t == .eq) := by
  rw [eqv, Bool.eq_iff_iff, beq_iff_eq, beq_iff_eq, Std.LawfulEqOrd.compare_eq_iff_eq]

theorem Value.eqv_date (d e : CalendarDate) : eqv (date d) (date e) = (d.compare e == .eq) := by
  rw [eqv, Bool.eq_iff_iff, beq_iff_eq, beq_iff_eq, CalendarDate.compare_eq_iff]

/-- A database compares a date as the first moment of its day. -/
theorem Value.moment?_date (d : CalendarDate) :
    (Value.date d).moment? .date = some d.clockTime := by
  have h : (Timestamp.midnight d).clockMicros = d.ordinal * 86400000000 := by
    simp only [Timestamp.clockMicros, Timestamp.midnight]
    omega
  simp only [Value.moment?, Value.universal?, Option.map_some, h, CalendarDate.clockTime]

/-- A database compares a written date as the date that it writes. -/
theorem Value.moment?_isoText (d : CalendarDate) :
    (Value.text d.isoText).moment? .date = some d.clockTime := by
  simp only [Value.moment?, if_true, DayText.read?_isoText, Option.map_some, ClockTime.ofDay,
    dayNumber_eq_ordinal, CalendarDate.clockTime]

/-- Beside a date a written date is read as the date that it writes. -/
theorem Value.readDay_isoText (d : CalendarDate) :
    Value.readDay d.isoText = .ok (.date d) := by
  have h : Value.dateText d.isoText = d.isoText := by
    rw [Value.dateText, List.take_of_length_le (Nat.le_of_eq d.length_isoText),
      String.ofList_toList]
  rw [Value.readDay, h, Iso.readDate_isoText]
  rfl

/-- Two dates, one of them written, are compared as dates. -/
theorem coercePair_date_isoText (d e : CalendarDate) :
    coercePair (.date d) (.text e.isoText) = .ok (.date d, .date e) := by
  simp only [coercePair, coercedPair, Value.readDay_isoText]
  rfl

/-- Beside a timestamp a written date is read as the first moment of its day. -/
theorem Value.readMoment_isoText (d : CalendarDate) :
    Value.readMoment d.isoText = .ok (.timestamp (.midnight d)) := by
  rw [Value.readMoment, Iso.readTimestamp_isoText]
  rfl

/-! ## Dates cut to a resolution -/

theorem padded_four {n : Nat} (h : 1000 ≤ n) : CalendarDate.padded 4 n = toString n := by
  have hlen : 4 ≤ (toString n).length := by
    have := (Nat.length_toDigits_le_iff (b := 10) (n := n) (k := 3) (by omega) (by omega)).1
    rw [Nat.toString_eq_ofList_toDigits, String.length_ofList]
    omega
  rw [CalendarDate.padded, Nat.sub_eq_zero_of_le hlen]
  simp

/-- Years of four digits are written alike by both ways to cut a date. -/
theorem DayText.partText_eq_cut {d : CalendarDate} (h : 1000 ≤ d.year) (monthly : Bool) :
    Value.text ((DayText.day d.year d.month d.day).partText monthly) =
      (if monthly then Resolution.month else .year).cut d := by
  have hyear : DayText.yearText d.year = toString d.year := by
    have hpos : ¬ (d.year : Int) < 0 := by omega
    rw [DayText.yearText, if_neg hpos, Int.natAbs_natCast, padded_four h]
  cases monthly with
  | false => simp [DayText.partText, hyear, Resolution.cut]
  | true => simp [DayText.partText, hyear, Resolution.cut, String.append_assoc]

end ChartQuery
