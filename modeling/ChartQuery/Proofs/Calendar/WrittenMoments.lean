import ChartQuery.Proofs.Calendar.Dates

/-!
# Moments written out and cut

A date or a timestamp that is written out is read back to its own day, so that a column falls into
the same buckets whether it holds dates, timestamps or the texts of either. The offset of a written
time does not move the day, and blanks around a text do not count.

## Main definitions

* `EndsInDigit cs`, `IsFramed cs`: the characters end, or start and end, with a digit
* `Timestamp.HasWholeMinutes t`: the offset of the timestamp, if any, is one of whole minutes
* `Timestamp.writtenClock`, `Timestamp.writtenZone`: the characters of a written time and of the
  offset at its end

## Main results

* `Timestamp.timeEnds?_writtenClock`: a written time is read back
* `Written.readDay?_isoText`, `Timestamp.readDay?_isoText`: the day in front of it is read back
* `Value.day?_text_of_isFramed`: blanks around a text do not count
* `Resolution.bucket_written`: a moment falls into the bucket of its date, however it is kept
-/

namespace ChartQuery

/-! ## Texts framed by digits -/

/-- The last character is a digit. -/
def EndsInDigit (cs : List Char) : Prop := ∃ c ∈ cs.getLast?, c.isDigit = true

/-- The characters start and end with a digit. -/
def IsFramed (cs : List Char) : Prop := (∃ c ∈ cs.head?, c.isDigit = true) ∧ EndsInDigit cs

theorem EndsInDigit.append (cs : List Char) {ds : List Char} (h : EndsInDigit ds) :
    EndsInDigit (cs ++ ds) := by
  obtain ⟨c, hlast, hc⟩ := h
  refine ⟨c, ?_, hc⟩
  rw [List.getLast?_append, hlast]
  rfl

theorem EndsInDigit.cons (c : Char) {ds : List Char} (h : EndsInDigit ds) : EndsInDigit (c :: ds) :=
  h.append [c]

theorem IsFramed.append {cs ds : List Char} (hcs : IsFramed cs) (hds : EndsInDigit ds) :
    IsFramed (cs ++ ds) := by
  obtain ⟨⟨c, hhead, hc⟩, -⟩ := hcs
  obtain ⟨r, rfl⟩ := List.head?_eq_some_iff.1 hhead
  exact ⟨⟨c, rfl, hc⟩, hds.append _⟩

theorem isFramed_lastDigits (width n : Nat) : IsFramed (lastDigits (width + 1) n) := by
  have hne : lastDigits (width + 1) n ≠ [] :=
    List.ne_nil_of_length_pos (by rw [length_lastDigits]; omega)
  exact ⟨⟨_, List.head?_eq_some_head hne, isDigit_of_mem_lastDigits _ (List.head_mem hne)⟩,
    ⟨_, List.getLast?_eq_some_getLast hne, isDigit_of_mem_lastDigits _ (List.getLast_mem hne)⟩⟩

theorem not_isBlank_of_isDigit {c : Char} (h : c.isDigit = true) : Text.isBlank c = false := by
  have hc := Text.toNat_of_isDigit h
  simp only [Text.isBlank, Bool.or_eq_false_iff, Bool.and_eq_false_iff, decide_eq_false_iff_not,
    beq_eq_false_iff_ne]
  omega

/-- Blanks around characters that are framed by digits are all that is trimmed. -/
theorem IsFramed.trimBlanks {cs : List Char} (h : IsFramed cs) {front back : List Char}
    (hfront : ∀ c ∈ front, Text.isBlank c = true) (hback : ∀ c ∈ back, Text.isBlank c = true) :
    Text.trimBlanks (front ++ (cs ++ back)) = cs := by
  obtain ⟨⟨c, hhead, hc⟩, d, hlast, hd⟩ := h
  obtain ⟨r, rfl⟩ := List.head?_eq_some_iff.1 hhead
  rw [← List.head?_reverse] at hlast
  obtain ⟨r', hr'⟩ := List.head?_eq_some_iff.1 hlast
  have hdropFront : Text.trimFront (front ++ (c :: r ++ back)) = c :: r ++ back := by
    rw [Text.trimFront, List.dropWhile_append_of_pos hfront, List.cons_append,
      List.dropWhile_cons_of_neg (by simp [not_isBlank_of_isDigit hc])]
  rw [Text.trimBlanks, hdropFront, Text.trimBack, List.reverse_append,
    List.dropWhile_append_of_pos (by simpa using hback), hr',
    List.dropWhile_cons_of_neg (by simp [not_isBlank_of_isDigit hd]), ← hr', List.reverse_reverse]

/-- No null character stands at the end of characters that are framed by digits. -/
theorem IsFramed.withoutFinalNulls {cs : List Char} (h : IsFramed cs) :
    withoutFinalNulls (String.ofList cs) = String.ofList cs := by
  obtain ⟨-, d, hlast, hd⟩ := h
  have hne : (d == '\x00') = false := by
    refine beq_eq_false_iff_ne.2 ?_
    rintro rfl
    exact absurd hd (by decide)
  rw [← List.head?_reverse] at hlast
  obtain ⟨r, hr⟩ := List.head?_eq_some_iff.1 hlast
  rw [ChartQuery.withoutFinalNulls, String.toList_ofList, hr,
    List.dropWhile_cons_of_neg (by simp [hne]), ← hr, List.reverse_reverse]

/-- Blanks around a text that is framed by digits do not count for its day. -/
theorem Value.day?_text_of_isFramed {s front back : String} (h : IsFramed s.toList)
    (hfront : ∀ c ∈ front.toList, Text.isBlank c = true)
    (hback : ∀ c ∈ back.toList, Text.isBlank c = true) :
    (Value.text (front ++ s ++ back)).day? = Written.readDay? s := by
  have htrim : Text.trim (front ++ s ++ back) = String.ofList s.toList := by
    rw [Text.trim, String.toList_append, String.toList_append, List.append_assoc,
      h.trimBlanks hfront hback]
  rw [Value.day?, htrim, h.withoutFinalNulls, String.ofList_toList]

/-! ## The day in front -/

theorem CalendarDate.isFramed_isoText (d : CalendarDate) : IsFramed d.isoText.toList := by
  have hday : EndsInDigit ('-' :: lastDigits 2 d.day) := (isFramed_lastDigits 1 d.day).2.cons '-'
  rw [d.toList_isoText]
  exact (isFramed_lastDigits 3 d.year).append ((hday.append _).cons '-')

namespace Written

/-- The year of four digits is read back. -/
theorem yearPart_lastDigits {n : Nat} (h : n < 10 ^ 4) (rest : List Char) :
    yearPart (lastDigits 4 n ++ rest) = ((n : Int), rest) := by
  obtain ⟨⟨c, hhead, hc⟩, -⟩ := isFramed_lastDigits 3 n
  obtain ⟨r, hr⟩ := List.head?_eq_some_iff.1 hhead
  have hnot : ¬ (lastDigits 4 n ++ rest).head? = some '-' := by
    rw [hr]
    rintro ⟨⟩
    exact absurd hc (by decide)
  have hdigits : Iso.digits? 4 (lastDigits 4 n ++ rest) = some (n, rest) := by
    rw [Iso.digits?, digitsFrom?_lastDigits 4 0 n rest h, Nat.mul_zero, Nat.zero_add]
  simp only [yearPart, if_neg hnot, hdigits]

/-- A written date is read back, whatever follows it. -/
theorem dayPart?_isoText (d : CalendarDate) (rest : List Char) :
    dayPart? (d.isoText.toList ++ rest) = some (.date d, rest) := by
  have hyear : yearPart (d.isoText.toList ++ rest) =
      ((d.year : Int), '-' :: (lastDigits 2 d.month ++ ('-' :: (lastDigits 2 d.day ++ rest)))) := by
    rw [d.toList_isoText, List.append_assoc, yearPart_lastDigits d.year_lt, List.cons_append,
      List.append_assoc, List.cons_append]
  have hmark : '-'.isDigit = false ∧ isDateMark '-' = true := by decide
  simp [dayPart?, hyear, hmark, shortNumber?_lastDigits d.month_lt,
    shortNumber?_lastDigits d.day_lt, Day.of?_date]

/-- A written date is read as that date. -/
theorem readDay?_isoText (d : CalendarDate) : readDay? d.isoText = some (.date d) := by
  have h := dayPart?_isoText d []
  rw [List.append_nil] at h
  rw [readDay?, h]
  rfl

end Written

/-! ## The time and the offset -/

namespace Timestamp

/-- The offset, if there is one, is one of whole minutes. -/
def HasWholeMinutes (t : Timestamp) : Prop := ∀ o ∈ t.offset, 60000000 ∣ o

/-- The characters of a written offset. -/
def writtenZone (t : Timestamp) : List Char := ((t.offset.map offsetText).getD "").toList

/-- The characters of the digits of a written fraction; microseconds that are zero have none. -/
def writtenFraction (t : Timestamp) : List Char := if t.micro = 0 then [] else lastDigits 6 t.micro

/-- The characters of a written time, up to its end. -/
def writtenClock (t : Timestamp) : List Char :=
  lastDigits 2 t.hour ++ (':' :: (lastDigits 2 t.minute ++ (':' :: (lastDigits 2 t.second ++
    ((if t.micro = 0 then [] else '.' :: t.writtenFraction) ++ t.writtenZone)))))

variable {t : Timestamp}

theorem toList_isoText (separator : String) (t : Timestamp) :
    (t.isoText separator).toList =
      t.date.isoText.toList ++ (separator.toList ++ t.writtenClock) := by
  obtain ⟨⟨hhour, hminute, hsecond, hmicro⟩, -⟩ := t.valid
  have hfraction : (if t.micro = 0 then "" else "." ++ CalendarDate.padded 6 t.micro).toList =
      if t.micro = 0 then [] else '.' :: t.writtenFraction := by
    by_cases h : t.micro = 0
    · rw [if_pos h, if_pos h]
      rfl
    · rw [if_neg h, if_neg h, String.toList_append, toList_padded (by omega) (by omega),
        writtenFraction, if_neg h]
      rfl
  have htwo {n : Nat} (h : n < 100) : (CalendarDate.padded 2 n).toList = lastDigits 2 n :=
    toList_padded (by omega) h
  simp only [isoText, String.toList_append, hfraction, htwo (show t.hour < 100 by omega),
    htwo (show t.minute < 100 by omega), htwo (show t.second < 100 by omega), writtenClock,
    writtenZone, List.append_assoc]
  rfl

/-- An offset of whole minutes is written as a sign, hours and minutes. -/
theorem toList_offsetText {o : Int} (h : 60000000 ∣ o) (hday : o.natAbs < 86400000000) :
    (offsetText o).toList =
      (if o < 0 then '-' else '+') :: (lastDigits 2 (o.natAbs / 3600000000) ++
        (':' :: lastDigits 2 (o.natAbs / 60000000 % 60))) := by
  have hseconds : o.natAbs / 1000000 % 60 = 0 := by omega
  have hmicros : o.natAbs % 1000000 = 0 := by omega
  have hsign : (if o < 0 then "-" else "+" : String).toList = [if o < 0 then '-' else '+'] := by
    split <;> rfl
  have htwo {n : Nat} (h : n < 100) : (CalendarDate.padded 2 n).toList = lastDigits 2 n :=
    toList_padded (by omega) h
  simp only [offsetText, hseconds, hmicros, decide_true, Bool.and_self, if_true,
    String.append_empty, String.toList_append, hsign,
    htwo (show o.natAbs / 3600000000 < 100 by omega),
    htwo (show o.natAbs / 60000000 % 60 < 100 by omega), List.append_assoc]
  rfl

/-- A written offset is read back in seconds. -/
theorem zoneEnds?_offsetText {o : Int} (h : 60000000 ∣ o) (hday : o.natAbs < 86400000000) :
    Written.zoneEnds? (offsetText o).toList = some (o / 1000000) := by
  have hminutes := shortNumber?_lastDigits
    (show o.natAbs / 60000000 % 60 < 100 by omega) []
  rw [List.append_nil] at hminutes
  have hread : Written.offsetEnds? (lastDigits 2 (o.natAbs / 3600000000) ++
      (':' :: lastDigits 2 (o.natAbs / 60000000 % 60))) = some (o.natAbs / 1000000) := by
    have hhours : ¬ 24 ≤ o.natAbs / 3600000000 := by omega
    have hlt : o.natAbs / 60000000 % 60 < 60 := Nat.mod_lt _ (by omega)
    have hsum : (o.natAbs / 3600000000 * 60 + o.natAbs / 60000000 % 60) * 60 =
        o.natAbs / 1000000 := by omega
    simp [Written.offsetEnds?, shortNumber?_lastDigits
      (show o.natAbs / 3600000000 < 100 by omega), hhours, hminutes, hlt, hsum]
  rw [toList_offsetText h hday, Written.zoneEnds?]
  by_cases hneg : o < 0
  · have hvalue : -((o.natAbs / 1000000 : Nat) : Int) = o / 1000000 := by omega
    simp [hneg, hread, Written.isSpace, ← hvalue]
  · have hvalue : ((o.natAbs / 1000000 : Nat) : Int) = o / 1000000 := by omega
    simp [hneg, hread, Written.isSpace, ← hvalue]

/-- What is written at the end of a time is read back as its offset. -/
theorem zoneEnds?_writtenZone (h : t.HasWholeMinutes) :
    Written.zoneEnds? t.writtenZone = some (t.offset.getD 0 / 1000000) := by
  rw [writtenZone]
  cases ho : t.offset with
  | none => rfl
  | some o =>
    have hday := t.valid.2 o ho
    exact zoneEnds?_offsetText (h o ho) (by omega)

/-- A written offset starts with its sign. -/
theorem head?_writtenZone (h : t.HasWholeMinutes) :
    ∀ c ∈ t.writtenZone.head?, c = '-' ∨ c = '+' := by
  intro c hc
  rw [writtenZone] at hc
  cases ho : t.offset with
  | none =>
    rw [ho] at hc
    cases hc
  | some o =>
    have hday := t.valid.2 o ho
    rw [ho, Option.map_some, Option.getD_some, toList_offsetText (h o ho) (by omega)] at hc
    obtain rfl := Option.some.inj hc
    split
    · exact .inl rfl
    · exact .inr rfl

/-- The digits of a fraction end before the offset. -/
theorem fraction_append_writtenZone (h : t.HasWholeMinutes) (ds : List Char)
    (hds : ∀ c ∈ ds, c.isDigit = true) (hlength : ds.length ≤ 18) :
    Written.fraction (ds ++ t.writtenZone) = (ds, t.writtenZone) := by
  have hzone : t.writtenZone.takeWhile Char.isDigit = [] := by
    cases hz : t.writtenZone with
    | nil => rfl
    | cons c r =>
      have hsign := head?_writtenZone h c (by rw [hz]; rfl)
      refine List.takeWhile_cons_of_neg ?_
      rcases hsign with rfl | rfl <;> decide
  have hdigits : ((ds ++ t.writtenZone).takeWhile Char.isDigit).take 18 = ds := by
    rw [List.takeWhile_append_of_pos hds, hzone, List.append_nil, List.take_of_length_le hlength]
  rw [Written.fraction, hdigits, List.drop_left]

/-- Seconds, a fraction and an offset are read back. -/
theorem secondsEnd?_written (h : t.HasWholeMinutes) (start : Nat) :
    Written.secondsEnd? start true (lastDigits 2 t.second ++
      ((if t.micro = 0 then [] else '.' :: t.writtenFraction) ++ t.writtenZone)) =
      some ⟨start + t.second, t.writtenFraction, t.offset.getD 0 / 1000000⟩ := by
  have hsecond := t.valid.1.2.2.1
  have hlt : ¬ 60 ≤ t.second := by omega
  have hzone := zoneEnds?_writtenZone h
  rw [Written.secondsEnd?, shortNumber?_lastDigits (by omega)]
  by_cases hmicro : t.micro = 0
  · have hnone : t.writtenFraction = [] := if_pos hmicro
    rw [if_pos hmicro, List.nil_append, hnone]
    -- The offset does not start with the point of a fraction.
    cases hz : t.writtenZone with
    | nil =>
      rw [hz] at hzone
      simp [hlt, hzone]
    | cons c r =>
      rw [hz] at hzone
      rcases head?_writtenZone h c (by rw [hz]; rfl) with rfl | rfl
      · simp [hlt, hzone]
      · simp [hlt, hzone]
  · have hfraction : t.writtenFraction = lastDigits 6 t.micro := if_neg hmicro
    have hread := fraction_append_writtenZone h t.writtenFraction
      (by rw [hfraction]; exact isDigit_of_mem_lastDigits)
      (by rw [hfraction, length_lastDigits]; omega)
    simp [hmicro, hlt, hread, hzone]

/-- A written time is read back. -/
theorem timeEnds?_writtenClock (h : t.HasWholeMinutes) :
    Written.timeEnds? t.writtenClock =
      some ⟨(t.hour * 60 + t.minute) * 60 + t.second, t.writtenFraction,
        t.offset.getD 0 / 1000000⟩ := by
  obtain ⟨⟨hhour, hminute, -⟩, -⟩ := t.valid
  have hhour' : ¬ 24 ≤ t.hour := by omega
  have hminute' : ¬ 60 ≤ t.minute := by omega
  rw [writtenClock, Written.timeEnds?, shortNumber?_lastDigits (by omega)]
  simp [hhour', shortNumber?_lastDigits (show t.minute < 100 by omega), hminute',
    secondsEnd?_written h]

/-- The date of a written timestamp is read back. -/
theorem readDay?_isoText (h : t.HasWholeMinutes) {separator : String}
    (hseparator : separator = "T" ∨ separator = " ") :
    Written.readDay? (t.isoText separator) = some (.date t.date) := by
  have hfits : ∀ (day : Written.Day) (seconds : Nat) (offset : Int),
      Written.fitsNanoseconds day ⟨seconds, t.writtenFraction, offset⟩ = true := by
    intro day seconds offset
    refine if_pos ?_
    show t.writtenFraction.length ≤ 6
    rw [writtenFraction]
    split
    · exact Nat.zero_le 6
    · exact Nat.le_of_eq (length_lastDigits 6 t.micro)
  rw [Written.readDay?, toList_isoText, Written.dayPart?_isoText]
  rcases hseparator with rfl | rfl
  · simp [timeEnds?_writtenClock h, hfits]
  · simp [timeEnds?_writtenClock h, hfits]

/-- A written time ends with a digit of its offset, of its fraction or of its seconds. -/
theorem endsInDigit_writtenClock (h : t.HasWholeMinutes) : EndsInDigit t.writtenClock := by
  have hend : EndsInDigit (lastDigits 2 t.second ++
      ((if t.micro = 0 then [] else '.' :: t.writtenFraction) ++ t.writtenZone)) := by
    cases ho : t.offset with
    | none =>
      have hzone : t.writtenZone = [] := by
        rw [writtenZone, ho]
        rfl
      rw [hzone, List.append_nil]
      by_cases hmicro : t.micro = 0
      · rw [if_pos hmicro, List.append_nil]
        exact (isFramed_lastDigits 1 t.second).2
      · rw [if_neg hmicro, writtenFraction, if_neg hmicro]
        exact ((isFramed_lastDigits 5 t.micro).2.cons '.').append _
    | some o =>
      have hday := t.valid.2 o ho
      have hzone : EndsInDigit t.writtenZone := by
        rw [writtenZone, ho, Option.map_some, Option.getD_some,
          toList_offsetText (h o ho) (by omega)]
        exact (((isFramed_lastDigits 1 _).2.cons ':').append _).cons _
      exact (hzone.append _).append _
  exact (((hend.cons ':').append _).cons ':').append _

/-- A written timestamp is framed by digits. -/
theorem isFramed_isoText (h : t.HasWholeMinutes) (separator : String) :
    IsFramed (t.isoText separator).toList := by
  rw [toList_isoText]
  exact t.date.isFramed_isoText.append ((endsInDigit_writtenClock h).append _)

end Timestamp

/-! ## Buckets -/

/-- **A moment falls into the bucket of its date, however it is kept.** A date and its written form
fall into one bucket; a timestamp without an offset, or with one of whole minutes, and its written
form fall into the bucket of its date. Blanks around the written forms do not count. -/
theorem Resolution.bucket_written (r : Resolution) (front back : String)
    (hfront : ∀ c ∈ front.toList, Text.isBlank c = true)
    (hback : ∀ c ∈ back.toList, Text.isBlank c = true) :
    (∀ d : CalendarDate,
      r.bucket (.text (front ++ d.isoText ++ back)) = r.bucket (.date d) ∧
        r.bucket (.date d) = .ok (r.cut d)) ∧
    ∀ t : Timestamp, t.HasWholeMinutes → ∀ separator, separator = "T" ∨ separator = " " →
      r.bucket (.text (front ++ t.isoText separator ++ back)) = r.bucket (.timestamp t) ∧
        r.bucket (.timestamp t) = r.bucket (.date t.date) := by
  refine ⟨fun d => ⟨?_, r.bucket_date d⟩, fun t ht separator hseparator => ⟨?_, rfl⟩⟩
  · rw [bucket, Value.day?_text_of_isFramed d.isFramed_isoText hfront hback,
      Written.readDay?_isoText]
    rfl
  · rw [bucket, Value.day?_text_of_isFramed (Timestamp.isFramed_isoText ht separator) hfront hback,
      Timestamp.readDay?_isoText ht hseparator]
    rfl

/-- Half past eleven in the evening of a leap day, eight hours behind universal time, where the next
day has begun. -/
def Timestamp.leapEvening : Timestamp :=
  ⟨⟨2016, 2, 29, by decide⟩, 23, 30, 0, 123456, some (-28800000000), by decide⟩

/-- The evening of the leap day stays in February, with blanks of several kinds around its text. -/
theorem Resolution.bucket_written_leapEvening :
    Timestamp.leapEvening.isoText "T" = "2016-02-29T23:30:00.123456-08:00" ∧
      Resolution.month.bucket (.text ("\u2003 " ++ Timestamp.leapEvening.isoText "T" ++ "\n")) =
        .ok (.text "2016-02") := by
  have hminutes : Timestamp.leapEvening.HasWholeMinutes := by
    rintro o ⟨⟩
    decide
  have hwritten := (month.bucket_written "\u2003 " "\n" (by decide) (by decide)).2
    Timestamp.leapEvening hminutes "T" (.inl rfl)
  have hmonth : month.cut Timestamp.leapEvening.date = .text "2016-02" :=
    congrArg Value.text (by decide +kernel)
  refine ⟨by decide +kernel, ?_⟩
  rw [hwritten.1, hwritten.2, bucket_date, hmonth]

end ChartQuery
