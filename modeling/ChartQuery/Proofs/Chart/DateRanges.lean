import ChartQuery.Local.Chart
import ChartQuery.Proofs.Calendar.Dates
import ChartQuery.Proofs.Local.KeptRecords
import ChartQuery.Proofs.Plan.WellFormed
import ChartQuery.Proofs.Service.BatchMaps

/-!
# Records within a date range

A date range becomes conditions behind those of the specification, whose bounds are written dates.
Beside a date such a bound is the day that it writes, so that both ends are inclusive. Beside a
timestamp it is the first moment of that day, so that the end of the range cuts its last day off
behind midnight.

## Main definitions

* `DayBound`: an end of a date range on a column
* `ChartSpec.dayBounds`: the ends of a date range that have a column
* `ChartSpec.isWithin`: the days of a record lie within a date range
* `ChartSpec.isCutOff`: the record is from the last day of the range, but behind midnight

## Main results

* `resolvePlan_within`: the plan within a date range has the conditions of its bounds besides
* `DayBound.holds_condition`: when the condition of a bound holds
* `filterRows_within`: the records that are kept are those within the range which are not cut off
-/

namespace ChartQuery

/-! ## Bounds -/

/-- An end of a date range. -/
inductive RangeEnd where
  | first
  | last
  deriving DecidableEq, Repr

/-- The comparison with an end of a date range. -/
def RangeEnd.operator : RangeEnd → FilterOperator
  | first => .ge
  | last => .le

/-- An end of a date range on a column. -/
structure DayBound where
  column : String
  side : RangeEnd
  day : CalendarDate

namespace DayBound

/-- The filter that a bound becomes. -/
def filter (b : DayBound) : FilterSpec := ⟨b.column, b.side.operator.sign, .text b.day.isoText⟩

/-- The condition that a plan has of a bound. -/
def condition (b : DayBound) : PlanFilter :=
  ⟨.ofText b.column, b.side.operator, .text b.day.isoText⟩

/-- The day is not outside the bound; the day of the bound itself is not. -/
def admits (b : DayBound) (d : CalendarDate) : Bool :=
  match b.side with
  | .first => d.compare b.day != .lt
  | .last => d.compare b.day != .gt

/-- The timestamp is from the last day, but behind midnight. -/
def isBehind (b : DayBound) (t : Timestamp) : Bool :=
  b.side == .last && t.date == b.day && !t.isMidnight

end DayBound

/-- The day of a date, or of a timestamp without an offset. -/
def Value.calendarDay? : Value → Option CalendarDate
  | date d => some d
  | timestamp t => if t.offset.isNone then some t.date else none
  | _ => none

namespace DayBound

/-- The day of a record in the column of a bound. -/
def dayOf? (b : DayBound) (r : Record) : Option CalendarDate :=
  (r.value (clean b.column)).calendarDay?

/-- In the column of the bound, the record is from the last day but behind midnight. -/
def cutsOff (b : DayBound) (r : Record) : Bool :=
  match r.value (clean b.column) with
  | .timestamp t => b.isBehind t
  | _ => false

end DayBound

namespace ChartSpec

/-- The ends of a date range that have a column. -/
def dayBounds (s : ChartSpec) (range : DateRange) : List DayBound :=
  let bound (side : RangeEnd) (column : Option String) (day : Option CalendarDate) :
      List DayBound :=
    match column, day with
    | some c, some d => [⟨c, side, d⟩]
    | _, _ => []
  bound .first s.startColumn? range.first ++ bound .last s.endColumn? range.last

/-- The days of a record lie within a date range, of which both ends are inclusive. -/
def isWithin (s : ChartSpec) (range : DateRange) (r : Record) : Bool :=
  (s.dayBounds range).all fun b => (b.dayOf? r).any b.admits

/-- The record is from the last day of a date range, but behind midnight. -/
def isCutOff (s : ChartSpec) (range : DateRange) (r : Record) : Bool :=
  (s.dayBounds range).any (·.cutsOff r)

/-- The filters of a date range are those of its bounds. -/
theorem filters_within (s : ChartSpec) (range : DateRange) :
    (s.within (some range)).filters =
      s.filters ++ (s.dayBounds range).map DayBound.filter := by
  simp only [within, withinDates, rangeFilters, dayBounds, List.map_append]
  congr 1
  -- Each end is a filter exactly if both its column and its day are given.
  congr 1
  · cases s.startColumn? <;> cases range.first <;> rfl
  · cases s.endColumn? <;> cases range.last <;> rfl

end ChartSpec

/-! ## Plans within a date range -/

theorem resolveFilters_append (columns : Option ColumnSet) (fs gs : List FilterSpec) :
    resolveFilters columns (fs ++ gs) =
      ((resolveFilters columns fs).1 ++ (resolveFilters columns gs).1,
        (resolveFilters columns fs).2 ++ (resolveFilters columns gs).2) := by
  simp [resolveFilters]

section Resolving

variable {limits : RowLimits} {spec : ChartSpec} {columns : ColumnSet} {maxRows : Option Int}
  {range : DateRange}

theorem DayBound.resolveFilter_filter {b : DayBound} (h : columns.isColumn b.column = true) :
    resolveFilter (some columns) b.filter = .ok b.condition := by
  have hnamed : (Identifier.ofText b.column).isNamed = true := by
    simpa [Identifier.isNamed] using (ColumnSet.isColumn_iff.1 h).1
  simp only [resolveFilter, filter, FilterOperator.ofSign?_sign, hnamed, Option.any_some, h]
  cases hside : b.side <;> simp [condition, hside, RangeEnd.operator]

/-- On columns that exist, bounds become their conditions without a warning. -/
theorem resolveFilters_dayBounds {bs : List DayBound}
    (h : ∀ b ∈ bs, columns.isColumn b.column = true) :
    resolveFilters (some columns) (bs.map DayBound.filter) =
      (bs.map DayBound.condition, []) := by
  induction bs with
  | nil => rfl
  | cons b bs ih =>
    have hb := DayBound.resolveFilter_filter (h b List.mem_cons_self)
    have hbs := ih fun c hc => h c (List.mem_cons_of_mem b hc)
    simp only [resolveFilters, Prod.mk.injEq] at hbs
    simp only [resolveFilters, List.map_cons, List.filterMap_cons, hb, hbs]
    rfl

/-- **The plan within a date range is the plan with the conditions of the bounds besides.** -/
theorem resolvePlan_within {p : ChartPlan}
    (hplan : resolvePlan limits spec columns maxRows = .ok p)
    (hcolumns : ∀ b ∈ spec.dayBounds range, columns.isColumn b.column = true) :
    resolvePlan limits (spec.within (some range)) columns maxRows =
      .ok { p with filters := p.filters ++ (spec.dayBounds range).map DayBound.condition } := by
  obtain ⟨x, hx, hy, rfl⟩ := resolvePlan_eq_ok_iff.1 hplan
  refine resolvePlan_eq_ok_iff.2 ⟨x, hx, hy, ?_⟩
  -- All other parts of the plan are determined by the same fields.
  have hfilters : resolveFilters (some columns) (spec.within (some range)).filters =
      ((resolveFilters (some columns) spec.filters).1 ++
        (spec.dayBounds range).map DayBound.condition,
        (resolveFilters (some columns) spec.filters).2) := by
    rw [ChartSpec.filters_within, resolveFilters_append, resolveFilters_dayBounds hcolumns,
      List.append_nil]
  simp only [planBeside, hfilters]
  rfl

end Resolving

/-! ## Conditions of bounds -/

namespace DayBound

/-- Beside a date a bound is the day that it writes. -/
theorem holdsOf_date (b : DayBound) (d : CalendarDate) :
    b.condition.holdsOf (.date d) = .ok (b.admits d) := by
  cases hside : b.side <;>
    simp only [PlanFilter.holdsOf, condition, hside, RangeEnd.operator, Value.isNull,
      coercePair_date_isoText, bind, Except.bind, FilterOperator.compare, Value.order, Except.map,
      Except.mapError, admits, Bool.false_eq_true, if_false]
  · cases d.compare b.day <;> rfl
  · cases d.compare b.day <;> rfl

/-- Beside a timestamp a bound is the first moment of its day. -/
theorem holdsOf_timestamp (b : DayBound) {t : Timestamp} (h : t.offset = none) :
    b.condition.holdsOf (.timestamp t) = .ok (b.admits t.date && !b.isBehind t) := by
  have hpair : coercePair (.timestamp t) (.text b.day.isoText) =
      .ok (.timestamp t, .timestamp (.midnight b.day)) := by
    simp only [coercePair, coercedPair, Value.readMoment_isoText]
    rfl
  have hday : (t.date == b.day) = (t.date.compare b.day == .eq) := by
    rw [Bool.eq_iff_iff, beq_iff_eq, beq_iff_eq, CalendarDate.compare_eq_iff]
  cases hside : b.side <;>
    simp only [PlanFilter.holdsOf, condition, hside, RangeEnd.operator, Value.isNull, hpair, bind,
      Except.bind, FilterOperator.compare, Value.order, Timestamp.compare?_midnight h, Except.map,
      Except.mapError, admits, isBehind, hday, Bool.false_eq_true, if_false]
  -- Only on the day of the bound itself does the time of day matter, and only for its end.
  · cases t.date.compare b.day <;> cases t.isMidnight <;> rfl
  · cases t.date.compare b.day <;> cases t.isMidnight <;> rfl

/-- The condition of a bound holds of the days that it admits, unless it cuts the value off. -/
theorem holds_condition (b : DayBound) {r : Record} (h : (b.dayOf? r).isSome = true) :
    b.condition.holds r = .ok ((b.dayOf? r).any b.admits && !b.cutsOff r) := by
  have hname : b.condition.column.name = clean b.column := rfl
  rw [PlanFilter.holds, hname, cutsOff, dayOf?]
  rw [dayOf?] at h
  cases hv : r.value (clean b.column) <;> rw [hv] at h <;> try exact Bool.noConfusion h
  case date d =>
    show b.condition.holdsOf (.date d) = _
    rw [b.holdsOf_date d]
    simp [Value.calendarDay?]
  case timestamp t =>
    have hoffset : t.offset = none := by
      cases ht : t.offset with
      | none => rfl
      | some o => simp [Value.calendarDay?, ht] at h
    show b.condition.holdsOf (.timestamp t) = _
    rw [b.holdsOf_timestamp hoffset]
    simp [Value.calendarDay?, hoffset]

end DayBound

/-! ## Records that are kept -/

theorem allHold_dayBounds {r : Record} {bs : List DayBound}
    (h : ∀ b ∈ bs, (b.dayOf? r).isSome = true) :
    allHold r (bs.map DayBound.condition) =
      .ok ((bs.all fun b => (b.dayOf? r).any b.admits) && !bs.any (·.cutsOff r)) := by
  induction bs with
  | nil => rfl
  | cons b bs ih =>
    rw [List.map_cons, allHold, b.holds_condition (h b List.mem_cons_self),
      ih fun c hc => h c (List.mem_cons_of_mem b hc), List.all_cons, List.any_cons]
    simp only [bind, Except.bind]
    cases (b.dayOf? r).any b.admits
    · rfl
    · cases b.cutsOff r
      · simp
      · simp

/-- Where a further condition is decided for every record, exactly the kept records of which it
holds are still kept. -/
theorem keepRows_of_keeps {p p' : ChartPlan} {holds : Record → Bool} {rs : List Record}
    (h : ∀ r ∈ rs, p'.keeps r = (p.keeps r).map (· && holds r)) :
    p'.keepRows rs = (p.keepRows rs).map (List.filter holds) := by
  induction rs with
  | nil => rfl
  | cons r rs ih =>
    rw [ChartPlan.keepRows, ChartPlan.keepRows, h r List.mem_cons_self,
      ih fun s hs => h s (List.mem_cons_of_mem r hs)]
    simp only [bind, Except.bind]
    cases p.keeps r with
    | error e => rfl
    | ok keep =>
      cases p.keepRows rs with
      | error e => rfl
      | ok kept =>
        cases keep
        · rfl
        · cases hr : holds r <;> simp [Except.map, hr]

section Keeping

variable {p : ChartPlan} {bs : List DayBound} {rs : List Record}

theorem keeps_dayBounds {r : Record} (h : ∀ b ∈ bs, (b.dayOf? r).isSome = true) :
    ChartPlan.keeps { p with filters := p.filters ++ bs.map DayBound.condition } r =
      (p.keeps r).map
        (· && ((bs.all fun b => (b.dayOf? r).any b.admits) && !bs.any (·.cutsOff r))) := by
  simp only [ChartPlan.keeps, allHold_append, allHold_dayBounds h]
  split
  · rfl
  · cases allHold r p.filters with
    | error e => rfl
    | ok held => cases held <;> rfl

/-- Written days are single values, so that bounds add no fault. -/
theorem checkShapes_dayBounds :
    ChartPlan.checkShapes { p with filters := p.filters ++ bs.map DayBound.condition } =
      p.checkShapes := by
  have hshaped : (bs.map DayBound.condition).find? (!·.isWellShaped) = none := by
    refine List.find?_eq_none.2 fun f hf => ?_
    obtain ⟨b, -, rfl⟩ := List.mem_map.1 hf
    simp [PlanFilter.isWellShaped, DayBound.condition, Value.isCompound]
  simp only [ChartPlan.checkShapes, List.find?_append, hshaped, Option.or_none]

/-- Behind the conditions of a plan, bounds keep the records whose days they all admit and of which
they cut none off. -/
theorem filterRows_dayBounds (h : ∀ r ∈ rs, ∀ b ∈ bs, (b.dayOf? r).isSome = true)
    {holds : Record → Bool} (hholds : ∀ r ∈ rs,
      holds r = ((bs.all fun b => (b.dayOf? r).any b.admits) && !bs.any (·.cutsOff r))) :
    ChartPlan.filterRows { p with filters := p.filters ++ bs.map DayBound.condition } rs =
      (p.filterRows rs).map (List.filter holds) := by
  have hkeeps : ∀ r ∈ rs,
      ChartPlan.keeps { p with filters := p.filters ++ bs.map DayBound.condition } r =
        (p.keeps r).map (· && holds r) := by
    intro r hr
    rw [keeps_dayBounds (h r hr), hholds r hr]
  simp only [ChartPlan.filterRows, checkShapes_dayBounds, keepRows_of_keeps hkeeps]
  cases p.checkShapes <;> rfl

end Keeping

/-- **A date range keeps exactly the records whose days lie within it, both ends inclusive, apart
from those that are cut off the last day.** Of the records that the plan of a specification keeps,
the plan of the specification within a date range keeps those within the range which are not
timestamps behind midnight of its last day; so it keeps all those within the range where no such
timestamp occurs. -/
theorem filterRows_within (limits : RowLimits) (spec : ChartSpec) (columns : ColumnSet)
    (maxRows : Option Int) (range : DateRange) (rows : List Record) (p : ChartPlan)
    (hplan : resolvePlan limits spec columns maxRows = .ok p)
    (hcolumns : ∀ b ∈ spec.dayBounds range, columns.isColumn b.column = true)
    (hdays : ∀ r ∈ rows, ∀ b ∈ spec.dayBounds range, (b.dayOf? r).isSome = true) :
    ∃ p', resolvePlan limits (spec.within (some range)) columns maxRows = .ok p' ∧
      p'.filterRows rows = (p.filterRows rows).map
        (List.filter fun r => spec.isWithin range r && !spec.isCutOff range r) ∧
      ((∀ r ∈ rows, spec.isCutOff range r = false) →
        p'.filterRows rows = (p.filterRows rows).map (List.filter (spec.isWithin range))) := by
  refine ⟨_, resolvePlan_within hplan hcolumns, ?_, ?_⟩
  · exact filterRows_dayBounds hdays fun r _ => rfl
  · intro hnone
    apply filterRows_dayBounds hdays
    intro r hr
    have hcut := hnone r hr
    rw [ChartSpec.isCutOff] at hcut
    rw [hcut, Bool.not_false, Bool.and_true, ChartSpec.isWithin]

/-! ## Events of a month -/

/-- The guests of events, which begin and end on days in columns of their own. -/
def eventSpec : ChartSpec :=
  { ChartSpec.ofTable "Events" "Guests" with
    startDateColumn := some "Begin"
    endDateColumn := some "End" }

def eventColumns : ColumnSet := ColumnSet.ofNames ["Begin", "End", "Guests"] []

/-- An event from a day to some hour of another day. -/
def event (begins ends : CalendarDate) (hour : Fin 24) : Record :=
  [("Begin", .date begins),
    ("End", .timestamp ⟨ends, hour, 0, 0, 0, none, by simp [IsTimeOfDay, hour.isLt]⟩),
    ("Guests", .int 7)]

def newYear : CalendarDate := ⟨2024, 1, 1, by decide⟩

def endOfJanuary : CalendarDate := ⟨2024, 1, 31, by decide⟩

def january : DateRange := ⟨some newYear, some endOfJanuary⟩

/-- The plan of the events has no conditions of its own. -/
theorem exists_eventPlan :
    ∃ p, resolvePlan .standard eventSpec eventColumns none = .ok p ∧
      ∀ rows, p.filterRows rows = .ok rows := by
  have hx : resolveXAxis eventColumns eventSpec.xAxis = .ok none := rfl
  have hy : yAxisBeside eventSpec eventColumns none ≠ [] := by decide +kernel
  refine ⟨_, resolvePlan_eq_ok_iff.2 ⟨none, hx, hy, rfl⟩, fun rows => ?_⟩
  show ChartPlan.keepRows _ rows = _
  induction rows with
  | nil => rfl
  | cons r rows ih =>
    rw [ChartPlan.keepRows, ih]
    rfl

theorem filterRows_within_january :
    let past := event newYear ⟨2024, 2, 1, by decide⟩ 0
    let during := event newYear ⟨2024, 1, 30, by decide⟩ 20
    let untilMidnight := event newYear endOfJanuary 0
    ∃ p', resolvePlan .standard (eventSpec.within (some january)) eventColumns none = .ok p' ∧
      p'.filterRows [past, during, untilMidnight] = .ok [during, untilMidnight] := by
  intro past during untilMidnight
  obtain ⟨p, hplan, hall⟩ := exists_eventPlan
  have hcolumns : ∀ b ∈ eventSpec.dayBounds january, eventColumns.isColumn b.column = true := by
    decide +kernel
  have hdays : ∀ r ∈ [past, during, untilMidnight], ∀ b ∈ eventSpec.dayBounds january,
      (b.dayOf? r).isSome = true := by
    decide +kernel
  have hnone : ∀ r ∈ [past, during, untilMidnight], eventSpec.isCutOff january r = false := by
    decide +kernel
  obtain ⟨p', hp', -, hkept⟩ := filterRows_within .standard eventSpec eventColumns none january
    [past, during, untilMidnight] p hplan hcolumns hdays
  have hpast : eventSpec.isWithin january past = false := by decide +kernel
  have hduring : eventSpec.isWithin january during = true := by decide +kernel
  have huntil : eventSpec.isWithin january untilMidnight = true := by decide +kernel
  refine ⟨p', hp', ?_⟩
  rw [hkept hnone, hall]
  simp [Except.map, hpast, hduring, huntil]

/-- An event that ends on the last day of the range at noon is lost, although its days lie within
the range. -/
theorem noonOfLastDay_isCutOff :
    let e := event newYear endOfJanuary 12
    ∃ p p', resolvePlan .standard eventSpec eventColumns none = .ok p ∧
      resolvePlan .standard (eventSpec.within (some january)) eventColumns none = .ok p' ∧
      p.filterRows [e] = .ok [e] ∧ eventSpec.isWithin january e = true ∧
      p'.filterRows [e] = .ok [] := by
  intro e
  obtain ⟨p, hplan, hall⟩ := exists_eventPlan
  have hcolumns : ∀ b ∈ eventSpec.dayBounds january, eventColumns.isColumn b.column = true := by
    decide +kernel
  have hdays : ∀ r ∈ [e], ∀ b ∈ eventSpec.dayBounds january,
      (b.dayOf? r).isSome = true := by
    decide +kernel
  have hlost : ∀ r ∈ [e],
      false = (eventSpec.isWithin january r && !eventSpec.isCutOff january r) := by
    decide +kernel
  refine ⟨p, _, hplan, resolvePlan_within hplan hcolumns, hall [e], by decide +kernel, ?_⟩
  rw [filterRows_dayBounds hdays hlost, hall]
  rfl

end ChartQuery
