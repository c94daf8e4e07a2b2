import ChartQuery.Local.Coerce
import ChartQuery.Local.Pattern
import ChartQuery.Plan.Basic

/-!
# Conditions on records

A record is kept when the column of the horizontal axis has a value and every condition holds. A
condition on a null value never holds, nor does one that compares with null.

## Main definitions

* `FilterOperator.compare op v w`: a comparison of two values
* `PlanFilter.holds f r`: the condition holds of a record
* `ChartPlan.filterRows p rs`: the records that a plan keeps

## Main results

* `PlanFilter.holds_null`: no condition holds of a null value
* `ChartPlan.keepRows_sublist`: filtering neither adds nor moves records
* `ChartPlan.filterRows_congr`: what a plan keeps depends on its axis and its conditions only
-/

namespace ChartQuery

namespace FilterOperator

/-- A comparison of two values. A pattern or a list of values compares nothing by itself. -/
def compare : FilterOperator → Value → Value → Except Incomparable Bool
  | eq, v, w => .ok (v.eqv w)
  | ne, v, w => .ok (!v.eqv w)
  | gt, v, w => (v.order w).map (· == some .gt)
  | lt, v, w => (v.order w).map (· == some .lt)
  | ge, v, w => (v.order w).map fun o => o == some .gt || o == some .eq
  | le, v, w => (v.order w).map fun o => o == some .lt || o == some .eq
  | like, _, _ | isIn, _, _ => .ok false

end FilterOperator

/-- The value equals one of the candidates, which are read from the left. A null candidate is passed
over. -/
def Value.isAmong (v : Value) : List Value → Except ExecutionFault Bool
  | [] => .ok false
  | c :: cs =>
    if c.isNull then v.isAmong cs
    else do
      let (a, b) ← coercePair v c
      if a.eqv b then .ok true else v.isAmong cs

namespace PlanFilter

/-- The comparison of a condition holds of a value that is not null. -/
def holdsOf (f : PlanFilter) (v : Value) : Except ExecutionFault Bool :=
  match f.operator with
  | .isIn => v.isAmong f.values
  | .like =>
    match v with
    | .text s => .ok (!f.value.isNull && likeText f.value.plain s)
    | v => .error (.patternOnKind f.column.name v.kindName)
  | op =>
    if f.value.isNull then .ok false
    else do
      let (a, b) ← coercePair v f.value
      (op.compare a b).mapError (.incomparable f.column.name f.value op.sign)

/-- The condition holds of a record. -/
def holds (f : PlanFilter) (r : Record) : Except ExecutionFault Bool :=
  if (r.value f.column.name).isNull then .ok false else f.holdsOf (r.value f.column.name)

/-- No condition holds of a null value. -/
theorem holds_null {f : PlanFilter} {r : Record} (h : r.value f.column.name = .null) :
    f.holds r = .ok false := by
  simp [holds, h, Value.isNull]

/-- Only membership takes a compound value. -/
def isWellShaped (f : PlanFilter) : Bool := f.operator == .isIn || !f.value.isCompound

end PlanFilter

/-! ## Conditions by name -/

/-- A condition whose comparison is given by its sign. -/
structure SignedFilter where
  column : Identifier
  sign : String
  value : Value

/-- Why a condition given by a sign cannot be decided. -/
inductive SignedFault where
  | unknownSign
  | execution (fault : ExecutionFault)

/-- The condition holds of a record. A sign that is not known is only missed when it is needed. -/
def SignedFilter.holds (f : SignedFilter) (r : Record) : Except SignedFault Bool :=
  match FilterOperator.ofSign? f.sign with
  | some op => (PlanFilter.holds ⟨f.column, op, f.value⟩ r).mapError .execution
  | none =>
    let v := r.value f.column.name
    if v.isNull || f.value.isNull then .ok false
    else
      match coercePair v f.value with
      | .ok _ => .error .unknownSign
      | .error e => .error (.execution e)

/-! ## Filtering -/

/-- All conditions hold of a record; none is decided behind one that does not hold. -/
def allHold (r : Record) : List PlanFilter → Except ExecutionFault Bool
  | [] => .ok true
  | f :: fs => do if ← f.holds r then allHold r fs else .ok false

namespace ChartPlan

/-- A record is kept: its column of the horizontal axis has a value, and all conditions hold. -/
def keeps (p : ChartPlan) (r : Record) : Except ExecutionFault Bool :=
  if p.xAxis.any fun x => (r.value x.name).isNull then .ok false else allHold r p.filters

/-- The records that are kept. -/
def keepRows (p : ChartPlan) : List Record → Except ExecutionFault (List Record)
  | [] => .ok []
  | r :: rs => do
    let keep ← p.keeps r
    let kept ← keepRows p rs
    .ok (if keep then r :: kept else kept)

/-- The first condition other than membership with a compound value is a fault. -/
def checkShapes (p : ChartPlan) : Except ExecutionFault Unit :=
  match p.filters.find? (!·.isWellShaped) with
  | some f => .error (.compoundValue f.operator.sign f.column.name f.value)
  | none => .ok ()

/-- The records that a plan keeps. -/
def filterRows (p : ChartPlan) (rs : List Record) : Except ExecutionFault (List Record) := do
  p.checkShapes
  p.keepRows rs

/-- Filtering neither adds nor moves records. -/
theorem keepRows_sublist {p : ChartPlan} {rs kept : List Record} (h : p.keepRows rs = .ok kept) :
    kept.Sublist rs := by
  induction rs generalizing kept with
  | nil =>
    simp only [keepRows, Except.ok.injEq] at h
    simp [← h]
  | cons r rs ih =>
    cases hkeep : p.keeps r with
    | error e => simp [keepRows, hkeep, bind, Except.bind] at h
    | ok keep =>
      cases hrest : p.keepRows rs with
      | error e => simp [keepRows, hkeep, hrest, bind, Except.bind] at h
      | ok rest =>
        simp only [keepRows, hkeep, hrest, bind, Except.bind, Except.ok.injEq] at h
        subst h
        cases keep with
        | true => exact (ih hrest).cons_cons r
        | false => exact (ih hrest).cons r

/-- Plans of the same horizontal axis and the same conditions keep the same records. -/
theorem filterRows_congr (q p : ChartPlan) (hx : q.xAxis = p.xAxis)
    (hfilters : q.filters = p.filters) (rs : List Record) : q.filterRows rs = p.filterRows rs := by
  have hkeeps (r : Record) : q.keeps r = p.keeps r := by rw [keeps, keeps, hx, hfilters]
  have hrun : q.keepRows rs = p.keepRows rs := by
    induction rs with
    | nil => rfl
    | cons r rs ih => rw [keepRows, keepRows, ih, hkeeps]
  rw [filterRows, filterRows, checkShapes, checkShapes, hfilters, hrun]

end ChartPlan

end ChartQuery
