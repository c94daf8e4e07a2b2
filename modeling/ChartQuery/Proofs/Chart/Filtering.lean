import ChartQuery.Proofs.Calendar.Dates
import ChartQuery.Proofs.Database.PlainTable
import ChartQuery.Proofs.Sql.Parameters

/-!
# The rows that are kept

A database compares values as values of a common type, while conditions on records compare them as
they are, after reading a text beside a date. On the columns of plain tables both give the same
answer, so that a query selects the rows whose records its plan keeps.

## Main definitions

* `PlanFilter.Fits`: a condition compares a column with values of its kind
* `PlanFilter.test`: a condition as the database decides it

## Main results

* `compare?_agrees`: both ways compare two values of a kind alike
* `PlanFilter.Fits.decides`: a condition holds of a row if it holds of its record
* `keptRows_agree`: the rows that a query selects are those whose records the plan keeps
-/

namespace ChartQuery

open Sql

/-! ## Comparison of two values -/

/-- The value may stand beside values of the kind: it is one of them, or a written date. -/
def PlainKind.ComparesWith : PlainKind → Value → Prop
  | whole, .int n => isSignedWord n = true
  | text, .text _ => True
  | date, .date _ => True
  | date, .text s => ∃ d : CalendarDate, s = d.isoText
  | _, _ => False

/-- The values are whole numbers only if these lie in the range of the type. -/
def ColumnType.Spans (t : ColumnType) (v : Value) : Prop := ∀ n, v = .int n → t.isInRange n = true

theorem ColumnType.plainKind?_cases {t : ColumnType} {k : PlainKind} (h : t.plainKind? = some k) :
    (k = .whole ∧ (t = .integer ∨ t = .bigint ∨ t = .hugeint)) ∨
      (k = .text ∧ t = .varchar) ∨ (k = .date ∧ t = .date) := by
  cases t <;> simp_all [plainKind?]

theorem ColumnType.compare?_whole {t : ColumnType} (h : t.plainKind? = some .whole) {m n : Int}
    (hm : t.isInRange m = true) (hn : t.isInRange n = true) :
    t.compare? (.int m) (.int n) = some (Ord.compare m n) := by
  have hcast : ∀ j, t.isInRange j = true → t.cast? (.int j) = some (.int j) := fun j hj => by
    rcases ColumnType.plainKind?_cases h with ⟨-, rfl | rfl | rfl⟩ | ⟨h, -⟩ | ⟨h, -⟩
    · simp [cast?, ofInt?, whole?, hj]
    · simp [cast?, ofInt?, whole?, hj]
    · simp [cast?, ofInt?, whole?, hj]
    · simp at h
    · simp at h
  have hdates : t.holdsDates = false := by
    rcases ColumnType.plainKind?_cases h with ⟨-, rfl | rfl | rfl⟩ | ⟨h, -⟩ | ⟨h, -⟩ <;>
      first | rfl | simp at h
  simp [compare?, hdates, hcast m hm, hcast n hn, Value.ranked, Value.order_int]

theorem ColumnType.compare?_date {v w : Value} {d e : CalendarDate}
    (hv : v.moment? .date = some d.clockTime) (hw : w.moment? .date = some e.clockTime) :
    ColumnType.compare? .date v w = some (d.compare e) := by
  simp [compare?, holdsDates, hv, hw, CalendarDate.compare_clockTime]

/-- Two values of a kind are compared alike by a database and beside one another. -/
theorem compare?_agrees {t : ColumnType} {k : PlainKind} (ht : t.plainKind? = some k) {v w : Value}
    (hv : k.has v = true) (hw : k.ComparesWith w) (hvspan : t.Spans v) (hwspan : t.Spans w) :
    ∃ a b o, coercePair v w = .ok (a, b) ∧ a.order b = .ok (some o) ∧ a.eqv b = (o == .eq) ∧
      t.compare? v w = some o := by
  rcases ColumnType.plainKind?_cases ht with ⟨rfl, -⟩ | ⟨rfl, rfl⟩ | ⟨rfl, rfl⟩
  · cases v <;> simp only [PlainKind.has, Bool.false_eq_true] at hv
    rename_i m
    cases w <;> simp only [PlainKind.ComparesWith] at hw
    rename_i n
    refine ⟨.int m, .int n, Ord.compare m n, coercePair_int m n, Value.order_int m n, ?_,
      ColumnType.compare?_whole ht (hvspan m rfl) (hwspan n rfl)⟩
    rw [Bool.eq_iff_iff, Value.eqv_int, beq_iff_eq, Int.compare_eq_eq]
  · cases v <;> simp only [PlainKind.has, Bool.false_eq_true] at hv
    rename_i s
    cases w <;> simp only [PlainKind.ComparesWith] at hw
    rename_i s'
    exact ⟨.text s, .text s', Ord.compare s s', rfl, by simp [Value.order], Value.eqv_text s s',
      rfl⟩
  · cases v <;> simp only [PlainKind.has, Bool.false_eq_true] at hv
    rename_i d
    -- A written date is read as a date on both sides.
    have hdate : ∀ e : CalendarDate, coercePair (.date d) w = .ok (.date d, .date e) →
        w.moment? .date = some e.clockTime →
        ∃ a b o, coercePair (.date d) w = .ok (a, b) ∧ a.order b = .ok (some o) ∧
          a.eqv b = (o == .eq) ∧ ColumnType.compare? .date (.date d) w = some o :=
      fun e hpair hmoment => ⟨.date d, .date e, d.compare e, hpair, by simp [Value.order],
        Value.eqv_date d e, ColumnType.compare?_date (Value.moment?_date d) hmoment⟩
    cases w <;> simp only [PlainKind.ComparesWith] at hw
    case date e => exact hdate e rfl (Value.moment?_date e)
    case text s =>
      obtain ⟨e, rfl⟩ := hw
      exact hdate e (coercePair_date_isoText d e) (Value.moment?_isoText e)

/-- Where two values have an order, both ways decide a comparison by it. -/
theorem FilterOperator.compare_eq_accepts {op : FilterOperator} (hlike : op ≠ .like)
    (hin : op ≠ .isIn) {a b : Value} {o : Ordering} (horder : a.order b = .ok (some o))
    (heqv : a.eqv b = (o == .eq)) : op.compare a b = .ok (op.accepts o) := by
  cases op <;> simp only [compare, accepts, horder, heqv, Except.map, ne_eq, not_true_eq_false,
    reduceCtorEq] at *
  all_goals cases o <;> rfl

/-! ## The type of a condition -/

theorem ColumnType.plainKind?_whole {t : ColumnType} (h : t.plainKind? = some .whole) :
    t = .integer ∨ t = .bigint ∨ t = .hugeint := by
  rcases plainKind?_cases h with ⟨-, h⟩ | ⟨h, -⟩ | ⟨h, -⟩
  · exact h
  · exact PlainKind.noConfusion h
  · exact PlainKind.noConfusion h

theorem ColumnType.isInRange_bigint {n : Int} (h : integer.isInRange n = true) :
    bigint.isInRange n = true := by
  simp only [isInRange, isSignedWord, Bool.and_eq_true, decide_eq_true_eq] at h ⊢
  omega

theorem ColumnType.isInRange_hugeint {n : Int} (h : bigint.isInRange n = true) :
    hugeint.isInRange n = true := by
  simp only [isInRange, isSignedWord, Bool.and_eq_true, decide_eq_true_eq] at h ⊢
  omega

/-- Types of whole numbers have one in common, the wider of them. -/
theorem ColumnType.common?_whole {t u : ColumnType} (ht : t.plainKind? = some .whole)
    (hu : u.plainKind? = some .whole) (equality : Bool) :
    ∃ s, t.common? equality u = some s ∧ s.plainKind? = some .whole ∧
      ∀ n, t.isInRange n = true ∨ u.isInRange n = true → s.isInRange n = true := by
  rcases plainKind?_whole ht with rfl | rfl | rfl <;>
    rcases plainKind?_whole hu with rfl | rfl | rfl
  · exact ⟨integer, by cases equality <;> rfl, rfl, fun _ h => h.elim id id⟩
  · exact ⟨bigint, by cases equality <;> rfl, rfl, fun _ h => h.elim isInRange_bigint id⟩
  · exact ⟨hugeint, by cases equality <;> rfl, rfl,
      fun _ h => h.elim (fun h => isInRange_hugeint (isInRange_bigint h)) id⟩
  · exact ⟨bigint, by cases equality <;> rfl, rfl, fun _ h => h.elim id isInRange_bigint⟩
  · exact ⟨bigint, by cases equality <;> rfl, rfl, fun _ h => h.elim id id⟩
  · exact ⟨hugeint, by cases equality <;> rfl, rfl, fun _ h => h.elim isInRange_hugeint id⟩
  · exact ⟨hugeint, by cases equality <;> rfl, rfl,
      fun _ h => h.elim id fun h => isInRange_hugeint (isInRange_bigint h)⟩
  · exact ⟨hugeint, by cases equality <;> rfl, rfl, fun _ h => h.elim id isInRange_hugeint⟩
  · exact ⟨hugeint, by cases equality <;> rfl, rfl, fun _ h => h.elim id id⟩

theorem ColumnType.ofInt_whole {n : Int} (h : isSignedWord n = true) :
    (ofInt n).plainKind? = some .whole ∧ (ofInt n).isInRange n = true := by
  by_cases hn : integer.isInRange n = true
  · have : ofInt n = integer := by simp [ofInt, hn]
    rw [this]
    exact ⟨rfl, hn⟩
  · have hbig : bigint.isInRange n = true := h
    have : ofInt n = bigint := by simp [ofInt, hn, hbig]
    rw [this]
    exact ⟨rfl, hbig⟩

/-- A column and a fixed value of its kind are compared as values of the kind. -/
theorem with?_fixed {t : ColumnType} {k : PlainKind} (ht : t.plainKind? = some k) {w : Value}
    (hw : k.ComparesWith w) (equality : Bool) :
    ∃ s, (ComparedKind.typed t).with? equality (Operand.fixed w).kind = some (.typed s) ∧
      s.plainKind? = some k ∧ s.Spans w ∧ ∀ n, t.isInRange n = true → s.isInRange n = true := by
  rcases ColumnType.plainKind?_cases ht with ⟨rfl, -⟩ | ⟨rfl, rfl⟩ | ⟨rfl, rfl⟩
  · cases w <;> simp only [PlainKind.ComparesWith] at hw
    rename_i m
    obtain ⟨hkind, hrange⟩ := ColumnType.ofInt_whole hw
    obtain ⟨s, hs, hsk, hspan⟩ := ColumnType.common?_whole ht hkind equality
    refine ⟨s, ?_, hsk, fun n hn => ?_, fun n hn => hspan n (.inl hn)⟩
    · show ((ColumnType.common? equality t (ColumnType.ofInt m)).map ComparedKind.typed) = _
      rw [hs]
      rfl
    · obtain rfl := Value.int.inj hn
      exact hspan m (.inr hrange)
  · cases w <;> simp only [PlainKind.ComparesWith] at hw
    exact ⟨.varchar, rfl, rfl, fun n hn => Value.noConfusion hn, fun _ h => h⟩
  · cases w <;> simp only [PlainKind.ComparesWith] at hw
    case text s => exact ⟨.date, rfl, rfl, fun n hn => Value.noConfusion hn, fun _ h => h⟩
    case date d => exact ⟨.date, rfl, rfl, fun n hn => Value.noConfusion hn, fun _ h => h⟩

/-- A column and fixed values of its kind are all compared as values of the kind. -/
theorem foldlM_with?_fixed {t : ColumnType} {k : PlainKind} (ht : t.plainKind? = some k)
    {ws : List Value} (hws : ∀ w ∈ ws, k.ComparesWith w) :
    ∃ s, (ws.map Operand.fixed).foldlM (fun j r => j.with? true r.kind) (ComparedKind.typed t) =
        some (.typed s) ∧
      s.plainKind? = some k ∧ (∀ w ∈ ws, s.Spans w) ∧
      ∀ n, t.isInRange n = true → s.isInRange n = true := by
  -- The type grows with each value, so that what it spans before it spans in the end.
  induction ws generalizing t with
  | nil => exact ⟨t, rfl, ht, by simp, fun _ h => h⟩
  | cons w ws ih =>
    obtain ⟨u, hu, huk, huw, htu⟩ := with?_fixed ht (hws w List.mem_cons_self) true
    obtain ⟨s, hs, hsk, hsws, hus⟩ := ih huk fun v hv => hws v (List.mem_cons_of_mem w hv)
    refine ⟨s, ?_, hsk, ?_, fun n hn => hus n (htu n hn)⟩
    · rw [List.map_cons, List.foldlM_cons, hu]
      exact hs
    · intro v hv
      rcases List.mem_cons.1 hv with rfl | hv
      · exact fun n hn => hus n (huw n hn)
      · exact hsws v hv

/-! ## One condition -/

/-- The values with which a condition compares. -/
def PlanFilter.compared (f : PlanFilter) : List Value :=
  if f.operator = .isIn then f.values else [f.value]

/-- The condition compares a column with values of its kind, and a pattern with texts only. -/
def PlanFilter.Fits (columns : List Column) (f : PlanFilter) : Prop :=
  ∃ k, kindOf? columns f.column = some k ∧ (f.operator = .like → k = .text) ∧
    ∀ w ∈ f.compared, k.ComparesWith w

/-- The condition on a row that stands for one on a record. -/
def PlanFilter.test (f : PlanFilter) (o : Operand) : Test :=
  match f.operator with
  | .isIn => .member o (f.values.map .fixed)
  | op => .compare op o (.fixed f.value)

theorem PlainKind.ComparesWith.isNull_eq {k : PlainKind} {w : Value} (h : k.ComparesWith w) :
    w.isNull = false := by
  cases w
  case null => cases k <;> exact h.elim
  all_goals rfl

theorem PlainKind.ComparesWith.isCompound_eq {k : PlainKind} {w : Value} (h : k.ComparesWith w) :
    w.isCompound = false := by
  cases w
  case list => cases k <;> exact h.elim
  case object => cases k <;> exact h.elim
  all_goals rfl

/-- A comparison of two values of a kind is decided alike on both sides. -/
theorem compareOperands_agrees {t : ColumnType} {k : PlainKind} (ht : t.plainKind? = some k)
    (op : FilterOperator) (hlike : op ≠ .like) (hin : op ≠ .isIn) {v w : Value}
    (hnull : v.isNull = false) (hv : k.has v = true) (hw : k.ComparesWith w)
    (hvspan : t.Spans v) (hwspan : t.Spans w) :
    ∃ a b c, coercePair v w = .ok (a, b) ∧ op.compare a b = .ok c ∧
      compareOperands op t v w = .ok c ∧ (op = .eq → a.eqv b = c) := by
  obtain ⟨a, b, o, hpair, horder, heqv, hcompare⟩ := compare?_agrees ht hv hw hvspan hwspan
  refine ⟨a, b, op.accepts o, hpair, FilterOperator.compare_eq_accepts hlike hin horder heqv,
    ?_, ?_⟩
  · rw [compareOperands, hnull, hw.isNull_eq]
    simp [hlike, hcompare]
  · rintro rfl
    exact heqv

/-- A value is among candidates of its kind if one of the comparisons with them holds. -/
theorem isAmong_agrees {t : ColumnType} {k : PlainKind} (ht : t.plainKind? = some k) {v : Value}
    (hnull : v.isNull = false) (hv : k.has v = true) (hvspan : t.Spans v) {ws : List Value}
    (hws : ∀ w ∈ ws, k.ComparesWith w) (hspan : ∀ w ∈ ws, t.Spans w) :
    ∃ bs, ws.mapM (fun w => compareOperands .eq t v w) = .ok bs ∧
      v.isAmong ws = .ok (bs.any id) := by
  induction ws with
  | nil => exact ⟨[], rfl, rfl⟩
  | cons w ws ih =>
    obtain ⟨bs, hbs, hamong⟩ := ih (fun u hu => hws u (List.mem_cons_of_mem w hu))
      fun u hu => hspan u (List.mem_cons_of_mem w hu)
    have hw := hws w List.mem_cons_self
    obtain ⟨a, b, c, hpair, -, hcompare, heqv⟩ :=
      compareOperands_agrees ht .eq (by simp) (by simp) hnull hv hw hvspan
        (hspan w List.mem_cons_self)
    refine ⟨c :: bs, ?_, ?_⟩
    · rw [List.mapM_cons, hcompare, hbs]
      rfl
    · rw [Value.isAmong, hw.isNull_eq, hpair]
      simp only [Bool.false_eq_true, if_false, bind, Except.bind, heqv rfl, hamong]
      cases c <;> rfl

/-- The condition on a row has a kind, and gives the answer of the condition on its record for
every value that a column of the type may hold. -/
def PlanFilter.AnswersAlike (f : PlanFilter) (k : PlainKind) (i : Nat) (type : ColumnType) : Prop :=
  (f.test (.cell i type)).kind?.isSome ∧
    ∀ ⦃row : List Value⦄ ⦃v : Value⦄, row.getD i .null = v → v.isNull = false → k.has v = true →
      type.Spans v → ∃ b, (f.test (.cell i type)).holds row = .ok b ∧ f.holdsOf v = .ok b

/-- A membership among fixed values compares the cell with each of them. -/
theorem Test.holds_member_fixed (row : List Value) (i : Nat) (type : ColumnType)
    (ws : List Value) :
    (Test.member (.cell i type) (ws.map .fixed)).holds row =
      (ws.mapM fun w => compareOperands .eq (Test.member (.cell i type) (ws.map .fixed)).type
        (row.getD i .null) w) >>= fun bs => .ok (bs.any id) := by
  rw [Test.holds, List.mapM_map]
  rfl

section OneCondition

variable {f : PlanFilter} {k : PlainKind} {type : ColumnType} (i : Nat)

theorem PlanFilter.answersAlike_like (htype : type.plainKind? = some k) (hop : f.operator = .like)
    (hlike : f.operator = .like → k = .text) (hcompared : ∀ w ∈ f.compared, k.ComparesWith w) :
    f.AnswersAlike k i type := by
  obtain rfl := hlike hop
  obtain rfl : type = .varchar := by
    rcases ColumnType.plainKind?_cases htype with ⟨h, -⟩ | ⟨-, h⟩ | ⟨h, -⟩
    · exact PlainKind.noConfusion h
    · exact h
    · exact PlainKind.noConfusion h
  obtain ⟨pattern, hpattern⟩ : ∃ pattern, f.value = .text pattern := by
    have hw := hcompared f.value (by simp [compared, hop])
    cases hv : f.value <;> simp_all [PlainKind.ComparesWith]
  have htest : f.test (.cell i .varchar) =
      .compare .like (.cell i .varchar) (.fixed (.text pattern)) := by
    simp [test, hop, hpattern]
  refine ⟨by rw [htest]; rfl, fun row v hcell hnull hhas _ => ?_⟩
  obtain ⟨s, rfl⟩ : ∃ s, v = .text s := by
    cases v <;> simp_all [PlainKind.has]
  refine ⟨likeText pattern s, ?_, ?_⟩
  · rw [htest]
    simp only [Test.holds, Operand.value, hcell]
    rfl
  · simp [holdsOf, hop, hpattern, Value.isNull]

theorem PlanFilter.answersAlike_isIn (htype : type.plainKind? = some k) (hop : f.operator = .isIn)
    (hcompared : ∀ w ∈ f.compared, k.ComparesWith w) : f.AnswersAlike k i type := by
  have hws : ∀ w ∈ f.values, k.ComparesWith w := fun w hw => hcompared w (by simpa [compared, hop])
  -- The candidates are compared as values of a type that all of them have in common.
  obtain ⟨s, hs, hsk, hspan, hrange⟩ := foldlM_with?_fixed htype hws
  have htest : f.test (.cell i type) = .member (.cell i type) (f.values.map .fixed) := by
    simp [test, hop]
  have hkind : (f.test (.cell i type)).kind? = some (.typed s) := by
    rw [htest]
    exact hs
  have hs : (f.test (.cell i type)).type = s := by
    rw [Test.type, hkind]
    rfl
  refine ⟨by rw [hkind]; rfl, fun row v hcell hnull hhas hvspan => ?_⟩
  obtain ⟨bs, hbs, hamong⟩ := isAmong_agrees hsk hnull hhas
    (fun n hn => hrange n (hvspan n hn)) hws hspan
  refine ⟨bs.any id, ?_, ?_⟩
  · rw [htest] at hs ⊢
    rw [Test.holds_member_fixed, hs, hcell, hbs]
    rfl
  · simp [holdsOf, hop, hamong]

theorem PlanFilter.answersAlike_compare (htype : type.plainKind? = some k)
    (hlike : f.operator ≠ .like) (hin : f.operator ≠ .isIn)
    (hcompared : ∀ w ∈ f.compared, k.ComparesWith w) : f.AnswersAlike k i type := by
  have hw := hcompared f.value (by simp [compared, hin])
  obtain ⟨s, hs, hsk, hspan, hrange⟩ :=
    with?_fixed htype hw (f.operator == .eq || f.operator == .ne)
  have htest : f.test (.cell i type) = .compare f.operator (.cell i type) (.fixed f.value) := by
    unfold test
    split
    · rename_i h
      exact absurd h hin
    · rfl
  have hkind : (f.test (.cell i type)).kind? = some (.typed s) := by
    rw [htest, Test.kind?, if_neg hlike]
    exact hs
  have hs : (f.test (.cell i type)).type = s := by
    rw [Test.type, hkind]
    rfl
  refine ⟨by rw [hkind]; rfl, fun row v hcell hnull hhas hvspan => ?_⟩
  obtain ⟨a, b, c, hpair, hcompare, hoperands, -⟩ :=
    compareOperands_agrees hsk f.operator hlike hin hnull hhas hw
      (fun n hn => hrange n (hvspan n hn)) hspan
  refine ⟨c, ?_, ?_⟩
  · rw [htest] at hs ⊢
    simp only [Test.holds, hs, Operand.value, hcell, hoperands]
  · unfold holdsOf
    split
    · rename_i h
      exact absurd h hin
    · rename_i h
      exact absurd h hlike
    · rw [hw.isNull_eq, hpair]
      simp only [Bool.false_eq_true, if_false, bind, Except.bind, hcompare]
      rfl

theorem PlanFilter.Fits.answersAlike {columns : List Column} (h : f.Fits columns)
    (hc : HasColumn columns f.column i type) : ∃ k, type.plainKind? = some k ∧
      f.AnswersAlike k i type := by
  obtain ⟨k, hk, hlike, hcompared⟩ := h
  rw [hc.kindOf?_eq] at hk
  refine ⟨k, hk, ?_⟩
  by_cases hop : f.operator = .like
  · exact f.answersAlike_like i hk hop hlike hcompared
  · by_cases hin : f.operator = .isIn
    · exact f.answersAlike_isIn i hk hin hcompared
    · exact f.answersAlike_compare i hk hop hin hcompared

/-- No condition holds of a null value in a row. -/
theorem PlanFilter.test_holds_null {row : List Value} (hcell : row.getD i .null = .null) :
    (f.test (.cell i type)).holds row = .ok false := by
  unfold test
  split
  · have hall : ∀ ws : List Value, ∀ s,
        ws.mapM (fun w => compareOperands .eq s .null w) = .ok (ws.map fun _ => false) := by
      intro ws s
      induction ws with
      | nil => rfl
      | cons w ws ih =>
        rw [List.mapM_cons, ih]
        rfl
    rw [Test.holds_member_fixed, hcell, hall]
    simp [bind, Except.bind]
  · simp only [Test.holds, Operand.value, hcell]
    rfl

end OneCondition

/-- The condition on a row and that on its record give the same answer. -/
def Test.Decides (columns : List Column) (test : Test)
    (check : Record → Except ExecutionFault Bool) : Prop :=
  test.kind?.isSome ∧
    ∀ ⦃row r⦄, Reads columns row r → ∃ b, test.holds row = .ok b ∧ check r = .ok b

/-- **A condition on a plain column holds of a row exactly if it holds of the record.** -/
theorem PlanFilter.Fits.decides {columns : List Column} {f : PlanFilter} (h : f.Fits columns)
    {i : Nat} {type : ColumnType} (hc : HasColumn columns f.column i type) :
    (f.test (.cell i type)).Decides columns f.holds := by
  obtain ⟨k, hk, hkind, hanswer⟩ := h.answersAlike i hc
  refine ⟨hkind, fun row r hr => ?_⟩
  obtain ⟨hvalue, hholds⟩ := hr hc
  rw [hc.cellOf_eq] at hvalue hholds
  generalize hcell : row.getD i .null = v at hvalue hholds
  -- A condition on null holds on neither side; any other value is one of the kind of the column.
  cases hnull : v.isNull with
  | true =>
    obtain rfl : v = .null := by cases v <;> first | rfl | exact Bool.noConfusion hnull
    exact ⟨false, test_holds_null i hcell, holds_null hvalue⟩
  | false =>
    simp only [Column.holds, hnull, hk, Bool.false_or, Option.any_some, Bool.and_eq_true] at hholds
    have hspan : type.Spans v := by
      rintro n rfl
      simpa [Value.int?] using hholds.2
    obtain ⟨b, htest, hcheck⟩ := hanswer hcell hnull hholds.1 hspan
    refine ⟨b, htest, ?_⟩
    rw [holds, hvalue, hnull]
    exact hcheck

/-! ## Conditions of a query -/

/-- Values are found under the names that they are zipped with. -/
theorem mapM_lookup_zip {params : Entries Value} {names : List String} {vs : List Value}
    (hlen : names.length = vs.length)
    (h : ∀ e ∈ names.zip vs, params.lookup e.1 = some e.2) :
    (names.mapM fun n => (params.lookup n).map Operand.fixed) = some (vs.map Operand.fixed) := by
  induction names generalizing vs with
  | nil =>
    obtain rfl := List.eq_nil_of_length_eq_zero hlen.symm
    rfl
  | cons n names ih =>
    obtain ⟨v, vs, rfl⟩ := List.exists_cons_of_length_eq_add_one hlen.symm
    have hn := h (n, v) List.mem_cons_self
    have hrest := ih (Nat.succ.inj hlen) fun e he => h e (List.mem_cons_of_mem _ he)
    rw [List.mapM_cons, hn, hrest]
    rfl

/-- The condition for a filter is bound to its test. -/
theorem bind?_filterCondition {columns : List Column} {fs : List PlanFilter} {n : Nat}
    (hn : n < fs.length) {i : Nat} {type : ColumnType}
    (hc : HasColumn columns fs[n].column i type) :
    (filterCondition fs[n] n).bind? columns (filtersParameters fs) =
      some (fs[n].test (.cell i type)) := by
  have hlookup := fun e he => lookup_filtersParameters hn (e := e) he
  -- Of the parameters only those of this filter matter from here on.
  generalize filtersParameters fs = params at hlookup
  generalize fs[n] = f at hc hlookup
  obtain ⟨c, op, v⟩ := f
  cases op
  case isIn =>
    have hmembers := mapM_lookup_zip (by simp) hlookup
    simp only [filterCondition, Condition.bind?, hc.operandOf?_eq, bind, Option.bind] at hmembers ⊢
    rw [hmembers]
    rfl
  all_goals
    have hvalue := hlookup _ List.mem_cons_self
    simp only [filterCondition, Condition.bind?, hc.operandOf?_eq, hvalue, bind, Option.bind]
    rfl

/-- Conditions that are bound to tests which decide checks, one by one. -/
theorem exists_tests {columns : List Column} {params : Entries Value} {cs : List Condition}
    {checks : List (Record → Except ExecutionFault Bool)}
    (h : List.Forall₂ (fun c check => ∃ t, c.bind? columns params = some t ∧
      t.Decides columns check) cs checks) :
    ∃ tests, cs.mapM (·.bind? columns params) = some tests ∧
      List.Forall₂ (fun t check => t.Decides columns check) tests checks := by
  induction h with
  | nil => exact ⟨[], rfl, .nil⟩
  | cons hc _ ih =>
    obtain ⟨t, ht, hdecides⟩ := hc
    obtain ⟨tests, htests, hall⟩ := ih
    refine ⟨t :: tests, ?_, .cons hdecides hall⟩
    rw [List.mapM_cons, ht, htests]
    rfl

/-- What a plan asks of a record: a value on the horizontal axis, and all its conditions. -/
def ChartPlan.checks (p : ChartPlan) : List (Record → Except ExecutionFault Bool) :=
  (p.xAxis.map fun x r => .ok !(r.value x.name).isNull).toList ++ p.filters.map PlanFilter.holds

/-- The conditions of the query of a plan. -/
def ChartPlan.conditions (p : ChartPlan) : List Condition :=
  (p.xAxis.map Condition.notNull).toList ++ filterConditions p.filters

/-- A plan filters plain columns with conditions that fit them. -/
structure ChartPlan.FiltersPlainly (p : ChartPlan) (columns : List Column) : Prop where
  axis : ∀ x, p.xAxis = some x → ∃ i type, HasColumn columns x i type
  column : ∀ f ∈ p.filters, ∃ i type, HasColumn columns f.column i type
  fits : ∀ f ∈ p.filters, f.Fits columns

theorem exists_tests_ofPlan {columns : List Column} {p : ChartPlan}
    (h : p.FiltersPlainly columns) :
    ∃ tests, p.conditions.mapM (·.bind? columns (planParameters p)) = some tests ∧
      List.Forall₂ (fun t check => t.Decides columns check) tests p.checks := by
  refine exists_tests (List.rel_append ?_ ?_)
  · cases hx : p.xAxis with
    | none => exact .nil
    | some x =>
      obtain ⟨i, type, hc⟩ := h.axis x hx
      refine .cons ⟨.notNull (.cell i type), ?_, rfl, fun row r hr => ?_⟩ .nil
      · rw [Condition.bind?, hc.operandOf?_eq]
        rfl
      · refine ⟨!(r.value x.name).isNull, ?_, rfl⟩
        rw [(hr hc).1, hc.cellOf_eq]
        rfl
  · refine List.forall₂_iff_get.2 ⟨by simp [filterConditions], fun n hn hn' => ?_⟩
    have hlen : n < p.filters.length := by simpa [filterConditions] using hn
    have hmem := List.getElem_mem hlen
    obtain ⟨i, type, hc⟩ := h.column _ hmem
    refine ⟨p.filters[n].test (.cell i type), ?_, ?_⟩
    · simpa [filterConditions, planParameters] using bind?_filterCondition hlen hc
    · simpa using (h.fits _ hmem).decides hc

/-! ## Rows and records that are kept -/

/-- The answer of a condition on a row that gives one. -/
def Test.answer (row : List Value) (t : Test) : Bool := (t.holds row).toOption.getD false

theorem Test.Decides.holds_eq {columns : List Column} {t : Test}
    {check : Record → Except ExecutionFault Bool} (h : t.Decides columns check)
    {row : List Value} {r : Record} (hr : Reads columns row r) :
    t.holds row = .ok (t.answer row) ∧ check r = .ok (t.answer row) := by
  obtain ⟨b, hb, hcheck⟩ := h.2 hr
  rw [Test.answer, hb]
  exact ⟨rfl, hcheck⟩

/-- Conditions that give answers all hold if all the answers say so, in whatever order. -/
theorem allTestsHold_eq {row : List Value} {tests : List Test}
    (h : ∀ t ∈ tests, t.holds row = .ok (t.answer row)) :
    allTestsHold row tests = .ok (tests.all (·.answer row)) := by
  induction tests with
  | nil => rfl
  | cons t tests ih =>
    rw [allTestsHold, h t List.mem_cons_self, List.all_cons]
    cases t.answer row with
    | true => exact ih fun u hu => h u (List.mem_cons_of_mem t hu)
    | false => rfl

theorem keepTableRows_eq {tests : List Test} {rows : List (List Value)}
    (h : ∀ row ∈ rows, ∀ t ∈ tests, t.holds row = .ok (t.answer row)) :
    keepTableRows tests rows = .ok (rows.filter fun row => tests.all (·.answer row)) := by
  induction rows with
  | nil => rfl
  | cons row rows ih =>
    rw [keepTableRows, allTestsHold_eq (h row List.mem_cons_self),
      ih fun row' hrow => h row' (List.mem_cons_of_mem row hrow), List.filter_cons]
    rfl

/-- Where all conditions give answers, those that are decided last may as well stand in their
places. -/
theorem selectRows_eq {tests : List Test} {rows : List (List Value)}
    (hkinds : ∀ t ∈ tests, t.kind?.isSome)
    (h : ∀ row ∈ rows, ∀ t ∈ tests, t.holds row = .ok (t.answer row)) :
    selectRows tests rows = .ok (rows.filter fun row => tests.all (·.answer row)) := by
  have hall : tests.all (·.kind?.isSome) = true := List.all_eq_true.2 hkinds
  -- Conditions that may fail are decided last, which does not matter where none of them fails.
  have hperm : (tests.filter (!·.mayFail) ++ tests.filter (·.mayFail)).Perm tests := by
    refine List.perm_append_comm.trans ?_
    exact List.filter_append_perm _ tests
  rw [selectRows, hall]
  simp only [Bool.not_true, Bool.false_eq_true, if_false]
  rw [keepTableRows_eq fun row hrow t ht => h row hrow t (hperm.mem_iff.1 ht)]
  simp only [hperm.all_eq]

theorem allHold_eq {columns : List Column} {tests : List Test} {fs : List PlanFilter}
    (h : List.Forall₂ (fun t check => t.Decides columns check) tests (fs.map PlanFilter.holds))
    {row : List Value} {r : Record} (hr : Reads columns row r) :
    allHold r fs = .ok (tests.all (·.answer row)) := by
  induction fs generalizing tests with
  | nil =>
    cases h
    rfl
  | cons f fs ih =>
    obtain ⟨t, tests, hdecides, hrest, rfl⟩ := List.forall₂_cons_right_iff.1 h
    rw [allHold, (hdecides.holds_eq hr).2, List.all_cons]
    cases t.answer row with
    | true => exact ih hrest
    | false => rfl

/-- A record is kept if all conditions hold of its row. -/
theorem keeps_eq {columns : List Column} {p : ChartPlan} {tests : List Test}
    (h : List.Forall₂ (fun t check => t.Decides columns check) tests p.checks)
    {row : List Value} {r : Record} (hr : Reads columns row r) :
    p.keeps r = .ok (tests.all (·.answer row)) := by
  rw [ChartPlan.keeps]
  rw [ChartPlan.checks] at h
  cases hx : p.xAxis with
  | none =>
    rw [hx] at h
    exact allHold_eq h hr
  | some x =>
    rw [hx] at h
    obtain ⟨t, tests, hdecides, hrest, rfl⟩ := List.forall₂_cons_right_iff.1 h
    have hanswer := Except.ok.inj (hdecides.holds_eq hr).2
    rw [List.all_cons, ← hanswer, Option.any_some]
    cases (r.value x.name).isNull with
    | true => rfl
    | false => exact allHold_eq hrest hr

theorem keepRows_agree {columns : List Column} {p : ChartPlan} {tests : List Test}
    (h : List.Forall₂ (fun t check => t.Decides columns check) tests p.checks)
    {rows : List (List Value)} {rs : List Record} (hr : List.Forall₂ (Reads columns) rows rs) :
    ∃ kept, p.keepRows rs = .ok kept ∧
      List.Forall₂ (Reads columns) (rows.filter fun row => tests.all (·.answer row)) kept := by
  induction hr with
  | nil => exact ⟨[], rfl, .nil⟩
  | @cons row r rows rs hrow _ ih =>
    obtain ⟨kept, hkept, hall⟩ := ih
    rw [ChartPlan.keepRows, keeps_eq h hrow, hkept, List.filter_cons]
    cases tests.all (·.answer row) with
    | true => exact ⟨r :: kept, rfl, .cons hrow hall⟩
    | false => exact ⟨kept, rfl, hall⟩

/-- **The rows that the query of a plan selects are those whose records the plan keeps.** -/
theorem keptRows_agree {columns : List Column} {p : ChartPlan} (h : p.FiltersPlainly columns)
    {rows : List (List Value)} {rs : List Record} (hr : List.Forall₂ (Reads columns) rows rs) :
    ∃ tests kept krs, p.conditions.mapM (·.bind? columns (planParameters p)) = some tests ∧
      selectRows tests rows = .ok kept ∧ p.filterRows rs = .ok krs ∧
      List.Forall₂ (Reads columns) kept krs := by
  obtain ⟨tests, htests, hdecides⟩ := exists_tests_ofPlan h
  obtain ⟨krs, hkrs, hreads⟩ := keepRows_agree hdecides hr
  -- Every value is a scalar, and the candidates of a membership are a list or a scalar.
  have hshapes : p.checkShapes = .ok () := by
    have hnone : p.filters.find? (!·.isWellShaped) = none := by
      refine List.find?_eq_none.2 fun f hf => ?_
      obtain ⟨k, -, -, hcompared⟩ := h.fits f hf
      by_cases hin : f.operator = .isIn
      · simp [PlanFilter.isWellShaped, hin]
      · have := (hcompared f.value (by simp [PlanFilter.compared, hin])).isCompound_eq
        simp [PlanFilter.isWellShaped, this]
    rw [ChartPlan.checkShapes, hnone]
  refine ⟨tests, _, krs, htests, selectRows_eq ?_ ?_, ?_, hreads⟩
  · intro t ht
    obtain ⟨n, hn, rfl⟩ := List.mem_iff_getElem.1 ht
    exact (hdecides.get hn (hdecides.length_eq ▸ hn)).1
  · intro row hrow t ht
    obtain ⟨n, hn, rfl⟩ := List.mem_iff_getElem.1 ht
    obtain ⟨m, hm, rfl⟩ := List.mem_iff_getElem.1 hrow
    exact ((hdecides.get hn (hdecides.length_eq ▸ hn)).holds_eq
      (hr.get hm (hr.length_eq ▸ hm))).1
  · rw [ChartPlan.filterRows, hshapes]
    exact hkrs

end ChartQuery
