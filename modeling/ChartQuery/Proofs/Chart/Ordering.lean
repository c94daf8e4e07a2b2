import ChartQuery.Local.Chart
import ChartQuery.Proofs.Chart.PlainColumns

/-!
# The order of rows without ties

Rows whose columns hold nulls and values in a lawful order, such as those of one kind, can be
sorted. If they differ in the columns by which they are sorted, none of them ties with another, so
that it does not matter in which order they were before. Sorting puts rows in order even where
values tie without being the same, as zeros of both signs do.

## Main definitions

* `IsPreordered P`: values that have a transitive order with one another
* `IsRanked P`: values that are sorted lawfully, so that only equal ones tie
* `PlainKind.fits`: null, or a value of a kind
* `OrdersKeys keys rows`, `FitKeys keys rows`: the columns to sort by hold nulls and values that have
  such an order, and that are sorted lawfully

## Main results

* `PlainKind.isRanked`: values of one kind are sorted lawfully
* `areSortable_of_fitKeys`: rows of such columns can be sorted
* `pairwise_sortRows`: sorted rows of such columns are in order
* `pairwise_lt_sortRows`: if no two of them tie, each is strictly before the next
* `sortRows_eq_of_perm`: distinct rows are sorted alike, whatever their order was
-/

namespace ChartQuery

/-! ## Sorting without ties -/

/-- What is sorted is in order, where the order is one on the entries. -/
theorem pairwise_mergeSort_on {α : Type} {le : α → α → Bool} {l : List α}
    (htrans : ∀ a ∈ l, ∀ b ∈ l, ∀ c ∈ l, le a b = true → le b c = true → le a c = true)
    (htotal : ∀ a ∈ l, ∀ b ∈ l, (le a b || le b a) = true) :
    (l.mergeSort le).Pairwise fun a b => le a b = true := by
  -- The order need be one on the entries only, so the entries are sorted as such.
  have hval : (l.attachWith (· ∈ l) fun _ h => h).map Subtype.val = l := by simp
  have hmap := List.map_mergeSort (s := le) (f := Subtype.val)
    (l := l.attachWith (· ∈ l) fun _ h => h) (r := fun a b => le a.1 b.1) fun _ _ _ _ => rfl
  rw [hval] at hmap
  rw [← hmap, List.pairwise_map]
  exact List.pairwise_mergeSort (fun a b c => htrans a.1 a.2 b.1 b.2 c.1 c.2)
    (fun a b => htotal a.1 a.2 b.1 b.2) _

/-- Where an order is total and no two entries tie, sorting forgets the order of before. -/
theorem mergeSort_eq_of_perm {α : Type} {le : α → α → Bool} {l l' : List α} (hperm : l'.Perm l)
    (htrans : ∀ a ∈ l, ∀ b ∈ l, ∀ c ∈ l, le a b = true → le b c = true → le a c = true)
    (htotal : ∀ a ∈ l, ∀ b ∈ l, (le a b || le b a) = true)
    (hanti : ∀ a ∈ l, ∀ b ∈ l, le a b = true → le b a = true → a = b) :
    l'.mergeSort le = l.mergeSort le := by
  have hmem : ∀ a ∈ l', a ∈ l := fun a => hperm.mem_iff.1
  refine List.Perm.eq_of_pairwise (fun a b ha hb => ?_) (pairwise_mergeSort_on
    (fun a ha b hb c hc => htrans a (hmem a ha) b (hmem b hb) c (hmem c hc))
    fun a ha b hb => htotal a (hmem a ha) b (hmem b hb)) (pairwise_mergeSort_on htrans htotal) ?_
  · exact hanti a (hmem a (List.mem_mergeSort.1 ha)) b (List.mem_mergeSort.1 hb)
  · exact (List.mergeSort_perm l' le).trans (hperm.trans (List.mergeSort_perm l le).symm)

/-! ## Values in a lawful order -/

/-- Values that have an order with one another: none is null or compound, and the order is
transitive. Values that tie need not be the same. -/
structure IsPreordered (P : Value → Prop) : Prop where
  present : ∀ v, P v → v.isNull = false
  flat : ∀ v, P v → v.isCompound = false
  order_eq : ∀ v w, P v → P w → v.order w = .ok (some (v.ranked w))
  swap : ∀ v w, P v → P w → v.ranked w = (w.ranked v).swap
  trans : ∀ v w u, P v → P w → P u → (v.ranked w).isLE = true → (w.ranked u).isLE = true →
    (v.ranked u).isLE = true

/-- Values that are sorted lawfully: none is null or compound, each has an order with any other, and
only equal ones tie. -/
structure IsRanked (P : Value → Prop) : Prop where
  present : ∀ v, P v → v.isNull = false
  flat : ∀ v, P v → v.isCompound = false
  order_eq : ∀ v w, P v → P w → v.order w = .ok (some (v.ranked w))
  swap : ∀ v w, P v → P w → v.ranked w = (w.ranked v).swap
  trans : ∀ v w u, P v → P w → P u → (v.ranked w).isLE = true → (w.ranked u).isLE = true →
    (v.ranked u).isLE = true
  eq_of_ranked : ∀ v w, P v → P w → v.ranked w = .eq → v = w

namespace IsRanked

variable {P Q : Value → Prop}

theorem isPreordered (hP : IsRanked P) : IsPreordered P where
  present := hP.present
  flat := hP.flat
  order_eq := hP.order_eq
  swap := hP.swap
  trans := hP.trans

theorem mono (hP : IsRanked P) (h : ∀ v, Q v → P v) : IsRanked Q where
  present v hv := hP.present v (h v hv)
  flat v hv := hP.flat v (h v hv)
  order_eq v w hv hw := hP.order_eq v w (h v hv) (h w hw)
  swap v w hv hw := hP.swap v w (h v hv) (h w hw)
  trans v w u hv hw hu := hP.trans v w u (h v hv) (h w hw) (h u hu)
  eq_of_ranked v w hv hw := hP.eq_of_ranked v w (h v hv) (h w hw)

/-- Values are sorted lawfully where they are ranked as different keys of a lawful order. -/
theorem of_rank {κ : Type} [Ord κ] [Std.TransOrd κ] [Std.LawfulEqOrd κ] (rank : Value → κ)
    (hflat : ∀ v, P v → v.isNull = false ∧ v.isCompound = false)
    (horder : ∀ v w, P v → P w → v.order w = .ok (some (v.ranked w)))
    (hranked : ∀ v w, P v → P w → v.ranked w = Ord.compare (rank v) (rank w))
    (hinj : ∀ v w, P v → P w → rank v = rank w → v = w) : IsRanked P where
  present v hv := (hflat v hv).1
  flat v hv := (hflat v hv).2
  order_eq := horder
  swap v w hv hw := by
    rw [hranked v w hv hw, hranked w v hw hv]
    exact Std.OrientedCmp.eq_swap
  trans v w u hv hw hu hvw hwu := by
    rw [hranked v w hv hw] at hvw
    rw [hranked w u hw hu] at hwu
    rw [hranked v u hv hu]
    exact Std.TransCmp.isLE_trans hvw hwu
  eq_of_ranked v w hv hw h := by
    rw [hranked v w hv hw] at h
    exact hinj v w hv hw (Std.LawfulEqCmp.eq_of_compare h)

end IsRanked

theorem Value.ranked_int (m n : Int) : (Value.int m).ranked (.int n) = Ord.compare m n := by
  simp [ranked, order_int]

theorem Value.ranked_date (d e : CalendarDate) :
    (Value.date d).ranked (.date e) = Ord.compare d.ordinal e.ordinal := by
  rw [CalendarDate.compare_ordinal]
  simp [ranked, order]

/-- The number of the day of a date; any other value counts as none. -/
def Value.dayNumber : Value → Nat
  | .date d => d.ordinal
  | _ => 0

/-- The value is null or of the kind. -/
def PlainKind.fits (k : PlainKind) (v : Value) : Prop := v = .null ∨ k.describes v = true

theorem PlainKind.exists_int {v : Value} (h : whole.describes v = true) : ∃ n, v = .int n := by
  cases v
  case int n => exact ⟨n, rfl⟩
  all_goals exact Bool.noConfusion h

theorem PlainKind.exists_text {v : Value} (h : text.describes v = true) : ∃ s, v = .text s := by
  cases v
  case text s => exact ⟨s, rfl⟩
  all_goals exact Bool.noConfusion h

theorem PlainKind.exists_date {v : Value} (h : date.describes v = true) : ∃ d, v = .date d := by
  cases v
  case date d => exact ⟨d, rfl⟩
  all_goals exact Bool.noConfusion h

/-- Values of one kind are sorted lawfully. -/
theorem PlainKind.isRanked (k : PlainKind) : IsRanked fun v => k.describes v = true := by
  cases k with
  | whole =>
    refine .of_rank (fun v => v.int?.getD 0) (fun v hv => ?_) ?_ ?_ ?_
    · obtain ⟨m, rfl⟩ := exists_int hv
      exact ⟨rfl, rfl⟩
    all_goals
      intro v w hv hw
      obtain ⟨m, rfl⟩ := exists_int hv
      obtain ⟨n, rfl⟩ := exists_int hw
    · rw [Value.order_int, Value.ranked_int]
    · exact Value.ranked_int m n
    · exact congrArg Value.int
  | text =>
    refine .of_rank Value.plain (fun v hv => ?_) ?_ ?_ ?_
    · obtain ⟨s, rfl⟩ := exists_text hv
      exact ⟨rfl, rfl⟩
    all_goals
      intro v w hv hw
      obtain ⟨s, rfl⟩ := exists_text hv
      obtain ⟨t, rfl⟩ := exists_text hw
    · rw [Value.order]
      rfl
    · rfl
    · exact congrArg Value.text
  | date =>
    refine .of_rank Value.dayNumber (fun v hv => ?_) ?_ ?_ ?_
    · obtain ⟨d, rfl⟩ := exists_date hv
      exact ⟨rfl, rfl⟩
    all_goals
      intro v w hv hw
      obtain ⟨d, rfl⟩ := exists_date hv
      obtain ⟨e, rfl⟩ := exists_date hw
    · simp [Value.ranked, Value.order]
    · exact Value.ranked_date d e
    · intro h
      change d.ordinal = e.ordinal at h
      have hcompare := CalendarDate.compare_ordinal d e
      rw [Nat.compare_eq_eq.2 h] at hcompare
      rw [CalendarDate.compare_eq_iff.1 hcompare.symm]

namespace SortKey

variable {P : Value → Prop} {v w u : Value} (key : SortKey)

section Preordered

variable (hP : IsPreordered P)

include hP

theorem compare_null_left (hv : P v) : key.compare .null v = .gt := by
  have hnull : Value.isNull .null = true := rfl
  rw [compare, hnull, hP.present v hv]

theorem compare_null_right (hv : P v) : key.compare v .null = .lt := by
  have hnull : Value.isNull .null = true := rfl
  rw [compare, hnull, hP.present v hv]

theorem compare_of_ranked (hv : P v) (hw : P w) :
    key.compare v w = if key.descending then (v.ranked w).swap else v.ranked w := by
  rw [compare, hP.present v hv, hP.present w hw]

theorem compare_swap (hv : v = .null ∨ P v) (hw : w = .null ∨ P w) :
    key.compare v w = (key.compare w v).swap := by
  rcases hv with rfl | hv
  · rcases hw with rfl | hw
    · rfl
    · rw [key.compare_null_left hP hw, key.compare_null_right hP hw]
      rfl
  · rcases hw with rfl | hw
    · rw [key.compare_null_right hP hv, key.compare_null_left hP hv]
      rfl
    · rw [key.compare_of_ranked hP hv hw, key.compare_of_ranked hP hw hv, hP.swap v w hv hw]
      split <;> rfl

theorem compare_trans (hv : v = .null ∨ P v) (hw : w = .null ∨ P w) (hu : u = .null ∨ P u)
    (hvw : (key.compare v w).isLE = true) (hwu : (key.compare w u).isLE = true) :
    (key.compare v u).isLE = true := by
  rcases hu with rfl | hu
  · rcases hv with rfl | hv
    · rfl
    · rw [key.compare_null_right hP hv]
      rfl
  · rcases hw with rfl | hw
    · rw [key.compare_null_left hP hu] at hwu
      exact Bool.noConfusion hwu
    · rcases hv with rfl | hv
      · rw [key.compare_null_left hP hw] at hvw
        exact Bool.noConfusion hvw
      · rw [key.compare_of_ranked hP hv hw] at hvw
        rw [key.compare_of_ranked hP hw hu] at hwu
        rw [key.compare_of_ranked hP hv hu]
        -- Downwards the swapped comparison is that of the swapped values.
        by_cases hdesc : key.descending = true
        · rw [if_pos hdesc, ← hP.swap w v hw hv] at hvw
          rw [if_pos hdesc, ← hP.swap u w hu hw] at hwu
          rw [if_pos hdesc, ← hP.swap u v hu hv]
          exact hP.trans u w v hu hw hv hwu hvw
        · rw [if_neg hdesc] at hvw hwu ⊢
          exact hP.trans v w u hv hw hu hvw hwu

/-- What lies between two values that tie ties with both. -/
theorem compare_eq_of_between (hv : v = .null ∨ P v) (hw : w = .null ∨ P w) (hu : u = .null ∨ P u)
    (hvw : (key.compare v w).isLE = true) (hwu : (key.compare w u).isLE = true)
    (htie : key.compare v u = .eq) : key.compare v w = .eq ∧ key.compare w u = .eq := by
  have huv : (key.compare u v).isLE = true := by
    rw [key.compare_swap hP hu hv, htie]
    rfl
  -- From the outer value that comes last there is a way back to the one between.
  have hwv := key.compare_trans hP hw hu hv hwu huv
  have huw := key.compare_trans hP hu hv hw huv hvw
  rw [key.compare_swap hP hw hv] at hwv
  rw [key.compare_swap hP hu hw] at huw
  exact ⟨Ordering.eq_eq_of_isLE_of_isLE_swap hvw hwv, Ordering.eq_eq_of_isLE_of_isLE_swap hwu huw⟩

end Preordered

/-- Only equal values tie. -/
theorem eq_of_compare (hP : IsRanked P) (hv : v = .null ∨ P v) (hw : w = .null ∨ P w)
    (h : key.compare v w = .eq) : v = w := by
  rcases hv with rfl | hv
  · rcases hw with rfl | hw
    · rfl
    · rw [key.compare_null_left hP.isPreordered hw] at h
      exact Ordering.noConfusion h
  · rcases hw with rfl | hw
    · rw [key.compare_null_right hP.isPreordered hv] at h
      exact Ordering.noConfusion h
    · rw [key.compare_of_ranked hP.isPreordered hv hw] at h
      refine hP.eq_of_ranked v w hv hw ?_
      split at h
      · exact Ordering.swap_eq_eq.1 h
      · exact h

end SortKey

/-! ## Rows of ranked columns -/

theorem haveOrder_of_isRanked {P : Value → Prop} (hP : IsRanked P) {vs : List Value}
    (h : ∀ v ∈ vs, P v) : haveOrder vs = true := by
  cases vs with
  | nil => rfl
  | cons v vs =>
    rw [haveOrder, List.all_eq_true]
    intro w hw
    rw [hP.order_eq v w (h v List.mem_cons_self) (h w (List.mem_cons_of_mem v hw))]
    rfl

theorem isSortableBySeveral_of_isRanked {P : Value → Prop} (hP : IsRanked P) {vs : List Value}
    (h : ∀ v ∈ vs, P v) : isSortableBySeveral vs = true := by
  have hflat : vs.all (!·.isCompound) = true := by
    refine List.all_eq_true.2 fun v hv => ?_
    rw [hP.flat v (h v hv)]
    rfl
  rw [isSortableBySeveral, hflat, Bool.true_and]
  exact haveOrder_of_isRanked hP fun v hv => h v (List.mem_filter.1 hv).1

/-- Each column to sort by holds nulls and values that are sorted lawfully. -/
def FitKeys (keys : List SortKey) (rows : List Record) : Prop :=
  ∀ key ∈ keys, ∃ P, IsRanked P ∧ ∀ r ∈ rows, r.value key.column = .null ∨ P (r.value key.column)

/-- Each column to sort by holds nulls and values that have an order with one another. -/
def OrdersKeys (keys : List SortKey) (rows : List Record) : Prop :=
  ∀ key ∈ keys, ∃ P, IsPreordered P ∧
    ∀ r ∈ rows, r.value key.column = .null ∨ P (r.value key.column)

section Rows

variable {keys : List SortKey} {rows : List Record} {r s t : Record}

theorem FitKeys.tail {key : SortKey} (h : FitKeys (key :: keys) rows) : FitKeys keys rows :=
  fun key' hkey => h key' (List.mem_cons_of_mem key hkey)

theorem FitKeys.ordersKeys (h : FitKeys keys rows) : OrdersKeys keys rows := by
  intro key hkey
  obtain ⟨P, hP, hvalues⟩ := h key hkey
  exact ⟨P, hP.isPreordered, hvalues⟩

theorem OrdersKeys.tail {key : SortKey} (h : OrdersKeys (key :: keys) rows) :
    OrdersKeys keys rows :=
  fun key' hkey => h key' (List.mem_cons_of_mem key hkey)

/-- Rows of columns that are sorted lawfully can be sorted. -/
theorem areSortable_of_fitKeys (h : FitKeys keys rows) : areSortable keys rows = true := by
  have hranked : ∀ key ∈ keys, ∃ P, IsRanked P ∧
      ∀ v ∈ presentValues (rows.map (·.value key.column)), P v := by
    intro key hkey
    obtain ⟨P, hP, hvalues⟩ := h key hkey
    refine ⟨P, hP, fun v hv => ?_⟩
    obtain ⟨hv, hnull⟩ := List.mem_filter.1 hv
    obtain ⟨r, hr, rfl⟩ := List.mem_map.1 hv
    rcases hvalues r hr with hnil | hvalue
    · rw [hnil] at hnull
      exact Bool.noConfusion hnull
    · exact hvalue
  rcases keys with _ | ⟨key, _ | ⟨key', keys⟩⟩
  · rfl
  · obtain ⟨P, hP, hvalues⟩ := hranked key List.mem_cons_self
    exact haveOrder_of_isRanked hP hvalues
  · refine List.all_eq_true.2 fun key hkey => ?_
    obtain ⟨P, hP, hvalues⟩ := hranked key hkey
    exact isSortableBySeveral_of_isRanked hP hvalues

theorem compareRows_swap (h : OrdersKeys keys rows) (hr : r ∈ rows) (hs : s ∈ rows) :
    compareRows r s keys = (compareRows s r keys).swap := by
  induction keys with
  | nil => rfl
  | cons key keys ih =>
    obtain ⟨P, hP, hvalues⟩ := h key List.mem_cons_self
    rw [compareRows, compareRows, Ordering.swap_then, ← ih h.tail,
      ← key.compare_swap hP (hvalues r hr) (hvalues s hs)]

/-- Rows that tie have equal values in the columns by which they are sorted. -/
theorem value_eq_of_compareRows (h : FitKeys keys rows) (hr : r ∈ rows) (hs : s ∈ rows)
    (hrs : compareRows r s keys = .eq) :
    ∀ key ∈ keys, r.value key.column = s.value key.column := by
  induction keys with
  | nil => exact fun key hkey => absurd hkey List.not_mem_nil
  | cons key keys ih =>
    obtain ⟨P, hP, hvalues⟩ := h key List.mem_cons_self
    rw [compareRows, Ordering.then_eq_eq] at hrs
    intro key' hkey
    rcases List.mem_cons.1 hkey with rfl | hkey
    · exact key'.eq_of_compare hP (hvalues r hr) (hvalues s hs) hrs.1
    · exact ih h.tail hrs.2 key' hkey

theorem compareRows_trans (h : OrdersKeys keys rows) (hr : r ∈ rows) (hs : s ∈ rows) (ht : t ∈ rows)
    (hrs : (compareRows r s keys).isLE = true) (hst : (compareRows s t keys).isLE = true) :
    (compareRows r t keys).isLE = true := by
  induction keys with
  | nil => rfl
  | cons key keys ih =>
    obtain ⟨P, hP, hvalues⟩ := h key List.mem_cons_self
    rw [compareRows, Ordering.isLE_then_iff_and] at hrs hst ⊢
    have hrt := key.compare_trans hP (hvalues r hr) (hvalues s hs) (hvalues t ht) hrs.1 hst.1
    refine ⟨hrt, ?_⟩
    rcases Ordering.isLE_iff_eq_lt_or_eq_eq.1 hrt with hlt | htie
    · exact .inl hlt
    · -- If the outer two tie in the first column, then so does the one between them.
      obtain ⟨hleft, hright⟩ := key.compare_eq_of_between hP (hvalues r hr) (hvalues s hs)
        (hvalues t ht) hrs.1 hst.1 htie
      rw [hleft] at hrs
      rw [hright] at hst
      exact .inr (ih h.tail (hrs.2.resolve_left nofun) (hst.2.resolve_left nofun))

theorem compareRows_isTotal (h : OrdersKeys keys rows) (hr : r ∈ rows) (hs : s ∈ rows) :
    (compareRows r s keys != .gt || compareRows s r keys != .gt) = true := by
  rw [compareRows_swap h hr hs]
  cases compareRows s r keys <;> rfl

theorem bne_gt (o : Ordering) : (o != .gt) = o.isLE := by cases o <;> rfl

/-- Sorted rows of columns whose values have an order are in order. -/
theorem pairwise_sortRows (h : OrdersKeys keys rows) :
    (sortRows keys rows).Pairwise fun r s => (compareRows r s keys).isLE = true := by
  have hsorted : (rows.mergeSort fun r s => compareRows r s keys != .gt).Pairwise
      fun r s => (compareRows r s keys != .gt) = true := by
    refine pairwise_mergeSort_on (fun r hr s hs t ht => ?_)
      fun r hr s hs => compareRows_isTotal h hr hs
    simp only [bne_gt]
    exact compareRows_trans h hr hs ht
  exact hsorted.imp fun hle => by rwa [bne_gt] at hle

/-- Where no two of the rows tie, each sorted row is strictly before the next. -/
theorem pairwise_lt_sortRows (h : OrdersKeys keys rows)
    (hdistinct : rows.Pairwise fun r s => compareRows r s keys ≠ .eq) :
    (sortRows keys rows).Pairwise fun r s => compareRows r s keys = .lt := by
  have hperm := sortRows_perm keys rows
  -- Not to tie is symmetric, so that it does not depend on the order of the rows.
  have hboth : rows.Pairwise fun r s =>
      compareRows r s keys ≠ .eq ∧ compareRows s r keys ≠ .eq := by
    refine hdistinct.imp_of_mem fun hr hs hne => ⟨hne, fun htie => hne ?_⟩
    rw [compareRows_swap h hr hs, htie]
    rfl
  have hsorted := (hperm.pairwise_iff fun hne => hne.symm).2 hboth
  refine ((pairwise_sortRows h).and hsorted).imp fun hrs => ?_
  exact (Ordering.isLE_iff_eq_lt_or_eq_eq.1 hrs.1).resolve_right hrs.2.1

/-- Rows that differ in the columns by which they are sorted are sorted alike, whatever their order
was. -/
theorem sortRows_eq_of_perm {rows' : List Record} (hperm : rows'.Perm rows) (h : FitKeys keys rows)
    (hdistinct : ∀ r ∈ rows, ∀ s ∈ rows,
      (∀ key ∈ keys, r.value key.column = s.value key.column) → r = s) :
    sortRows keys rows' = sortRows keys rows := by
  refine mergeSort_eq_of_perm hperm (fun r hr s hs t ht => ?_)
    (fun r hr s hs => compareRows_isTotal h.ordersKeys hr hs) fun r hr s hs hrs hsr => ?_
  · simp only [bne_gt]
    exact compareRows_trans h.ordersKeys hr hs ht
  · refine hdistinct r hr s hs (value_eq_of_compareRows h hr hs ?_)
    rw [compareRows_swap h.ordersKeys hs hr] at hsr
    rw [bne_gt] at hrs hsr
    exact Ordering.eq_eq_of_isLE_of_isLE_swap hrs hsr

end Rows

end ChartQuery
