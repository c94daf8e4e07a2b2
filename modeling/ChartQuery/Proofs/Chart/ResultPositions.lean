import ChartQuery.Proofs.Chart.Agreement
import ChartQuery.Proofs.Sql.QuotedNames

/-!
# The columns of a result and their positions

The query of a plan speaks of the columns of its result three times: it selects each of them, it
groups by the first of what it selects, and it orders by positions among what it selects. The three
agree: each item is shown as the column at its place, the items by whose expressions it groups are
those of the grouping keys, and each position is that of the column meant. As all keys are among the
columns of the order, no two groups tie.

## Main definitions

* `Item.shownAs? i`: the column that an item is shown as
* `OrderItem.IsOf shown o c`: a position is that of a column, with its direction
* `ChartPlan.orderColumns p`: the columns of the order, with their directions
* `ChartPlan.keyValues p r`: the values of a row in the columns of the groups

## Main results

* `compareRows_ne_eq`: rows of different groups never tie
* `sortRows_keys_pairwise`: rows of different groups have one order, in which each is before the
  next
* `ofPlan_speaksOfColumns`: what a query selects, groups by and orders by are the same columns
-/

namespace ChartQuery

open Sql

/-! ## What is selected -/

/-- The column that an item is shown as: the name given to it, else the column that it is. -/
def Sql.Item.shownAs? (i : Item) : Option Identifier :=
  match i.givenName, i.expr with
  | some a, _ => some a
  | none, .column c => some c
  | none, _ => none

theorem map_shownAs?_planItems (p : ChartPlan) :
    (planItems p).map Item.shownAs? = p.outputColumns.map some := by
  cases hx : p.xAxis <;> cases hd : p.drillDownLabel <;>
    simp [planItems, ChartPlan.outputColumns, ChartPlan.groupingKeys, Item.shownAs?, hx, hd,
      Function.comp_def]

/-! ## What is grouped by -/

/-- A plan groups by one expression over each grouping key. -/
theorem map_source_groupExprs (p : ChartPlan) :
    (groupExprs p).map Expr.source = p.groupingKeys := by
  have hgroup : (p.groupBy.map Expr.column).map Expr.source = p.groupBy := by
    rw [List.map_map]
    exact List.map_id p.groupBy
  rw [groupExprs, List.map_append, hgroup, ChartPlan.groupingKeys]
  cases p.xAxis with
  | none => rfl
  | some x => exact congrArg (fun c => [c] ++ p.groupBy) (source_axisExpr x p.resolution)

/-- The items that show the columns of the groups. -/
def keyItems (p : ChartPlan) : List Item :=
  (p.xAxis.map fun x => ⟨axisExpr x p.resolution, some x⟩).toList ++
    p.groupBy.map fun g => ⟨.column g, none⟩

theorem map_expr_keyItems (p : ChartPlan) : (keyItems p).map Item.expr = groupExprs p := by
  cases hx : p.xAxis <;> simp [keyItems, groupExprs, hx, Function.comp_def]

/-- A plan groups by the expressions of the first items. -/
theorem groupExprs_eq_take (p : ChartPlan) :
    groupExprs p = ((planItems p).take p.groupingKeys.length).map Item.expr := by
  have hlength : p.groupingKeys.length = (keyItems p).length := by
    rw [← List.length_map Item.expr, map_expr_keyItems, ← map_source_groupExprs, List.length_map]
  have hitems : planItems p = keyItems p ++
      ((p.drillDownLabel.map fun d => ⟨.aggregate (.plain .max) d, some d⟩).toList ++
        p.yAxis.map fun y => ⟨.aggregate (aggregateFn p y) y, some y⟩) := by
    rw [planItems, keyItems, List.append_assoc (_ ++ _)]
  rw [hitems, hlength, List.take_left, map_expr_keyItems]

/-! ## What is ordered by -/

/-- The position is that of a column among those shown, with a direction. -/
structure Sql.OrderItem.IsOf (shown : List Identifier) (o : OrderItem)
    (c : Identifier × Bool) : Prop where
  positive : 0 < o.position
  column : shown[o.position - 1]? = some c.1
  descending : o.descending = c.2

namespace ChartPlan

/-- The columns by which a result is ordered, and whether downwards: the one asked for in the
direction asked for, then every other key upwards. -/
def orderColumns (p : ChartPlan) : List (Identifier × Bool) :=
  p.orderBy.toList.map (·, p.descending) ++
    (p.groupingKeys.filter fun k => p.orderBy != some k).map (·, false)

/-- The values of a row in the columns of the groups. -/
def keyValues (p : ChartPlan) (r : Record) : List Value := p.groupingKeys.map (r.value ·.name)

end ChartPlan

section Order

variable {p : ChartPlan}

theorem getElem?_positionOf {c : Identifier} (hc : c ∈ p.outputColumns) :
    p.outputColumns[positionOf p c - 1]? = some c := by
  have hlt := List.idxOf_lt_length_iff.2 hc
  rw [positionOf, Nat.add_sub_cancel, List.getElem?_eq_getElem hlt, List.getElem_idxOf hlt]

/-- Each position of the order is that of the column meant. -/
theorem planOrder_isOf (hnodup : p.groupingKeys.Nodup)
    (horder : ∀ c, p.orderBy = some c → c ∈ p.outputColumns) :
    List.Forall₂ (OrderItem.IsOf p.outputColumns) (planOrder p) p.orderColumns := by
  rw [planOrder, ChartPlan.trailingKeys_eq hnodup]
  refine List.rel_append ?_ ?_
  · cases ho : p.orderBy with
    | none => exact .nil
    | some c =>
      refine .cons ⟨Nat.succ_pos _, getElem?_positionOf (horder c ho), rfl⟩ .nil
  · refine List.forall₂_map_left_iff.2 (List.forall₂_map_right_iff.2
      (List.forall₂_same.2 fun k hk => ?_))
    have hshown := p.mem_outputColumns.2 (.inl (List.mem_filter.1 hk).1)
    exact ⟨Nat.succ_pos _, getElem?_positionOf hshown, rfl⟩

/-- Each key is once among the columns of the order. -/
theorem count_orderColumns (hnodup : p.groupingKeys.Nodup) {k : Identifier}
    (hk : k ∈ p.groupingKeys) : (p.orderColumns.map Prod.fst).count k = 1 := by
  have hmap : p.orderColumns.map Prod.fst =
      p.orderBy.toList ++ p.groupingKeys.filter fun k => p.orderBy != some k := by
    simp [ChartPlan.orderColumns, Function.comp_def]
  rw [hmap, List.count_append]
  by_cases ho : p.orderBy = some k
  · have hnone : k ∉ p.groupingKeys.filter fun k => p.orderBy != some k := by simp [ho]
    rw [List.count_eq_zero.2 hnone, ho]
    simp
  · have hsome : k ∈ p.groupingKeys.filter fun k => p.orderBy != some k := by simp [ho, hk]
    have hnone : k ∉ p.orderBy.toList := by simpa using ho
    rw [List.count_eq_zero.2 hnone, List.count_eq_one_of_mem (hnodup.filter _) hsome]

/-- Each key is once at a position of the order. -/
theorem countP_planOrder (hnodup : p.groupingKeys.Nodup)
    (horder : ∀ c, p.orderBy = some c → c ∈ p.outputColumns) {k : Identifier}
    (hk : k ∈ p.groupingKeys) :
    (planOrder p).countP (fun o => p.outputColumns[o.position - 1]? == some k) = 1 := by
  have hcount : ∀ {os : List OrderItem} {cs : List (Identifier × Bool)},
      List.Forall₂ (OrderItem.IsOf p.outputColumns) os cs →
      os.countP (fun o => p.outputColumns[o.position - 1]? == some k) =
        (cs.map Prod.fst).count k := by
    intro os cs h
    induction h with
    | nil => rfl
    | cons h _ ih =>
      rw [List.countP_cons, List.map_cons, List.count_cons, ih, h.column]
      rfl
  rw [hcount (planOrder_isOf hnodup horder), count_orderColumns hnodup hk]

/-! ## Ties -/

/-- Whether two values tie does not depend on the direction. -/
theorem SortKey.compare_eq_iff (key : SortKey) {v w : Value} :
    key.compare v w = .eq ↔ SortKey.compare ⟨"", false⟩ v w = .eq := by
  unfold compare
  cases v.isNull <;> cases w.isNull <;> try rfl
  cases key.descending <;> simp

/-- Rows that tie tie in every column by which they are sorted. -/
theorem compare_eq_of_compareRows {keys : List SortKey} {r s : Record}
    (h : compareRows r s keys = .eq) :
    ∀ key ∈ keys, key.compare (r.value key.column) (s.value key.column) = .eq := by
  induction keys with
  | nil => exact fun key hkey => absurd hkey List.not_mem_nil
  | cons key keys ih =>
    rw [compareRows, Ordering.then_eq_eq] at h
    intro key' hkey
    rcases List.mem_cons.1 hkey with rfl | hkey
    · exact h.1
    · exact ih h.2 key' hkey

theorem sameValues_keyValues_iff {r s : Record} :
    sameValues (p.keyValues r) (p.keyValues s) = true ↔
      ∀ k ∈ p.groupingKeys,
        SortKey.compare ⟨"", false⟩ (r.value k.name) (s.value k.name) = .eq := by
  simp [sameValues, ChartPlan.keyValues, List.zip_map']

/-- Rows of different groups never tie. -/
theorem compareRows_ne_eq {r s : Record}
    (h : sameValues (p.keyValues r) (p.keyValues s) = false) :
    compareRows r s p.sortKeys ≠ .eq := by
  intro htie
  have hsame : sameValues (p.keyValues r) (p.keyValues s) = true := by
    rw [sameValues_keyValues_iff]
    intro k hk
    obtain ⟨key, hkey, hname⟩ := exists_sortKey hk
    have := compare_eq_of_compareRows htie key hkey
    rwa [key.compare_eq_iff, hname] at this
  rw [hsame] at h
  contradiction

/-- Values that are sorted lawfully tie with themselves. -/
theorem SortKey.compare_self (key : SortKey) {P : Value → Prop} (hP : IsRanked P) {v : Value}
    (hv : v = .null ∨ P v) : key.compare v v = .eq := by
  -- A comparison of a value with itself that were strict would be its own opposite.
  have hswap := key.compare_swap hP.isPreordered hv hv
  cases h : key.compare v v <;> rw [h] at hswap <;> first | rfl | cases hswap

section Groups

variable {rows : List Record} (hfit : FitKeys p.sortKeys rows)
  (hdistinct : ∀ r ∈ rows, ∀ s ∈ rows, r ≠ s →
    sameValues (p.keyValues r) (p.keyValues s) = false)

include hfit hdistinct

/-- Rows of different groups have one order, in which each comes before those behind it. -/
theorem sortRows_keys_pairwise (hnodup : rows.Nodup) :
    (sortRows p.sortKeys rows).Pairwise fun r s => compareRows r s p.sortKeys = .lt := by
  -- Being different rows, no two of them tie.
  refine pairwise_lt_sortRows hfit.ordersKeys (List.Pairwise.imp_of_mem ?_ hnodup)
  exact fun hr hs hne => compareRows_ne_eq (hdistinct _ hr _ hs hne)

/-- In that order they are brought, whatever their order was. -/
theorem sortRows_keys_perm {rows' : List Record} (hperm : rows'.Perm rows) :
    sortRows p.sortKeys rows' = sortRows p.sortKeys rows := by
  refine sortRows_eq_of_perm hperm hfit fun r hr s hs hvalues => ?_
  by_contra hne
  have hsame : sameValues (p.keyValues r) (p.keyValues s) = true := by
    rw [sameValues_keyValues_iff]
    intro k hk
    obtain ⟨key, hkey, hname⟩ := exists_sortKey hk
    obtain ⟨P, hP, hcolumn⟩ := hfit key hkey
    rw [← hname, ← hvalues key hkey]
    exact SortKey.compare_self _ hP (hcolumn r hr)
  rw [hdistinct r hr s hs hne] at hsame
  contradiction

end Groups

end Order

/-! ## Queries of resolved plans -/

/-- **What a query selects, groups by and orders by are the same columns.** Its items are those of
the result, in their order; it groups by the expressions of the first of them, one over each
grouping key; it orders by the positions of the column asked for and of the other keys, so by each
key once; and by what stands at these positions no rows of different groups tie, so that where the
columns are sorted lawfully such rows come in one order only, each strictly before the next. -/
theorem ofPlan_speaksOfColumns (limits : RowLimits) (spec : ChartSpec) (columns : ColumnSet)
    (maxRows : Option Int) (p : ChartPlan) (h : resolvePlan limits spec columns maxRows = .ok p)
    (t : TableRef) :
    let q := Query.ofPlan p t
    let names := p.outputColumns.map Identifier.name
    let keys : List SortKey := q.orderBy.map fun o => ⟨names.getD (o.position - 1) "", o.descending⟩
    q.items.map Item.shownAs? = p.outputColumns.map some ∧
    q.groupBy = (q.items.take p.groupingKeys.length).map Item.expr ∧
    q.groupBy.map Expr.source = p.groupingKeys ∧
    List.Forall₂ (OrderItem.IsOf p.outputColumns) q.orderBy p.orderColumns ∧
    (∀ k ∈ p.groupingKeys,
      q.orderBy.countP (fun o => p.outputColumns[o.position - 1]? == some k) = 1) ∧
    (∀ r s : Record, sameValues (p.keyValues r) (p.keyValues s) = false →
      compareRows r s keys ≠ .eq) ∧
    ∀ rows : List Record, FitKeys keys rows → rows.Nodup →
      (∀ r ∈ rows, ∀ s ∈ rows, r ≠ s → sameValues (p.keyValues r) (p.keyValues s) = false) →
      (sortRows keys rows).Pairwise (fun r s => compareRows r s keys = .lt) ∧
      ∀ rows', rows'.Perm rows → sortRows keys rows' = sortRows keys rows := by
  intro q names keys
  have horder := orderBy_of_resolvePlan h
  have hnodup : p.groupingKeys.Nodup := by
    obtain ⟨x, -, -, rfl⟩ := resolvePlan_eq_ok_iff.1 h
    exact ChartPlan.nodup_groupingKeys planBeside_nodup
  have hkeys : keys = p.sortKeys := planOrder_sortKeys horder
  rw [hkeys]
  exact ⟨map_shownAs?_planItems p, groupExprs_eq_take p, map_source_groupExprs p,
    planOrder_isOf hnodup horder, fun k hk => countP_planOrder hnodup horder hk,
    fun r s hdistinct => compareRows_ne_eq hdistinct,
    fun rows hfit hrows hdistinct => ⟨sortRows_keys_pairwise hfit hdistinct hrows,
      fun rows' hperm => sortRows_keys_perm hfit hdistinct hperm⟩⟩

/-- Months and regions with the same sum of orders. -/
def tiedRows : List Record :=
  [[("day", .text "2024-02"), ("region", .text "north"), ("amount", .int 7)],
    [("day", .text "2024-01"), ("region", .text "south"), ("amount", .int 7)],
    [("day", .text "2024-01"), ("region", .null), ("amount", .int 7)]]

theorem ofPlan_speaksOfColumns_orderSpec :
    ∃ p, resolvePlan .standard orderSpec (Database.columnSet orderTable.columns) none = .ok p ∧
      (Query.ofPlan p ⟨"", "orders"⟩).items.map Item.shownAs? =
        [some (.ofText "day"), some (.ofText "region"), some (.ofText "buyer"),
          some (.ofText "amount")] ∧
      (∀ k ∈ [Identifier.ofText "day", .ofText "region"],
        (Query.ofPlan p ⟨"", "orders"⟩).orderBy.countP
          (fun o => p.outputColumns[o.position - 1]? == some k) = 1) ∧
      (sortRows p.sortKeys tiedRows).Pairwise fun r s => compareRows r s p.sortKeys = .lt := by
  have hplan := (compile_eq_ok_iff.1 compile_orderSpec).1
  have hparts : orderPlan.outputColumns = [.ofText "day", .ofText "region", .ofText "buyer",
        .ofText "amount"] ∧ orderPlan.groupingKeys = [.ofText "day", .ofText "region"] ∧
      orderPlan.sortKeys = [⟨"amount", true⟩, ⟨"day", false⟩, ⟨"region", false⟩] := by
    decide +kernel
  obtain ⟨houtput, hgroups, hsort⟩ := hparts
  obtain ⟨hitems, -, -, -, honce, -, hrows⟩ :=
    ofPlan_speaksOfColumns _ _ _ _ orderPlan hplan ⟨"", "orders"⟩
  have hkeys := planOrder_sortKeys (orderBy_of_resolvePlan hplan)
  have hfit : FitKeys orderPlan.sortKeys tiedRows := by
    rw [hsort]
    intro key hkey
    simp only [List.mem_cons, List.not_mem_nil, or_false] at hkey
    obtain ⟨k, hk⟩ : ∃ k : PlainKind, tiedRows.all (fun r =>
        (r.value key.column).isNull || k.describes (r.value key.column)) = true := by
      rcases hkey with rfl | rfl | rfl
      · exact ⟨.whole, rfl⟩
      · exact ⟨.text, rfl⟩
      · exact ⟨.text, rfl⟩
    refine ⟨_, k.isRanked, fun r hr => ?_⟩
    rcases Bool.or_eq_true_iff.1 (List.all_eq_true.1 hk r hr) with hnull | hvalue
    · refine .inl ?_
      cases hv : r.value key.column <;> rw [hv] at hnull <;> first | rfl | cases hnull
    · exact .inr hvalue
  have hdistinct : ∀ r ∈ tiedRows, ∀ s ∈ tiedRows, r ≠ s →
      sameValues (orderPlan.keyValues r) (orderPlan.keyValues s) = false := by
    intro r hr s hs hne
    simp only [tiedRows, List.mem_cons, List.not_mem_nil, or_false] at hr hs
    simp only [ChartPlan.keyValues, hgroups]
    rcases hr with rfl | rfl | rfl <;> rcases hs with rfl | rfl | rfl <;>
      first | rfl | exact absurd rfl hne
  refine ⟨orderPlan, hplan, ?_, ?_, ?_⟩
  · rw [hitems, houtput]
    rfl
  · rw [← hgroups]
    exact honce
  · rw [← hkeys] at hfit ⊢
    exact (hrows tiedRows hfit (by simp [tiedRows]) hdistinct).1

end ChartQuery
