import ChartQuery.Proofs.Chart.FrameGroups
import ChartQuery.Proofs.Chart.Groups
import ChartQuery.Proofs.Chart.HeldFrames
import ChartQuery.Proofs.Service.BatchMaps
import Mathlib.Data.Set.Card

/-!
# Records counted in groups

Grouping parts the records that a plan keeps: every key that one of them has is the key of exactly
one row of the result, null being a key like any other, and every record is counted in one row.
Without columns to group by there is one row, in which all records are counted.

## Main definitions

* `KeyKind`, `AllKeys`: nulls and values of one kind
* `ChartPlan.keyOf`, `ChartPlan.rowKey`: the key of a record, and the key that a row shows
* `ChartPlan.ShowsGroups`: the columns to group by are held as they are shown
* `ChartPlan.CountsByKey`: the rows of a result part the kept records

## Main results

* `rowsOfColumns_eq`: columns of one length are the columns of the rows that they make
* `ChartPlan.ShowsGroups.groups_eq`: the groups of a frame are those of its records by their keys
* `aggregateRecords_partitions`: the rows of a result that counts part the kept records
-/

namespace ChartQuery

/-! ## Values of one kind -/

/-- The kinds of values by which records are grouped and counted. -/
inductive KeyKind where
  | signed
  | unsigned
  | truth
  | text
  | date

/-- The value is of the kind; whole numbers have 64 bits. -/
def KeyKind.has : KeyKind → Value → Bool
  | signed, .int n => isSignedWord n
  | unsigned, .int n => isUnsignedWord n
  | truth, .bool _ | text, .text _ | date, .date _ => true
  | _, _ => false

/-- The values are nulls and values of a kind. -/
def AllKeys (k : KeyKind) (vs : List Value) : Prop := ∀ v ∈ vs, v = .null ∨ k.has v = true

theorem AllKeys.mono {k : KeyKind} {vs ws : List Value} (h : AllKeys k vs) (hsub : ws ⊆ vs) :
    AllKeys k ws :=
  fun v hv => h v (hsub hv)

/-- What words hold are nulls and whole numbers. -/
theorem AllKeys.ints {k : KeyKind} {vs : List Value} (h : AllKeys k vs)
    (hk : k = .signed ∨ k = .unsigned) : ∀ v ∈ vs, v = .null ∨ ∃ n, v = .int n := by
  intro v hv
  refine (h v hv).imp_right fun hhas => ?_
  rcases hk with rfl | rfl <;> cases v <;> first | exact ⟨_, rfl⟩ | exact Bool.noConfusion hhas

theorem AllKeys.has_int {k : KeyKind} {vs : List Value} (h : AllKeys k vs) :
    ∀ n ∈ vs.filterMap Value.int?, k.has (.int n) = true := by
  intro n hn
  obtain ⟨v, hv, hint⟩ := List.mem_filterMap.1 hn
  cases v <;> cases hint
  exact (h _ hv).resolve_left Value.noConfusion

/-- Nulls and whole numbers, one of these at least, are of the kind that these decide. -/
theorem ColumnKind.ofValues_of_ints {vs : List Value}
    (hints : ∀ v ∈ vs, v = .null ∨ ∃ n, v = .int n) {n : Int} (hn : Value.int n ∈ vs) :
    ColumnKind.ofValues vs = .ofInts (vs.filterMap Value.int?) := by
  have hall : ((vs.filter (!·.isMissing)).all fun v => v.int?.isSome) = true := by
    refine List.all_eq_true.2 fun v hv => ?_
    obtain ⟨hv, hpresent⟩ := List.mem_filter.1 hv
    rcases hints v hv with rfl | ⟨m, rfl⟩
    · cases hpresent
    · rfl
  have hempty : (vs.filter (!·.isMissing)).isEmpty = false :=
    List.isEmpty_eq_false_iff.2 (List.ne_nil_of_mem (List.mem_filter.2 ⟨hn, rfl⟩))
  have hnumbers : (vs.filter (!·.isMissing)).filterMap Value.int? = vs.filterMap Value.int? := by
    rw [List.filterMap_filter]
    refine List.filterMap_congr fun v hv => ?_
    rcases hints v hv with rfl | ⟨m, rfl⟩ <;> rfl
  rw [ofValues, hempty, ofPresent, hall, hnumbers]
  rfl

/-- A plan holds a column with a whole number in the kind that its values decide, also one of its
vertical axis. -/
theorem ChartPlan.columnKind_of_int (p : ChartPlan) (c : Identifier) {vs : List Value} {n : Int}
    (hn : Value.int n ∈ vs) : p.columnKind c vs = .ofValues vs := by
  have hsome : vs.all Value.isNull = false := List.all_eq_false.2 ⟨_, hn, Bool.false_ne_true⟩
  rw [ChartPlan.columnKind, hsome, Bool.and_false, if_neg Bool.false_ne_true]

/-- Values are found to be nulls and such that pass a test. -/
theorem eq_null_or_of_all {has : Value → Bool} {vs : List Value}
    (h : (vs.all fun v => v.isNull || has v) = true) : ∀ v ∈ vs, v = .null ∨ has v = true := by
  intro v hv
  rcases Bool.or_eq_true_iff.1 (List.all_eq_true.1 h v hv) with hnull | hhas
  · left
    cases v <;> first | rfl | exact Bool.noConfusion hnull
  · exact .inr hhas

theorem allKeys_of_all {k : KeyKind} {vs : List Value}
    (h : (vs.all fun v => v.isNull || k.has v) = true) : AllKeys k vs :=
  eq_null_or_of_all h

namespace KeyKind

variable {k : KeyKind} {v w : Value} {vs : List Value}

theorem isMissing_eq (h : k.has v = true) : v.isMissing = false := by
  cases v
  case null => cases k <;> exact Bool.noConfusion h
  case float => cases k <;> exact Bool.noConfusion h
  all_goals rfl

theorem isCompound_eq (h : k.has v = true) : v.isCompound = false := by
  cases v
  case list => cases k <;> exact Bool.noConfusion h
  case object => cases k <;> exact Bool.noConfusion h
  all_goals rfl

/-- Only null equals null. -/
theorem eqv_null_iff :
    (Value.eqv .null v = true ↔ v = .null) ∧ (v.eqv .null = true ↔ v = .null) := by
  cases v <;> simp [Value.eqv, Value.compareNumbers?, Value.asDecimal?, Value.asInt?]

/-- Nulls and values of a kind are equal only if they are the same. -/
theorem eqv_iff (hv : v = .null ∨ k.has v = true) (hw : w = .null ∨ k.has w = true) :
    v.eqv w = true ↔ v = w := by
  rcases hv with rfl | hv
  · rw [eqv_null_iff.1, eq_comm]
  rcases hw with rfl | hw
  · exact eqv_null_iff.2
  -- Values of different kinds do not occur together.
  cases k
  all_goals
    cases v <;> simp only [has, Bool.false_eq_true] at hv
    cases w <;> simp only [has, Bool.false_eq_true] at hw
  case signed.int.int => rw [Value.eqv_int, Value.int.injEq]
  case unsigned.int.int => rw [Value.eqv_int, Value.int.injEq]
  case truth.bool.bool a b =>
    cases a <;> cases b <;>
      simp [Value.eqv, Value.compareNumbers?, Value.asDecimal?, Value.asInt?]
  case text.text.text => simp [Value.eqv]
  case date.date.date => simp [Value.eqv]

/-- A column that holds a whole number is one of words. -/
theorem ofValues_of_int (h : AllKeys k vs) {n : Int} (hn : Value.int n ∈ vs) :
    ColumnKind.ofValues vs = .signed ∨ ColumnKind.ofValues vs = .unsigned := by
  have hkind : k = .signed ∨ k = .unsigned := by
    rcases h _ hn with hnull | hhas
    · cases hnull
    · cases k <;> simp_all [has]
  have hwords := List.all_eq_true.2 h.has_int
  rw [ColumnKind.ofValues_of_ints (h.ints hkind) hn, ColumnKind.ofInts]
  split
  · exact .inl rfl
  · rename_i hunsigned
    rcases hkind with rfl | rfl
    · exact absurd hwords hunsigned
    · exact .inr (if_pos hwords)

section Columns

variable {p : ChartPlan} {c : Identifier}

/-- A column that holds a whole number is held as one of words, by a plan too. -/
theorem columnKind_of_int (h : AllKeys k vs) {n : Int} (hn : Value.int n ∈ vs) :
    p.columnKind c vs = .signed ∨ p.columnKind c vs = .unsigned := by
  have hsome : vs.all Value.isNull = false := List.all_eq_false.2 ⟨_, hn, Bool.false_ne_true⟩
  rw [ChartPlan.columnKind, hsome, Bool.and_false, if_neg Bool.false_ne_true]
  exact ofValues_of_int h hn

/-- Nulls and values of a kind are held as they are. -/
theorem convert_eq (h : AllKeys k vs) (hv : v ∈ vs) : (p.columnKind c vs).convert v = v := by
  rcases h v hv with rfl | hhas
  · rfl
  rw [ColumnKind.convert, isMissing_eq hhas, if_neg Bool.false_ne_true]
  split
  · rename_i hdouble
    cases v
    -- A column of doubles holds no whole number of this kind.
    case int n =>
      rcases columnKind_of_int (p := p) (c := c) h hv with hkind | hkind
      · rw [hkind] at hdouble
        cases hdouble
      · rw [hkind] at hdouble
        cases hdouble
    all_goals rfl
  · rfl

/-- In a mixture there are no whole numbers to be made alike. -/
theorem int?_eq_none (h : AllKeys k vs) (hmixed : p.columnKind c vs = .mixed) (hv : v ∈ vs) :
    v.int? = none := by
  cases v
  case int n =>
    rcases columnKind_of_int (p := p) (c := c) h hv with hkind | hkind
    · rw [hkind] at hmixed
      cases hmixed
    · rw [hkind] at hmixed
      cases hmixed
  all_goals rfl

end Columns

end KeyKind

/-! ## Columns of rows -/

theorem map_getD_range {α : Type} (l : List α) (d : α) :
    (List.range l.length).map (l.getD · d) = l := by
  refine List.ext_getElem (by simp) fun i hi _ => ?_
  simp only [List.length_map, List.length_range] at hi
  simp [hi]

/-- Columns of one length are the columns of the rows that they make. -/
theorem rowsOfColumns_eq {n : Nat} {columns : List (String × List Value)}
    (hlength : ∀ c ∈ columns, c.2.length = n) :
    ChartPlan.rowsOfColumns n columns =
      (List.range n).map fun i => columns.map fun c => (c.1, c.2.getD i .null) := by
  have hcolumns : columns =
      columns.map fun c => (c.1, (List.range n).map fun i => c.2.getD i .null) := by
    refine (List.map_id columns).symm.trans (List.map_congr_left fun c hc => ?_)
    rw [← hlength c hc, map_getD_range]
    rfl
  have hrows := rowsOfColumns_map (fun c : String × List Value => c.1)
    (fun c i => c.2.getD i .null) columns (List.range n)
  rw [← hcolumns, List.length_range] at hrows
  exact hrows

/-- A column under distinct names is found in the rows. -/
theorem column_rowsOfColumns {n : Nat} {columns : List (String × List Value)}
    (hlength : ∀ c ∈ columns, c.2.length = n) (hnodup : (columns.map Prod.fst).Nodup)
    {name : String} {vs : List Value} (hmem : (name, vs) ∈ columns) :
    (ChartPlan.rowsOfColumns n columns).map (·.value name) = vs := by
  have hvalue (i : Nat) :
      Record.value (columns.map fun c => (c.1, c.2.getD i .null)) name = vs.getD i .null := by
    refine Record.value_of_mem ?_ (List.mem_map.2 ⟨_, hmem, rfl⟩)
    rwa [List.map_map]
  rw [rowsOfColumns_eq hlength, List.map_map]
  simp only [Function.comp_def, hvalue]
  rw [← hlength _ hmem, map_getD_range]

/-! ## Keys of records -/

namespace ChartPlan

variable (p : ChartPlan)

/-- The key of a record: what is shown of it in the columns to group by. -/
def keyOf (r : Record) : Except Unforeseen (List Value) := p.groupingKeys.mapM (p.cell · r)

/-- The key that a row of the result shows. -/
def rowKey (row : Record) : List Value := p.groupingKeys.map fun c => row.value c.name

/-- The columns to group by and to count hold nulls and values of one kind each. One that is cut to
a resolution may hold anything: what it shows are the texts or the dates that are left. -/
def HasKeyKinds (kept : List Record) : Prop :=
  ∀ c ∈ p.groupingKeys ++ p.yAxis, ¬ (p.xAxis = some c ∧ p.resolution.isSome = true) →
    ∃ k, AllKeys k (kept.map (·.value c.name))

/-- The rows count the records that have a value in a column. -/
def CountsAll (y : Identifier) (kept rows : List Record) : Prop :=
  ∃ counts : List Nat, rows.map (·.value y.name) = counts.map (fun n : Nat => Value.int n) ∧
    counts.sum = kept.countP fun r => !(r.value y.name).isNull

/-- The rows part the kept records: their keys are those of the records, no two of them have the
same one, and what they count adds up to all records. -/
structure CountsByKey (kept rows : List Record) : Prop where
  nodup : (rows.map p.rowKey).Nodup
  mem_iff : ∀ k, k ∈ rows.map p.rowKey ↔ ∃ r ∈ kept, p.keyOf r = .ok k
  countsAll : ∀ y ∈ p.yAxis, CountsAll y kept rows

/-- The key of a record that can be shown. -/
def shownKeyOf (r : Record) : List Value := p.groupingKeys.map (p.shownOf · r)

end ChartPlan

section Keys

variable {p : ChartPlan} {kept : List Record} {c : Identifier}

theorem cell_of_not_cut (h : ¬ (p.xAxis = some c ∧ p.resolution.isSome = true)) (r : Record) :
    p.cell c r = .ok (r.value c.name) := by
  rw [ChartPlan.cell]
  cases hr : p.resolution with
  | none => rfl
  | some resolution =>
    have hx : p.xAxis ≠ some c := fun hx => h ⟨hx, by rw [hr]; rfl⟩
    exact if_neg hx

theorem shownOf_of_not_cut (h : ¬ (p.xAxis = some c ∧ p.resolution.isSome = true)) (r : Record) :
    p.shownOf c r = r.value c.name :=
  ChartPlan.shownOf_eq (cell_of_not_cut h r)

/-- The column of the horizontal axis is not among those that are aggregated. -/
theorem xAxis_ne_of_aggregated (hnodup : (p.outputColumns.map Identifier.name).Nodup)
    (hc : c ∈ p.drillDownLabel.toList ++ p.yAxis) : p.xAxis ≠ some c := by
  intro hx
  have hdisjoint := hnodup.of_map
  rw [ChartPlan.outputColumns, List.append_assoc, List.nodup_append] at hdisjoint
  refine hdisjoint.2.2 c ?_ c hc rfl
  rw [ChartPlan.groupingKeys, hx]
  exact List.mem_cons_self

theorem not_cut_of_mem_yAxis (hnodup : (p.outputColumns.map Identifier.name).Nodup)
    (hc : c ∈ p.yAxis) : ¬ (p.xAxis = some c ∧ p.resolution.isSome = true) :=
  fun hcut => xAxis_ne_of_aggregated hnodup (List.mem_append_right _ hc) hcut.1

theorem mem_outputColumns_of_mem (hc : c ∈ p.groupingKeys ++ p.yAxis) : c ∈ p.outputColumns := by
  rw [ChartPlan.mem_outputColumns]
  rcases List.mem_append.1 hc with hc | hc
  · exact .inl hc
  · exact .inr (.inr hc)

/-- What is cut becomes a text, or stays a date. -/
theorem Resolution.has_bucket {resolution : Resolution} {v w : Value}
    (h : resolution.bucket v = .ok w) :
    w = .null ∨ KeyKind.has (if resolution = .day then .date else .text) w = true := by
  rw [Resolution.bucket] at h
  cases hday : v.day? with
  | none =>
    rw [hday] at h
    exact .inl (Except.ok.inj h).symm
  | some day =>
    cases day with
    | beforeCalendar =>
      rw [hday] at h
      cases h
    | date d =>
      rw [hday] at h
      rw [← Except.ok.inj h]
      cases resolution <;> exact .inr rfl

/-- What is shown of a column of one kind is of one kind. -/
theorem exists_allKeys_shownOf (hkind : ¬ (p.xAxis = some c ∧ p.resolution.isSome = true) →
    ∃ k, AllKeys k (kept.map (·.value c.name))) (hcells : ∀ r ∈ kept, ∃ v, p.cell c r = .ok v) :
    ∃ k, AllKeys k (kept.map (p.shownOf c)) := by
  by_cases hcut : p.xAxis = some c ∧ p.resolution.isSome = true
  · obtain ⟨resolution, hr⟩ := Option.isSome_iff_exists.1 hcut.2
    refine ⟨if resolution = .day then .date else .text, fun v hv => ?_⟩
    obtain ⟨r, hmem, rfl⟩ := List.mem_map.1 hv
    obtain ⟨w, hw⟩ := hcells r hmem
    rw [ChartPlan.shownOf_eq hw]
    rw [ChartPlan.cell, hr] at hw
    dsimp only at hw
    rw [if_pos hcut.1] at hw
    exact Resolution.has_bucket hw
  · obtain ⟨k, hk⟩ := hkind hcut
    refine ⟨k, ?_⟩
    rwa [List.map_congr_left fun r _ => shownOf_of_not_cut hcut r]

/-- Lists of values are equal only if they are the same, where their values are so. -/
theorem eqvList_map_iff {cs : List Identifier} {f g : Identifier → Value}
    (h : ∀ c ∈ cs, (f c).eqv (g c) = true ↔ f c = g c) :
    Value.eqvList (cs.map f) (cs.map g) = true ↔ cs.map f = cs.map g := by
  rw [eqvList_map_eq_true_iff, List.map_inj_left]
  exact forall₂_congr h

end Keys

/-! ## Groups of records -/

section Groups

variable {p : ChartPlan} {kept : List Record}

/-- The plan shows distinct columns, and those to group by and to count hold nulls and values of one
kind for each of them. -/
structure ChartPlan.ShowsKeys (p : ChartPlan) (kept : List Record) : Prop where
  nodup : (p.outputColumns.map Identifier.name).Nodup
  cells : ∀ c ∈ p.outputColumns, ∀ r ∈ kept, ∃ v, p.cell c r = .ok v
  kinds : p.HasKeyKinds kept

/-- A frame holds what is shown of a column as it is: no list or object, no values that are equal
without being the same, and in a mixture no whole numbers. -/
structure ChartPlan.HoldsShown (p : ChartPlan) (kept : List Record) (c : Identifier) : Prop where
  held_eq : ∀ r ∈ kept, p.held kept c r = p.shownOf c r
  flat : ∀ r ∈ kept, (p.shownOf c r).isCompound = false
  eqv_iff : ∀ r ∈ kept, ∀ s ∈ kept,
    (p.shownOf c r).eqv (p.shownOf c s) = true ↔ p.shownOf c r = p.shownOf c s
  notInt : p.heldKind kept c = .mixed → ∀ r ∈ kept, (p.shownOf c r).int? = none

theorem AllKeys.holdsShown {c : Identifier} {k : KeyKind}
    (h : AllKeys k (kept.map (p.shownOf c))) : p.HoldsShown kept c where
  held_eq r hr := KeyKind.convert_eq h (List.mem_map_of_mem hr)
  flat r hr := by
    rcases h _ (List.mem_map_of_mem hr) with hnull | hhas
    · rw [hnull]
      rfl
    · exact KeyKind.isCompound_eq hhas
  eqv_iff r hr s hs := KeyKind.eqv_iff (h _ (List.mem_map_of_mem hr)) (h _ (List.mem_map_of_mem hs))
  notInt hmixed r hr := KeyKind.int?_eq_none h hmixed (List.mem_map_of_mem hr)

/-- The plan shows distinct columns, and holds those to group by as they are shown. -/
structure ChartPlan.ShowsGroups (p : ChartPlan) (kept : List Record) : Prop where
  nodup : (p.outputColumns.map Identifier.name).Nodup
  cells : ∀ c ∈ p.groupingKeys, ∀ r ∈ kept, ∃ v, p.cell c r = .ok v
  keys : ∀ c ∈ p.groupingKeys, p.HoldsShown kept c

namespace ChartPlan.ShowsKeys

variable (hp : p.ShowsKeys kept) {c : Identifier}

include hp

theorem exists_allKeys (hc : c ∈ p.groupingKeys ++ p.yAxis) :
    ∃ k, AllKeys k (kept.map (p.shownOf c)) :=
  exists_allKeys_shownOf (hp.kinds c hc) (hp.cells c (mem_outputColumns_of_mem hc))

theorem holdsShown (hc : c ∈ p.groupingKeys ++ p.yAxis) : p.HoldsShown kept c := by
  obtain ⟨k, hk⟩ := hp.exists_allKeys hc
  exact hk.holdsShown

theorem showsGroups : p.ShowsGroups kept where
  nodup := hp.nodup
  cells _ hc := hp.cells _ (mem_outputColumns_of_mem (List.mem_append_left _ hc))
  keys _ hc := hp.holdsShown (List.mem_append_left _ hc)

end ChartPlan.ShowsKeys

/-- Rows whose columns are those of keys show the keys. -/
theorem map_rowKey_of_columns {gs : List (List Value × List Record)} {rows : List Record}
    (hkeylength : ∀ g ∈ gs, g.1.length = p.groupingKeys.length)
    (hlength : rows.length = gs.length)
    (hkeys : ∀ n c, p.groupingKeys[n]? = some c →
      rows.map (·.value c.name) = gs.map fun g => g.1.getD n .null) :
    rows.map p.rowKey = gs.map (·.1) := by
  refine List.ext_getElem (by simp [hlength]) fun i hi hi' => ?_
  simp only [List.length_map] at hi hi'
  have hlen := hkeylength gs[i] (List.getElem_mem hi')
  rw [List.getElem_map, List.getElem_map, ChartPlan.rowKey]
  refine List.ext_getElem (by rw [List.length_map, hlen]) fun n hn hn' => ?_
  simp only [List.length_map] at hn
  -- The row has in each column to group by what the key has in its place.
  have hcolumn := congrArg (·[i]?) (hkeys n _ (List.getElem?_eq_getElem hn))
  simpa [hi, hi', hn'] using hcolumn

namespace ChartPlan.ShowsGroups

variable (hp : p.ShowsGroups kept) {c : Identifier}

include hp

theorem keyOf_eq {r : Record} (hr : r ∈ kept) : p.keyOf r = .ok (p.shownKeyOf r) := by
  refine mapM_eq_ok fun c hc => ?_
  obtain ⟨v, hv⟩ := hp.cells c hc r hr
  rw [ChartPlan.shownOf_eq hv, hv]

/-- Keys are equal only if they are the same. -/
theorem eqvList_shownKeyOf {r s : Record} (hr : r ∈ kept) (hs : s ∈ kept) :
    Value.eqvList (p.shownKeyOf r) (p.shownKeyOf s) = true ↔ p.shownKeyOf r = p.shownKeyOf s :=
  eqvList_map_iff fun c hc => (hp.keys c hc).eqv_iff r hr s hs

/-- A row of the frame shows a key as it is. -/
theorem value_heldRow_key (hc : c ∈ p.groupingKeys) {r : Record} (hr : r ∈ kept) :
    (p.heldRow kept r).value c.name = p.shownOf c r := by
  have hshown := mem_outputColumns_of_mem (List.mem_append_left p.yAxis hc)
  rw [value_heldRow hp.nodup hshown, (hp.keys c hc).held_eq r hr]

/-- The groups of a frame are those of its records by their keys. -/
theorem groups_eq : p.groups (p.heldFrame kept) =
    .ok ((groupRows Value.eqvList p.shownKeyOf kept).map fun g =>
      (g.1, g.2.map (p.heldRow kept))) := by
  have hrows : (p.heldFrame kept).rows = kept.map (p.heldRow kept) := rfl
  have hflat : ((kept.map (p.heldRow kept)).any fun r =>
      (p.groupingKeys.map Identifier.name).any fun k => (r.value k).isCompound) = false := by
    simp only [List.any_map, List.any_eq_false, Function.comp_apply, Bool.not_eq_true]
    intro r hr c hc
    rw [hp.value_heldRow_key hc hr]
    exact (hp.keys c hc).flat r hr
  -- Each value of a key is written as it is, since it is equal to no other one.
  have hkey : ∀ r ∈ kept, (p.groupingKeys.map Identifier.name |>.map fun k =>
      (k, distinctKeys Value.eqv ((p.heldFrame kept).column k))).map
        (fun k => ChartPlan.asFirstSeen k.2 ((p.heldRow kept r).value k.1)) = p.shownKeyOf r := by
    intro r hr
    rw [List.map_map, List.map_map, ChartPlan.shownKeyOf]
    refine List.map_congr_left fun c hc => ?_
    have hcolumn : (p.heldFrame kept).column c.name = kept.map (p.shownOf c) := by
      rw [Frame.column, hrows, List.map_map]
      exact List.map_congr_left fun s hs => hp.value_heldRow_key hc hs
    simp only [Function.comp_apply, hcolumn, hp.value_heldRow_key hc hr]
    refine asFirstSeen_of_eqv ?_ (List.mem_map_of_mem hr)
    simp only [List.forall_mem_map]
    exact fun r hr s hs => ((hp.keys c hc).eqv_iff r hr s hs).1
  simp only [ChartPlan.groups, hflat, Bool.false_eq_true, if_false, hrows, groupRows_map]
  exact congrArg (fun gs => Except.ok (gs.map fun g => (g.1, g.2.map (p.heldRow kept))))
    (groupRows_congr hkey fun r _ s _ => rfl)

/-- The key of a group is that of a record. -/
theorem exists_shownKeyOf {gs : List (List Value × List Record)}
    (hgs : p.groups (p.heldFrame kept) = .ok gs) {g : List Value × List Record} (hg : g ∈ gs) :
    ∃ r ∈ kept, g.1 = p.shownKeyOf r := by
  rw [hp.groups_eq] at hgs
  cases hgs
  obtain ⟨g', hg', rfl⟩ := List.mem_map.1 hg
  obtain ⟨r, hr, hkey⟩ := exists_mem_of_groupRows hg'
  exact ⟨r, hr, hkey⟩

/-- The key columns of the result are the keys of the groups. -/
theorem keyColumn_eq {n : Nat} (hc : p.groupingKeys[n]? = some c)
    {gs : List (List Value × List Record)}
    (hkeys : ∀ g ∈ gs, ∃ r ∈ kept, g.1 = p.shownKeyOf r) :
    ChartPlan.resultColumn (p.heldFrame kept) c.name (gs.map fun g => g.1.getD n .null) =
      (c.name, gs.map fun g => g.1.getD n .null) := by
  have hmem := List.mem_of_getElem? hc
  refine resultColumn_eq fun hmixed => .inl fun v hv => ?_
  rw [kind_heldFrame hp.nodup
    (mem_outputColumns_of_mem (List.mem_append_left p.yAxis hmem))] at hmixed
  obtain ⟨g, hg, rfl⟩ := List.mem_map.1 hv
  obtain ⟨r, hr, hkey⟩ := hkeys g hg
  have hvalue : g.1.getD n .null = p.shownOf c r := by
    simp [hkey, ChartPlan.shownKeyOf, List.getD_eq_getElem?_getD, hc]
  rw [hvalue]
  exact (hp.keys c hmem).notInt hmixed r hr

/-- The rows of groups show the keys of the groups. -/
theorem map_rowKey_eq {gs : List (List Value × List Record)} {rows : List Record}
    (hgs : p.groups (p.heldFrame kept) = .ok gs) (hlength : rows.length = gs.length)
    (hkeys : ∀ n c, p.groupingKeys[n]? = some c →
      rows.map (·.value c.name) = gs.map fun g => g.1.getD n .null) :
    rows.map p.rowKey = gs.map (·.1) := by
  refine map_rowKey_of_columns (fun g hg => ?_) hlength hkeys
  obtain ⟨r, -, hkey⟩ := hp.exists_shownKeyOf hgs hg
  rw [hkey, ChartPlan.shownKeyOf, List.length_map]

theorem eqvList_iff_of_mem_keys : ∀ k ∈ kept.map p.shownKeyOf, ∀ j ∈ kept.map p.shownKeyOf,
    Value.eqvList k j = true ↔ k = j := by
  simp only [List.forall_mem_map]
  exact fun r hr s hs => hp.eqvList_shownKeyOf hr hs

theorem nodup_keys : (distinctKeys Value.eqvList (kept.map p.shownKeyOf)).Nodup :=
  nodup_distinctKeys fun k hk => (hp.eqvList_iff_of_mem_keys k hk k hk).2 rfl

/-- The distinct keys are the keys of the records. -/
theorem mem_keys_iff {k : List Value} :
    k ∈ distinctKeys Value.eqvList (kept.map p.shownKeyOf) ↔ ∃ r ∈ kept, p.keyOf r = .ok k := by
  rw [mem_distinctKeys_iff hp.eqvList_iff_of_mem_keys, List.mem_map]
  refine exists_congr fun r => and_congr_right fun hr => ?_
  rw [hp.keyOf_eq hr, Except.ok.injEq]

/-- The rows of groups have the distinct keys. -/
theorem map_rowKey_eq_distinctKeys {gs : List (List Value × List Record)} {rows : List Record}
    (hgs : p.groups (p.heldFrame kept) = .ok gs) (hlength : rows.length = gs.length)
    (hkeys : ∀ n c, p.groupingKeys[n]? = some c →
      rows.map (·.value c.name) = gs.map fun g => g.1.getD n .null) :
    rows.map p.rowKey = distinctKeys Value.eqvList (kept.map p.shownKeyOf) := by
  rw [hp.map_rowKey_eq hgs hlength hkeys, Except.ok.inj (hgs.symm.trans hp.groups_eq),
    List.map_map, ← groupRows_keys]
  rfl

end ChartPlan.ShowsGroups

/-! ## Counts of groups -/

theorem length_resultColumn {f : Frame} {name : String} {vs : List Value} :
    (ChartPlan.resultColumn f name vs).2.length = vs.length := by
  rw [ChartPlan.resultColumn]
  split
  · rw [unifyNumbers]
    split <;> simp
  · rfl

/-- An aggregate of each group stands under the name of its column. -/
theorem groupColumn_ok {a : Aggregation} {f : Frame} {gs : List (List Value × List Record)}
    {c : Identifier} {column : String × List Value}
    (h : ChartPlan.groupColumn a f gs c = .ok column) :
    column.1 = c.name ∧ column.2.length = gs.length := by
  obtain ⟨vs, hvs, h⟩ := bind_eq_ok_iff.1 h
  cases h
  exact ⟨rfl, length_resultColumn.trans (forall₂_of_mapM_ok hvs).length_eq.symm⟩

/-- The aggregates of each group stand under the names of their columns. -/
theorem groupColumns_ok {a : Aggregation} {f : Frame} {gs : List (List Value × List Record)}
    {cs : List Identifier} {columns : List (String × List Value)}
    (h : cs.mapM (ChartPlan.groupColumn a f gs) = .ok columns) :
    columns.map Prod.fst = cs.map Identifier.name ∧
      ∀ column ∈ columns, column.2.length = gs.length := by
  refine ⟨map_eq_of_mapM_ok h fun _ _ hcolumn => (groupColumn_ok hcolumn).1, fun column hmem => ?_⟩
  obtain ⟨c, -, hcolumn⟩ := exists_mem_of_mapM_ok h hmem
  exact (groupColumn_ok hcolumn).2

/-- The aggregates of whole columns stand under their names. -/
theorem map_fst_wholeColumns {a : Aggregation} {f : Frame} {cs : List Identifier}
    {fields : List (String × Value)}
    (h : cs.mapM (fun c => (do
      .ok (c.name, ← a.ofWhole (f.kind c.name) (f.column c.name)) :
        Except Failure (String × Value))) = .ok fields) :
    fields.map Prod.fst = cs.map Identifier.name := by
  refine map_eq_of_mapM_ok h fun c field hfield => ?_
  obtain ⟨v, -, hfield⟩ := bind_eq_ok_iff.1 hfield
  cases hfield
  rfl

/-- Counts are whole numbers, which stay as they are. -/
theorem groupColumn_count {f : Frame} {gs : List (List Value × List Record)} {c : Identifier} :
    ChartPlan.groupColumn .count f gs c =
      .ok (c.name, gs.map fun g => .int (countPresent (g.2.map (·.value c.name)))) := by
  have hcounts : gs.mapM (fun g => Aggregation.count.ofGroup (f.kind c.name)
      (g.2.map (·.value c.name))) =
      .ok (gs.map fun g => .int (countPresent (g.2.map (·.value c.name)))) :=
    mapM_eq_ok fun g _ => rfl
  rw [ChartPlan.groupColumn, hcounts]
  refine congrArg Except.ok (resultColumn_eq fun _ => .inr fun v hv => ?_)
  obtain ⟨g, -, rfl⟩ := List.mem_map.1 hv
  rfl

/-- The columns of a result that counts groups: a column for each part of their keys, a label, and
the counts of each column of the vertical axis. -/
def ChartPlan.countColumns (p : ChartPlan) (gs : List (List Value × List Record))
    (label : List (String × List Value)) : List (String × List Value) :=
  (p.groupingKeys.mapIdx fun n c => (c.name, gs.map fun g => g.1.getD n .null)) ++ label ++
    p.yAxis.map fun y =>
      (y.name, gs.map fun g => Value.int (countPresent (g.2.map (·.value y.name))))

section CountColumns

variable {gs : List (List Value × List Record)} {label : List (String × List Value)}

theorem map_fst_countColumns
    (hlabel : label.map Prod.fst = p.drillDownLabel.toList.map Identifier.name) :
    (p.countColumns gs label).map Prod.fst = p.outputColumns.map Identifier.name := by
  have hkeys : (p.groupingKeys.mapIdx fun n c =>
      (c.name, gs.map fun g => g.1.getD n .null)).map Prod.fst =
      p.groupingKeys.map Identifier.name := by
    refine List.ext_getElem (by simp) fun n _ _ => ?_
    simp
  simp only [ChartPlan.countColumns, ChartPlan.outputColumns, List.map_append, hkeys, hlabel,
    List.map_map, Function.comp_def]

theorem length_of_mem_countColumns (hlabel : ∀ c ∈ label, c.2.length = gs.length)
    {column : String × List Value} (h : column ∈ p.countColumns gs label) :
    column.2.length = gs.length := by
  simp only [ChartPlan.countColumns, List.mem_append, List.mem_mapIdx, List.mem_map] at h
  rcases h with (⟨n, hn, rfl⟩ | h) | ⟨y, -, rfl⟩
  · simp
  · exact hlabel column h
  · simp

theorem keyColumn_mem_countColumns {n : Nat} {c : Identifier} (hc : p.groupingKeys[n]? = some c) :
    (c.name, gs.map fun g => g.1.getD n .null) ∈ p.countColumns gs label := by
  refine List.mem_append_left _ (List.mem_append_left _ (List.mem_mapIdx.2 ?_))
  obtain ⟨hn, rfl⟩ := List.getElem?_eq_some_iff.1 hc
  exact ⟨n, hn, rfl⟩

theorem counts_mem_countColumns {y : Identifier} (hy : y ∈ p.yAxis) :
    (y.name, gs.map fun g => Value.int (countPresent (g.2.map (·.value y.name)))) ∈
      p.countColumns gs label :=
  List.mem_append_right _ (List.mem_map.2 ⟨y, hy, rfl⟩)

end CountColumns

/-- The rows of groups that are counted: their keys, some label, and a count for each column of the
vertical axis. -/
theorem groupedRows_of_count {f : Frame} {rows : List Record} (hcount : p.aggregation = .count)
    (h : p.groupedRows f = .ok rows) :
    ∃ gs label, p.groups f = .ok gs ∧
      label.map Prod.fst = p.drillDownLabel.toList.map Identifier.name ∧
      (∀ c ∈ label, c.2.length = gs.length) ∧
      rows = ChartPlan.rowsOfColumns gs.length
        ((p.groupingKeys.mapIdx fun n c =>
          ChartPlan.resultColumn f c.name (gs.map fun g => g.1.getD n .null)) ++ label ++
        p.yAxis.map fun y =>
          (y.name, gs.map fun g => Value.int (countPresent (g.2.map (·.value y.name))))) := by
  obtain ⟨gs, hgs, h⟩ := bind_eq_ok_iff.1 h
  obtain ⟨values, hvalues, h⟩ := bind_eq_ok_iff.1 h
  obtain ⟨label, hlabel, h⟩ := bind_eq_ok_iff.1 h
  rw [hcount, mapM_eq_ok fun c _ => groupColumn_count] at hvalues
  cases hvalues
  obtain ⟨hnames, hlengths⟩ := groupColumns_ok hlabel
  exact ⟨gs, label, mapError_eq_ok_iff.1 hgs, hnames, hlengths, (Except.ok.inj h).symm⟩

/-- The one row of a plan that counts: some label, and a count for each column of the vertical
axis. -/
theorem wholeRow_of_count {f : Frame} {row : Record} (hcount : p.aggregation = .count)
    (h : p.wholeRow f = .ok row) :
    ∃ label values, label.map Prod.fst = p.drillDownLabel.toList.map Identifier.name ∧
      values = (p.yAxis.map fun y => (y.name, Value.int (countPresent (f.column y.name)))) ∧
      row = label ++ values := by
  obtain ⟨label, hlabel, h⟩ := bind_eq_ok_iff.1 h
  obtain ⟨values, hvalues, h⟩ := bind_eq_ok_iff.1 h
  have hcounts : p.yAxis.mapM (fun c => (do
      .ok (c.name, ← p.aggregation.ofWhole (f.kind c.name) (f.column c.name)) :
        Except Failure (String × Value))) =
      .ok (p.yAxis.map fun y => (y.name, Value.int (countPresent (f.column y.name)))) := by
    refine mapM_eq_ok fun c _ => ?_
    rw [hcount]
    rfl
  exact ⟨label, values, map_fst_wholeColumns hlabel, Except.ok.inj (hvalues.symm.trans hcounts),
    (Except.ok.inj h).symm⟩

namespace ChartPlan.ShowsKeys

variable (hp : p.ShowsKeys kept)

include hp

/-- A group of the frame counts the records of the group that have a value. -/
theorem countPresent_heldRow {y : Identifier} (hy : y ∈ p.yAxis) {rows : List Record}
    (hrows : rows ⊆ kept) :
    countPresent ((rows.map (p.heldRow kept)).map (·.value y.name)) =
      rows.countP fun r => !(r.value y.name).isNull := by
  have hmem := List.mem_append_right p.groupingKeys hy
  have hshown := mem_outputColumns_of_mem hmem
  have hcut := not_cut_of_mem_yAxis hp.nodup hy
  have hvalues : (rows.map (p.heldRow kept)).map (·.value y.name) =
      rows.map (·.value y.name) := by
    rw [List.map_map]
    refine List.map_congr_left fun r hr => ?_
    rw [Function.comp_apply, value_heldRow hp.nodup hshown,
      (hp.holdsShown hmem).held_eq r (hrows hr), shownOf_of_not_cut hcut]
  rw [hvalues, countPresent, presentValues, ← List.countP_eq_length_filter, List.countP_map]
  rfl

/-- The columns of a result that counts: a key column for each column to group by, the label, and
the counts of each column of the vertical axis. -/
theorem exists_columns (hcount : p.aggregation = .count) {rows : List Record}
    (h : p.groupedRows (p.heldFrame kept) = .ok rows) :
    ∃ gs, p.groups (p.heldFrame kept) = .ok gs ∧ rows.length = gs.length ∧
      (∀ n c, p.groupingKeys[n]? = some c →
        rows.map (·.value c.name) = gs.map fun g => g.1.getD n .null) ∧
      ∀ y ∈ p.yAxis, rows.map (·.value y.name) =
        gs.map fun g => Value.int (countPresent (g.2.map (·.value y.name))) := by
  obtain ⟨gs, label, hgs, hlabel, hlengths, rfl⟩ := groupedRows_of_count hcount h
  have hcolumns : (p.groupingKeys.mapIdx fun n c => ChartPlan.resultColumn (p.heldFrame kept)
      c.name (gs.map fun g => g.1.getD n .null)) ++ label ++ (p.yAxis.map fun y =>
        (y.name, gs.map fun g => Value.int (countPresent (g.2.map (·.value y.name))))) =
      p.countColumns gs label := by
    refine congrArg (· ++ label ++ _) (List.ext_getElem (by simp) fun n hn _ => ?_)
    simp only [List.length_mapIdx] at hn
    simp only [List.getElem_mapIdx]
    exact hp.showsGroups.keyColumn_eq (List.getElem?_eq_getElem hn) fun g hg =>
      hp.showsGroups.exists_shownKeyOf hgs hg
  have hlength : ∀ c ∈ p.countColumns gs label, c.2.length = gs.length :=
    fun c hc => length_of_mem_countColumns hlengths hc
  have hnodup : ((p.countColumns gs label).map Prod.fst).Nodup := by
    rw [map_fst_countColumns hlabel]
    exact hp.nodup
  -- All columns have one length and distinct names, so that each is found in the rows.
  rw [hcolumns]
  refine ⟨gs, hgs, ?_, fun n c hc => ?_, fun y hy => ?_⟩
  · rw [rowsOfColumns_eq hlength, List.length_map, List.length_range]
  · exact column_rowsOfColumns hlength hnodup (keyColumn_mem_countColumns hc)
  · exact column_rowsOfColumns hlength hnodup (counts_mem_countColumns hy)

/-- **The rows of groups part the kept records.** -/
theorem groupedRows_countsByKey (hcount : p.aggregation = .count) {rows : List Record}
    (h : p.groupedRows (p.heldFrame kept) = .ok rows) : p.CountsByKey kept rows := by
  obtain ⟨gs, hgs, hlength, hkeys, hcounts⟩ := hp.exists_columns hcount h
  have hrowKeys := hp.showsGroups.map_rowKey_eq_distinctKeys hgs hlength hkeys
  have hgroups := Except.ok.inj (hgs.symm.trans hp.showsGroups.groups_eq)
  refine ⟨?_, fun k => ?_, fun y hy => ?_⟩
  · rw [hrowKeys]
    exact hp.showsGroups.nodup_keys
  · rw [hrowKeys]
    exact hp.showsGroups.mem_keys_iff
  refine ⟨(groupRows Value.eqvList p.shownKeyOf kept).map fun g =>
    g.2.countP fun r => !(r.value y.name).isNull, ?_,
    sum_countP_groupRows (fun _ hr _ hs => hp.showsGroups.eqvList_shownKeyOf hr hs) _⟩
  rw [hcounts y hy, hgroups, List.map_map, List.map_map]
  refine List.map_congr_left fun g hg => ?_
  simp only [Function.comp_apply, hp.countPresent_heldRow hy (groupRows_subset hg)]

/-- Without groups there is one row, in which all records are counted. -/
theorem wholeRow_countsAll (hcount : p.aggregation = .count) {row : Record}
    (h : p.wholeRow (p.heldFrame kept) = .ok row) {y : Identifier} (hy : y ∈ p.yAxis) :
    ChartPlan.CountsAll y kept [row] := by
  obtain ⟨label, values, hlabel, hvalues, rfl⟩ := wholeRow_of_count hcount h
  have hnodup : ((label ++ values).map Prod.fst).Nodup := by
    have hnames := hp.nodup
    rw [ChartPlan.outputColumns, List.append_assoc, List.map_append] at hnames
    rw [List.map_append, hlabel, hvalues, List.map_map]
    simpa [Function.comp_def] using (List.nodup_append.1 hnames).2.1
  have hvalue : Record.value (label ++ values) y.name =
      .int (countPresent ((p.heldFrame kept).column y.name)) := by
    refine Record.value_of_mem hnodup (List.mem_append_right _ ?_)
    rw [hvalues]
    exact List.mem_map.2 ⟨y, hy, rfl⟩
  refine ⟨[countPresent ((p.heldFrame kept).column y.name)], by simp [hvalue], ?_⟩
  rw [List.sum_singleton]
  exact hp.countPresent_heldRow hy fun r hr => hr

end ChartPlan.ShowsKeys

end Groups

/-! ## Results in order -/

section Results

variable {p : ChartPlan} {kept rows out : List Record}

/-- Arranged rows are the first of the sorted ones. -/
theorem eq_firstRows_of_arrange (h : p.arrange rows = .ok out) :
    out = firstRows p.limit (sortRows p.sortKeys rows) := by
  rw [ChartPlan.arrange] at h
  split at h
  · exact (Except.ok.inj h).symm
  · cases h

/-- Rows in order, if there are not more than asked for, are all rows. -/
theorem perm_of_arrange (h : p.arrange rows = .ok out) (hlimit : (rows.length : Int) ≤ p.limit) :
    out.Perm rows := by
  obtain ⟨n, hn⟩ : ∃ n : Nat, p.limit = n := ⟨p.limit.toNat, by omega⟩
  rw [eq_firstRows_of_arrange h, hn, firstRows_ofNat,
    List.take_of_length_le (by rw [length_sortRows]; omega)]
  exact sortRows_perm _ _

theorem ChartPlan.CountsAll.perm {y : Identifier} (h : CountsAll y kept rows)
    (hperm : out.Perm rows) : CountsAll y kept out := by
  obtain ⟨counts, hcounts, hsum⟩ := h
  -- The counts are read off the rows, so that they are reordered with them.
  let read (row : Record) : Nat := ((row.value y.name).int?.getD 0).toNat
  have hread : ∀ row ∈ rows, row.value y.name = Value.int (read row) := by
    intro row hrow
    have hmem : row.value y.name ∈ counts.map fun n : Nat => Value.int n := by
      rw [← hcounts]
      exact List.mem_map_of_mem hrow
    obtain ⟨n, -, hn⟩ := List.mem_map.1 hmem
    simp only [read, ← hn]
    rfl
  have hrows : rows.map read = counts := by
    have hmap := congrArg (List.map fun v : Value => (v.int?.getD 0).toNat) hcounts
    rw [List.map_map, List.map_map] at hmap
    exact hmap.trans (by simp [Function.comp_def, Value.int?])
  refine ⟨out.map read, ?_, ?_⟩
  · rw [List.map_map]
    exact List.map_congr_left fun row hrow => hread row (hperm.mem_iff.1 hrow)
  · rw [(hperm.map read).sum_eq, hrows, hsum]

theorem ChartPlan.CountsByKey.perm (h : p.CountsByKey kept rows) (hperm : out.Perm rows) :
    p.CountsByKey kept out where
  nodup := (hperm.map p.rowKey).nodup_iff.2 h.nodup
  mem_iff k := (hperm.map p.rowKey).mem_iff.trans (h.mem_iff k)
  countsAll y hy := (h.countsAll y hy).perm hperm

/-- Keys that do not repeat are as many as those of the records. -/
theorem length_eq_ncard_keys {ks : List (List Value)} (hnodup : ks.Nodup)
    (hmem : ∀ k, k ∈ ks ↔ ∃ r ∈ kept, p.keyOf r = .ok k) :
    ks.length = {k | ∃ r ∈ kept, p.keyOf r = .ok k}.ncard := by
  classical
  have hset : {k | ∃ r ∈ kept, p.keyOf r = .ok k} = (ks.toFinset : Set _) := by
    ext k
    simp only [Set.mem_ofPred_eq, List.coe_toFinset, hmem]
  rw [hset, Set.ncard_coe_finset, List.toFinset_card_of_nodup hnodup]

/-- There are as many rows as keys. -/
theorem ChartPlan.CountsByKey.length_eq (h : p.CountsByKey kept rows) :
    rows.length = {k | ∃ r ∈ kept, p.keyOf r = .ok k}.ncard := by
  rw [← length_eq_ncard_keys h.nodup h.mem_iff, List.length_map]

/-- There are no more keys than records. -/
theorem ncard_keys_le : {k | ∃ r ∈ kept, p.keyOf r = .ok k}.ncard ≤ kept.length := by
  classical
  have hsub : {k | ∃ r ∈ kept, p.keyOf r = .ok k} ⊆
      ((kept.filterMap fun r => (p.keyOf r).toOption).toFinset : Set (List Value)) := by
    rintro k ⟨r, hr, hk⟩
    simp only [List.coe_toFinset, Set.mem_ofPred_eq, List.mem_filterMap]
    exact ⟨r, hr, by rw [hk]; rfl⟩
  calc {k | ∃ r ∈ kept, p.keyOf r = .ok k}.ncard
      ≤ (kept.filterMap fun r => (p.keyOf r).toOption).toFinset.card := by
        rw [← Set.ncard_coe_finset]
        exact Set.ncard_le_ncard hsub (Finset.finite_toSet _)
    _ ≤ (kept.filterMap fun r => (p.keyOf r).toOption).length := List.toFinset_card_le _
    _ ≤ kept.length := List.length_filterMap_le _ _

end Results

/-- What a chart of records that succeeds is made of. -/
theorem aggregateRecords_eq_ok_iff {limits : RowLimits} {spec : ChartSpec} {rows : List Record}
    {maxRows : Option Int} {result : ChartResult} :
    aggregateRecords limits spec rows maxRows = .ok result ↔
      ∃ p out,
        resolvePlan limits spec (columnsOfRecords (rows.map Record.cleaned)) maxRows = .ok p ∧
          p.unlabelledRows (rows.map Record.cleaned) = .ok out ∧
          result = p.result (composeLabels p out) := by
  have happly (p : ChartPlan) (rs labelled : List Record) :
      p.apply rs = .ok labelled ↔
        ∃ out, p.unlabelledRows rs = .ok out ∧ labelled = composeLabels p out := by
    rw [ChartPlan.apply]
    cases p.unlabelledRows rs <;> simp [Except.map, eq_comm]
  simp only [aggregateRecords, bind_eq_ok_iff, mapError_eq_ok_iff, happly, Except.ok.injEq]
  constructor
  · rintro ⟨p, hp, _, ⟨out, hout, rfl⟩, rfl⟩
    exact ⟨p, out, hp, hout, rfl⟩
  · rintro ⟨p, out, hp, hout, rfl⟩
    exact ⟨p, hp, _, ⟨out, hout, rfl⟩, rfl⟩

/-- What the rows of a plan over records are made of. -/
theorem unlabelledRows_eq_ok_iff {p : ChartPlan} {rs out : List Record} :
    p.unlabelledRows rs = .ok out ↔
      ∃ kept rows, p.filterRows rs = .ok kept ∧ (∀ c ∈ p.outputColumns, p.CanHold kept c) ∧
        p.reduce (p.heldFrame kept) = .ok rows ∧ p.arrange rows = .ok out := by
  simp only [ChartPlan.unlabelledRows, bind_eq_ok_iff, mapError_eq_ok_iff,
    ChartPlan.frame_eq_ok_iff]
  constructor
  · rintro ⟨kept, hkept, _, ⟨hhold, rfl⟩, rows, hrows, hout⟩
    exact ⟨kept, rows, hkept, hhold, hrows, hout⟩
  · rintro ⟨kept, rows, hkept, hhold, hrows, hout⟩
    exact ⟨kept, hkept, _, ⟨hhold, rfl⟩, rows, hrows, hout⟩

/-- A frame is reduced to the rows of its groups, or without groups to one row. -/
theorem reduce_eq_ok {p : ChartPlan} {f : Frame} {rows : List Record}
    (h : p.reduce f = .ok rows) :
    (p.groupingKeys ≠ [] ∧ p.groupedRows f = .ok rows) ∨
      (p.groupingKeys = [] ∧ ∃ row, p.wholeRow f = .ok row ∧ rows = [row]) := by
  obtain ⟨-, -, h⟩ := bind_eq_ok_iff.1 h
  by_cases hkeys : p.groupingKeys = []
  · rw [hkeys, List.isEmpty_nil, if_pos rfl] at h
    obtain ⟨row, hrow, h⟩ := bind_eq_ok_iff.1 h
    exact .inr ⟨hkeys, row, hrow, (Except.ok.inj h).symm⟩
  · have hempty : p.groupingKeys.isEmpty = false := by simpa using hkeys
    rw [hempty, if_neg Bool.false_ne_true] at h
    exact .inl ⟨hkeys, h⟩

/-- **Grouping parts the records that are kept.** If a chart of records counts, and the columns to
group by and to count hold nulls and values of one kind each, then the rows of its groups, before
they are labelled, show exactly the keys of the kept records, each of them once, and for every
column of the vertical axis their counts add up to the number of kept records with a value there, as
long as no more groups occur than rows are asked for. Without columns to group by there is exactly
one row, with this count. At least one row is asked for whenever the limits are positive. -/
theorem aggregateRecords_partitions (limits : RowLimits) (spec : ChartSpec) (rows : List Record)
    (maxRows : Option Int) (result : ChartResult)
    (h : aggregateRecords limits spec rows maxRows = .ok result) :
    ∃ p kept out,
      resolvePlan limits spec (columnsOfRecords (rows.map Record.cleaned)) maxRows = .ok p ∧
      p.filterRows (rows.map Record.cleaned) = .ok kept ∧
      p.unlabelledRows (rows.map Record.cleaned) = .ok out ∧
      result = p.result (composeLabels p out) ∧
      (p.aggregation = .count → p.HasKeyKinds kept → p.groupingKeys ≠ [] →
        ({k | ∃ r ∈ kept, p.keyOf r = .ok k}.ncard : Int) ≤ p.limit → p.CountsByKey kept out) ∧
      (p.groupingKeys = [] → 1 ≤ p.limit →
        out.length = 1 ∧ (p.aggregation = .count → p.HasKeyKinds kept →
          ∀ y ∈ p.yAxis, ChartPlan.CountsAll y kept out)) ∧
      (0 < limits.usual → 0 < limits.most → (∀ m, maxRows = some m → 0 < m) → 1 ≤ p.limit) := by
  obtain ⟨p, out, hplan, hout, hresult⟩ := aggregateRecords_eq_ok_iff.1 h
  obtain ⟨kept, reduced, hkept, hhold, hreduced, harranged⟩ := unlabelledRows_eq_ok_iff.1 hout
  obtain ⟨x, -, -, hbeside⟩ := resolvePlan_eq_ok_iff.1 hplan
  have hshows (hkinds : p.HasKeyKinds kept) : p.ShowsKeys kept := by
    refine ⟨?_, fun c hc => (hhold c hc).1, hkinds⟩
    rw [hbeside]
    exact Identifier.nodup_names planBeside_nodup
  refine ⟨p, kept, out, hplan, hkept, hout, hresult, ?_, ?_, ?_⟩
  · intro hcount hkinds hkeys hlimit
    rcases reduce_eq_ok hreduced with ⟨-, hgrouped⟩ | ⟨hnil, -⟩
    · have hcounts := (hshows hkinds).groupedRows_countsByKey hcount hgrouped
      rw [← hcounts.length_eq] at hlimit
      exact hcounts.perm (perm_of_arrange harranged hlimit)
    · exact absurd hnil hkeys
  · intro hkeys hlimit
    rcases reduce_eq_ok hreduced with ⟨hne, -⟩ | ⟨-, row, hrow, rfl⟩
    · exact absurd hkeys hne
    · have hperm := perm_of_arrange harranged (by simpa using hlimit)
      refine ⟨hperm.length_eq, fun hcount hkinds y hy => ?_⟩
      exact ((hshows hkinds).wholeRow_countsAll hcount hrow hy).perm hperm
  · intro husual hmost hmax
    rw [hbeside]
    exact one_le_limitOf husual hmost hmax

/-! ## Visits by month and page -/

/-- The visits of each page by month: users are counted. -/
def visitSpec : ChartSpec :=
  { ChartSpec.ofTable "Visits" "User" with
    xAxis := some "Day"
    resolution := some "month"
    groupBy := .one "Page"
    aggregation := "count" }

/-- A day is given, written, or not known; so are pages and users. -/
def visits : List Record :=
  [[("Day", .date ⟨2024, 1, 30, by decide⟩), ("Page", .text "home"), ("User", .int 1)],
    [("Day", .text "2024-01-31"), ("Page", .text "home"), ("User", .null)],
    [("Day", .text "unknown"), ("Page", .null), ("User", .int 2)],
    [("Day", .null), ("Page", .text "home"), ("User", .int 3)]]

theorem aggregateRecords_partitions_visits :
    ∃ result, aggregateRecords .standard visitSpec visits none = .ok result ∧
      ∃ (p : ChartPlan) (kept out : List Record),
        p.groupingKeys.map Identifier.name = ["Day", "Page"] ∧
        p.filterRows (visits.map Record.cleaned) = .ok kept ∧
        p.unlabelledRows (visits.map Record.cleaned) = .ok out ∧
        result = p.result (composeLabels p out) ∧ p.CountsByKey kept out := by
  have hok : (aggregateRecords .standard visitSpec visits none).toBool = true := by
    decide +kernel
  obtain ⟨result, hresult⟩ : ∃ result,
      aggregateRecords .standard visitSpec visits none = .ok result := by
    cases hrun : aggregateRecords .standard visitSpec visits none with
    | ok result => exact ⟨result, rfl⟩
    | error fault =>
      rw [hrun] at hok
      cases hok
  obtain ⟨p, kept, out, hplan, hkept, hout, hlabelled, hgroups, -⟩ :=
    aggregateRecords_partitions .standard visitSpec visits none result hresult
  obtain ⟨x, hx, -, hp⟩ := resolvePlan_eq_ok_iff.1 hplan
  obtain ⟨-, rfl⟩ := resolveXAxis_eq_ok_iff.1 hx
  have hparts : p.groupingKeys.map Identifier.name = ["Day", "Page"] ∧
      p.yAxis.map Identifier.name = ["User"] ∧ p.xAxis = some (.ofText "Day") ∧
      p.resolution.isSome = true ∧ p.aggregation = .count ∧ p.limit = 50 := by
    rw [hp]
    decide +kernel
  obtain ⟨hkeys, hcounted, haxis, hcut, hcount, hlimit⟩ := hparts
  obtain ⟨-, -, hkeep⟩ := bind_eq_ok_iff.1 hkept
  have hsub := ChartPlan.keepRows_sublist hkeep
  have hallKeys (name : String) (k : KeyKind) (hall : (((visits.map Record.cleaned).map
      (·.value name)).all fun v => v.isNull || k.has v) = true) :
      AllKeys k (kept.map (·.value name)) :=
    (allKeys_of_all hall).mono (List.map_subset _ hsub.subset)
  have hkinds : p.HasKeyKinds kept := by
    intro c hc hnot
    have hname : c.name ∈ (p.groupingKeys ++ p.yAxis).map Identifier.name :=
      List.mem_map_of_mem hc
    rw [List.map_append, hkeys, hcounted] at hname
    simp only [List.cons_append, List.nil_append, List.mem_cons, List.not_mem_nil, or_false]
      at hname
    rcases hname with hname | hname | hname
    -- Days may be of any kind, since they are cut to their months.
    · have hday : (Identifier.ofText "Day").name = "Day" := by decide +kernel
      have hc : .ofText "Day" = c := Identifier.eq_of_name_eq (hday.trans hname.symm)
      exact absurd ⟨haxis.trans (congrArg some hc), hcut⟩ hnot
    · rw [hname]
      exact ⟨.text, hallKeys "Page" .text (by decide +kernel)⟩
    · rw [hname]
      exact ⟨.signed, hallKeys "User" .signed (by decide +kernel)⟩
  have hfew : ({k | ∃ r ∈ kept, p.keyOf r = .ok k}.ncard : Int) ≤ p.limit := by
    have hle : {k | ∃ r ∈ kept, p.keyOf r = .ok k}.ncard ≤ kept.length := ncard_keys_le
    have hlength : kept.length ≤ 4 := hsub.length_le
    rw [hlimit]
    omega
  have hne : p.groupingKeys ≠ [] := by
    intro hnil
    rw [hnil] at hkeys
    cases hkeys
  exact ⟨result, hresult, p, kept, out, hkeys, hkept, hout, hlabelled,
    hgroups hcount hkinds hne hfew⟩

end ChartQuery
