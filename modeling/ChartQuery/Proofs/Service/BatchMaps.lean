import ChartQuery.Service.Batch
import Mathlib.Data.List.Induction
import Mathlib.Data.List.Nodup
import Mathlib.Data.List.Perm.Subperm

/-!
# Maps of a batch

Every chart of a batch has a result, and the results are then put into maps under the identifiers of
their widgets. The caller chooses the identifiers. As long as they differ, each result has an entry
of its own, among the data or among the errors, and is read back from there; of several results of
one kind under one identifier only the last stays, and results of both kinds stand in both maps.

## Main definitions

* `BatchMaps.collect`: what results leave under the identifiers of their widgets
* `BatchMaps.KeepsAll`: the data and the errors have an entry of its own for each of so many results
* `BatchMaps.Shows`: an outcome is read back under an identifier

## Main results

* `BatchMaps.lookup_collect`: the last of the results of a widget is found
* `BatchMaps.keepsAll_ofResults_iff`: nothing is lost exactly when the identifiers differ
* `runBatch_keepsAll_iff`: so it is for the batches of every service
-/

namespace ChartQuery

/-! ## What results leave -/

/-- The rows of a result that is no failure. -/
def BatchResult.rows? (r : BatchResult) : Option (List Record) :=
  if r.error.isSome then none else some r.rows

theorem BatchResult.widgetId_ofOutcome (id : String) (o : Except Failure ChartResult) :
    (BatchResult.ofOutcome id o).widgetId = id := by
  cases o <;> rfl

/-- The warnings of a result that has any. -/
def BatchResult.warnings? (r : BatchResult) : Option (List String) :=
  if r.warnings.isEmpty then none else some r.warnings

theorem BatchResult.rows?_isSome_iff {r : BatchResult} : r.rows?.isSome ↔ r.error = none := by
  cases h : r.error <;> simp [rows?, h]

namespace BatchMaps

section Collect

variable {α : Type} (f : BatchResult → Option α)

/-- The entries with what one more result leaves. -/
def note (es : Entries α) (r : BatchResult) : Entries α :=
  match f r with
  | some a => es.assign r.widgetId a
  | none => es

/-- What results leave under the identifiers of their widgets. -/
def collect (rs : List BatchResult) : Entries α := rs.foldl (note f) []

theorem collect_concat (rs : List BatchResult) (r : BatchResult) :
    collect f (rs ++ [r]) = note f (collect f rs) r := by
  simp [collect]

/-- The last result of a widget that leaves something is found under its identifier. -/
theorem lookup_collect (rs : List BatchResult) (id : String) :
    (collect f rs).lookup id =
      rs.reverse.findSome? fun r => if r.widgetId = id then f r else none := by
  induction rs using List.reverseRecOn with
  | nil => rfl
  | append_singleton rs r ih =>
    rw [collect_concat, List.reverse_concat, List.findSome?_cons, ← ih, note]
    by_cases hid : r.widgetId = id
    · subst hid
      cases hf : f r <;> simp [Entries.lookup_assign]
    · have hid' : ¬ id = r.widgetId := fun h => hid h.symm
      cases hf : f r <;> simp [Entries.lookup_assign, hid, hid']

theorem nodup_keys_collect (rs : List BatchResult) : ((collect f rs).map Prod.fst).Nodup := by
  induction rs using List.reverseRecOn with
  | nil => exact List.nodup_nil
  | append_singleton rs r ih =>
    rw [collect_concat, note]
    split
    · exact Entries.nodup_keys_assign ih _ _
    · exact ih

theorem mem_keys_collect {rs : List BatchResult} {id : String} :
    id ∈ (collect f rs).map Prod.fst ↔ ∃ r ∈ rs, r.widgetId = id ∧ (f r).isSome := by
  rw [Entries.mem_keys_iff, lookup_collect, List.findSome?_isSome_iff]
  constructor
  · rintro ⟨r, hr, hsome⟩
    by_cases hid : r.widgetId = id
    · rw [if_pos hid] at hsome
      exact ⟨r, List.mem_reverse.1 hr, hid, hsome⟩
    · rw [if_neg hid] at hsome
      contradiction
  · rintro ⟨r, hr, hid, hsome⟩
    refine ⟨r, List.mem_reverse.2 hr, ?_⟩
    rw [if_pos hid]
    exact hsome

/-- Where identifiers differ, each result is found with what it leaves. -/
theorem lookup_collect_of_mem {rs : List BatchResult} (hids : (rs.map (·.widgetId)).Nodup)
    {r : BatchResult} (hr : r ∈ rs) : (collect f rs).lookup r.widgetId = f r := by
  have honly : ∀ x ∈ rs, x.widgetId = r.widgetId → x = r :=
    fun x hx hid => List.inj_on_of_nodup_map hids hx hr hid
  rw [lookup_collect]
  cases hf : f r with
  | none =>
    rw [List.findSome?_eq_none_iff]
    intro x hx
    split
    · rename_i hid
      rw [honly x (List.mem_reverse.1 hx) hid, hf]
    · rfl
  | some a =>
    -- Something is found, and only this result can have left it.
    have hfound : (rs.reverse.findSome? fun x =>
        if x.widgetId = r.widgetId then f x else none).isSome := by
      rw [List.findSome?_isSome_iff]
      exact ⟨r, List.mem_reverse.2 hr, by simp [hf]⟩
    obtain ⟨b, hb⟩ := Option.isSome_iff_exists.1 hfound
    obtain ⟨x, hx, hxb⟩ := List.exists_of_findSome?_eq_some hb
    by_cases hid : x.widgetId = r.widgetId
    · rw [if_pos hid, honly x (List.mem_reverse.1 hx) hid, hf] at hxb
      rw [hb, hxb]
    · rw [if_neg hid] at hxb
      contradiction

end Collect

theorem ofResults_concat (rs : List BatchResult) (r : BatchResult) :
    ofResults (rs ++ [r]) = (ofResults rs).add r := by
  simp [ofResults]

/-- The data are the rows of the results that are no failures. -/
theorem data_ofResults (rs : List BatchResult) :
    (ofResults rs).data = collect BatchResult.rows? rs := by
  induction rs using List.reverseRecOn with
  | nil => rfl
  | append_singleton rs r ih =>
    rw [ofResults_concat, collect_concat, ← ih]
    cases h : r.error <;> simp [add, note, BatchResult.rows?, h]

/-- The errors are those of the results. -/
theorem errors_ofResults (rs : List BatchResult) :
    (ofResults rs).errors = collect (·.error) rs := by
  induction rs using List.reverseRecOn with
  | nil => rfl
  | append_singleton rs r ih =>
    rw [ofResults_concat, collect_concat, ← ih]
    cases h : r.error <;> simp [add, note, h]

/-- The warnings are those of the results that have any. -/
theorem warnings_ofResults (rs : List BatchResult) :
    (ofResults rs).warnings = collect BatchResult.warnings? rs := by
  induction rs using List.reverseRecOn with
  | nil => rfl
  | append_singleton rs r ih =>
    rw [ofResults_concat, collect_concat, ← ih]
    by_cases h : r.warnings.isEmpty <;> simp [add, note, BatchResult.warnings?, h]

/-! ## Nothing is lost -/

/-- The data and the errors have an entry of its own for each of so many results. -/
structure KeepsAll (m : BatchMaps) (n : Nat) : Prop where
  /-- No identifier stands in both. -/
  disjoint : (m.data.map Prod.fst).Disjoint (m.errors.map Prod.fst)
  /-- There are as many entries as results. -/
  sizes : m.data.length + m.errors.length = n

/-- An outcome is read back under an identifier, and nothing else stands there. -/
def Shows (m : BatchMaps) (id : String) : Except Failure ChartResult → Prop
  | .ok r => m.data.lookup id = some r.rows ∧ m.errors.lookup id = none
  | .error e => m.errors.lookup id = some e.chartMessage ∧ m.data.lookup id = none

/-- The identifiers in the maps are those of the results. -/
theorem mem_keys_ofResults {rs : List BatchResult} {id : String} :
    id ∈ (ofResults rs).data.map Prod.fst ++ (ofResults rs).errors.map Prod.fst ↔
      id ∈ rs.map (·.widgetId) := by
  rw [List.mem_append, data_ofResults, errors_ofResults, mem_keys_collect, mem_keys_collect,
    List.mem_map]
  constructor
  · rintro (⟨r, hr, hid, -⟩ | ⟨r, hr, hid, -⟩)
    · exact ⟨r, hr, hid⟩
    · exact ⟨r, hr, hid⟩
  · rintro ⟨r, hr, hid⟩
    cases herror : r.error with
    | none => exact .inl ⟨r, hr, hid, BatchResult.rows?_isSome_iff.2 herror⟩
    | some e => exact .inr ⟨r, hr, hid, by rw [herror]; rfl⟩

/-- Where identifiers differ, none of them stands in both maps. -/
theorem disjoint_keys_ofResults {rs : List BatchResult} (hids : (rs.map (·.widgetId)).Nodup) :
    ((ofResults rs).data.map Prod.fst).Disjoint ((ofResults rs).errors.map Prod.fst) := by
  rw [data_ofResults, errors_ofResults, List.disjoint_left]
  intro id hdata herrors
  -- The two results under the identifier are the same one, which cannot both fail and not.
  obtain ⟨r, hr, hid, hrows⟩ := (mem_keys_collect _).1 hdata
  obtain ⟨x, hx, hxid, herror⟩ := (mem_keys_collect _).1 herrors
  have hsame : x = r := List.inj_on_of_nodup_map hids hx hr (hxid.trans hid.symm)
  rw [hsame, BatchResult.rows?_isSome_iff.1 hrows] at herror
  contradiction

/-- **Nothing is lost exactly when the identifiers differ.** -/
theorem keepsAll_ofResults_iff {rs : List BatchResult} :
    (ofResults rs).KeepsAll rs.length ↔ (rs.map (·.widgetId)).Nodup := by
  have hdata : ((ofResults rs).data.map Prod.fst).Nodup := by
    rw [data_ofResults]
    exact nodup_keys_collect _ rs
  have herrors : ((ofResults rs).errors.map Prod.fst).Nodup := by
    rw [errors_ofResults]
    exact nodup_keys_collect _ rs
  constructor
  · rintro ⟨hdisjoint, hsizes⟩
    -- So many different identifiers leave no room for one that comes twice.
    have hkeys := List.nodup_append'.2 ⟨hdata, herrors, hdisjoint⟩
    have hsub := hkeys.subperm fun id hid => mem_keys_ofResults.1 hid
    have hperm := hsub.perm_of_length_le (by simp [hsizes])
    exact hperm.nodup_iff.1 hkeys
  · intro hids
    have hdisjoint := disjoint_keys_ofResults hids
    have hkeys := List.nodup_append'.2 ⟨hdata, herrors, hdisjoint⟩
    have hperm := (List.perm_ext_iff_of_nodup hkeys hids).2 fun id => mem_keys_ofResults
    exact ⟨hdisjoint, by simpa using hperm.length_eq⟩

/-- Where identifiers differ, each outcome is read back under its own. -/
theorem shows_ofResults {rs : List BatchResult} (hids : (rs.map (·.widgetId)).Nodup) {id : String}
    {o : Except Failure ChartResult} (hr : .ofOutcome id o ∈ rs) : (ofResults rs).Shows id o := by
  have hrows := lookup_collect_of_mem BatchResult.rows? hids hr
  have herror := lookup_collect_of_mem (·.error) hids hr
  rw [← data_ofResults] at hrows
  rw [← errors_ofResults] at herror
  cases o with
  | ok r => exact ⟨hrows, herror⟩
  | error e => exact ⟨herror, hrows⟩

end BatchMaps

/-! ## Batches of a service -/

section Running

variable {ρ : Type} (service : ChartSpec → StateM ρ (Except Failure ChartResult))

/-- The charts of a batch with their outcomes, made by a service from some state on. -/
def chartsWithOutcomes (s : ρ) (items : List BatchItem) :
    List (BatchItem × Except Failure ChartResult) :=
  items.zip ((outcomes service items).run s).1

theorem map_fst_chartsWithOutcomes (s : ρ) (items : List BatchItem) :
    (chartsWithOutcomes service s items).map Prod.fst = items := by
  induction items generalizing s with
  | nil => rfl
  | cons i rest ih =>
    show i :: (chartsWithOutcomes service ((service i.spec).run s).2 rest).map Prod.fst = i :: rest
    rw [ih]

variable {service} {most : Int} {items : List BatchItem} {s s' : ρ} {results : List BatchResult}

/-- The results of a batch are those of its outcomes, chart by chart. -/
theorem results_of_runBatch (h : (runBatch most service items).run s = (.ok results, s')) :
    results = (chartsWithOutcomes service s items).map fun c =>
      BatchResult.ofOutcome c.1.widgetId c.2 := by
  rw [runBatch] at h
  split at h
  · cases h
  · have hsettle : settle items ((outcomes service items).run s).1 = .ok results :=
      congrArg Prod.fst h
    rw [settle] at hsettle
    split at hsettle
    · cases hsettle
    · rw [chartsWithOutcomes, List.map_zip_eq_zipWith]
      exact (Except.ok.inj hsettle).symm

/-- There is one result for each chart, in order. -/
theorem widgetIds_of_runBatch (h : (runBatch most service items).run s = (.ok results, s')) :
    results.map (·.widgetId) = items.map (·.widgetId) := by
  conv_rhs => rw [← map_fst_chartsWithOutcomes service s items]
  rw [results_of_runBatch h, List.map_map, List.map_map]
  exact List.map_congr_left fun c _ => BatchResult.widgetId_ofOutcome c.1.widgetId c.2

/-- **A batch loses no result exactly when its identifiers differ.** Whatever becomes of its charts,
the maps of the results then hold an entry of its own for each of them, and each outcome is read
back under the identifier of its widget. -/
theorem runBatch_keepsAll_iff (h : (runBatch most service items).run s = (.ok results, s')) :
    ((BatchMaps.ofResults results).KeepsAll items.length ↔ (items.map (·.widgetId)).Nodup) ∧
    ((items.map (·.widgetId)).Nodup → ∀ c ∈ chartsWithOutcomes service s items,
      (BatchMaps.ofResults results).Shows c.1.widgetId c.2) := by
  have hids := widgetIds_of_runBatch h
  have hlength : results.length = items.length := by simpa using congrArg List.length hids
  rw [← hids, ← hlength]
  refine ⟨BatchMaps.keepsAll_ofResults_iff, ?_⟩
  intro hnodup c hc
  apply BatchMaps.shows_ofResults hnodup
  rw [results_of_runBatch h]
  exact List.mem_map_of_mem hc

end Running

/-! ## Batches of two charts -/

/-- A specification that asks for a column of a table. -/
def ChartSpec.ofTable (table column : String) : ChartSpec where
  table := some table
  xAxis := none
  yAxis := [column]
  aggregation := "sum"
  groupBy := .none
  orderBy := none
  orderDirection := "asc"
  limit := none
  filters := []
  resolution := none
  drillDownLabel := none
  mode := .simple
  customQuery := none
  importedData := none
  connectionId := none
  dateColumn := none
  startDateColumn := none
  endDateColumn := none

/-- A service that shows the name of a table, and fails where there is none. -/
def echoTable (spec : ChartSpec) : StateM Unit (Except Failure ChartResult) :=
  match spec.table with
  | some t => pure (.ok ⟨[[("table", .text t)]], []⟩)
  | none => pure (.error (.chart .missingTable))

/-- A chart that `echoTable` makes, and one that fails. -/
def madeAndFailed (first second : String) : List BatchItem :=
  [⟨first, .ofTable "a" "v"⟩, ⟨second, { ChartSpec.ofTable "b" "v" with table := none }⟩]

theorem runBatch_keepsAll_iff_madeAndFailed :
    ∃ results, (runBatch 50 echoTable (madeAndFailed "x" "y")).run () = (.ok results, ()) ∧
      (BatchMaps.ofResults results).KeepsAll 2 ∧
      (BatchMaps.ofResults results).Shows "x" (.ok ⟨[[("table", .text "a")]], []⟩) ∧
      (BatchMaps.ofResults results).Shows "y" (.error (.chart .missingTable)) := by
  have hrun : (runBatch 50 echoTable (madeAndFailed "x" "y")).run () = (.ok _, ()) := rfl
  have hids : ((madeAndFailed "x" "y").map (·.widgetId)).Nodup := by decide
  have h := runBatch_keepsAll_iff hrun
  exact ⟨_, hrun, h.1.2 hids, h.2 hids _ (.head _), h.2 hids _ (.tail _ (.head _))⟩

/-- Of two charts under one identifier, only the later is kept, or they stand in both maps. -/
theorem sharedWidget_losesResult :
    (∃ results, (runBatch 50 echoTable
        [⟨"w", .ofTable "a" "v"⟩, ⟨"w", .ofTable "b" "v"⟩]).run () = (.ok results, ()) ∧
      (BatchMaps.ofResults results).data = [("w", [[("table", .text "b")]])] ∧
      (BatchMaps.ofResults results).errors = [] ∧
      ¬ (BatchMaps.ofResults results).KeepsAll 2) ∧
    ∃ results, (runBatch 50 echoTable (madeAndFailed "w" "w")).run () = (.ok results, ()) ∧
      ¬ ((BatchMaps.ofResults results).data.map Prod.fst).Disjoint
        ((BatchMaps.ofResults results).errors.map Prod.fst) := by
  constructor
  · refine ⟨_, rfl, rfl, rfl, ?_⟩
    intro h
    exact absurd h.sizes (by decide)
  · refine ⟨_, rfl, ?_⟩
    intro h
    exact List.disjoint_left.1 h (.head _) (.head _)

end ChartQuery
