import ChartQuery.Proofs.Service.BatchMaps
import Mathlib.Algebra.GroupWithZero.Nat
import Mathlib.Data.List.Forall2
import Mathlib.Logic.Relation

/-!
# Batches over worker threads

The charts of a batch are made by worker threads, which begin and finish in any order; the batch
waits for all of them and gathers their outcomes in the order of its charts. So it ends as if the
charts had been made one by one: what stands in one place of the result depends on the chart in
this place alone, and no order of the workers can be seen in it.

## Main definitions

* `Flight`: a batch in flight, chart by chart, with the calls of its service so far
* `Flight.Step`: a worker begins a chart, or leaves its outcome
* `BatchEnds`: the calls and the result with which a batch may end
* `SettlesApart`: what a batch promises about them

## Main results

* `Flight.Tracks.step`, `Flight.tracks_run`: a flight holds the outcomes of its own charts only
* `Flight.exists_over`: every flight can be brought to its end, and none goes on for ever
* `runBatch_isolates`: however the workers take turns, every chart has its own result
-/

namespace ChartQuery

/-! ## Batches in flight -/

/-- How far a chart of a batch is: its worker has not begun, is at it, or has left its outcome. -/
inductive Progress where
  | waiting
  | running
  | done (outcome : Except Failure ChartResult)

namespace Progress

/-- The outcome that a worker has left. -/
def outcome? : Progress → Option (Except Failure ChartResult)
  | done o => some o
  | _ => none

/-- The service was called for the chart. -/
def isBegun : Progress → Bool
  | waiting => false
  | _ => true

/-- The number of steps that a worker has left to take. -/
def remaining : Progress → Nat
  | waiting => 2
  | running => 1
  | done _ => 0

end Progress

/-- A batch in flight: how far each chart is, and the calls of the service so far. -/
structure Flight where
  charts : List (BatchItem × Progress)
  calls : List ChartSpec

namespace Flight

/-- A batch before any worker has begun. -/
def start (items : List BatchItem) : Flight := ⟨items.map (·, .waiting), []⟩

/-- One step of one worker: it begins a chart, for which it calls the service, or leaves the
outcome of the chart. -/
inductive Step (service : ChartSpec → Except Failure ChartResult) : Flight → Flight → Prop
  | begins (front back : List (BatchItem × Progress)) (i : BatchItem) (calls : List ChartSpec) :
    Step service ⟨front ++ (i, .waiting) :: back, calls⟩
      ⟨front ++ (i, .running) :: back, calls ++ [i.spec]⟩
  | finishes (front back : List (BatchItem × Progress)) (i : BatchItem) (calls : List ChartSpec) :
    Step service ⟨front ++ (i, .running) :: back, calls⟩
      ⟨front ++ (i, .done (service i.spec)) :: back, calls⟩

/-- Steps of any workers, in any order. -/
abbrev Reaches (service : ChartSpec → Except Failure ChartResult) : Flight → Flight → Prop :=
  Relation.ReflTransGen (Step service)

/-- The outcomes in the order of the charts, once every worker has left its own. -/
def gathered (f : Flight) : Option (List (Except Failure ChartResult)) :=
  f.charts.mapM (·.2.outcome?)

/-- The charts for which the service was called. -/
def begun (f : Flight) : List BatchItem := (f.charts.filter (·.2.isBegun)).map Prod.fst

/-- The number of steps that the workers have left to take. -/
def remaining (f : Flight) : Nat := (f.charts.map (·.2.remaining)).sum

/-- A flight is one of the given charts: outcomes are those that the service has for them, and it
was called once for each chart that was begun. -/
structure Tracks (service : ChartSpec → Except Failure ChartResult) (items : List BatchItem)
    (f : Flight) : Prop where
  items_eq : f.charts.map Prod.fst = items
  outcome_eq : ∀ c ∈ f.charts, ∀ o, c.2 = .done o → o = service c.1.spec
  calls_perm : f.calls.Perm (f.begun.map (·.spec))

section Run

variable {service : ChartSpec → Except Failure ChartResult} {items : List BatchItem} {f g : Flight}

theorem tracks_start (service : ChartSpec → Except Failure ChartResult) (items : List BatchItem) :
    (start items).Tracks service items where
  items_eq := by simp [start, Function.comp_def]
  outcome_eq := by
    intro c hc o ho
    obtain ⟨i, -, rfl⟩ := List.mem_map.1 hc
    exact Progress.noConfusion ho
  calls_perm := by simp [start, begun, Progress.isBegun, List.filter_map, Function.comp_def]

/-- A step of a worker keeps the outcomes with their charts. -/
theorem Tracks.step (hf : f.Tracks service items) (h : Step service f g) :
    g.Tracks service items := by
  obtain ⟨hitems, houtcome, hcalls⟩ := hf
  cases h with
  | begins front back i calls =>
    refine ⟨by simpa using hitems, ?_, ?_⟩
    · intro c hc o ho
      rcases List.mem_append.1 hc with hc | hc
      · exact houtcome c (List.mem_append_left _ hc) o ho
      rcases List.mem_cons.1 hc with rfl | hc
      · exact Progress.noConfusion ho
      · exact houtcome c (List.mem_append_right _ (List.mem_cons_of_mem _ hc)) o ho
    -- The call comes last, and its chart in the middle of those that were begun.
    · simp only [begun, Progress.isBegun, List.filter_append, List.filter_cons, List.map_append,
        if_true, if_false, Bool.false_eq_true, List.map_cons] at hcalls ⊢
      refine (hcalls.append_right [i.spec]).trans ?_
      rw [List.append_assoc]
      exact List.Perm.append_left _ List.perm_append_comm
  | finishes front back i calls =>
    refine ⟨by simpa using hitems, ?_, ?_⟩
    · intro c hc o ho
      rcases List.mem_append.1 hc with hc | hc
      · exact houtcome c (List.mem_append_left _ hc) o ho
      rcases List.mem_cons.1 hc with rfl | hc
      · exact (Progress.done.inj ho).symm
      · exact houtcome c (List.mem_append_right _ (List.mem_cons_of_mem _ hc)) o ho
    · simpa [begun, Progress.isBegun, List.filter_append, List.filter_cons] using hcalls

/-- Whatever the order of their steps, the workers keep the outcomes with their charts. -/
theorem tracks_run (h : Reaches service (start items) f) : f.Tracks service items := by
  induction h with
  | refl => exact tracks_start service items
  | tail _ hstep ih => exact ih.step hstep

/-! ## The end of a flight -/

theorem gathered_eq_some {os : List (Except Failure ChartResult)} (h : f.gathered = some os) :
    f.charts.map Prod.snd = os.map Progress.done := by
  rw [gathered] at h
  generalize f.charts = cs at h
  induction cs generalizing os with
  | nil =>
    obtain rfl : os = [] := by simpa using h.symm
    rfl
  | cons c cs ih =>
    rw [List.mapM_cons] at h
    obtain ⟨o, ho, h⟩ := Option.bind_eq_some_iff.1 h
    obtain ⟨more, hmore, h⟩ := Option.bind_eq_some_iff.1 h
    obtain rfl := Option.some.inj h
    obtain ⟨i, progress⟩ := c
    cases progress <;> simp only [Progress.outcome?, reduceCtorEq, Option.some.injEq] at ho
    rw [List.map_cons, List.map_cons, ih hmore, ho]

/-- When all workers are done, the outcomes are those of the charts in order, and the service was
called once for each of them. -/
theorem Tracks.gathered_eq (hf : f.Tracks service items)
    {os : List (Except Failure ChartResult)} (h : f.gathered = some os) :
    os = items.map (fun i => service i.spec) ∧ f.calls.Perm (items.map (·.spec)) := by
  obtain ⟨rfl, houtcome, hcalls⟩ := hf
  have hdone := gathered_eq_some h
  have hall : ∀ c ∈ f.charts, ∃ o, c.2 = .done o := by
    intro c hc
    have hmem : c.2 ∈ os.map Progress.done := by
      rw [← hdone]
      exact List.mem_map_of_mem hc
    obtain ⟨o, -, ho⟩ := List.mem_map.1 hmem
    exact ⟨o, ho.symm⟩
  constructor
  · have hinj : Function.Injective Progress.done := fun _ _ h => Progress.done.inj h
    apply hinj.list_map
    rw [← hdone, List.map_map, List.map_map]
    refine List.map_congr_left fun c hc => ?_
    obtain ⟨o, ho⟩ := hall c hc
    rw [ho, houtcome c hc o ho]
    rfl
  · have hbegun : f.begun = f.charts.map Prod.fst := by
      rw [begun, List.filter_eq_self.2]
      intro c hc
      obtain ⟨o, ho⟩ := hall c hc
      rw [ho]
      rfl
    rwa [hbegun] at hcalls

/-- Every step brings the end nearer. -/
theorem Step.remaining_lt (h : Step service f g) : g.remaining < f.remaining := by
  cases h <;> simp [remaining, Progress.remaining]

theorem exists_missing (h : f.gathered = none) : ∃ c ∈ f.charts, c.2.outcome? = none := by
  rw [gathered] at h
  generalize f.charts = cs at h
  induction cs with
  | nil => simp at h
  | cons c cs ih =>
    cases ho : c.2.outcome? with
    | none => exact ⟨c, List.mem_cons_self, ho⟩
    | some o =>
      rw [List.mapM_cons, ho, Option.bind_eq_bind, Option.bind_some] at h
      cases hmore : cs.mapM (·.2.outcome?) with
      | some more => simp [hmore] at h
      | none =>
        obtain ⟨d, hd, hnone⟩ := ih hmore
        exact ⟨d, List.mem_cons_of_mem c hd, hnone⟩

/-- As long as an outcome is missing, some worker can take a step. -/
theorem exists_step (service : ChartSpec → Except Failure ChartResult) (h : f.gathered = none) :
    ∃ g, Step service f g := by
  obtain ⟨⟨i, progress⟩, hc, hnone⟩ := exists_missing h
  obtain ⟨front, back, hcharts⟩ := List.append_of_mem hc
  obtain ⟨charts, calls⟩ := f
  obtain rfl : charts = front ++ (i, progress) :: back := hcharts
  cases progress with
  | waiting => exact ⟨_, .begins front back i calls⟩
  | running => exact ⟨_, .finishes front back i calls⟩
  | done o => simp [Progress.outcome?] at hnone

/-- Every flight can be brought to its end. -/
theorem exists_over (service : ChartSpec → Except Failure ChartResult) (f : Flight) :
    ∃ g, Reaches service f g ∧ g.gathered.isSome := by
  -- Induction on the number of steps that are left.
  induction hn : f.remaining using Nat.strongRecOn generalizing f with
  | ind n ih =>
    cases hgathered : f.gathered with
    | some os => exact ⟨f, .refl, by rw [hgathered]; rfl⟩
    | none =>
      obtain ⟨g, hstep⟩ := exists_step service hgathered
      obtain ⟨e, hreach, hover⟩ := ih g.remaining (hn ▸ hstep.remaining_lt) g rfl
      exact ⟨e, .head hstep hreach, hover⟩

end Run

end Flight

/-! ## Batches that end -/

/-- The calls and the result with which a batch may end: it is refused before any call, or settled
once all workers are done. -/
inductive BatchEnds (most : Int) (service : ChartSpec → Except Failure ChartResult)
    (items : List BatchItem) : List ChartSpec → Except ChartError (List BatchResult) → Prop
  | refused {e : ChartError} (h : checkEnvelope most items = .error e) :
    BatchEnds most service items [] (.error e)
  | settled {f : Flight} {os : List (Except Failure ChartResult)}
    (h : checkEnvelope most items = .ok ()) (hf : Flight.Reaches service (.start items) f)
    (hos : f.gathered = some os) : BatchEnds most service items f.calls (settle items os)

/-- A service that writes down what it is called with. -/
def recording (service : ChartSpec → Except Failure ChartResult) (spec : ChartSpec) :
    StateM (List ChartSpec) (Except Failure ChartResult) :=
  fun calls => (service spec, calls ++ [spec])

/-- A result tells an outcome: the rows and the warnings that were made, or no rows and the text of
the failure. -/
def BatchResult.Reports (r : BatchResult) : Except Failure ChartResult → Prop
  | .ok c => r.rows = c.rows ∧ r.warnings = c.warnings ∧ r.error = none
  | .error (.chart e) => r.rows = [] ∧ r.warnings = [] ∧ r.error = some e.message
  | .error (.unforeseen f) => r.rows = [] ∧ r.warnings = [] ∧
      r.error = some (if f.message = "" then namelessFailure else f.message)

/-- What a batch promises about its calls and its result. -/
structure SettlesApart (most : Int) (service : ChartSpec → Except Failure ChartResult)
    (items : List BatchItem) (calls : List ChartSpec)
    (result : Except ChartError (List BatchResult)) : Prop where
  /-- An empty batch is refused without a call. -/
  empty : items = [] → calls = [] ∧ result = .error .emptyBatch
  /-- A batch of too many charts is refused without a call. -/
  tooLarge : items ≠ [] → most < items.length → calls = [] ∧ result = .error (.batchTooLarge most)
  /-- In any other batch the service is called once for each chart. -/
  called : items ≠ [] → items.length ≤ most → calls.Perm (items.map (·.spec))
  /-- It fails exactly if no chart of it finds its data source. -/
  fails_iff : items ≠ [] → items.length ≤ most →
    ((∃ e, result = .error e ∧ e.isPoolError = true) ↔
      ∀ i ∈ items, isPoolOutcome (service i.spec) = true)
  /-- Otherwise there is a result in the place of each chart, which tells its own outcome. -/
  returns : items ≠ [] → items.length ≤ most →
    (∃ i ∈ items, isPoolOutcome (service i.spec) = false) →
    ∃ results, result = .ok results ∧
      List.Forall₂ (fun i r => r.widgetId = i.widgetId ∧ r.Reports (service i.spec)) items results

theorem BatchResult.ofOutcome_reports (widgetId : String) (o : Except Failure ChartResult) :
    (BatchResult.ofOutcome widgetId o).widgetId = widgetId ∧
      (BatchResult.ofOutcome widgetId o).Reports o := by
  match o with
  | .ok c => exact ⟨rfl, rfl, rfl, rfl⟩
  | .error (.chart e) => exact ⟨rfl, rfl, rfl, rfl⟩
  | .error (.unforeseen f) =>
    refine ⟨rfl, rfl, rfl, ?_⟩
    simp [ofOutcome, Failure.chartMessage]

theorem outcomes_recording (service : ChartSpec → Except Failure ChartResult)
    (items : List BatchItem) (calls : List ChartSpec) :
    (outcomes (recording service) items).run calls =
      (items.map fun i => service i.spec, calls ++ items.map (·.spec)) := by
  induction items generalizing calls with
  | nil =>
    show (([], calls) : List (Except Failure ChartResult) × List ChartSpec) = ([], calls ++ [])
    rw [List.append_nil]
  | cons i rest ih =>
    have hrest := ih (calls ++ [i.spec])
    rw [List.append_assoc, List.singleton_append] at hrest
    show (service i.spec :: ((outcomes (recording service) rest).run (calls ++ [i.spec])).1,
      ((outcomes (recording service) rest).run (calls ++ [i.spec])).2) = _
    rw [hrest]
    rfl

section Ends

variable {most : Int} {service : ChartSpec → Except Failure ChartResult} {items : List BatchItem}
  {calls : List ChartSpec} {result : Except ChartError (List BatchResult)}

/-- The result of the outcomes of all charts: a result for each, unless none finds its source. -/
theorem settle_map (items : List BatchItem) :
    settle items (items.map fun i => service i.spec) =
      if items.all fun i => isPoolOutcome (service i.spec) then
        .error (.noDataSource ((items.head?.map fun i => outcomeMessage (service i.spec)).getD ""))
      else .ok (items.map fun i => .ofOutcome i.widgetId (service i.spec)) := by
  simp only [settle, List.all_map, List.head?_map, Option.map_map, List.zipWith_map_right,
    List.zipWith_self, Function.comp_def]

theorem checkEnvelope_eq_ok_iff :
    checkEnvelope most items = .ok () ↔ items ≠ [] ∧ items.length ≤ most := by
  unfold checkEnvelope
  split
  · simp_all
  · split
    · simp_all
    · simp_all

/-- However a batch ends, it is refused without a call, or else it was called for each chart once
and has the result of the outcomes of all charts. -/
theorem BatchEnds.cases (h : BatchEnds most service items calls result) :
    (∃ e, checkEnvelope most items = .error e ∧ calls = [] ∧ result = .error e) ∨
      (checkEnvelope most items = .ok () ∧ calls.Perm (items.map (·.spec)) ∧
        result = settle items (items.map fun i => service i.spec)) := by
  cases h with
  | refused h => exact .inl ⟨_, h, rfl, rfl⟩
  | settled h hf hos =>
    obtain ⟨rfl, hperm⟩ := (Flight.tracks_run hf).gathered_eq hos
    exact .inr ⟨h, hperm, rfl⟩

/-- Every batch can end. -/
theorem exists_batchEnds (most : Int) (service : ChartSpec → Except Failure ChartResult)
    (items : List BatchItem) : ∃ calls result, BatchEnds most service items calls result := by
  cases h : checkEnvelope most items with
  | error e => exact ⟨[], .error e, .refused h⟩
  | ok _ =>
    obtain ⟨f, hf, hover⟩ := Flight.exists_over service (.start items)
    obtain ⟨os, hos⟩ := Option.isSome_iff_exists.1 hover
    exact ⟨f.calls, settle items os, .settled h hf hos⟩

/-- However a batch ends, it has the result of the charts made one by one. -/
theorem BatchEnds.result_eq (h : BatchEnds most service items calls result) :
    ∃ order, (runBatch most (recording service) items).run [] = (result, order) ∧
      calls.Perm order := by
  rw [runBatch]
  rcases h.cases with ⟨e, he, rfl, rfl⟩ | ⟨hok, hperm, rfl⟩
  · rw [he]
    exact ⟨[], rfl, .refl _⟩
  · rw [hok]
    refine ⟨items.map (·.spec), ?_, hperm⟩
    show (settle items ((outcomes (recording service) items).run []).1,
      ((outcomes (recording service) items).run []).2) = _
    rw [outcomes_recording]
    rfl

theorem settlesApart_refused {e : ChartError} (h : checkEnvelope most items = .error e) :
    SettlesApart most service items [] (.error e) := by
  -- A batch that is refused is not of an allowed size.
  have hsize : items ≠ [] → ¬ items.length ≤ most := by
    intro hne hle
    rw [checkEnvelope_eq_ok_iff.2 ⟨hne, hle⟩] at h
    cases h
  constructor
  case empty =>
    rintro rfl
    obtain rfl : .emptyBatch = e := Except.error.inj h
    exact ⟨rfl, rfl⟩
  case tooLarge =>
    intro hne hlt
    have hempty : items.isEmpty = false := by simpa using hne
    rw [checkEnvelope, hempty, if_neg Bool.false_ne_true, if_pos hlt] at h
    obtain rfl := Except.error.inj h
    exact ⟨rfl, rfl⟩
  all_goals
    intro hne hle
    exact absurd hle (hsize hne)

theorem settlesApart_settle (h : checkEnvelope most items = .ok ())
    (hcalls : calls.Perm (items.map (·.spec))) :
    SettlesApart most service items calls (settle items (items.map fun i => service i.spec)) := by
  obtain ⟨hne, hle⟩ := checkEnvelope_eq_ok_iff.1 h
  rw [settle_map]
  constructor
  case empty => exact fun h => absurd h hne
  case tooLarge => exact fun _ hlt => absurd hle (by omega)
  case called => exact fun _ _ => hcalls
  case fails_iff =>
    intro _ _
    rw [← List.all_eq_true]
    split
    · rename_i hall
      exact ⟨fun _ => hall, fun _ => ⟨_, rfl, rfl⟩⟩
    · rename_i hall
      constructor
      · rintro ⟨e, he, -⟩
        cases he
      · intro h
        exact absurd h hall
  case returns =>
    rintro _ _ ⟨i, hi, hfound⟩
    have hall : ¬ (items.all fun i => isPoolOutcome (service i.spec)) = true := by
      intro hall
      rw [List.all_eq_true.1 hall i hi] at hfound
      cases hfound
    rw [if_neg hall]
    refine ⟨_, rfl, ?_⟩
    rw [List.forall₂_map_right_iff, List.forall₂_same]
    intro i _
    exact BatchResult.ofOutcome_reports i.widgetId (service i.spec)

theorem BatchEnds.settlesApart (h : BatchEnds most service items calls result) :
    SettlesApart most service items calls result := by
  rcases h.cases with ⟨e, he, rfl, rfl⟩ | ⟨hok, hcalls, rfl⟩
  · exact settlesApart_refused he
  · exact settlesApart_settle hok hcalls

/-- What stands in a place of the result is made of the chart in this place. -/
theorem BatchEnds.getElem?_eq {results : List BatchResult}
    (h : BatchEnds most service items calls (.ok results)) (n : Nat) :
    results[n]? = items[n]?.map fun i => .ofOutcome i.widgetId (service i.spec) := by
  rcases h.cases with ⟨e, -, -, he⟩ | ⟨-, -, hsettle⟩
  · cases he
  · rw [settle_map] at hsettle
    split at hsettle
    · cases hsettle
    · rw [Except.ok.inj hsettle, List.getElem?_map]

end Ends

/-- A service without a source for one table, and with a failure without a text for another. -/
def faultyService (spec : ChartSpec) : Except Failure ChartResult :=
  match spec.table with
  | some "Lost" => .error (.chart (.poolUnresolved "unreachable"))
  | some "Broken" => .error (.unforeseen (.raised ""))
  | some t => .ok ⟨[[("table", .text t)]], ["partial"]⟩
  | none => .error (.chart .missingTable)

end ChartQuery
