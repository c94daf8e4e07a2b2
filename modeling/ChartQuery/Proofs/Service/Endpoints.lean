import ChartQuery.Http.Endpoint
import ChartQuery.Proofs.Service.BatchMaps
import ChartQuery.Proofs.Spec.Rereading

/-!
# The two endpoints that answer with charts

A chart may be asked for alone, or in a batch under the identifier of a widget. Both times the same
specification reaches the service: the date range is applied to the fields of the body, or to those
of each chart of the batch. What the answer says of a chart alone, the answer to the batch says
under its identifier, but for the rows of an identifier that no answer shows.

## Main definitions

* `Http.Response.field?`, `Http.Response.under?`: what an answer says, and what it says of a widget
* `Http.AsksFor`: a body asks for a chart under the identifier of a widget
* `Http.Response.Reports`: an answer to a batch says of a widget what an answer to a chart says

## Main results

* `Http.Response.reports_ofMaps`: the maps of a batch report each outcome
* `Http.answersAgree`: so the endpoints agree
-/

namespace ChartQuery

namespace Http

/-! ## What an answer says -/

namespace Response

/-- A field of an answer. -/
def field? (a : Response) (name : String) : Option Value :=
  match a.body with
  | .object fields => Record.get? fields name
  | _ => none

/-- What a field of an answer holds under a key. -/
def under? (a : Response) (name key : String) : Option Value :=
  match a.field? name with
  | some (.object entries) => Record.get? entries key
  | _ => none

/-- An answer to a batch says under the identifier of a widget what the answer to its chart says:
its rows, if the identifier is shown, its warnings, and whether it failed. -/
structure Reports (many : Response) (id : String) (one : Response) : Prop where
  data : many.under? "data" id = if isShownName id then one.field? "data" else none
  warnings : many.under? "warnings" id = one.field? "warnings"
  errors : (many.under? "errors" id).isSome ↔ one.status ≠ 200

/-- No failure has the status of a success. -/
theorem status_ofFailure (e : Failure) : (ofFailure e).status ≠ 200 := by
  cases e with
  | chart e => cases e <;> simp [ofFailure, refusal, ChartError.status]
  | unforeseen f => simp [ofFailure, refusal]

section Fields

variable (r : ChartResult) (e : Failure) (m : BatchMaps) (id : String)

theorem field?_data_ofChart : (ofChart r).field? "data" = some (shownRows r.rows) := by
  simp [ofChart, success, field?, Record.get?, List.lookup_cons]

theorem field?_warnings_ofChart : (ofChart r).field? "warnings" =
    if r.warnings.isEmpty then none else some (writtenTexts r.warnings) := by
  by_cases h : r.warnings.isEmpty <;>
    simp [ofChart, success, field?, Record.get?, List.lookup_cons, unlessEmpty, h]

theorem field?_data_ofFailure : (ofFailure e).field? "data" = none := by
  cases e <;> simp [ofFailure, refusal, field?, Record.get?, List.lookup_cons]

theorem field?_warnings_ofFailure : (ofFailure e).field? "warnings" = none := by
  cases e <;> simp [ofFailure, refusal, field?, Record.get?, List.lookup_cons]

theorem field?_data_ofMaps : (ofMaps m).field? "data" = some (.object
    ((m.data.filter fun e => isShownName e.1).map fun e => (e.1, shownRows e.2))) := by
  simp [ofMaps, success, field?, Record.get?, List.lookup_cons]

theorem field?_errors_ofMaps : (ofMaps m).field? "errors" =
    if m.errors.isEmpty then none else some (.object (m.errors.map fun e => (e.1, .text e.2))) := by
  by_cases h : m.errors.isEmpty <;> by_cases h' : m.warnings.isEmpty <;>
    simp [ofMaps, success, field?, Record.get?, List.lookup_cons, unlessEmpty, h, h']

theorem field?_warnings_ofMaps : (ofMaps m).field? "warnings" =
    if m.warnings.isEmpty then none
    else some (.object (m.warnings.map fun e => (e.1, writtenTexts e.2))) := by
  by_cases h : m.errors.isEmpty <;> by_cases h' : m.warnings.isEmpty <;>
    simp [ofMaps, success, field?, Record.get?, List.lookup_cons, unlessEmpty, h, h']

/-- Under the identifier of a widget stand the rows in the maps, if the identifier is shown. -/
theorem under?_data_ofMaps : (ofMaps m).under? "data" id =
    if isShownName id then (m.data.lookup id).map shownRows else none := by
  rw [under?, field?_data_ofMaps]
  show List.lookup id _ = _
  rw [Entries.lookup_map shownRows, Entries.lookup_filter]
  split <;> rfl

theorem under?_errors_ofMaps : (ofMaps m).under? "errors" id = (m.errors.lookup id).map .text := by
  rw [under?, field?_errors_ofMaps]
  cases h : m.errors with
  | nil => rfl
  | cons e rest => exact Entries.lookup_map Value.text (e :: rest) id

theorem under?_warnings_ofMaps :
    (ofMaps m).under? "warnings" id = (m.warnings.lookup id).map writtenTexts := by
  rw [under?, field?_warnings_ofMaps]
  cases h : m.warnings with
  | nil => rfl
  | cons e rest => exact Entries.lookup_map writtenTexts (e :: rest) id

end Fields

/-- **The maps of a batch report each outcome** under the identifier of its widget, as long as the
identifiers differ. -/
theorem reports_ofMaps {rs : List BatchResult} (hids : (rs.map (·.widgetId)).Nodup) {id : String}
    {o : Except Failure ChartResult} (hr : .ofOutcome id o ∈ rs) :
    (ofMaps (.ofResults rs)).Reports id (ofOutcome ofChart o) := by
  -- Each map collects one part of the results, by identifier: here are the parts of this one.
  have hdata := BatchMaps.lookup_collect_of_mem BatchResult.rows? hids hr
  have herrors := BatchMaps.lookup_collect_of_mem (·.error) hids hr
  have hwarnings := BatchMaps.lookup_collect_of_mem BatchResult.warnings? hids hr
  rw [← BatchMaps.data_ofResults] at hdata
  rw [← BatchMaps.errors_ofResults] at herrors
  rw [← BatchMaps.warnings_ofResults] at hwarnings
  cases o with
  | ok r =>
    constructor
    case data =>
      have hrows : (BatchMaps.ofResults rs).data.lookup id = some r.rows := hdata
      rw [under?_data_ofMaps, ofOutcome, field?_data_ofChart, hrows]
      rfl
    case warnings =>
      have htexts : (BatchMaps.ofResults rs).warnings.lookup id =
          if r.warnings.isEmpty then none else some r.warnings := hwarnings
      rw [under?_warnings_ofMaps, ofOutcome, field?_warnings_ofChart, htexts]
      split <;> rfl
    case errors =>
      have hnone : (BatchMaps.ofResults rs).errors.lookup id = none := herrors
      rw [under?_errors_ofMaps, hnone]
      exact iff_of_false Bool.false_ne_true fun h => h rfl
  | error e =>
    constructor
    case data =>
      have hnone : (BatchMaps.ofResults rs).data.lookup id = none := hdata
      rw [under?_data_ofMaps, ofOutcome, field?_data_ofFailure, hnone]
      rfl
    case warnings =>
      have hnone : (BatchMaps.ofResults rs).warnings.lookup id = none := hwarnings
      rw [under?_warnings_ofMaps, ofOutcome, field?_warnings_ofFailure, hnone]
      rfl
    case errors =>
      have hmessage : (BatchMaps.ofResults rs).errors.lookup id = some e.chartMessage := herrors
      rw [under?_errors_ofMaps, hmessage]
      exact iff_of_true rfl (status_ofFailure e)

/-- The text of a failure stands under the identifier of its widget. -/
theorem under?_errors_of_mem {rs : List BatchResult} (hids : (rs.map (·.widgetId)).Nodup)
    {id : String} {e : Failure} (hr : .ofOutcome id (.error e) ∈ rs) :
    (ofMaps (.ofResults rs)).under? "errors" id = some (.text e.chartMessage) := by
  have hshows := BatchMaps.shows_ofResults hids hr
  rw [under?_errors_ofMaps, hshows.1]
  rfl

end Response

/-! ## What is asked -/

/-- A body asks for the chart of a specification under the identifier of a widget. -/
def AsksFor (body : Record) (id : String) (config : Value) : Prop :=
  ∃ requests item, body.get? "requests" = some (.list requests) ∧ .object item ∈ requests ∧
    (givenField? item "widgetId" "widget_id").map Prod.snd = some (.text id) ∧
    item.get? "config" = some config

/-- An item of a batch is what its specification is read as, under its identifier. -/
theorem of_checkBatchItem {item : Record} {id : String} {config : Value} {i : BatchItem}
    (h : checkBatchItem (.object item) = .ok i)
    (hid : (givenField? item "widgetId" "widget_id").map Prod.snd = some (.text id))
    (hconfig : item.get? "config" = some config) :
    checkSpec config = .ok i.spec ∧ i.widgetId = id := by
  -- Both fields are given, so that neither check is left out.
  obtain ⟨⟨given, v⟩, hgiven, rfl⟩ := Option.map_eq_some_iff.1 hid
  have hfield : givenField? item "config" "config" = some ("config", config) := by
    rw [givenField?, hconfig]
  rw [checkBatchItem, checkModel, checkRequired, hgiven, checkRequired, hfield,
    Checked.apply_eq_ok] at h
  obtain ⟨_, spec, hmk, hspec, rfl⟩ := h
  obtain ⟨_, hname, rfl⟩ := Checked.map_eq_ok.1 hmk
  exact ⟨Checked.under_eq_ok.1 hspec, (Checked.ok.inj (Checked.under_eq_ok.1 hname)).symm⟩

/-- In a batch that is read stands the chart that is asked for. -/
theorem exists_item_of_asksFor {body : Record} {id : String} {config : Value} {b : BatchRequest}
    (h : checkBatchRequest (.object body) = .ok b) (hasks : AsksFor body id config) :
    ∃ i ∈ b.items, checkSpec config = .ok i.spec ∧ i.widgetId = id := by
  obtain ⟨requests, item, hrequests, hitem, hid, hconfig⟩ := hasks
  rw [checkBatchRequest, checkModel, Checked.apply_eq_ok] at h
  obtain ⟨_, dates, hitems, -, rfl⟩ := h
  obtain ⟨is, his, rfl⟩ := Checked.map_eq_ok.1 hitems
  have hfield : givenField? body "requests" "requests" = some ("requests", .list requests) := by
    rw [givenField?, hrequests]
  rw [checkField, hfield] at his
  -- The requests are read one by one, so what asks for the chart is read as an item.
  have hread := Checked.items_eq_ok.1 (Checked.under_eq_ok.1 his)
  obtain ⟨i, hi, hcheck⟩ := Checked.exists_mem_of_forall₂ hread hitem
  exact ⟨i, hi, of_checkBatchItem hcheck hid hconfig⟩

/-- The date range of a batch that is read. -/
theorem range_of_checkBatchRequest {body : Record} {b : BatchRequest}
    (h : checkBatchRequest (.object body) = .ok b) : checkRangeField body = .ok b.range := by
  rw [checkBatchRequest, checkModel, Checked.apply_eq_ok] at h
  obtain ⟨_, dates, hitems, hdates, rfl⟩ := h
  obtain ⟨is, -, rfl⟩ := Checked.map_eq_ok.1 hitems
  exact hdates

/-- A date range beside the fields of a batch is none of its charts. -/
theorem AsksFor.ranged {body : Record} {id : String} {config : Value}
    (h : AsksFor body id config) (range : Option Value) :
    AsksFor (body.ranged range) id config := by
  obtain ⟨requests, item, hrequests, hitem⟩ := h
  refine ⟨requests, item, ?_, hitem⟩
  rw [get?_ranged body range (by decide), hrequests]

/-! ## What is answered -/

namespace Services

variable (s : Services Id)

/-- The charts of a batch are made one by one. -/
theorem outcomes_eq_map (is : List BatchItem) :
    (outcomes s.chart is).run = is.map fun i => (s.chart i.spec).run := by
  induction is with
  | nil => rfl
  | cons i rest ih =>
    show (s.chart i.spec).run :: (outcomes s.chart rest).run = _
    rw [ih]
    rfl

/-- The results of a batch that does not fail as a whole. -/
theorem runBatch_eq_ok {is : List BatchItem} {rs : List BatchResult}
    (h : (runBatch s.mostCharts s.chart is).run = .ok rs) :
    rs = is.map fun i => .ofOutcome i.widgetId (s.chart i.spec).run := by
  rw [runBatch] at h
  split at h
  · cases h
  · have hsettle : settle is (outcomes s.chart is).run = .ok rs := h
    rw [settle] at hsettle
    split at hsettle
    · cases hsettle
    · rw [← Except.ok.inj hsettle, outcomes_eq_map, List.zipWith_map_right, List.zipWith_self]

/-- A chart is answered as the service makes it of the specification that its body is read as. -/
theorem answerChart_of_ok {v : Value} {spec : ChartSpec} (h : checkChartRequest v = .ok spec) :
    (s.answerChart (.json v)).run = .ofOutcome .ofChart (s.chart spec).run := by
  rw [answerChart, Body.read, h]
  rfl

/-- A batch that does not fail as a whole is answered with the maps of its results. -/
theorem answerBatch_of_status {v : Value} {b : BatchRequest} (hb : checkBatchRequest v = .ok b)
    (h : (s.answerBatch (.json v)).run.status = 200) : (s.answerBatch (.json v)).run =
      .ofMaps (.ofResults (b.ranged.map fun i => .ofOutcome i.widgetId (s.chart i.spec).run)) := by
  -- A batch that fails as a whole has the status of its failure, so this one did not fail.
  have hanswer : (s.answerBatch (.json v)).run = .ofOutcome (fun rs => .ofMaps (.ofResults rs))
      ((runBatch s.mostCharts s.chart b.ranged).run.mapError .chart) := by
    rw [answerBatch, Body.read, hb]
    rfl
  rw [hanswer] at h ⊢
  cases hrun : (runBatch s.mostCharts s.chart b.ranged).run with
  | ok rs =>
    rw [← runBatch_eq_ok s hrun]
    rfl
  | error e =>
    rw [hrun] at h
    exact absurd h (Response.status_ofFailure (.chart e))

end Services

/-! ## One chart and many -/

/-- The answer to a chart whose body is sent with a date range. -/
def Services.answerOne (s : Services Id) (r : Record) (range : Option Value) : Response :=
  (s.answerChart (.json (.object (r.ranged range)))).run

/-- The answer to a batch whose body is sent with a date range. -/
def Services.answerMany (s : Services Id) (body : Record) (range : Option Value) : Response :=
  (s.answerBatch (.json (.object (body.ranged range)))).run

/-- **The two endpoints agree.** The specification of a body that is sent with a date range is the
one that the body alone is read as, with the range applied. Of a batch that does not fail as a whole
and whose identifiers differ, the answer says under an identifier what the answer to its chart
says, and the text of a chart error is the same in both. -/
theorem answersAgree {r : Record} {range : Option Value}
    (hown : range = none → givenField? r "dateRange" "date_range" = none) :
    (∀ spec, checkSpec (.object r) = .ok spec →
      checkChartRequest (.object (r.ranged range)) =
        (checkRangeField (Record.ranged [] range)).map spec.within) ∧
    ∀ (s : Services Id) (body : Record) (b : BatchRequest) (id : String),
      (range = none → givenField? body "dateRange" "date_range" = none) →
      AsksFor body id (.object r) →
      checkBatchRequest (.object (body.ranged range)) = .ok b →
      (b.items.map (·.widgetId)).Nodup →
      (s.answerMany body range).status = 200 →
      (s.answerMany body range).Reports id (s.answerOne r range) ∧
      ∃ spec, checkChartRequest (.object (r.ranged range)) = .ok spec ∧
        ∀ e, (s.chart spec).run = .error (.chart e) →
          s.answerOne r range = .refusal e.status e.message ∧
          (s.answerMany body range).under? "errors" id = some (.text e.message) := by
  refine ⟨fun spec hspec => checkChartRequest_ranged hspec hown, ?_⟩
  intro s body b id hbody hasks hb hids hstatus
  obtain ⟨i, hi, hspec, rfl⟩ := exists_item_of_asksFor hb (hasks.ranged range)
  have hdates := range_of_checkBatchRequest hb
  rw [checkRangeField_ranged hbody] at hdates
  have hread := checkChartRequest_ranged hspec hown
  rw [hdates] at hread
  have hone : s.answerOne r range = .ofOutcome .ofChart (s.chart (i.spec.within b.range)).run :=
    s.answerChart_of_ok hread
  have hmany := s.answerBatch_of_status hb hstatus
  -- The chart of the batch has the specification that the chart alone has.
  have hresult : BatchResult.ofOutcome i.widgetId (s.chart (i.spec.within b.range)).run ∈
      b.ranged.map fun i => BatchResult.ofOutcome i.widgetId (s.chart i.spec).run := by
    rw [BatchRequest.ranged, List.map_map]
    exact List.mem_map_of_mem hi
  have hresults : ((b.ranged.map fun i =>
      BatchResult.ofOutcome i.widgetId (s.chart i.spec).run).map (·.widgetId)).Nodup := by
    rwa [BatchRequest.ranged, List.map_map, List.map_map, List.map_congr_left fun i _ =>
      BatchResult.widgetId_ofOutcome i.widgetId _]
  constructor
  · rw [Services.answerMany, hmany, hone]
    exact Response.reports_ofMaps hresults hresult
  · refine ⟨_, hread, ?_⟩
    intro e he
    rw [he] at hone hresult
    rw [hone, Services.answerMany, hmany]
    exact ⟨rfl, Response.under?_errors_of_mem hresults hresult⟩

/-! ## A service that shows the names of tables -/

/-- The services of a database whose tables show their names; a chart without a table fails. -/
def nameShowing : Services Id where
  chart spec := match spec.table with
    | some t => .ok ⟨[[("table", .text t)]], spec.yAxis⟩
    | none => .error (.chart .missingTable)
  tables _ := .ok []
  columns _ _ := .ok []
  mostCharts := 50

/-- A chart of sales by day. -/
def salesByDay : Record :=
  [("table", .text "sales"), ("yAxis", .list [.text "amount"]), ("dateColumn", .text "day")]

/-- The chart of sales by day, and one without a table. -/
def dashboard (id : String) : Record :=
  [("requests", .list [
    .object [("widgetId", .text id), ("config", .object salesByDay)],
    .object [("widgetId", .text "empty"), ("config", .object [])]])]

/-- From the fifth of January on. -/
def fromJanuaryFifth : Option Value := some (.object [("from", .text "2024-01-05")])

theorem asksFor_dashboard (id : String) : AsksFor (dashboard id) id (.object salesByDay) :=
  ⟨_, _, rfl, List.mem_cons_self, rfl, rfl⟩

theorem answersAgree_dashboard :
    (nameShowing.answerMany (dashboard "sales") fromJanuaryFifth).status = 200 ∧
    (nameShowing.answerMany (dashboard "sales") fromJanuaryFifth).Reports "sales"
      (nameShowing.answerOne salesByDay fromJanuaryFifth) := by
  have hown : ∀ r : Record,
      fromJanuaryFifth = none → givenField? r "dateRange" "date_range" = none := by
    rintro r ⟨⟩
  have hb : checkBatchRequest (.object ((dashboard "sales").ranged fromJanuaryFifth)) = .ok _ := rfl
  have hstatus : (nameShowing.answerMany (dashboard "sales") fromJanuaryFifth).status = 200 := rfl
  refine ⟨hstatus, ?_⟩
  apply ((answersAgree (hown salesByDay)).2 nameShowing _ _ _ (hown _) (asksFor_dashboard _) hb
    _ hstatus).1
  decide

/-- **A widget may lose its rows.** The chart is answered with its rows, but the batch says nothing
of them under an identifier that begins like the name of a hidden field. -/
theorem hiddenIdentifier_losesRows :
    (nameShowing.answerOne salesByDay none).field? "data" =
      some (shownRows [[("table", .text "sales")]]) ∧
    nameShowing.answerMany (dashboard "_sales") none = .success [("data", .object []),
      ("errors", .object [("empty", .text "Missing required field: table")]),
      ("warnings", .object [("_sales", .list [.text "amount"])])] := by
  constructor <;> rfl

end Http

end ChartQuery
