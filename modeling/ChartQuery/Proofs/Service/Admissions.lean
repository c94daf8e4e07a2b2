import ChartQuery.Service.RateLimiter
import Mathlib.Algebra.Order.Group.Int
import Mathlib.Algebra.Order.Group.Unbundled.Basic
import Mathlib.Data.List.Induction

/-!
# Admitted requests

A limiter keeps a list of times for each client, drops some of them whenever it looks at the client,
and never sees the history of calls. Yet its answers are those of the history: whether a request is
admitted depends only on how many requests of its client were admitted since the last reset within
the window of time that ends with it. Times are exact numbers here, and the clock never goes back.

## Main definitions

* `RateLimiter.readings`: what the clock showed in a history
* `RateLimiter.transcript`: a history of calls with their answers
* `RateLimiter.admissions`: the times at which a client was admitted since the last reset
* `RateLimiter.Tracks`: a limiter looks like one that drops no time

## Main results

* `RateLimiter.Tracks.step`: one call keeps the limiter on the track of the admitted requests
* `RateLimiter.tracks_run`: so does every history of calls
* `RateLimiter.run_admits_exactly`: a request is admitted exactly when fewer than the limit were, and
  no window of time holds more
-/

namespace ChartQuery.RateLimiter

/-! ## Histories and their answers -/

section Histories

variable {τ : Type}

/-- The call looks at the clock. -/
def Call.readsClock : Call → Bool
  | request _ | remaining _ => true
  | _ => false

/-- The call changes the limit. -/
def Call.setsLimit : Call → Bool
  | setLimit _ => true
  | _ => false

/-- What the clock showed in a history, in order. -/
def readings (calls : List (τ × Call)) : List τ :=
  (calls.filter (·.2.readsClock)).map Prod.fst

theorem readings_concat (calls : List (τ × Call)) (c : τ × Call) :
    readings (calls ++ [c]) = readings calls ++ if c.2.readsClock then [c.1] else [] := by
  simp only [readings, List.filter_append, List.map_append, List.filter_cons, List.filter_nil]
  split <;> rfl

/-- The readings in front of the last one are no later than it. -/
theorem le_of_pairwise_readings [LE τ] {calls : List (τ × Call)} {c : τ × Call}
    (h : (readings (calls ++ [c])).Pairwise (· ≤ ·)) (hc : c.2.readsClock) :
    ∀ r ∈ readings calls, r ≤ c.1 := by
  rw [readings_concat, if_pos hc] at h
  intro r hr
  exact (List.pairwise_append.1 h).2.2 r hr c.1 List.mem_cons_self

theorem pairwise_readings_of_append [LE τ] {calls more : List (τ × Call)}
    (h : (readings (calls ++ more)).Pairwise (· ≤ ·)) : (readings calls).Pairwise (· ≤ ·) := by
  rw [readings, List.filter_append, List.map_append] at h
  exact (List.pairwise_append.1 h).1

/-- What an answered call makes of the times at which a client was admitted. -/
def noteAdmission (client : String) (times : List τ) : (τ × Call) × Answer τ → List τ
  | ((now, .request c), .admitted true) => if c = client then times ++ [now] else times
  | ((_, .reset), _) => []
  | _ => times

/-- The times at which a client was admitted since the last reset. -/
def admissions (client : String) (history : List ((τ × Call) × Answer τ)) : List τ :=
  history.foldl (noteAdmission client) []

theorem admissions_concat (client : String) (history : List ((τ × Call) × Answer τ))
    (e : (τ × Call) × Answer τ) :
    admissions client (history ++ [e]) = noteAdmission client (admissions client history) e := by
  simp [admissions]

/-- The times that a window has not left. -/
def within [Sub τ] [LT τ] [DecidableLT τ] (window now : τ) (times : List τ) : List τ :=
  times.filter fun t => now - t < window

end Histories

/-! ## Runs -/

section Runs

variable {τ : Type} [Sub τ] [LT τ] [DecidableLT τ] (l : RateLimiter τ)

/-- A history of calls with their answers. -/
def transcript (calls : List (τ × Call)) : List ((τ × Call) × Answer τ) :=
  calls.zip (l.run calls).1

/-- The calls of a history are answered first, then one more. -/
theorem run_concat (calls : List (τ × Call)) (c : τ × Call) :
    l.run (calls ++ [c]) =
      ((l.run calls).1 ++ [((l.run calls).2.step c.1 c.2).1],
        ((l.run calls).2.step c.1 c.2).2) := by
  induction calls generalizing l with
  | nil => rfl
  | cons d rest ih => simp [run, ih]

theorem run_append_answers (calls more : List (τ × Call)) :
    ∃ answers, (l.run (calls ++ more)).1 = (l.run calls).1 ++ answers := by
  induction more using List.reverseRecOn with
  | nil => exact ⟨[], by simp⟩
  | append_singleton more c ih =>
    obtain ⟨answers, h⟩ := ih
    rw [← List.append_assoc, run_concat, h]
    exact ⟨_, List.append_assoc _ _ _⟩

theorem transcript_concat (calls : List (τ × Call)) (c : τ × Call) :
    l.transcript (calls ++ [c]) =
      l.transcript calls ++ [(c, ((l.run calls).2.step c.1 c.2).1)] := by
  rw [transcript, run_concat, List.zip_append (l.length_run calls).symm]
  rfl

/-- The answers to the first calls do not depend on the calls behind them. -/
theorem take_transcript (calls more : List (τ × Call)) :
    (l.transcript (calls ++ more)).take calls.length = l.transcript calls := by
  obtain ⟨answers, h⟩ := l.run_append_answers calls more
  have hlen := l.length_run calls
  rw [transcript, h, List.zip_append hlen.symm, List.take_append_of_le_length]
  · exact List.take_of_length_le (by simp [hlen])
  · simp [hlen]

/-- The answer to a request counts the recent requests of its client. -/
theorem step_request (client : String) (now : τ) :
    (l.step now (.request client)).1 =
      .admitted (decide ((l.recent client now).length < l.limit)) := by
  have hanswer : (l.step now (.request client)).1 = .admitted (l.request client now).1 := rfl
  rw [hanswer]
  congr 1
  rw [Bool.eq_iff_iff, request_eq_true, decide_eq_true_iff]

theorem step_window (now : τ) (call : Call) : (l.step now call).2.window = l.window := by
  cases call with
  | request c =>
    simp only [step, request]
    split <;> rfl
  | _ => rfl

theorem step_limit (now : τ) {call : Call} (h : call.setsLimit = false) :
    (l.step now call).2.limit = l.limit := by
  cases call with
  | request c =>
    simp only [step, request]
    split <;> rfl
  | setLimit n => simp [Call.setsLimit] at h
  | _ => rfl

theorem run_window (calls : List (τ × Call)) : (l.run calls).2.window = l.window := by
  induction calls using List.reverseRecOn with
  | nil => rfl
  | append_singleton calls c ih => rw [run_concat, step_window, ih]

theorem run_limit {calls : List (τ × Call)} (h : ∀ c ∈ calls, c.2.setsLimit = false) :
    (l.run calls).2.limit = l.limit := by
  induction calls using List.reverseRecOn with
  | nil => rfl
  | append_singleton calls c ih =>
    rw [run_concat, step_limit _ _ (h c (by simp))]
    exact ih fun d hd => h d (List.mem_append_left _ hd)

end Runs

/-! ## Limiters on track -/

section Tracking

variable {τ : Type} [AddCommGroup τ] [LinearOrder τ] [IsOrderedAddMonoid τ]

/-- What a window has left at some time, it has left ever after. -/
theorem within_within {window now later : τ} (h : now ≤ later) (times : List τ) :
    within window later (within window now times) = within window later times := by
  unfold within
  rw [List.filter_filter]
  apply List.filter_congr
  intro t _
  rw [Bool.and_eq_left_iff_imp]
  intro ht
  have hsub : now - t ≤ later - t := sub_le_sub_right h t
  exact decide_eq_true (hsub.trans_lt (of_decide_eq_true ht))

/-- From the last of some readings on, the limiter looks like one that keeps all of the given times
of each client. -/
def Tracks (l : RateLimiter τ) (rs : List τ) (times : String → List τ) : Prop :=
  ∀ client now, (∀ r ∈ rs, r ≤ now) → l.recent client now = within l.window now (times client)

variable {l : RateLimiter τ} {rs : List τ} {times : String → List τ}

/-- Dropping the times of a client that the window has left does not show later. -/
theorem Tracks.keepRecent (h : l.Tracks rs times) {now : τ} (hnow : ∀ r ∈ rs, r ≤ now)
    (client : String) :
    (l.keep client (l.recent client now)).Tracks (rs ++ [now]) times := by
  intro c later hlater
  have hle : now ≤ later := hlater now (by simp)
  have hrs : ∀ r ∈ rs, r ≤ later := fun r hr => hlater r (List.mem_append_left _ hr)
  show within l.window later ((l.keep client (l.recent client now)).times c) = _
  rw [times_keep]
  split
  · rename_i hc
    rw [h client now hnow, within_within hle, hc]
    rfl
  · exact h c later hrs

/-- Adding the time of an admitted request adds it to those of its client. -/
theorem Tracks.keepAdmitted (h : l.Tracks rs times) {now : τ} (hnow : ∀ r ∈ rs, r ≤ now)
    (client : String) :
    (l.keep client (l.recent client now ++ [now])).Tracks (rs ++ [now])
      fun c => if client = c then times c ++ [now] else times c := by
  intro c later hlater
  have hle : now ≤ later := hlater now (by simp)
  have hrs : ∀ r ∈ rs, r ≤ later := fun r hr => hlater r (List.mem_append_left _ hr)
  show within l.window later ((l.keep client (l.recent client now ++ [now])).times c) = _
  rw [times_keep]
  by_cases hc : client = c
  · subst hc
    have hold : within l.window later (within l.window now (times client)) =
        within l.window later (times client) := within_within hle (times client)
    simp only [if_true, h client now hnow]
    simp only [within, List.filter_append] at hold ⊢
    rw [hold]
    rfl
  · rw [if_neg (Ne.symm hc)]
    simp only [hc, if_false]
    exact h c later hrs

/-- **One call keeps the limiter on track**: what it makes of the times of a client is what its
answer makes of the admitted requests. -/
theorem Tracks.step (h : l.Tracks rs times) {now : τ} {call : Call}
    (hnow : call.readsClock → ∀ r ∈ rs, r ≤ now) :
    (l.step now call).2.Tracks (rs ++ if call.readsClock then [now] else [])
      fun client => noteAdmission client (times client) ((now, call), (l.step now call).1) := by
  cases call with
  | request c =>
    by_cases hfull : l.limit ≤ (l.recent c now).length
    · have hstep : l.step now (.request c) = (.admitted false, l.keep c (l.recent c now)) := by
        simp [RateLimiter.step, request, hfull]
      rw [hstep]
      exact h.keepRecent (hnow rfl) c
    · have hstep : l.step now (.request c) =
          (.admitted true, l.keep c (l.recent c now ++ [now])) := by
        simp [RateLimiter.step, request, hfull]
      rw [hstep]
      exact h.keepAdmitted (hnow rfl) c
  | remaining c => exact h.keepRecent (hnow rfl) c
  | reset =>
    -- Nothing is kept, and nothing was admitted since.
    intro client later _
    rfl
  | setLimit n =>
    intro client later hlater
    exact h client later fun r hr => hlater r (List.mem_append_left _ hr)
  | log =>
    intro client later hlater
    exact h client later fun r hr => hlater r (List.mem_append_left _ hr)

/-- **Every history of calls keeps the limiter on track** of the requests that were admitted. -/
theorem tracks_run (limit : Int) (window : τ) {calls : List (τ × Call)}
    (hclock : (readings calls).Pairwise (· ≤ ·)) :
    ((new limit window).run calls).2.Tracks (readings calls)
      fun client => admissions client ((new limit window).transcript calls) := by
  induction calls using List.reverseRecOn with
  | nil =>
    intro client now _
    rfl
  | append_singleton calls c ih =>
    have hnow : c.2.readsClock → ∀ r ∈ readings calls, r ≤ c.1 := le_of_pairwise_readings hclock
    have h := (ih (pairwise_readings_of_append hclock)).step hnow
    rw [run_concat, readings_concat, transcript_concat]
    simpa only [admissions_concat] using h

/-! ## What is admitted -/

omit [IsOrderedAddMonoid τ] in
/-- The answer to a request counts the admitted requests of its client within the window. -/
theorem step_request_answer (h : l.Tracks rs times) {now : τ} (hnow : ∀ r ∈ rs, r ≤ now)
    (client : String) :
    (l.step now (.request client)).1 =
      .admitted (decide ((within l.window now (times client)).length < l.limit)) := by
  rw [step_request, h client now hnow]

/-- A request behind a history is admitted exactly when the window holds fewer admitted requests of
its client than the limit. -/
theorem run_request_answer (limit : Int) (window : τ) {calls : List (τ × Call)} {now : τ}
    {client : String} (hlimit : ∀ c ∈ calls, c.2.setsLimit = false)
    (hclock : (readings (calls ++ [(now, .request client)])).Pairwise (· ≤ ·)) :
    (((new limit window).run calls).2.step now (.request client)).1 =
      .admitted (decide ((within window now
        (admissions client ((new limit window).transcript calls))).length < limit)) := by
  have htracks := tracks_run limit window (pairwise_readings_of_append hclock)
  have hnow := le_of_pairwise_readings hclock rfl
  rw [step_request_answer htracks hnow, run_window, run_limit _ hlimit]
  rfl

/-- The times up to some moment that a window ending with it has not left. -/
def held (window t : τ) (times : List τ) : List τ :=
  times.filter fun s => s ≤ t ∧ t - s < window

/-- A time that is added where the window holds fewer than the limit does not exceed it. -/
theorem length_held_concat_le {limit : Int} {window now : τ} {times : List τ}
    (hroom : (within window now times).length < limit) {t : τ}
    (hold : (held window t times).length ≤ max limit 0) :
    (held window t (times ++ [now])).length ≤ max limit 0 := by
  have hsplit : held window t (times ++ [now]) = held window t times ++ held window t [now] := by
    simp [held]
  rw [hsplit]
  by_cases hnow : now ≤ t ∧ t - now < window
  · -- What the later window holds of the earlier times, the window that ends with `now` holds too.
    have hsub : (held window t times).length ≤ (within window now times).length := by
      rw [held, within, ← List.countP_eq_length_filter, ← List.countP_eq_length_filter]
      apply List.countP_mono_left
      intro s _ hs
      have hs : s ≤ t ∧ t - s < window := of_decide_eq_true hs
      exact decide_eq_true ((sub_le_sub_right hnow.1 s).trans_lt hs.2)
    have hone : held window t [now] = [now] := by simp [held, hnow]
    rw [hone, List.length_append, List.length_singleton]
    omega
  · have hnone : held window t [now] = [] := by simpa [held] using hnow
    rw [hnone, List.append_nil]
    exact hold

/-- No window of time holds more admitted requests of a client than the limit. -/
theorem length_held_le (limit : Int) (window : τ) {calls : List (τ × Call)}
    (hlimit : ∀ c ∈ calls, c.2.setsLimit = false)
    (hclock : (readings calls).Pairwise (· ≤ ·)) (client : String) (t : τ) :
    (held window t (admissions client ((new limit window).transcript calls))).length ≤
      max limit 0 := by
  induction calls using List.reverseRecOn with
  | nil => exact le_max_right limit 0
  | append_singleton calls c ih =>
    have hlimit' : ∀ d ∈ calls, d.2.setsLimit = false :=
      fun d hd => hlimit d (List.mem_append_left _ hd)
    have ih := ih hlimit' (pairwise_readings_of_append hclock)
    obtain ⟨now, call⟩ := c
    rw [transcript_concat, admissions_concat]
    cases call with
    | request c =>
      rw [run_request_answer limit window hlimit' hclock]
      by_cases hroom : (within window now
          (admissions c ((new limit window).transcript calls))).length < limit
      · rw [decide_eq_true hroom]
        by_cases hc : c = client
        · subst hc
          simpa only [noteAdmission, if_true] using length_held_concat_le hroom ih
        · simpa only [noteAdmission, hc, if_false] using ih
      · rw [decide_eq_false hroom]
        exact ih
    | reset => exact le_max_right limit 0
    | _ => exact ih

/-- **A request is admitted exactly when the window has room for it.** In every history of calls
whose clock never goes back, the answer to each request says whether fewer requests of its client
than the limit were admitted since the last reset within the window that ends with it; and so no
window of time, whenever it ends, holds more of them than the limit. -/
theorem run_admits_exactly (limit : Int) (window : τ) (calls : List (τ × Call))
    (hlimit : ∀ c ∈ calls, c.2.setsLimit = false)
    (hclock : (readings calls).Pairwise (· ≤ ·)) :
    (∀ (i : Nat) (now : τ) (client : String), calls[i]? = some (now, .request client) →
      ((new limit window).run calls).1[i]? = some (.admitted (decide
        ((within window now (admissions client
          (((new limit window).transcript calls).take i))).length < limit)))) ∧
    ∀ (client : String) (t : τ),
      (held window t (admissions client ((new limit window).transcript calls))).length ≤
        max limit 0 := by
  refine ⟨?_, length_held_le limit window hlimit hclock⟩
  intro i now client hcall
  -- The call stands between the calls in front of it and those behind it.
  obtain ⟨hi, hget⟩ := List.getElem?_eq_some_iff.1 hcall
  obtain ⟨before, more, rfl, rfl⟩ : ∃ before more,
      calls = (before ++ [(now, .request client)]) ++ more ∧ i = before.length := by
    refine ⟨calls.take i, calls.drop (i + 1), ?_, (List.length_take_of_le hi.le).symm⟩
    rw [← hget, List.append_assoc, List.singleton_append, List.getElem_cons_drop,
      List.take_append_drop]
  have hlimit' : ∀ c ∈ before, c.2.setsLimit = false :=
    fun c hc => hlimit c (List.mem_append_left _ (List.mem_append_left _ hc))
  have hanswer := run_request_answer limit window hlimit' (pairwise_readings_of_append hclock)
  obtain ⟨answers, happend⟩ :=
    (new limit window).run_append_answers (before ++ [(now, .request client)]) more
  have hlen := (new limit window).length_run before
  rw [happend, run_concat, List.append_assoc, ← hlen, List.getElem?_append_right le_rfl,
    Nat.sub_self, hanswer, hlen, List.append_assoc, take_transcript]
  rfl

end Tracking

/-- Calls of two clients within and beyond a minute, with a reset. -/
def busyMinutes : List (Int × Call) :=
  [(0, .request "a"), (30, .request "a"), (59, .request "a"), (59, .request "b"),
    (60, .remaining "a"), (60, .request "a"), (89, .request "a"), (0, .reset),
    (90, .request "a")]

theorem run_admits_exactly_busyMinutes :
    (∀ c ∈ busyMinutes, c.2.setsLimit = false) ∧
    (readings busyMinutes).Pairwise (· ≤ ·) ∧
    -- The third request of the minute is refused, and the one a minute after the first is not.
    ((new 2 60).run busyMinutes).1[2]? = some (.admitted false) ∧
    ((new 2 60).run busyMinutes).1[5]? = some (.admitted true) ∧
    (held 60 89 (admissions "a" ((new 2 60).transcript (busyMinutes.take 7)))).length ≤
      max (2 : Int) 0 := by
  have hlimit : ∀ c ∈ busyMinutes, c.2.setsLimit = false := by decide
  have hclock : (readings busyMinutes).Pairwise (· ≤ ·) := by decide
  have hall := run_admits_exactly 2 60 busyMinutes hlimit hclock
  have hmost := run_admits_exactly 2 60 (busyMinutes.take 7) (by decide) (by decide)
  exact ⟨hlimit, hclock, hall.1 2 59 "a" rfl, hall.1 5 60 "a" rfl, hmost.2 "a" 89⟩

end ChartQuery.RateLimiter
