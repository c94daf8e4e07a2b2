import ChartQuery.Entries
import ChartQuery.Number.Reading

/-!
# Limiting the rate of requests

Each client may have so many requests admitted within a window of time. The times of its admitted
requests are kept; those that the window has left are dropped when the client is looked at again.

## Main definitions

* `RateLimiter`: the limit, the window and the times kept for each client
* `RateLimiter.request`: a request of a client at a time
* `RateLimiter.remaining`: how many requests a client has left at a time
* `RateLimiter.run`: the answers to a history of calls

## Main results

* `RateLimiter.request_eq_true`: a request is admitted exactly when fewer than the limit are recent
* `RateLimiter.times_keep`: keeping the times of one client changes those of no other
-/

namespace ChartQuery

/-- The limit, the window of time, and the times kept for each client. -/
structure RateLimiter (τ : Type) where
  limit : Int
  window : τ
  log : Entries (List τ)

namespace RateLimiter

variable {τ : Type} [Sub τ] [LT τ] [DecidableLT τ]

/-- A limiter that has seen no request. -/
def new (limit : Int) (window : τ) : RateLimiter τ := ⟨limit, window, []⟩

/-- The times kept for a client. -/
def times (l : RateLimiter τ) (client : String) : List τ := (l.log.lookup client).getD []

/-- The times kept for a client that the window has not left. -/
def recent (l : RateLimiter τ) (client : String) (now : τ) : List τ :=
  (l.times client).filter fun t => now - t < l.window

/-- The limiter that keeps the given times for a client. -/
def keep (l : RateLimiter τ) (client : String) (ts : List τ) : RateLimiter τ :=
  { l with log := l.log.assign client ts }

/-- A request of a client: whether it is admitted, and the limiter afterwards. -/
def request (l : RateLimiter τ) (client : String) (now : τ) : Bool × RateLimiter τ :=
  let ts := l.recent client now
  if l.limit ≤ ts.length then (false, l.keep client ts) else (true, l.keep client (ts ++ [now]))

/-- How many requests a client has left, and the limiter afterwards. -/
def remaining (l : RateLimiter τ) (client : String) (now : τ) : Int × RateLimiter τ :=
  let ts := l.recent client now
  (max 0 (l.limit - ts.length), l.keep client ts)

/-- The limiter that has forgotten all requests. -/
def reset (l : RateLimiter τ) : RateLimiter τ := { l with log := [] }

/-! ## What calls change -/

omit [Sub τ] [LT τ] [DecidableLT τ] in
/-- Keeping the times of one client changes those of no other. -/
theorem times_keep (l : RateLimiter τ) (client c : String) (ts : List τ) :
    (l.keep client ts).times c = if c = client then ts else l.times c := by
  simp only [times, keep, Entries.lookup_assign]
  split <;> rfl

/-- A request is admitted exactly when fewer than the limit are recent. -/
theorem request_eq_true (l : RateLimiter τ) (client : String) (now : τ) :
    (l.request client now).1 = true ↔ (l.recent client now).length < l.limit := by
  simp only [request]
  split <;> simp_all

/-! ## Histories -/

/-- A call of the limiter. -/
inductive Call where
  | request (client : String)
  | remaining (client : String)
  | setLimit (limit : Int)
  | reset
  | log
  deriving DecidableEq, Repr

/-- The answer to a call. -/
inductive Answer (τ : Type) where
  | admitted (b : Bool)
  | left (n : Int)
  | done
  | log (entries : Entries (List τ))

/-- A call at a time. -/
def step (l : RateLimiter τ) (now : τ) : Call → Answer τ × RateLimiter τ
  | .request c => ((l.request c now).map .admitted id)
  | .remaining c => ((l.remaining c now).map .left id)
  | .setLimit n => (.done, { l with limit := n })
  | .reset => (.done, l.reset)
  | .log => (.log l.log, l)

/-- The answers to a history of calls, and the limiter afterwards. -/
def run (l : RateLimiter τ) : List (τ × Call) → List (Answer τ) × RateLimiter τ
  | [] => ([], l)
  | (now, call) :: rest =>
    let (answer, l) := l.step now call
    let (answers, l) := l.run rest
    (answer :: answers, l)

/-- Every call is answered. -/
theorem length_run (l : RateLimiter τ) (calls : List (τ × Call)) :
    (l.run calls).1.length = calls.length := by
  induction calls generalizing l with
  | nil => rfl
  | cons c rest ih => simp [run, ih]

end RateLimiter

end ChartQuery
