import ChartQuery.Proofs.Service.Admissions

/-!
# What a client has left

A limiter says how many requests a client has left. As long as the clock stands still this many of
its next requests are admitted, and no more, provided that the window has some length: one without
length holds no request, so that nothing is ever used up. To look at what is left drops times from
the limiter, and so does every request of another client with times of its own; yet no client can
tell from its own answers whether this was done.

## Main definitions

* `RateLimiter.answersTo`: the answers to one call, wherever it is made
* `RateLimiter.LooksLike`: two limiters that one client cannot tell apart
* `RateLimiter.keptAnswers`: the answers about a client to the calls that are not marked

## Main results

* `RateLimiter.answersTo_request`: the requests of a client while the clock stands still
* `RateLimiter.LooksLike.step`, `RateLimiter.LooksLike.idle`: what one call preserves
* `RateLimiter.keptAnswers_unmarked`: marked calls do not show in the other answers about a client
* `RateLimiter.remaining_foretells`: what is left is what will be admitted, and is only observed
-/

namespace ChartQuery.RateLimiter

/-! ## Calls and clients -/

/-- The call is a request of a client, or asks what it has left. -/
def Call.concerns (client : String) : Call → Bool
  | request c | remaining c => c == client
  | _ => false

/-- The call does nothing for a client: it only looks, or is a request of another one. -/
def Call.isIdleFor (client : String) : Call → Bool
  | request c => c != client
  | remaining _ | log => true
  | setLimit _ | reset => false

/-- The call neither forgets requests nor changes the limit. -/
def Call.keepsRoom : Call → Bool
  | setLimit _ | reset => false
  | _ => true

namespace Call

variable {client : String} {call : Call}

theorem setsLimit_of_keepsRoom (h : call.keepsRoom = true) : call.setsLimit = false := by
  cases call with
  | setLimit n => exact absurd h Bool.false_ne_true
  | _ => rfl

theorem keepsRoom_of_idle (h : call.isIdleFor client = true) : call.keepsRoom = true := by
  cases call with
  | setLimit n => exact absurd h Bool.false_ne_true
  | reset => exact absurd h Bool.false_ne_true
  | _ => rfl

/-- A call that is not idle for a client and keeps the room is a request of it. -/
theorem eq_request_of_not_idle (hidle : call.isIdleFor client = false)
    (hroom : call.keepsRoom = true) : call = request client := by
  cases call with
  | request c =>
    obtain rfl : c = client := by simpa [isIdleFor] using hidle
    rfl
  | remaining c => exact Bool.noConfusion hidle
  | log => exact Bool.noConfusion hidle
  | setLimit n => exact Bool.noConfusion hroom
  | reset => exact Bool.noConfusion hroom

theorem readsClock_of_concerns (h : call.concerns client = true) : call.readsClock = true := by
  cases call with
  | request c => rfl
  | remaining c => rfl
  | _ => exact Bool.noConfusion h

end Call

section Steps

variable {τ : Type} [Sub τ] [LT τ] [DecidableLT τ] (l : RateLimiter τ) (client : String)

/-- What is left to a client is the limit without its recent requests. -/
theorem step_remaining (now : τ) :
    (l.step now (.remaining client)).1 =
      .left (max 0 (l.limit - (l.recent client now).length)) := rfl

theorem recent_keep (c : String) (ts : List τ) (now : τ) :
    (l.keep client ts).recent c now =
      if c = client then within l.window now ts else l.recent c now := by
  show within l.window now ((l.keep client ts).times c) = _
  rw [times_keep]
  split <;> rfl

/-- A request is kept behind the recent ones if it is admitted. -/
theorem recent_step_request (now later : τ) :
    (l.step now (.request client)).2.recent client later =
      within l.window later (l.recent client now) ++
        if (l.recent client now).length < l.limit then within l.window later [now] else [] := by
  have hstep : (l.step now (.request client)).2 = (l.request client now).2 := rfl
  rw [hstep, request]
  by_cases hfull : l.limit ≤ (l.recent client now).length
  · simp only [hfull, if_true, recent_keep, if_neg (not_lt.2 hfull), List.append_nil]
  · simp only [hfull, if_false, recent_keep, if_true, if_pos (not_le.1 hfull)]
    rw [within, List.filter_append]
    rfl

/-- Calls that keep the room leave the limit as it is. -/
theorem limit_run {l : RateLimiter τ} {calls : List (τ × Call)}
    (h : ∀ c ∈ calls, c.2.keepsRoom = true) : (l.run calls).2.limit = l.limit :=
  run_limit l fun c hc => Call.setsLimit_of_keepsRoom (h c hc)

end Steps

section Ordered

variable {τ : Type} [AddCommGroup τ] [LinearOrder τ] [IsOrderedAddMonoid τ]
  {l l' : RateLimiter τ} {client : String}

/-- What was recent at some time says what is recent later. -/
theorem within_recent (l : RateLimiter τ) (client : String) {now later : τ} (h : now ≤ later) :
    within l.window later (l.recent client now) = l.recent client later :=
  within_within h (l.times client)

/-- A call that is idle for a client does not change which of its requests are recent. -/
theorem recent_step_idle {call : Call} (hidle : call.isIdleFor client = true) {now later : τ}
    (hlater : call.readsClock → now ≤ later) :
    (l.step now call).2.recent client later = l.recent client later := by
  cases call with
  | request c =>
    have hc : client ≠ c := Ne.symm (by simpa [Call.isIdleFor] using hidle)
    have hstep : (l.step now (.request c)).2 = (l.request c now).2 := rfl
    rw [hstep, request]
    split <;> simp only [recent_keep, if_neg hc]
  | remaining c =>
    have hstep : (l.step now (.remaining c)).2 = l.keep c (l.recent c now) := rfl
    rw [hstep, recent_keep]
    split
    · rename_i hc
      rw [within_recent l c (hlater rfl), hc]
    · rfl
  | log => rfl
  | setLimit n => simp [Call.isIdleFor] at hidle
  | reset => simp [Call.isIdleFor] at hidle

/-! ## While the clock stands still -/

/-- The answers to one call, wherever it is made in a history. -/
def answersTo (c : τ × Call) (history : List ((τ × Call) × Answer τ)) : List (Answer τ) :=
  (history.filter fun e => e.1 = c).map Prod.snd

omit [AddCommGroup τ] [IsOrderedAddMonoid τ] in
theorem answersTo_concat (c : τ × Call) (history : List ((τ × Call) × Answer τ))
    (e : (τ × Call) × Answer τ) :
    answersTo c (history ++ [e]) = answersTo c history ++ if e.1 = c then [e.2] else [] := by
  simp only [answersTo, List.filter_append, List.map_append, List.filter_cons, List.filter_nil,
    decide_eq_true_eq]
  split <;> rfl

/-- The recent requests of a client after calls at one time: each of its requests that finds room
is added to them, if the window has some length. -/
theorem length_recent_run {t : τ} {more : List (τ × Call)} (hstill : ∀ r ∈ readings more, r = t)
    (hroom : ∀ c ∈ more, c.2.keepsRoom = true) :
    ((l.run more).2.recent client t).length = (l.recent client t).length +
      if 0 < l.window then
        min (more.count (t, .request client)) (l.limit - (l.recent client t).length).toNat
      else 0 := by
  induction more using List.reverseRecOn with
  | nil => simp [run]
  | append_singleton more c ih =>
    obtain ⟨now, call⟩ := c
    have hfront : ∀ r ∈ readings more, r = t := by
      intro r hr
      apply hstill
      rw [readings_concat]
      exact List.mem_append_left _ hr
    have hnow : call.readsClock → now = t := by
      intro hreads
      apply hstill
      rw [readings_concat, if_pos hreads]
      simp
    have ih := ih hfront fun c hc => hroom c (List.mem_append_left _ hc)
    rw [run_concat, List.count_append]
    cases hidle : call.isIdleFor client with
    | true =>
      have hnone : [(now, call)].count (t, .request client) = 0 := by
        apply List.count_eq_zero.2
        intro hmem
        cases List.mem_singleton.1 hmem
        simp [Call.isIdleFor] at hidle
      rw [recent_step_idle hidle fun h => (hnow h).le, ih, hnone, Nat.add_zero]
    | false =>
      -- Only a request of the client itself is left, which takes room if there is some.
      obtain rfl : call = .request client :=
        Call.eq_request_of_not_idle hidle (hroom (now, call) (by simp))
      obtain rfl : now = t := hnow rfl
      have hone : within l.window now [now] = if 0 < l.window then [now] else [] := by
        simp only [within, List.filter_cons, sub_self, decide_eq_true_eq, List.filter_nil]
      rw [recent_step_request, within_recent _ _ le_rfl, run_window, hone, List.length_append, ih,
        limit_run fun d hd => hroom d (List.mem_append_left _ hd), List.count_singleton_self]
      by_cases hwindow : 0 < l.window
      · simp only [hwindow, if_true]
        split
        · simp only [List.length_singleton]
          omega
        · simp only [List.length_nil]
          omega
      · simp [hwindow]

/-- **The requests of a client while the clock stands still**: each of them counts the recent ones
and those admitted before it, if the window has some length. -/
theorem answersTo_request {t : τ} {more : List (τ × Call)}
    (hclock : (t :: readings more).Pairwise (· ≤ ·))
    (hroom : ∀ c ∈ more, c.2.keepsRoom = true) :
    answersTo (t, .request client) (l.transcript more) =
      (List.range (more.count (t, .request client))).map fun i =>
        .admitted (decide ((l.recent client t).length + (if 0 < l.window then
          min i (l.limit - (l.recent client t).length).toNat else 0 : Nat) < l.limit)) := by
  induction more using List.reverseRecOn with
  | nil => rfl
  | append_singleton more c ih =>
    have hroom' : ∀ d ∈ more, d.2.keepsRoom = true :=
      fun d hd => hroom d (List.mem_append_left _ hd)
    have hclock' : (t :: readings more).Pairwise (· ≤ ·) := by
      rw [readings_concat, ← List.cons_append] at hclock
      exact (List.pairwise_append.1 hclock).1
    rw [transcript_concat, answersTo_concat, ih hclock' hroom', List.count_append]
    by_cases hc : c = (t, .request client)
    · subst hc
      -- The clock showed nothing later in between, for it never goes back.
      have hstill : ∀ r ∈ readings more, r = t := by
        intro r hr
        rw [readings_concat, ← List.cons_append] at hclock
        have hle : r ≤ t := (List.pairwise_append.1 hclock).2.2 r (List.mem_cons_of_mem t hr) t
          (by simp [Call.readsClock])
        exact le_antisymm hle ((List.pairwise_cons.1 hclock').1 r hr)
      rw [List.count_singleton_self, List.range_succ, List.map_append, if_pos rfl, step_request,
        length_recent_run hstill hroom', limit_run hroom']
      rfl
    · have hnone : [c].count (t, .request client) = 0 :=
        List.count_eq_zero.2 fun hmem => hc (List.mem_singleton.1 hmem).symm
      rw [if_neg hc, List.append_nil, hnone, Nat.add_zero]

/-! ## Limiters that look alike -/

/-- From the last of some readings on, two limiters look alike to a client. -/
structure LooksLike (client : String) (past : List τ) (l l' : RateLimiter τ) : Prop where
  window : l.window = l'.window
  limit : l.limit = l'.limit
  recent : ∀ now, (∀ r ∈ past, r ≤ now) → l.recent client now = l'.recent client now

namespace LooksLike

variable {past : List τ} {now : τ} {call : Call}

omit [IsOrderedAddMonoid τ] in
theorem refl (l : RateLimiter τ) : LooksLike client past l l := ⟨rfl, rfl, fun _ _ => rfl⟩

omit [IsOrderedAddMonoid τ] in
theorem symm (h : LooksLike client past l l') : LooksLike client past l' l :=
  ⟨h.window.symm, h.limit.symm, fun now hnow => (h.recent now hnow).symm⟩

omit [IsOrderedAddMonoid τ] in
theorem mono {more : List τ} (h : LooksLike client past l l') :
    LooksLike client (past ++ more) l l' :=
  ⟨h.window, h.limit, fun now hnow => h.recent now fun r hr => hnow r (List.mem_append_left _ hr)⟩

/-- **A call that is idle for a client does not show to it.** -/
theorem idle (h : LooksLike client past l l') (hidle : call.isIdleFor client = true) :
    LooksLike client (past ++ if call.readsClock then [now] else []) (l.step now call).2 l' where
  window := by rw [step_window, h.window]
  limit := by
    rw [step_limit _ _ (Call.setsLimit_of_keepsRoom (Call.keepsRoom_of_idle hidle)), h.limit]
  recent later hlater := by
    have hle : call.readsClock → now ≤ later := by
      intro hreads
      apply hlater
      simp [hreads]
    rw [recent_step_idle hidle hle]
    exact h.mono.recent later hlater

omit [IsOrderedAddMonoid τ] in
/-- **A call about a client is answered alike.** -/
theorem answer (h : LooksLike client past l l') (hcall : call.concerns client = true)
    (hnow : ∀ r ∈ past, r ≤ now) : (l.step now call).1 = (l'.step now call).1 := by
  cases call with
  | request c =>
    obtain rfl : c = client := by simpa [Call.concerns] using hcall
    rw [step_request, step_request, h.recent now hnow, h.limit]
  | remaining c =>
    obtain rfl : c = client := by simpa [Call.concerns] using hcall
    rw [step_remaining, step_remaining, h.recent now hnow, h.limit]
  | _ => simp [Call.concerns] at hcall

/-- **A call leaves limiters alike** that look alike to a client. -/
theorem step (h : LooksLike client past l l') (hnow : call.readsClock → ∀ r ∈ past, r ≤ now) :
    LooksLike client (past ++ if call.readsClock then [now] else []) (l.step now call).2
      (l'.step now call).2 := by
  by_cases hidle : call.isIdleFor client = true
  · -- The call shows on neither side, so that one limiter is changed after the other.
    have hleft : LooksLike client (past ++ if call.readsClock then [now] else [])
        (l.step now call).2 l' := h.idle hidle
    have hright : LooksLike client _ (l'.step now call).2 (l.step now call).2 :=
      hleft.symm.idle hidle
    have hboth := hright.symm
    refine ⟨hboth.window, hboth.limit, fun later hlater => hboth.recent later ?_⟩
    intro r hr
    apply hlater
    rw [List.append_assoc] at hr
    grind
  refine ⟨by rw [step_window, step_window, h.window], ?_, fun later hlater => ?_⟩
  · cases call with
    | setLimit n => rfl
    | _ => rw [step_limit _ _ rfl, step_limit _ _ rfl, h.limit]
  cases call with
  | request c =>
    obtain rfl : c = client := by simpa [Call.isIdleFor] using hidle
    have hlater' : now ≤ later := hlater now (by simp [Call.readsClock])
    rw [recent_step_request, recent_step_request, h.recent now (hnow rfl), h.limit, h.window]
  | setLimit n => exact h.mono.recent later hlater
  | reset => rfl
  | remaining c => simp [Call.isIdleFor] at hidle
  | log => simp [Call.isIdleFor] at hidle

end LooksLike

/-! ## Calls put into a history -/

/-- The answers about a client to the calls of a history that are not marked. -/
def keptAnswers (client : String) (l : RateLimiter τ) (marked : List ((τ × Call) × Bool)) :
    List (Answer τ) :=
  ((marked.zip (l.run (marked.map Prod.fst)).1).filter fun e =>
    !e.1.2 && e.1.1.2.concerns client).map Prod.snd

omit [IsOrderedAddMonoid τ] in
theorem keptAnswers_cons (c : τ × Call) (m : Bool) (marked : List ((τ × Call) × Bool)) :
    keptAnswers client l ((c, m) :: marked) =
      (if !m && c.2.concerns client then [(l.step c.1 c.2).1] else []) ++
        keptAnswers client (l.step c.1 c.2).2 marked := by
  simp only [keptAnswers, List.map_cons, run, List.zip_cons_cons, List.filter_cons]
  split <;> rfl

/-- **Marked calls that are idle for a client do not show** in the other answers about it. -/
theorem keptAnswers_unmarked {past : List τ} {marked : List ((τ × Call) × Bool)}
    (h : LooksLike client past l l')
    (hclock : (past ++ readings (marked.map Prod.fst)).Pairwise (· ≤ ·))
    (hidle : ∀ e ∈ marked, e.2 = true → e.1.2.isIdleFor client = true) :
    keptAnswers client l marked = keptAnswers client l' (marked.filter (!·.2)) := by
  induction marked generalizing past l l' with
  | nil => rfl
  | cons e marked ih =>
    obtain ⟨⟨now, call⟩, m⟩ := e
    have hreadings : readings ((((now, call), m) :: marked).map Prod.fst) =
        (if call.readsClock then [now] else []) ++ readings (marked.map Prod.fst) := by
      simp only [readings, List.map_cons, List.filter_cons]
      split <;> rfl
    rw [hreadings, ← List.append_assoc] at hclock
    have hnow : call.readsClock → ∀ r ∈ past, r ≤ now := by
      intro hreads r hr
      have hfront := (List.pairwise_append.1 hclock).1
      exact (List.pairwise_append.1 hfront).2.2 r hr now (by simp [hreads])
    have hrest : ∀ e ∈ marked, e.2 = true → e.1.2.isIdleFor client = true :=
      fun e he => hidle e (List.mem_cons_of_mem _ he)
    rw [keptAnswers_cons]
    cases m with
    | true =>
      -- The call is missing on the other side, where nothing happens.
      have hcall : call.isIdleFor client = true := hidle _ List.mem_cons_self rfl
      simpa using ih (h.idle hcall) hclock hrest
    | false =>
      rw [List.filter_cons_of_pos rfl, keptAnswers_cons, ih (h.step hnow) hclock hrest]
      split
      · rename_i hcall
        have hcall : call.concerns client = true := by simpa using hcall
        rw [h.answer hcall (hnow (Call.readsClock_of_concerns hcall))]
      · rfl

/-! ## What is left -/

/-- **What is left to a client is what will be admitted, and is only observed.** If a limiter says
that a client has `n` requests left, then of its requests at that same time exactly the first `n`
are admitted, whatever else is asked in between, as long as nothing is forgotten. This wants a
window of some length: under any other each of them is admitted if `n` is not zero. And whatever
calls are put into a history or taken out of it that only look, or are requests of other clients,
all other answers about the client stay the same. -/
theorem remaining_foretells (l : RateLimiter τ) (client : String) :
    (∀ (t : τ) (n : Int) (more : List (τ × Call)),
      (l.step t (.remaining client)).1 = .left n →
      (t :: readings more).Pairwise (· ≤ ·) → (∀ c ∈ more, c.2.keepsRoom = true) →
      (0 < l.window →
        answersTo (t, .request client) ((l.step t (.remaining client)).2.transcript more) =
          (List.range (more.count (t, .request client))).map fun i => .admitted (decide (i < n))) ∧
      (l.window ≤ 0 →
        answersTo (t, .request client) ((l.step t (.remaining client)).2.transcript more) =
          (List.range (more.count (t, .request client))).map fun _ => .admitted (decide (0 < n)))) ∧
    ∀ marked marked' : List ((τ × Call) × Bool),
      (readings (marked.map Prod.fst)).Pairwise (· ≤ ·) →
      (readings (marked'.map Prod.fst)).Pairwise (· ≤ ·) →
      (∀ e ∈ marked ++ marked', e.2 = true → e.1.2.isIdleFor client = true) →
      marked.filter (!·.2) = marked'.filter (!·.2) →
      keptAnswers client l marked = keptAnswers client l marked' := by
  constructor
  · intro t n more hleft hclock hroom
    have hn : n = max 0 (l.limit - (l.recent client t).length) := by
      rw [step_remaining] at hleft
      exact (Answer.left.inj hleft).symm
    have hanswers : answersTo (t, .request client)
        ((l.step t (.remaining client)).2.transcript more) = _ :=
      answersTo_request hclock hroom
    rw [recent_step_idle rfl fun _ => le_rfl, step_window, step_limit _ _ rfl] at hanswers
    rw [hanswers]
    refine ⟨fun hwindow => ?_, fun hwindow => ?_⟩
    · apply List.map_congr_left
      intro i _
      congr 2
      simp only [hwindow, if_true, eq_iff_iff]
      omega
    · apply List.map_congr_left
      intro i _
      congr 2
      simp only [not_lt.2 hwindow, if_false, eq_iff_iff]
      omega
  · intro marked marked' hclock hclock' hidle hsame
    have hself : LooksLike client [] l l := .refl l
    have h := keptAnswers_unmarked hself hclock
      fun e he => hidle e (List.mem_append_left _ he)
    have h' := keptAnswers_unmarked hself hclock'
      fun e he => hidle e (List.mem_append_right _ he)
    rw [h, h', hsame]

end Ordered

/-- A client with a request left makes two, while another one looks at what it has left. -/
def lastRequest : List (Int × Call) :=
  [(50, .request "a"), (50, .remaining "b"), (50, .request "a")]

/-- Requests of a client; it is marked where another one comes in between. -/
def visitedMinutes : List ((Int × Call) × Bool) :=
  [((0, .request "a"), false), ((0, .request "b"), true), ((59, .remaining "a"), true),
    ((60, .request "a"), false)]

/-- Of two requests a minute one is left, and only the first of the next two is admitted. The calls
of another client and the looks at what is left change nothing. -/
theorem remaining_foretells_visits :
    let l := ((new 2 (60 : Int)).run [(0, .request "a")]).2
    (l.step 50 (.remaining "a")).1 = .left 1 ∧ 0 < l.window ∧
    ((50 : Int) :: readings lastRequest).Pairwise (· ≤ ·) ∧
    (∀ c ∈ lastRequest, c.2.keepsRoom = true) ∧
    answersTo (50, .request "a") ((l.step 50 (.remaining "a")).2.transcript lastRequest) =
      [.admitted true, .admitted false] ∧
    keptAnswers "a" (new 1 (60 : Int)) visitedMinutes =
      keptAnswers "a" (new 1 (60 : Int)) (visitedMinutes.filter (!·.2)) := by
  intro l
  have hclock : ((50 : Int) :: readings lastRequest).Pairwise (· ≤ ·) := by decide
  have hroom : ∀ c ∈ lastRequest, c.2.keepsRoom = true := by decide
  obtain ⟨hwide, -⟩ := (remaining_foretells l "a").1 50 1 lastRequest rfl hclock hroom
  have hwindow : 0 < l.window := by decide
  refine ⟨rfl, hwindow, hclock, hroom, hwide hwindow, ?_⟩
  exact (remaining_foretells (new 1 (60 : Int)) "a").2 _ _ (by decide) (by decide) (by decide) rfl

/-- In a window without length a limit of one admits two requests at a time at which one is left. -/
theorem emptyWindow_admitsMore :
    let l := new 1 (0 : Int)
    let more := [((0 : Int), Call.request "a"), (0, .request "a")]
    (l.step 0 (.remaining "a")).1 = .left 1 ∧
    ((0 : Int) :: readings more).Pairwise (· ≤ ·) ∧ (∀ c ∈ more, c.2.keepsRoom = true) ∧
    answersTo (0, .request "a") ((l.step 0 (.remaining "a")).2.transcript more) =
      [.admitted true, .admitted true] ∧
    answersTo (0, .request "a") ((l.step 0 (.remaining "a")).2.transcript more) ≠
      (List.range (more.count (0, .request "a"))).map fun i =>
        .admitted (decide ((i : Int) < 1)) := by
  intro l more
  have hanswers : answersTo (0, .request "a") ((l.step 0 (.remaining "a")).2.transcript more) =
      [.admitted true, .admitted true] := rfl
  refine ⟨rfl, by decide, by decide, hanswers, ?_⟩
  rw [hanswers]
  intro h
  injection h with _ htail
  injection htail with hsecond
  injection hsecond with hadmitted
  exact absurd hadmitted (by decide)

end ChartQuery.RateLimiter
