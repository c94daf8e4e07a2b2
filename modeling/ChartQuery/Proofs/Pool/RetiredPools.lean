import ChartQuery.Proofs.Pool.OpenPools

/-!
# Pools that a registry has let go of

A request asks for a pool once and then uses it several times, while other requests may have the
registry let go of it. The registry closes a pool when it lets go of it and never hands it out
again, but does not keep the pool from opening itself when it is used the next time. From then on
nobody closes it: the registry closes only the pools that it still knows.

## Main definitions

* `Lending`: a registry with the sessions of its pools that are lent
* `Lending.Turn`, `Lending.run`: what can happen to both, in any order
* `Registry.IsRetired`: a pool that was handed out is no longer current
* `Lending.Reopens`: a session of a retired pool is lent in a run

## Main results

* `Lending.keepsOpenPoolsBeside_step`: one turn opens no retired pool but the one that it lends
* `Lending.isRetired_step`: one turn leaves a retired pool retired
* `Lending.openAt_iff_reopens`: in every run a retired pool is open exactly if it was lent again
-/

namespace ChartQuery

open Registry

/-- A pool was handed out and is kept under no key. -/
def Registry.IsRetired (r : Registry) (n : Nat) : Prop :=
  n < r.pools.length ∧ ∀ key, r.current.lookup key ≠ some n

/-- A registry and the sessions of its pools that are lent, each as the number of its pool. -/
structure Lending where
  registry : Registry
  lent : List Nat

namespace Lending

/-! ## Runs -/

/-- What can happen while sessions are lent. -/
inductive Turn where
  /-- The registry is called, or a session of a pool is asked for. -/
  | call (c : Call)
  /-- A session of a pool is given back. -/
  | release (pool : Nat)

/-- A pool lends one more session. -/
def hasSlot (l : Lending) (n : Nat) : Bool :=
  l.registry.pools[n]?.any fun p => (l.lent.count n : Int) < p.maxConnections

/-- A session of a pool can be had at once: the pool has a slot, and is open or can be opened. -/
def lends (opener : Opener) (l : Lending) (n : Nat) : Bool :=
  l.hasSlot n && (l.registry.acquire opener n).1.isSome

/-- What is left after one turn. Who asks for a session of a pool without a slot waits, and gives
the slot back if the pool cannot be opened. -/
def step (opener : Opener) (l : Lending) : Turn → Lending
  | .call (.acquire n) =>
    if l.lends opener n then ⟨(l.registry.acquire opener n).2, n :: l.lent⟩ else l
  | .call c => { l with registry := l.registry.step opener c }
  | .release n => { l with lent := l.lent.erase n }

/-- Nothing is lent yet. -/
def ofRegistry (r : Registry) : Lending := ⟨r, []⟩

/-- A pool is asked for, which the registry may have to open. -/
def Turn.isGet : Turn → Bool
  | .call (.get _) => true
  | _ => false

/-- A turn lets go of the pool of a key. -/
def Turn.drops (key : String) : Turn → Bool
  | .call c => c.drops key
  | .release _ => false

/-- What is left after turns, each of which finds other databases. -/
def run (l : Lending) (turns : List (Opener × Turn)) : Lending :=
  turns.foldl (fun l t => l.step t.1 t.2) l

theorem run_concat (l : Lending) (turns : List (Opener × Turn)) (t : Opener × Turn) :
    l.run (turns ++ [t]) = (l.run turns).step t.1 t.2 := by
  simp [run]

/-- A turn lends a session of a pool that is retired. -/
def LendsRetired (l : Lending) (t : Opener × Turn) (n : Nat) : Prop :=
  t.2 = .call (.acquire n) ∧ l.registry.IsRetired n ∧ l.lends t.1 n = true

/-- Some turn of a run lends a session of a pool that is retired at that time. -/
def Reopens (l : Lending) (turns : List (Opener × Turn)) (n : Nat) : Prop :=
  match turns with
  | [] => False
  | t :: turns => l.LendsRetired t n ∨ (l.step t.1 t.2).Reopens turns n

theorem reopens_append (l : Lending) (turns later : List (Opener × Turn)) (n : Nat) :
    l.Reopens (turns ++ later) n ↔ l.Reopens turns n ∨ (l.run turns).Reopens later n := by
  induction turns generalizing l with
  | nil => simp [Reopens, run]
  | cons t turns ih =>
    show l.LendsRetired t n ∨ (l.step t.1 t.2).Reopens (turns ++ later) n ↔ _
    rw [ih, ← or_assoc]
    rfl

theorem reopens_concat (l : Lending) (turns : List (Opener × Turn)) (t : Opener × Turn) (n : Nat) :
    l.Reopens (turns ++ [t]) n ↔ l.Reopens turns n ∨ (l.run turns).LendsRetired t n := by
  rw [reopens_append]
  simp [Reopens]

/-! ## What a turn does to retired pools -/

section Turns

variable {opener : Opener} {l : Lending} {n : Nat}

/-- A turn does to the registry what a call does, or it does nothing and lets go of no pool. -/
theorem registry_step (opener : Opener) (l : Lending) (t : Turn) :
    (∃ c, t = .call c ∧ (l.step opener t).registry = l.registry.step opener c) ∨
      (l.step opener t).registry = l.registry ∧ ∀ key, t.drops key = false := by
  cases t with
  | release n => exact .inr ⟨rfl, fun key => rfl⟩
  | call c =>
    cases c with
    | acquire n =>
      rw [step]
      split
      · exact .inl ⟨_, rfl, rfl⟩
      · exact .inr ⟨rfl, fun key => rfl⟩
    | register id path => exact .inl ⟨_, rfl, rfl⟩
    | get id => exact .inl ⟨_, rfl, rfl⟩
    | closeAll => exact .inl ⟨_, rfl, rfl⟩

theorem length_pools_le_step (opener : Opener) (l : Lending) (t : Turn) :
    l.registry.pools.length ≤ (l.step opener t).registry.pools.length := by
  obtain ⟨c, -, h⟩ | ⟨h, -⟩ := registry_step opener l t
  · rw [h]
    exact Registry.length_pools_le_step opener l.registry c
  · exact Nat.le_of_eq (by rw [h])

/-- One turn keeps the pool of a key, or drops it. -/
theorem lookup_current_step (hn : n < l.registry.pools.length) (t : Turn) (key : String) :
    (l.step opener t).registry.current.lookup key = some n ↔
      l.registry.current.lookup key = some n ∧ t.drops key = false := by
  obtain ⟨c, rfl, h⟩ | ⟨h, ht⟩ := registry_step opener l t
  · rw [h]
    exact Registry.lookup_current_step hn c
  · rw [h]
    exact (and_iff_left (ht key)).symm

/-- **One turn leaves a retired pool retired**: its number is not allotted again. -/
theorem isRetired_step (hn : l.registry.IsRetired n) (t : Turn) :
    (l.step opener t).registry.IsRetired n :=
  ⟨Nat.lt_of_lt_of_le hn.1 (length_pools_le_step opener l t), fun key hkey =>
    hn.2 key ((lookup_current_step hn.1 t key).1 hkey).1⟩

/-- A run leaves a retired pool retired. -/
theorem isRetired_run (hn : l.registry.IsRetired n) (turns : List (Opener × Turn)) :
    (l.run turns).registry.IsRetired n := by
  induction turns using List.reverseRecOn with
  | nil => exact hn
  | append_singleton turns t ih =>
    rw [run_concat]
    exact isRetired_step ih t.2

/-- A pool that lends a session was handed out. -/
theorem lt_length_of_lends (h : l.lends opener n = true) : n < l.registry.pools.length := by
  have hslot : l.hasSlot n = true := (Bool.and_eq_true_iff.1 h).1
  rw [hasSlot, Option.any_eq_true] at hslot
  obtain ⟨p, hp, -⟩ := hslot
  exact (List.getElem?_eq_some_iff.1 hp).1

/-- Asking for a session of a pool opens no retired pool but this one, if it lends one. -/
theorem keepsOpenPoolsBeside_acquire {others : Nat → Prop}
    (h : l.registry.KeepsOpenPoolsBeside others) (m : Nat) :
    (l.step opener (.call (.acquire m))).registry.KeepsOpenPoolsBeside fun n =>
      others n ∨ l.LendsRetired (opener, .call (.acquire m)) n := by
  rw [step]
  split
  · rename_i hlends
    refine (h.acquire m).congr fun n => or_congr_right ?_
    constructor
    · rintro ⟨heq, hretired, -⟩
      cases heq
      exact ⟨rfl, hretired.2, (Bool.and_eq_true_iff.1 hlends).2⟩
    · rintro ⟨heq, hretired, -⟩
      cases heq
      exact ⟨rfl, ⟨lt_length_of_lends hlends, hretired⟩, hlends⟩
  · rename_i hnot
    refine h.congr fun n => or_iff_left ?_
    rintro ⟨heq, -, hlends⟩
    cases heq
    exact hnot hlends

/-- **One turn opens no retired pool but the one that it lends.** -/
theorem keepsOpenPoolsBeside_step {others : Nat → Prop}
    (h : l.registry.KeepsOpenPoolsBeside others) (t : Opener × Turn) :
    (l.step t.1 t.2).registry.KeepsOpenPoolsBeside fun n => others n ∨ l.LendsRetired t n := by
  -- Only asking for a session opens a pool that is not made current with it.
  obtain ⟨opener, t⟩ := t
  cases t with
  | release m => exact h.congr fun n => or_iff_left fun hn => nomatch hn.1
  | call c =>
    cases c with
    | register id path =>
      exact (h.register id path).congr fun n => or_iff_left fun hn => nomatch hn.1
    | get id => exact (h.get id).congr fun n => or_iff_left fun hn => nomatch hn.1
    | closeAll => exact h.closeAll.congr fun n => or_iff_left fun hn => nomatch hn.1
    | acquire m => exact keepsOpenPoolsBeside_acquire h m

/-- A run opens no retired pools but those that it lends. -/
theorem keepsOpenPoolsBeside_run {others : Nat → Prop}
    (h : l.registry.KeepsOpenPoolsBeside others) (turns : List (Opener × Turn)) :
    (l.run turns).registry.KeepsOpenPoolsBeside fun n => others n ∨ l.Reopens turns n := by
  induction turns using List.reverseRecOn with
  | nil => exact h.congr fun n => or_iff_left id
  | append_singleton turns t ih =>
    rw [run_concat]
    refine (keepsOpenPoolsBeside_step ih t).congr fun n => ?_
    rw [reopens_concat, or_assoc]

/-- A pool that a turn drops is retired from then on. -/
theorem isRetired_of_drops {others : Nat → Prop} (h : l.registry.KeepsOpenPoolsBeside others)
    {key : String} (hn : l.registry.current.lookup key = some n) {t : Turn}
    (ht : t.drops key = true) : (l.step opener t).registry.IsRetired n := by
  have hlt := h.lt_length hn
  refine ⟨Nat.lt_of_lt_of_le hlt (length_pools_le_step opener l t), fun other hother => ?_⟩
  -- A pool has one key, and the turn drops what is kept under it.
  obtain ⟨hother, hkept⟩ := (lookup_current_step hlt t other).1 hother
  rw [h.key_eq hother hn, ht] at hkept
  cases hkept

/-- A pool that a turn drops is open after a run exactly if the run lends it. -/
theorem openAt_run_of_drops {others : Nat → Prop} (h : l.registry.KeepsOpenPoolsBeside others)
    {key : String} (hn : l.registry.current.lookup key = some n) {t : Turn}
    (ht : t.drops key = true) (later : List (Opener × Turn)) :
    OpenAt ((l.step opener t).run later).registry.pools n ↔ (l.step opener t).Reopens later n := by
  -- What was current is none of the others, nor does a turn that drops it lend it as retired.
  have hothers : ¬ others n := fun hother => h.retired n hother key hn
  have hlends : ¬ l.LendsRetired (opener, t) n := fun hlends => hlends.2.1.2 key hn
  have hdropped : (l.step opener t).registry.IsRetired n := isRetired_of_drops h hn ht
  have hretired := isRetired_run hdropped later
  have hcurrent : ¬ ∃ other, ((l.step opener t).run later).registry.current.lookup other = some n :=
    fun ⟨other, hother⟩ => hretired.2 other hother
  have hrun := keepsOpenPoolsBeside_run (keepsOpenPoolsBeside_step h (opener, t)) later
  rw [hrun.openAt_iff n, or_iff_right hcurrent, or_iff_right (not_or.2 ⟨hothers, hlends⟩)]

/-- A registry without current pools has some only after one was asked for. -/
theorem current_run_eq_nil (hnil : l.registry.current = []) {turns : List (Opener × Turn)}
    (hturns : ∀ t ∈ turns, t.2.isGet = false) : (l.run turns).registry.current = [] := by
  induction turns using List.reverseRecOn with
  | nil => exact hnil
  | append_singleton turns t ih =>
    have hrest := ih fun t ht => hturns t (List.mem_append_left _ ht)
    have ht : t.2.isGet = false := hturns t (by simp)
    rw [run_concat]
    obtain ⟨c, hc, h⟩ | ⟨h, -⟩ := registry_step t.1 (l.run turns) t.2
    · rw [h]
      cases c with
      | register id path => simp [Registry.step, Registry.register, hrest]
      | get id =>
        rw [hc] at ht
        cases ht
      | closeAll => rfl
      | acquire m => exact ((acquire_fields ..).2.1).trans hrest
    · rw [h, hrest]

end Turns

/-! ## Closed, and open again -/

/-- **A retired pool stays retired, and is open exactly if a session of it was lent again.** After
every run, whatever could be opened at each time, the open pools are those that are current and
those that were lent while they were retired. A pool that a call drops is closed, is never current
again, and is open from then on exactly if a later turn lends it. After all pools were closed, and
until one is asked for, the open pools are those that were lent while they were retired, before or
after. -/
theorem openAt_iff_reopens (defaultPath : Option String) (connections : Entries String)
    (maxConnections : Option Int) (readOnly externalAccess : Bool)
    (turns : List (Opener × Turn)) :
    let start := ofRegistry
      (Registry.new defaultPath connections maxConnections readOnly externalAccess)
    let l := start.run turns
    (∀ n, OpenAt l.registry.pools n ↔
      (∃ key, l.registry.current.lookup key = some n) ∨ start.Reopens turns n) ∧
    (∀ key n opener t later, l.registry.current.lookup key = some n → t.drops key = true →
      let dropped := l.step opener t
      (dropped.run later).registry.IsRetired n ∧
        (OpenAt (dropped.run later).registry.pools n ↔ dropped.Reopens later n)) ∧
    ∀ opener later n, (∀ t ∈ later, t.2.isGet = false) →
      let closed := l.step opener (.call .closeAll)
      OpenAt (closed.run later).registry.pools n ↔
        start.Reopens turns n ∨ closed.Reopens later n := by
  intro start l
  have hstart : start.registry.KeepsOpenPoolsBeside fun _ => False :=
    KeepsOpenPools.iff_beside.1 (KeepsOpenPools.new _ _ _ _ _)
  have hl : l.registry.KeepsOpenPoolsBeside (start.Reopens turns) :=
    (keepsOpenPoolsBeside_run hstart turns).congr fun n => (false_or _).symm ▸ Iff.rfl
  refine ⟨hl.openAt_iff, ?_, ?_⟩
  · intro key n opener t later hn ht dropped
    exact ⟨isRetired_run (isRetired_of_drops hl hn ht) later, openAt_run_of_drops hl hn ht later⟩
  · intro opener later n hlater closed
    -- Nothing is current before a pool is asked for, and closing all pools lends none.
    have hcurrent : (closed.run later).registry.current = [] := current_run_eq_nil rfl hlater
    have hkeyless : ¬ ∃ key, (closed.run later).registry.current.lookup key = some n := by
      rw [hcurrent]
      rintro ⟨key, hkey⟩
      cases hkey
    have hclosing : ¬ l.LendsRetired (opener, .call .closeAll) n := fun hlends => nomatch hlends.1
    have hrun := keepsOpenPoolsBeside_run
      (keepsOpenPoolsBeside_step hl (opener, .call .closeAll)) later
    rw [hrun.openAt_iff n, or_iff_right hkeyless, or_iff_left hclosing]

/-- Two pools are asked for, one of which is used while it is dropped. -/
def droppedInUse : List (Opener × Turn) :=
  [(openAnywhere, .call (.register "south" "s.duckdb")), (openAnywhere, .call (.get none)),
    (openAnywhere, .call (.get (some "south"))), (openAnywhere, .call (.acquire 1)),
    (openAnywhere, .call (.register "south" "moved.duckdb")), (openAnywhere, .release 1)]

/-- And then it is used again. -/
def usedAgain : List (Opener × Turn) := [(openAnywhere, .call (.acquire 1))]

/-- And given back. -/
def givenBack : List (Opener × Turn) := [(openAnywhere, .release 1)]

theorem openAt_iff_reopens_droppedInUse :
    let start := ofRegistry (Registry.new (some "main.duckdb") [] none false false)
    let l := start.run (droppedInUse ++ usedAgain)
    let closed := l.step openAnywhere (.call .closeAll)
    start.Reopens (droppedInUse ++ usedAgain) 1 ∧ OpenAt l.registry.pools 1 ∧
    l.registry.current.lookup defaultPoolKey = some 0 ∧
    (Turn.call .closeAll).drops defaultPoolKey = true ∧
    (∀ t ∈ givenBack, t.2.isGet = false) ∧
    (closed.run givenBack).registry.IsRetired 0 ∧
    ¬ OpenAt (closed.run givenBack).registry.pools 0 ∧
    OpenAt (closed.run givenBack).registry.pools 1 := by
  have hmain := openAt_iff_reopens (some "main.duckdb") [] none false false
    (droppedInUse ++ usedAgain)
  -- What the run leaves is computed here only; the rest is read off while it stays closed.
  generalize hstart : ofRegistry (Registry.new _ _ _ _ _) = start at hmain ⊢
  have hlength : 1 < (start.run droppedInUse).registry.pools.length := by
    rw [← hstart]
    decide +kernel
  have hkeys : (start.run droppedInUse).registry.current = [(defaultPoolKey, 0)] := by
    rw [← hstart]
    decide +kernel
  have hlends : (start.run droppedInUse).lends openAnywhere 1 = true := by
    rw [← hstart]
    decide +kernel
  have hcurrent :
      (start.run (droppedInUse ++ usedAgain)).registry.current.lookup defaultPoolKey = some 0 := by
    rw [← hstart]
    decide +kernel
  have hgiven : ∀ t ∈ givenBack, t.2.isGet = false := by decide
  intro _ l closed
  obtain ⟨hopen, hdropped, hclosed⟩ := hmain
  have hretired : (start.run droppedInUse).registry.IsRetired 1 := by
    refine ⟨hlength, fun key hkey => ?_⟩
    rw [hkeys, Entries.lookup_eq_some_iff_mem (by decide)] at hkey
    simp at hkey
  have hreopens : start.Reopens (droppedInUse ++ usedAgain) 1 :=
    (reopens_append ..).2 (.inr (.inl ⟨rfl, hretired, hlends⟩))
  obtain ⟨hzero, hiff⟩ :=
    hdropped defaultPoolKey 0 openAnywhere (.call .closeAll) givenBack hcurrent rfl
  have hnot : ¬ closed.Reopens givenBack 0 := by
    rintro (⟨hlends, -⟩ | hnil)
    · cases hlends
    · exact hnil
  refine ⟨hreopens, (hopen 1).2 (.inr hreopens), hcurrent, rfl, hgiven, hzero, ?_, ?_⟩
  · exact fun h => hnot (hiff.1 h)
  · exact (hclosed openAnywhere givenBack 1 hgiven).2 (.inl hreopens)

/-- A pool is asked for, all pools are closed, and the pool is used and closed once more. -/
def usedAfterClosing : List (Opener × Turn) :=
  [(openInMemory, .call (.get none)), (openInMemory, .call .closeAll),
    (openInMemory, .call (.acquire 0)), (openInMemory, .release 0),
    (openInMemory, .call .closeAll)]

/-- A pool that was closed with all others is open after its next use, and stays open when all
pools are closed again. -/
theorem usedAfterClosing_isOpen :
    let l := (ofRegistry (Registry.new none [] none false false)).run usedAfterClosing
    OpenAt l.registry.pools 0 ∧ l.registry.current = [] ∧ l.lent = [] :=
  ⟨⟨_, rfl, rfl⟩, rfl, rfl⟩

end Lending

end ChartQuery
