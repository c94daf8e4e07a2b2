import ChartQuery.Pool.Registry
import Mathlib.Data.List.Induction

/-!
# Histories of a registry

A registry is asked for the pools of identifiers, is told new paths for some of them and closes all
pools, in any order, while pools that it handed out are used. A pool that it hands out belongs to
the database that the identifier stands for at that time, however the registry came to hold it.

The pool without an identifier is kept under a key that is itself a text, so an identifier that is
written like it shares the pool. The results therefore ask that no namesake of the identifier, of
the same key but another name, was asked for before. Only that one key can have namesakes.

## Main definitions

* `Registry.Call`, `Registry.after`: what happens to a registry, and what is left of it afterwards
* `Registry.latestPath`: the path last registered for an identifier, or else configured
* `Registry.HandsOut`: the pool of an identifier belongs to a path
* `Registry.NoNamesake`: no other identifier of the same key was asked for
* `Registry.IsFaithful`: every current pool belongs to the database of an identifier of its key

## Main results

* `Registry.IsFaithful.step`: one call keeps a registry faithful
* `Registry.isFaithful_after`: so does every history
* `Registry.lookup_connections_after`: the paths that a registry knows after a history
* `Registry.get_after`: what a registry hands out does not depend on its history
-/

namespace ChartQuery.Registry

/-! ## Calls -/

/-- What can happen to a registry. -/
inductive Call where
  /-- An identifier is given a path. -/
  | register (id path : String)
  /-- The pool of an identifier is asked for. -/
  | get (id : Option String)
  /-- All pools are closed. -/
  | closeAll
  /-- A session of a pool is used, and opened where it has to be. -/
  | acquire (pool : Nat)
  deriving DecidableEq

/-- The registry after one call. -/
def step (opener : Opener) (r : Registry) : Call → Registry
  | .register id path => r.register id path
  | .get id => (r.get opener id).2
  | .closeAll => r.closeAll
  | .acquire n => (r.acquire opener n).2

/-- The registry after a history of calls. -/
def after (opener : Opener) (r : Registry) (history : List Call) : Registry :=
  history.foldl (step opener) r

theorem after_concat (opener : Opener) (r : Registry) (history : List Call) (c : Call) :
    r.after opener (history ++ [c]) = (r.after opener history).step opener c := by
  simp [after]

/-- The path that a call registers for an identifier. -/
def Call.registered? (id : String) : Call → Option String
  | register i path => if i = id then some path else none
  | _ => none

/-- The path last registered for an identifier in a history, or else configured. -/
def latestPath (connections : Entries String) (history : List Call) (id : String) :
    Option String :=
  (history.reverse.findSome? (Call.registered? id)).or (connections.lookup id)

/-- The paths of the pools ever handed out. -/
def paths (r : Registry) : List String := r.pools.map Pool.path

/-- A database at a path can be opened with as many connections as the registry allows. -/
def CanOpen (opener : Opener) (r : Registry) (path : String) : Prop :=
  0 ≤ r.maxConnections ∧ (opener path).isSome

/-- The registry hands out a pool at a path for an identifier. -/
def HandsOut (opener : Opener) (r : Registry) (id : Option String) (path : String) : Prop :=
  ∃ n, (r.get opener id).1 = .ok n ∧ (r.get opener id).2.paths[n]? = some path

/-- No other identifier of the same key was asked for. -/
def NoNamesake (history : List Call) (id : Option String) : Prop :=
  ∀ other, Call.get other ∈ history → keyOf other = keyOf id → given? other = given? id

/-- Only the key of the pool without an identifier has namesakes. -/
theorem noNamesake_of_keyOf_ne {id : Option String} (h : keyOf id ≠ defaultPoolKey)
    (history : List Call) : NoNamesake history id := by
  intro other _ hkey
  cases hother : given? other with
  | none =>
    have hdefault : keyOf other = defaultPoolKey := by rw [keyOf, hother]; rfl
    exact absurd (hkey.symm.trans hdefault) h
  | some i =>
    cases hid : given? id with
    | none => exact absurd (by rw [keyOf, hid]; rfl) h
    | some j =>
      rw [keyOf, keyOf, hother, hid] at hkey
      exact congrArg some hkey

/-! ## What a call does -/

section Calls

variable {opener : Opener} {r : Registry} {id : Option String}

/-- Changing pools in place leaves their paths as they are, if each change does. -/
theorem map_path_modify {f : Pool → Pool} (hf : ∀ p, (f p).path = p.path) (ps : List Pool)
    (n : Nat) : (ps.modify n f).map Pool.path = ps.map Pool.path := by
  apply List.ext_getElem?
  intro m
  rw [List.getElem?_map, List.getElem?_map, List.getElem?_modify]
  cases ps[m]? with
  | none => rfl
  | some p =>
    show some (if n = m then f p else p).path = some p.path
    split
    · rw [hf]
    · rfl

@[simp] theorem paths_register (r : Registry) (id path : String) :
    (r.register id path).paths = r.paths := by
  rw [register]
  split
  · exact map_path_modify Pool.close_path r.pools _
  · rfl

/-- A registered identifier has no current pool, and the others keep theirs. -/
theorem lookup_current_register (r : Registry) (id path key : String) :
    (r.register id path).current.lookup key =
      if key = id then none else r.current.lookup key := by
  rw [register]
  split
  · exact Entries.lookup_remove r.current id key
  · rename_i hnone
    split
    · rename_i hkey
      rw [hkey]
      exact hnone
    · rfl

theorem connections_register (r : Registry) (id path : String) :
    (r.register id path).connections = r.connections.assign id path := by
  rw [register]
  split <;> rfl

theorem acquire_fields (opener : Opener) (r : Registry) (n : Nat) :
    (r.acquire opener n).2.paths = r.paths ∧ (r.acquire opener n).2.current = r.current ∧
      (r.acquire opener n).2.connections = r.connections ∧
      (r.acquire opener n).2.defaultPath = r.defaultPath := by
  rw [acquire]
  split
  · exact ⟨map_path_modify (Pool.holding_path _) r.pools n, rfl, rfl, rfl⟩
  · exact ⟨rfl, rfl, rfl, rfl⟩

/-- A pool that could be opened for an identifier is open, at its path and under its key, and is the
last one of the registry. -/
theorem openNew_eq_ok {opened : Nat × Registry} (h : r.openNew opener id = .ok opened) :
    ∃ path p, r.pathOf id = .ok path ∧ p.path = path ∧ p.name = keyOf id ∧ p.isOpen = true ∧
      opened = (r.pools.length, r.enrol (keyOf id) p) := by
  rw [openNew] at h
  split at h
  · cases h
  · rename_i path hpath
    split at h
    · cases h
    · split at h
      · rename_i p hp
        obtain ⟨d, -, rfl⟩ := Option.map_eq_some_iff.1 hp
        cases h
        exact ⟨path, _, hpath, rfl, rfl, rfl, rfl⟩
      · cases h

/-- A registry asked for a pool hands out the current one, or opens one at the path of the
identifier and under its key, or fails and stays as it is. -/
theorem get_cases (opener : Opener) (r : Registry) (id : Option String) :
    (∃ n, r.current.lookup (keyOf id) = some n ∧ r.get opener id = (.ok n, r)) ∨
    (r.current.lookup (keyOf id) = none ∧ ∃ path p, r.pathOf id = .ok path ∧
      (p.path = path ∧ p.name = keyOf id ∧ p.isOpen = true) ∧
      r.get opener id = (.ok r.pools.length, r.enrol (keyOf id) p)) ∨
    (r.current.lookup (keyOf id) = none ∧ ∃ e, r.openNew opener id = .error e ∧
      r.get opener id = (.error e, r)) := by
  cases hcurrent : r.current.lookup (keyOf id) with
  | some n => exact .inl ⟨n, rfl, get_current hcurrent⟩
  | none =>
    cases hopen : r.openNew opener id with
    | error e => exact .inr (.inr ⟨rfl, e, rfl, by simp [get, hcurrent, hopen]⟩)
    | ok opened =>
      obtain ⟨path, p, hpath, hp, hname, hheld, rfl⟩ := openNew_eq_ok hopen
      exact .inr (.inl ⟨rfl, path, p, hpath, ⟨hp, hname, hheld⟩, by simp [get, hcurrent, hopen]⟩)

/-- Where the path of an identifier can be opened, so can a pool for it. -/
theorem openNew_ok {path : String} (hpath : r.pathOf id = .ok path) (hopen : r.CanOpen opener path) :
    ∃ opened, r.openNew opener id = .ok opened := by
  obtain ⟨hslots, hsome⟩ := hopen
  obtain ⟨d, hd⟩ := Option.isSome_iff_exists.1 hsome
  have hpool : (r.newPool (keyOf id) path).opened opener =
      some ((r.newPool (keyOf id) path).holding d) := by
    simp [Pool.opened, Pool.session?, newPool, hd]
  rw [openNew, hpath]
  simp only [Int.not_lt.2 hslots, if_false, hpool]
  exact ⟨_, rfl⟩

/-- No pool can be opened for an identifier that is not found, and an identifier is not found only
if it has no path. -/
theorem openNew_eq_notFound_iff (opener : Opener) {i : String} :
    r.openNew opener id = .error (.chart (.connectionNotFound i)) ↔
      r.pathOf id = .error (.connectionNotFound i) := by
  rw [openNew]
  cases hpath : r.pathOf id with
  | error e => simp
  | ok path =>
    simp only [reduceCtorEq, iff_false]
    split
    · simp
    · split <;> simp

/-- The path of an identifier depends on nothing but its text. -/
theorem pathOf_congr {other : Option String} (h : given? other = given? id) :
    r.pathOf other = r.pathOf id := by
  rw [pathOf, pathOf, h]

/-- Registering an identifier changes the paths of no other key. -/
theorem pathOf_register {i path : String} (h : keyOf id ≠ i) :
    (r.register i path).pathOf id = r.pathOf id := by
  have hdefault : (r.register i path).defaultPath = r.defaultPath := by
    rw [register]
    split <;> rfl
  rw [pathOf, pathOf, hdefault, connections_register]
  cases hid : given? id with
  | none => rfl
  | some j =>
    have hj : j ≠ i := by simpa [keyOf, hid] using h
    simp only [Entries.lookup_assign, hj, if_false]

end Calls

/-! ## Faithful registries -/

/-- Every current pool belongs to the database of an identifier of its key that was asked for. -/
def IsFaithful (r : Registry) (history : List Call) : Prop :=
  ∀ key n, r.current.lookup key = some n → ∃ id path, Call.get id ∈ history ∧ keyOf id = key ∧
    r.pathOf id = .ok path ∧ r.paths[n]? = some path

section Faithful

variable {opener : Opener} {r : Registry} {history : List Call}

/-- Asking for a pool keeps a registry faithful. -/
theorem IsFaithful.get (h : r.IsFaithful history) (id : Option String) :
    ((r.get opener id).2).IsFaithful (history ++ [.get id]) := by
  have hmore : r.IsFaithful (history ++ [.get id]) := by
    intro key n hn
    obtain ⟨other, path, hother, hkey, hpath, hn⟩ := h key n hn
    exact ⟨other, path, List.mem_append_left _ hother, hkey, hpath, hn⟩
  obtain ⟨n, -, hget⟩ | ⟨-, path, p, hpath, ⟨hp, -, -⟩, hget⟩ | ⟨-, e, -, hget⟩ :=
    get_cases opener r id
  · rw [hget]
    exact hmore
  · rw [hget]
    intro key n hn
    have hpaths : (r.enrol (keyOf id) p).paths = r.paths ++ [path] := by
      simp [enrol, paths, hp]
    replace hn : (r.current.assign (keyOf id) r.pools.length).lookup key = some n := hn
    rw [Entries.lookup_assign] at hn
    rw [hpaths]
    split at hn
    · -- The new pool is the last one.
      rename_i hkey
      cases hn
      refine ⟨id, path, by simp, hkey.symm, hpath, ?_⟩
      rw [List.getElem?_append_right (by simp [paths])]
      simp [paths]
    · -- The pools handed out before stand in front of it.
      obtain ⟨other, path', hother, hkey, hpath', hn⟩ := hmore key n hn
      refine ⟨other, path', hother, hkey, hpath', ?_⟩
      rw [List.getElem?_append_left (List.getElem?_eq_some_iff.1 hn).1]
      exact hn
  · rw [hget]
    exact hmore

/-- **One call keeps a registry faithful.** -/
theorem IsFaithful.step (h : r.IsFaithful history) (c : Call) :
    (r.step opener c).IsFaithful (history ++ [c]) := by
  cases c with
  | register id path =>
    intro key n hn
    replace hn : (r.register id path).current.lookup key = some n := hn
    rw [lookup_current_register] at hn
    split at hn
    -- The pool of the identifier itself is gone, and no other key stands for another path now.
    · cases hn
    · rename_i hkey
      obtain ⟨other, path', hother, rfl, hpath, hn⟩ := h key n hn
      refine ⟨other, path', List.mem_append_left _ hother, rfl, ?_, ?_⟩
      · exact (pathOf_register hkey).trans hpath
      · show (r.register id path).paths[n]? = some path'
        rw [paths_register]
        exact hn
  | get id => exact h.get id
  | closeAll =>
    -- No pool is current.
    intro key n hn
    cases hn
  | acquire m =>
    obtain ⟨hpaths, hcurrent, hconnections, hdefault⟩ := acquire_fields opener r m
    intro key n hn
    replace hn : (r.acquire opener m).2.current.lookup key = some n := hn
    rw [hcurrent] at hn
    obtain ⟨other, path, hother, hkey, hpath, hn⟩ := h key n hn
    refine ⟨other, path, List.mem_append_left _ hother, hkey, ?_, ?_⟩
    · show (r.acquire opener m).2.pathOf other = .ok path
      rw [← hpath, pathOf, pathOf, hconnections, hdefault]
    · show (r.acquire opener m).2.paths[n]? = some path
      rw [hpaths]
      exact hn

/-- **Every history keeps a registry faithful** that had no current pools. -/
theorem isFaithful_after (hr : r.current = []) (history : List Call) :
    (r.after opener history).IsFaithful history := by
  induction history using List.reverseRecOn with
  | nil =>
    intro key n hn
    rw [show (r.after opener []).current = [] from hr] at hn
    cases hn
  | append_singleton history c ih =>
    rw [after_concat]
    exact ih.step c

/-- A faithful registry hands out a pool at the path of the identifier. -/
theorem IsFaithful.handsOut (h : r.IsFaithful history) {id : Option String}
    (hname : NoNamesake history id) {path : String} (hpath : r.pathOf id = .ok path)
    (hopen : r.CanOpen opener path) : r.HandsOut opener id path := by
  obtain ⟨n, hn, hget⟩ | ⟨-, path', p, hpath', ⟨hp, -, -⟩, hget⟩ | ⟨-, e, he, -⟩ :=
    get_cases opener r id
  -- A current pool was opened for an identifier of the same key, which is no namesake.
  · obtain ⟨other, path', hother, hkey, hpath', hn⟩ := h _ n hn
    have hsame : path' = path := by
      rw [pathOf_congr (hname other hother hkey), hpath] at hpath'
      exact (Except.ok.inj hpath').symm
    refine ⟨n, by rw [hget], ?_⟩
    rw [hget, ← hsame]
    exact hn
  · have hsame : path' = path := by
      rw [hpath] at hpath'
      exact (Except.ok.inj hpath').symm
    refine ⟨r.pools.length, by rw [hget], ?_⟩
    rw [hget, ← hsame, ← hp]
    simp [enrol, paths]
  · obtain ⟨opened, hok⟩ := openNew_ok hpath hopen
    rw [hok] at he
    cases he

/-- A faithful registry does not find an identifier exactly if it knows no path for it. -/
theorem IsFaithful.get_eq_notFound_iff (h : r.IsFaithful history) {id : Option String}
    (hname : NoNamesake history id) {i : String} :
    (r.get opener id).1 = .error (.chart (.connectionNotFound i)) ↔
      r.pathOf id = .error (.connectionNotFound i) := by
  obtain ⟨n, hn, hget⟩ | ⟨-, path, p, hpath, -, hget⟩ | ⟨-, e, he, hget⟩ := get_cases opener r id
  · obtain ⟨other, path, hother, hkey, hpath, -⟩ := h _ n hn
    rw [pathOf_congr (hname other hother hkey)] at hpath
    rw [hget, hpath]
    simp
  · rw [hget, hpath]
    simp
  · rw [hget, ← openNew_eq_notFound_iff opener, he]
    simp

end Faithful

/-! ## What a registry hands out -/

section HandedOut

variable (opener : Opener) (r : Registry)

theorem step_defaultPath (c : Call) : (r.step opener c).defaultPath = r.defaultPath := by
  cases c with
  | register id path =>
    show (r.register id path).defaultPath = _
    rw [register]
    split <;> rfl
  | get id =>
    show (r.get opener id).2.defaultPath = _
    obtain ⟨n, -, hget⟩ | ⟨-, path, p, -, -, hget⟩ | ⟨-, e, -, hget⟩ := get_cases opener r id
    all_goals rw [hget]
    rfl
  | closeAll => rfl
  | acquire n => exact (acquire_fields opener r n).2.2.2

theorem after_defaultPath (history : List Call) :
    (r.after opener history).defaultPath = r.defaultPath := by
  induction history using List.reverseRecOn with
  | nil => rfl
  | append_singleton history c ih => rw [after_concat, step_defaultPath, ih]

/-- What one call makes of the path that a registry knows for an identifier. -/
theorem lookup_connections_step (c : Call) (id : String) :
    (r.step opener c).connections.lookup id =
      (c.registered? id).or (r.connections.lookup id) := by
  cases c with
  | register i path =>
    show (r.register i path).connections.lookup id = _
    rw [connections_register, Entries.lookup_assign, Call.registered?]
    by_cases h : id = i
    · rw [if_pos h, if_pos h.symm]
      rfl
    · rw [if_neg h, if_neg (Ne.symm h)]
      rfl
  | get i =>
    show (r.get opener i).2.connections.lookup id = _
    obtain ⟨n, -, hget⟩ | ⟨-, path, p, -, -, hget⟩ | ⟨-, e, -, hget⟩ := get_cases opener r i
    all_goals rw [hget]; rfl
  | closeAll => rfl
  | acquire n =>
    show (r.acquire opener n).2.connections.lookup id = _
    rw [(acquire_fields opener r n).2.2.1]
    rfl

/-- A registry knows the paths last registered, and those configured before. -/
theorem lookup_connections_after (history : List Call) (id : String) :
    (r.after opener history).connections.lookup id = latestPath r.connections history id := by
  induction history using List.reverseRecOn with
  | nil => rfl
  | append_singleton history c ih =>
    rw [after_concat, lookup_connections_step, ih, latestPath, latestPath, List.reverse_concat,
      List.findSome?_cons]
    cases c.registered? id <;> rfl

/-- The path of an identifier after a history. -/
theorem pathOf_after (history : List Call) (id : Option String) :
    (r.after opener history).pathOf id =
      match given? id with
      | none => .ok r.defaultPath
      | some i =>
        match latestPath r.connections history i with
        | some path => .ok path
        | none => .error (.connectionNotFound i) := by
  rw [pathOf, after_defaultPath]
  cases given? id with
  | none => rfl
  | some i =>
    cases hlatest : latestPath r.connections history i with
    | none => simp only [lookup_connections_after, hlatest]
    | some path => simp only [lookup_connections_after, hlatest]

/-- **What a registry hands out does not depend on its history.** After any calls, if no namesake of
an identifier was asked for, its pool is at the path last registered for it or else configured, and
it is not found exactly if there is no such path; who gives no identifier gets a pool at the default
path. -/
theorem get_after (defaultPath : Option String) (connections : Entries String)
    (maxConnections : Option Int) (readOnly externalAccess : Bool) (history : List Call)
    (id : Option String) (hname : NoNamesake history id) :
    let start := Registry.new defaultPath connections maxConnections readOnly externalAccess
    let r := start.after opener history
    (given? id = none → r.CanOpen opener start.defaultPath →
      r.HandsOut opener id start.defaultPath) ∧
    (∀ i path, given? id = some i → latestPath connections history i = some path →
      r.CanOpen opener path → r.HandsOut opener id path) ∧
    ∀ i, (r.get opener id).1 = .error (.chart (.connectionNotFound i)) ↔
      given? id = some i ∧ latestPath connections history i = none := by
  intro start r
  have hfaithful : r.IsFaithful history := isFaithful_after rfl history
  have hpath := pathOf_after opener start history id
  refine ⟨?_, ?_, ?_⟩
  · intro hid hopen
    rw [hid] at hpath
    exact hfaithful.handsOut hname hpath hopen
  · intro i path hid hlatest hopen
    have hlatest' : latestPath start.connections history i = some path := hlatest
    rw [hid] at hpath
    simp only [hlatest'] at hpath
    exact hfaithful.handsOut hname hpath hopen
  · intro i
    rw [hfaithful.get_eq_notFound_iff hname, hpath]
    have hconnections : start.connections = connections := rfl
    cases given? id with
    | none => simp
    | some j =>
      simp only [hconnections, Option.some.injEq]
      cases hlatest : latestPath connections history j with
      | none =>
        simp only [Except.error.injEq, ChartError.connectionNotFound.injEq]
        constructor
        · rintro rfl
          exact ⟨rfl, hlatest⟩
        · exact fun h => h.1
      | some path =>
        simp only [reduceCtorEq, false_iff, not_and]
        rintro rfl
        simp [hlatest]

end HandedOut

/-! ## Pools with and without an identifier -/

/-- Opens every path. -/
def openAnywhere : Opener := fun _ => some .empty

/-- Calls that register an identifier twice, with uses and a shutdown between them. -/
def busyHistory : List Call :=
  [.get none, .get (some "north"), .register "south" "south.duckdb", .get (some "south"),
    .get (some "west"), .closeAll, .acquire 1, .get (some "south"),
    .register "south" "moved.duckdb", .get (some "")]

theorem get_after_busyHistory :
    let start := Registry.new (some "main.duckdb") [("north", "north.duckdb")] none false false
    let r := start.after openAnywhere busyHistory
    NoNamesake busyHistory none ∧ NoNamesake busyHistory (some "north") ∧
    NoNamesake busyHistory (some "south") ∧ NoNamesake busyHistory (some "west") ∧
    r.HandsOut openAnywhere none "main.duckdb" ∧
    r.HandsOut openAnywhere (some "north") "north.duckdb" ∧
    r.HandsOut openAnywhere (some "south") "moved.duckdb" ∧
    (r.get openAnywhere (some "west")).1 = .error (.chart (.connectionNotFound "west")) := by
  intro start r
  have hnone : NoNamesake busyHistory none := by
    intro other hmem
    simp only [busyHistory, List.mem_cons, Call.get.injEq, reduceCtorEq, List.not_mem_nil,
      or_false, false_or] at hmem
    rcases hmem with rfl | rfl | rfl | rfl | rfl | rfl <;> decide
  have hnorth : NoNamesake busyHistory (some "north") :=
    noNamesake_of_keyOf_ne (by decide) busyHistory
  have hsouth : NoNamesake busyHistory (some "south") :=
    noNamesake_of_keyOf_ne (by decide) busyHistory
  have hwest : NoNamesake busyHistory (some "west") :=
    noNamesake_of_keyOf_ne (by decide) busyHistory
  have hopen : ∀ path, r.CanOpen openAnywhere path := fun _ => ⟨by decide, rfl⟩
  have h := get_after openAnywhere (some "main.duckdb") [("north", "north.duckdb")] none false false
    busyHistory
  exact ⟨hnone, hnorth, hsouth, hwest, (h none hnone).1 rfl (hopen _),
    (h _ hnorth).2.1 "north" _ rfl (by decide) (hopen _),
    (h _ hsouth).2.1 "south" _ rfl (by decide) (hopen _),
    ((h _ hwest).2.2 "west").2 ⟨rfl, by decide⟩⟩

/-- An unknown identifier that is written like the key of the pool without one gets that pool, and
whoever gives no identifier gets the pool of one that is written so. -/
theorem defaultPoolKey_sharesPool :
    let start := Registry.new (some "main.duckdb") [] none false false
    (latestPath [] [.get none] defaultPoolKey = none ∧
      (start.after openAnywhere [.get none]).HandsOut openAnywhere (some defaultPoolKey)
        "main.duckdb") ∧
    (start.after openAnywhere [.register defaultPoolKey "own.duckdb",
      .get (some defaultPoolKey)]).HandsOut openAnywhere none "own.duckdb" := by
  intro start
  exact ⟨⟨rfl, 0, rfl, rfl⟩, 0, rfl, rfl⟩

end ChartQuery.Registry
