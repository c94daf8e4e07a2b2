import ChartQuery.Proofs.Pool.History

/-!
# Open pools of a registry

A registry keeps the pools that it handed out last, one for each key, and closes a pool when it lets
go of it. So no pool is left open that the registry does not keep, however often opening a database
fails in between.

A pool opens itself again when it is used, also if the registry let go of it. The result about open
pools is therefore one about runs in which pools are asked for but not used. That a pool is handed
out again until it is dropped holds of all runs.

## Main definitions

* `Registry.run`: what is left of a registry after calls, each of which finds other databases
* `Registry.OpenAt`: a pool that was handed out holds a session
* `Registry.Call.drops`: the calls that let go of the pool of a key
* `Registry.KeepsOpenPools`: the open pools are those that are current, each under its own name
* `Registry.KeepsOpenPoolsBeside`: so they are, but for others that the registry has let go of

## Main results

* `Registry.KeepsOpenPools.step`: one call leaves no other pool open
* `Registry.lookup_current_step`: one call keeps the pool of a key, or drops it
* `Registry.leaksNoPool`: no run leaves another pool open, and pools are kept until they are dropped
-/

namespace ChartQuery.Registry

/-! ## Runs -/

/-- The registry after calls, each with the databases that can be opened at its time. -/
def run (r : Registry) (calls : List (Opener × Call)) : Registry :=
  calls.foldl (fun r c => r.step c.1 c.2) r

theorem run_concat (r : Registry) (calls : List (Opener × Call)) (c : Opener × Call) :
    r.run (calls ++ [c]) = (r.run calls).step c.1 c.2 := by
  simp [run]

/-- A call that uses a pool, and so may open one that is not current. -/
def Call.isUse : Call → Bool
  | acquire _ => true
  | _ => false

/-- A call that lets go of the pool of a key. -/
def Call.drops (key : String) : Call → Bool
  | register id _ => id == key
  | closeAll => true
  | _ => false

/-- The pool of a number holds a session. -/
def OpenAt (ps : List Pool) (n : Nat) : Prop := ∃ p, ps[n]? = some p ∧ p.isOpen = true

/-- The open pools of a registry are those that are current, and each of these has the name under
which it is kept. -/
structure KeepsOpenPools (r : Registry) : Prop where
  nodup : (r.current.map Prod.fst).Nodup
  openAt_iff : ∀ n, OpenAt r.pools n ↔ ∃ key, r.current.lookup key = some n
  name_eq : ∀ key n, r.current.lookup key = some n → r.pools[n]?.map Pool.name = some key

/-- The open pools of a registry are those that are current, each of which has the name under which
it is kept, and others, which the registry has let go of. -/
structure KeepsOpenPoolsBeside (r : Registry) (others : Nat → Prop) : Prop where
  nodup : (r.current.map Prod.fst).Nodup
  openAt_iff : ∀ n, OpenAt r.pools n ↔ (∃ key, r.current.lookup key = some n) ∨ others n
  name_eq : ∀ key n, r.current.lookup key = some n → r.pools[n]?.map Pool.name = some key
  retired : ∀ n, others n → ∀ key, r.current.lookup key ≠ some n

/-! ## What a call does to the pools -/

section Pools

/-- Changing one pool in place leaves all pools their names, if the change does. -/
theorem map_name_modify {f : Pool → Pool} (hf : ∀ p, (f p).name = p.name) (ps : List Pool)
    (m n : Nat) : (ps.modify m f)[n]?.map Pool.name = ps[n]?.map Pool.name := by
  rw [List.getElem?_modify]
  cases ps[n]? with
  | none => rfl
  | some p =>
    show some (if m = n then f p else p).name = some p.name
    split
    · rw [hf]
    · rfl

/-- After one pool was closed, the others are open that were open before. -/
theorem openAt_modify_close {ps : List Pool} {m n : Nat} :
    OpenAt (ps.modify m Pool.close) n ↔ n ≠ m ∧ OpenAt ps n := by
  simp only [OpenAt, List.getElem?_modify]
  cases ps[n]? with
  | none => simp
  | some p =>
    by_cases h : m = n
    · simp [h]
    · simp [h, Ne.symm h]

/-- After pools were closed one by one, the others are open that were open before. -/
theorem openAt_foldl_close (es : Entries Nat) {ps : List Pool} {n : Nat} :
    OpenAt (es.foldl (fun ps e => ps.modify e.2 Pool.close) ps) n ↔
      n ∉ es.map Prod.snd ∧ OpenAt ps n := by
  induction es generalizing ps with
  | nil => simp
  | cons e es ih =>
    rw [List.foldl_cons, ih, openAt_modify_close, List.map_cons, List.mem_cons]
    tauto

/-- Closing pools loses none. -/
theorem length_foldl_close (es : Entries Nat) (ps : List Pool) :
    (es.foldl (fun ps e => ps.modify e.2 Pool.close) ps).length = ps.length := by
  induction es generalizing ps with
  | nil => rfl
  | cons e es ih => rw [List.foldl_cons, ih, List.length_modify]

/-- One more pool that is open is open at the end. -/
theorem openAt_concat {ps : List Pool} {p : Pool} (hp : p.isOpen = true) {n : Nat} :
    OpenAt (ps ++ [p]) n ↔ n = ps.length ∨ OpenAt ps n := by
  obtain hlt | rfl | hgt := Nat.lt_trichotomy n ps.length
  · simp [OpenAt, List.getElem?_append_left hlt, Nat.ne_of_lt hlt]
  · simp [OpenAt, hp]
  · have hout : (ps ++ [p])[n]? = none :=
      List.getElem?_eq_none (by simpa using Nat.succ_le_of_lt hgt)
    have hout' : ps[n]? = none := List.getElem?_eq_none (Nat.le_of_lt hgt)
    simp [OpenAt, hout, hout', Nat.ne_of_gt hgt]

/-- A pool that gave a session is open, and the others are as they were. -/
theorem openAt_acquire {opener : Opener} {r : Registry} {m n : Nat} :
    OpenAt (r.acquire opener m).2.pools n ↔
      OpenAt r.pools n ∨ (n = m ∧ (r.acquire opener m).1.isSome = true) := by
  rw [acquire]
  cases hd : r.pools[m]?.bind fun p => p.session? opener with
  | none => simp
  | some d =>
    obtain ⟨p, hp, -⟩ := Option.bind_eq_some_iff.1 hd
    simp only [modifyPool, OpenAt, List.getElem?_modify]
    by_cases h : m = n
    · subst h
      simp [hp, Pool.isOpen, Pool.holding]
    · simp [h, Ne.symm h]

theorem name_acquire {opener : Opener} {r : Registry} {m n : Nat} :
    (r.acquire opener m).2.pools[n]?.map Pool.name = r.pools[n]?.map Pool.name := by
  have hname (d : Database) (p : Pool) : (p.holding d).name = p.name := rfl
  rw [acquire]
  split
  · exact map_name_modify (hname _) r.pools m n
  · rfl

end Pools

/-! ## Registries that keep their open pools -/

namespace KeepsOpenPoolsBeside

variable {opener : Opener} {r : Registry} {others others' : Nat → Prop}

theorem congr (h : r.KeepsOpenPoolsBeside others) (hothers : ∀ n, others' n ↔ others n) :
    r.KeepsOpenPoolsBeside others' where
  nodup := h.nodup
  openAt_iff n := by rw [h.openAt_iff, hothers]
  name_eq := h.name_eq
  retired n hn := h.retired n ((hothers n).1 hn)

/-- A current pool is one that was handed out. -/
theorem lt_length (h : r.KeepsOpenPoolsBeside others) {key : String} {n : Nat}
    (hn : r.current.lookup key = some n) : n < r.pools.length := by
  obtain ⟨p, hp, -⟩ := Option.map_eq_some_iff.1 (h.name_eq key n hn)
  exact (List.getElem?_eq_some_iff.1 hp).1

/-- No pool is kept under two keys. -/
theorem key_eq (h : r.KeepsOpenPoolsBeside others) {key other : String} {n : Nat}
    (hn : r.current.lookup key = some n) (hother : r.current.lookup other = some n) :
    key = other :=
  Option.some.inj ((h.name_eq key n hn).symm.trans (h.name_eq other n hother))

/-- A registry that is told a path closes the pool that it lets go of. -/
theorem register (h : r.KeepsOpenPoolsBeside others) (id path : String) :
    (r.register id path).KeepsOpenPoolsBeside others := by
  have hlookup := lookup_current_register r id path
  cases hid : r.current.lookup id with
  | none =>
    have hr : r.register id path = { r with connections := r.connections.assign id path } := by
      simp [Registry.register, hid]
    rw [hr]
    exact ⟨h.nodup, h.openAt_iff, h.name_eq, h.retired⟩
  -- Only a pool that is let go of is closed, so that the others are current and open as before.
  | some m =>
    have hpools : (r.register id path).pools = r.pools.modify m Pool.close := by
      simp [Registry.register, hid, modifyPool]
    have hcurrent : (r.register id path).current = r.current.remove id := by
      simp [Registry.register, hid]
    have hkept : ∀ n key, (r.register id path).current.lookup key = some n →
        key ≠ id ∧ r.current.lookup key = some n := by
      intro n key hn
      rw [hlookup] at hn
      split at hn
      · cases hn
      · rename_i hne
        exact ⟨hne, hn⟩
    refine ⟨?_, ?_, ?_, ?_⟩
    · rw [hcurrent]
      exact h.nodup.sublist (List.filter_sublist.map _)
    · -- The pool that was closed was kept under this key only, and is none of the others.
      intro n
      rw [hpools, openAt_modify_close, h.openAt_iff]
      constructor
      · rintro ⟨hne, ⟨key, hkey⟩ | hn⟩
        · have hkeys : key ≠ id := by
            rintro rfl
            exact hne (Option.some.inj (hkey.symm.trans hid))
          exact .inl ⟨key, by rw [hlookup, if_neg hkeys, hkey]⟩
        · exact .inr hn
      · rintro (⟨key, hkey⟩ | hn)
        · obtain ⟨hkeys, hkey⟩ := hkept n key hkey
          refine ⟨?_, .inl ⟨key, hkey⟩⟩
          rintro rfl
          exact hkeys (h.key_eq hkey hid)
        · refine ⟨?_, .inr hn⟩
          rintro rfl
          exact h.retired n hn id hid
    · intro key n hn
      rw [hpools, map_name_modify Pool.close_name]
      exact h.name_eq key n (hkept n key hn).2
    · intro n hn key hkey
      exact h.retired n hn key (hkept n key hkey).2

/-- A registry with one more pool, which is open and kept under its name, where none was kept. -/
theorem enrol (h : r.KeepsOpenPoolsBeside others) {key : String} {p : Pool}
    (hkey : r.current.lookup key = none) (hname : p.name = key) (hopen : p.isOpen = true) :
    (r.enrol key p).KeepsOpenPoolsBeside others := by
  have hlookup : ∀ other, (r.enrol key p).current.lookup other =
      if other = key then some r.pools.length else r.current.lookup other :=
    fun other => Entries.lookup_assign r.current key other _
  refine ⟨Entries.nodup_keys_assign h.nodup key _, ?_, ?_, ?_⟩
  -- The new pool has the last number and takes no place of another, so both sides gain just it.
  · intro n
    show OpenAt (r.pools ++ [p]) n ↔ _
    rw [openAt_concat hopen, h.openAt_iff]
    simp only [hlookup]
    constructor
    · rintro (rfl | ⟨other, hother⟩ | hn)
      · exact .inl ⟨key, if_pos rfl⟩
      · -- The key that gets the new pool kept none before.
        have hne : other ≠ key := by
          rintro rfl
          rw [hkey] at hother
          cases hother
        exact .inl ⟨other, by rw [if_neg hne, hother]⟩
      · exact .inr hn
    · rintro (⟨other, hother⟩ | hn)
      · split at hother
        · exact .inl (Option.some.inj hother).symm
        · exact .inr (.inl ⟨other, hother⟩)
      · exact .inr (.inr hn)
  · intro other n hn
    rw [hlookup] at hn
    show (r.pools ++ [p])[n]?.map Pool.name = some other
    split at hn
    · rename_i heq
      cases hn
      simp [hname, heq]
    · rw [List.getElem?_append_left (h.lt_length hn)]
      exact h.name_eq other n hn
  · intro n hn other hother
    rw [hlookup] at hother
    split at hother
    · -- One of the others is a pool of before.
      obtain ⟨q, hq, -⟩ := (h.openAt_iff n).2 (.inr hn)
      have hlt := (List.getElem?_eq_some_iff.1 hq).1
      rw [Option.some.inj hother] at hlt
      exact Nat.lt_irrefl _ hlt
    · exact h.retired n hn other hother

/-- Asking for a pool leaves no other pool open. -/
theorem get (h : r.KeepsOpenPoolsBeside others) (id : Option String) :
    (r.get opener id).2.KeepsOpenPoolsBeside others := by
  obtain ⟨n, -, hget⟩ | ⟨hnone, path, p, -, ⟨-, hname, hopen⟩, hget⟩ | ⟨-, e, -, hget⟩ :=
    get_cases opener r id
  · rw [hget]
    exact h
  · rw [hget]
    exact h.enrol hnone hname hopen
  · rw [hget]
    exact h

/-- A registry that closes all pools closes those that are current. -/
theorem closeAll (h : r.KeepsOpenPoolsBeside others) :
    r.closeAll.KeepsOpenPoolsBeside others where
  nodup := List.nodup_nil
  openAt_iff n := by
    have hcurrent : r.closeAll.current = [] := rfl
    have hmem : n ∈ r.current.map Prod.snd ↔ ∃ key, r.current.lookup key = some n := by
      simp [Entries.lookup_eq_some_iff_mem h.nodup]
    show OpenAt (r.current.foldl _ r.pools) n ↔ _
    rw [openAt_foldl_close, h.openAt_iff, hmem, hcurrent]
    constructor
    · rintro ⟨hnot, hkey | hn⟩
      · exact absurd hkey hnot
      · exact .inr hn
    · rintro (⟨key, hkey⟩ | hn)
      · cases hkey
      · exact ⟨fun ⟨key, hkey⟩ => h.retired n hn key hkey, .inr hn⟩
  name_eq key n hn := by cases hn
  retired n _ key hkey := by cases hkey

/-- Using a pool opens it, also if the registry has let go of it. -/
theorem acquire (h : r.KeepsOpenPoolsBeside others) (m : Nat) :
    (r.acquire opener m).2.KeepsOpenPoolsBeside fun n => others n ∨
      (n = m ∧ (∀ key, r.current.lookup key ≠ some m) ∧
        (r.acquire opener m).1.isSome = true) := by
  have hcurrent : (r.acquire opener m).2.current = r.current := (acquire_fields opener r m).2.1
  refine ⟨by rw [hcurrent]; exact h.nodup, fun n => ?_, fun key n hn => ?_, fun n hn key => ?_⟩
  · rw [openAt_acquire, h.openAt_iff, hcurrent]
    constructor
    · rintro ((hkey | hn) | ⟨rfl, hsession⟩)
      · exact .inl hkey
      · exact .inr (.inl hn)
      · -- A pool that is current was open before.
        by_cases hkey : ∃ key, r.current.lookup key = some n
        · exact .inl hkey
        · exact .inr (.inr ⟨rfl, fun key hn => hkey ⟨key, hn⟩, hsession⟩)
    · rintro (hkey | hn | ⟨rfl, -, hsession⟩)
      · exact .inl (.inl hkey)
      · exact .inl (.inr hn)
      · exact .inr ⟨rfl, hsession⟩
  · rw [hcurrent] at hn
    rw [name_acquire]
    exact h.name_eq key n hn
  · rw [hcurrent]
    rcases hn with hn | ⟨rfl, hretired, -⟩
    · exact h.retired n hn key
    · exact hretired key

end KeepsOpenPoolsBeside

namespace KeepsOpenPools

variable {opener : Opener} {r : Registry}

/-- A registry without pools has none that is open. -/
theorem new (defaultPath : Option String) (connections : Entries String)
    (maxConnections : Option Int) (readOnly externalAccess : Bool) :
    (Registry.new defaultPath connections maxConnections readOnly
      externalAccess).KeepsOpenPools where
  nodup := List.nodup_nil
  openAt_iff n := by simp [OpenAt, Registry.new]
  name_eq key n h := by cases h

/-- Only current pools are open exactly if no others are. -/
theorem iff_beside : r.KeepsOpenPools ↔ r.KeepsOpenPoolsBeside fun _ => False := by
  constructor
  · intro h
    exact ⟨h.nodup, fun n => by rw [h.openAt_iff, or_false], h.name_eq, fun _ hn => hn.elim⟩
  · intro h
    exact ⟨h.nodup, fun n => by rw [h.openAt_iff, or_false], h.name_eq⟩

/-- **One call leaves no pool open but the current ones**, if it does not use a pool. -/
theorem step (h : r.KeepsOpenPools) {c : Call} (hc : c.isUse = false) :
    (r.step opener c).KeepsOpenPools := by
  rw [iff_beside] at h ⊢
  cases c with
  | register id path => exact h.register id path
  | get id => exact h.get id
  | closeAll => exact h.closeAll
  | acquire n => cases hc

/-- Neither does a run. -/
theorem run (h : r.KeepsOpenPools) {calls : List (Opener × Call)}
    (hcalls : ∀ c ∈ calls, c.2.isUse = false) : (r.run calls).KeepsOpenPools := by
  induction calls using List.reverseRecOn with
  | nil => exact h
  | append_singleton calls c ih =>
    rw [run_concat]
    have hrest := ih fun d hd => hcalls d (List.mem_append_left _ hd)
    exact hrest.step (hcalls c (by simp))

end KeepsOpenPools

/-! ## Pools that are handed out again -/

section HandedOutAgain

variable {opener : Opener} {r : Registry} {key : String} {n : Nat}

/-- A registry never forgets that it handed out a pool. -/
theorem length_pools_le_step (opener : Opener) (r : Registry) (c : Call) :
    r.pools.length ≤ (r.step opener c).pools.length := by
  cases c with
  | register id path =>
    have h := congrArg List.length (paths_register r id path)
    simp only [paths, List.length_map] at h
    exact Nat.le_of_eq h.symm
  | get id =>
    show _ ≤ (r.get opener id).2.pools.length
    obtain ⟨m, -, hget⟩ | ⟨-, path, p, -, -, hget⟩ | ⟨-, e, -, hget⟩ := get_cases opener r id
    · exact Nat.le_of_eq (by rw [hget])
    · rw [hget]
      simp [enrol]
    · exact Nat.le_of_eq (by rw [hget])
  | closeAll =>
    exact Nat.le_of_eq (length_foldl_close r.current r.pools).symm
  | acquire m =>
    have h := congrArg List.length (acquire_fields opener r m).1
    simp only [paths, List.length_map] at h
    exact Nat.le_of_eq h.symm

theorem length_pools_le_run (r : Registry) (calls : List (Opener × Call)) :
    r.pools.length ≤ (r.run calls).pools.length := by
  induction calls using List.reverseRecOn with
  | nil => exact Nat.le_refl _
  | append_singleton calls c ih =>
    rw [run_concat]
    exact Nat.le_trans ih (length_pools_le_step c.1 _ c.2)

/-- **One call keeps the pool of a key, or drops it**, and a pool that is not kept under the key
does not come back. -/
theorem lookup_current_step (hn : n < r.pools.length) (c : Call) :
    (r.step opener c).current.lookup key = some n ↔
      r.current.lookup key = some n ∧ c.drops key = false := by
  cases c with
  | register id path =>
    show (r.register id path).current.lookup key = some n ↔ _ ∧ (id == key) = false
    rw [lookup_current_register]
    by_cases h : key = id
    · simp [h]
    · simp [h, Ne.symm h]
  | get id =>
    show (r.get opener id).2.current.lookup key = some n ↔ _ ∧ false = false
    obtain ⟨m, -, hget⟩ | ⟨hnone, path, p, -, -, hget⟩ | ⟨-, e, -, hget⟩ := get_cases opener r id
    · simp [hget]
    · -- A new pool has a number that no pool had before.
      have hlookup := Entries.lookup_assign r.current (keyOf id) key r.pools.length
      rw [hget]
      show (r.current.assign (keyOf id) r.pools.length).lookup key = some n ↔ _
      rw [hlookup]
      by_cases h : key = keyOf id
      · rw [if_pos h, h, hnone]
        simp [Nat.ne_of_gt hn]
      · simp [h]
    · simp [hget]
  | closeAll =>
    show (none : Option Nat) = some n ↔ _ ∧ true = false
    simp
  | acquire m =>
    show (r.acquire opener m).2.current.lookup key = some n ↔ _ ∧ false = false
    simp [(acquire_fields opener r m).2.1]

/-- A run keeps the pool of a key if no call drops it. -/
theorem lookup_current_run (hn : n < r.pools.length) (calls : List (Opener × Call)) :
    (r.run calls).current.lookup key = some n ↔
      r.current.lookup key = some n ∧ ∀ c ∈ calls, c.2.drops key = false := by
  -- By induction on the last call: the number of the pool stays one that was handed out.
  induction calls using List.reverseRecOn with
  | nil => simp [run]
  | append_singleton calls c ih =>
    have hlt := Nat.lt_of_lt_of_le hn (length_pools_le_run r calls)
    rw [run_concat, lookup_current_step hlt, ih, and_assoc]
    simp [or_imp, forall_and]

/-- A registry hands out a pool of before only if it is current. -/
theorem get_eq_iff_lookup_current {id : Option String} {m : Nat}
    (h : (r.get opener id).1 = .ok m) (hn : n < r.pools.length) :
    m = n ↔ r.current.lookup (keyOf id) = some n := by
  obtain ⟨k, hk, hget⟩ | ⟨hnone, path, p, -, -, hget⟩ | ⟨-, e, -, hget⟩ := get_cases opener r id
  · rw [hget] at h
    cases h
    rw [hk, Option.some.injEq]
  -- A pool that was just opened is none of before, and none was current.
  · rw [hget] at h
    cases h
    rw [hnone]
    simp [Nat.ne_of_gt hn]
  · rw [hget] at h
    cases h

/-- The pool that a registry hands out is current from then on. -/
theorem lookup_current_get {id : Option String} (h : (r.get opener id).1 = .ok n) :
    (r.get opener id).2.current.lookup (keyOf id) = some n := by
  obtain ⟨k, hk, hget⟩ | ⟨-, path, p, -, -, hget⟩ | ⟨-, e, -, hget⟩ := get_cases opener r id
  · rw [hget] at h ⊢
    cases h
    exact hk
  · rw [hget] at h ⊢
    cases h
    show (r.current.assign (keyOf id) r.pools.length).lookup (keyOf id) = _
    rw [Entries.lookup_assign, if_pos rfl]
  · rw [hget] at h
    cases h

/-- A pool that cannot be opened leaves a registry as it is. -/
theorem get_error {id : Option String} {e : Failure} (h : (r.get opener id).1 = .error e) :
    (r.get opener id).2 = r := by
  obtain ⟨k, -, hget⟩ | ⟨-, path, p, -, -, hget⟩ | ⟨-, e, -, hget⟩ := get_cases opener r id
  · rw [hget]
  · rw [hget] at h
    cases h
  · rw [hget]

/-- A pool is handed out again until a call drops it. -/
theorem KeepsOpenPools.get_again (hr : r.KeepsOpenPools) {opener' : Opener}
    {id other : Option String} (hkey : keyOf other = keyOf id) {m : Nat}
    {between : List (Opener × Call)} (hn : (r.get opener id).1 = .ok n)
    (hm : (((r.get opener id).2.run between).get opener' other).1 = .ok m) :
    m = n ↔ ∀ c ∈ between, c.2.drops (keyOf id) = false := by
  have hcurrent := lookup_current_get hn
  have hlt : n < (r.get opener id).2.pools.length :=
    ((KeepsOpenPools.iff_beside.1 hr).get id).lt_length hcurrent
  have hlt' := Nat.lt_of_lt_of_le hlt (length_pools_le_run _ between)
  rw [get_eq_iff_lookup_current hm hlt', hkey, lookup_current_run hlt]
  exact and_iff_right hcurrent

end HandedOutAgain

/-! ## No pool leaks -/

/-- **A registry leaks no pool.** After every run in which identifiers are registered, pools are
asked for and all pools are closed, whatever could be opened at each time, the open pools are those
that are current, each under its own name; a pool that cannot be had leaves the registry as it is;
and a key is given the same pool again exactly if no call in between drops its pool. -/
theorem leaksNoPool (defaultPath : Option String) (connections : Entries String)
    (maxConnections : Option Int) (readOnly externalAccess : Bool)
    (calls : List (Opener × Call)) (hcalls : ∀ c ∈ calls, c.2.isUse = false) :
    let r := (Registry.new defaultPath connections maxConnections readOnly externalAccess).run calls
    r.KeepsOpenPools ∧
    (∀ opener id e, (r.get opener id).1 = .error e → (r.get opener id).2 = r) ∧
    ∀ opener id n between opener' other m, keyOf other = keyOf id →
      (r.get opener id).1 = .ok n →
      (((r.get opener id).2.run between).get opener' other).1 = .ok m →
      (m = n ↔ ∀ c ∈ between, c.2.drops (keyOf id) = false) := by
  intro r
  have hr : r.KeepsOpenPools := (KeepsOpenPools.new _ _ _ _ _).run hcalls
  refine ⟨hr, fun _ _ _ => get_error, ?_⟩
  intro opener id n between opener' other m hkey hn hm
  exact hr.get_again hkey hn hm

/-- Opens no path. -/
def openNowhere : Opener := fun _ => none

/-- Calls that open two pools, fail to open one of them again, and drop one. -/
def failingCalls : List (Opener × Call) :=
  [(openAnywhere, .get none), (openNowhere, .get none),
    (openAnywhere, .register "south" "s.duckdb"),
    (openNowhere, .get (some "south")), (openAnywhere, .get (some "south")),
    (openAnywhere, .register "south" "moved.duckdb"), (openNowhere, .get (some "south"))]

theorem leaksNoPool_failingCalls :
    let r := (Registry.new (some "main.duckdb") [] none false false).run failingCalls
    (∀ c ∈ failingCalls, c.2.isUse = false) ∧ r.current = [(defaultPoolKey, 0)] ∧
    (∀ n, OpenAt r.pools n ↔ n = 0) ∧ r.pools.length = 2 ∧
    (r.get openNowhere (some "south")).2 = r ∧
    (r.get openNowhere none).1 = .ok 0 ∧
    (∀ m, ((r.run failingCalls).get openAnywhere none).1 = .ok m → m = 0) ∧
    ((r.run [(openNowhere, .closeAll)]).get openAnywhere none).1 = .ok 2 := by
  intro r
  have hcalls : ∀ c ∈ failingCalls, c.2.isUse = false := by decide
  have hcurrent : r.current = [(defaultPoolKey, 0)] := rfl
  have hopen : (r.get openNowhere none).1 = .ok 0 := rfl
  obtain ⟨hkeeps, herror, hagain⟩ :=
    leaksNoPool (some "main.duckdb") [] none false false failingCalls hcalls
  refine ⟨hcalls, hcurrent, ?_, rfl, herror _ _ _ rfl, hopen, ?_, rfl⟩
  · intro n
    rw [hkeeps.openAt_iff n, show Registry.current _ = [(defaultPoolKey, 0)] from hcurrent]
    constructor
    · rintro ⟨key, hkey⟩
      have hmem := (Entries.lookup_eq_some_iff_mem (by decide)).1 hkey
      simp only [List.mem_singleton, Prod.mk.injEq] at hmem
      exact hmem.2
    · rintro rfl
      exact ⟨defaultPoolKey, rfl⟩
  · intro m hm
    exact (hagain openNowhere none 0 failingCalls openAnywhere none m rfl hopen hm).2 (by decide)

end ChartQuery.Registry
