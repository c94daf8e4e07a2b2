import ChartQuery.Pool.Basic
import ChartQuery.Spec.Basic

/-!
# The registry of pools

The registry resolves identifiers of connections to pools. A pool is made when its identifier is
first asked for, and handed out again until its identifier is registered anew or all pools are
closed.

## Main definitions

* `Registry`: the known paths, the pools ever handed out, and those that are current
* `Registry.get`, `Registry.register`, `Registry.closeAll`: its operations
* `Registry.acquire`, `Registry.withSession`: the use of a pool that was handed out

## Main results

* `Registry.get_current`: a current pool is handed out again
-/

namespace ChartQuery

/-- The key of the pool that has no identifier. -/
def defaultPoolKey : String := "__default__"

/-- The known paths, the pools ever handed out, by number, and the numbers of those that are
current. -/
structure Registry where
  defaultPath : String
  connections : Entries String
  maxConnections : Int
  readOnly : Bool
  externalAccess : Bool
  pools : List Pool
  current : Entries Nat

namespace Registry

/-- A registry without pools; what is not given has its usual value. -/
def new (defaultPath : Option String) (connections : Entries String) (maxConnections : Option Int)
    (readOnly externalAccess : Bool) : Registry where
  defaultPath := (given? defaultPath).getD memoryPath
  connections := connections
  maxConnections := ((maxConnections.filter (· ≠ 0))).getD 10
  readOnly := readOnly
  externalAccess := externalAccess
  pools := []
  current := []

/-- The key of the pool of an identifier. -/
def keyOf (id : Option String) : String := (given? id).getD defaultPoolKey

/-- The path of the database of an identifier. -/
def pathOf (r : Registry) (id : Option String) : Except ChartError String :=
  match given? id with
  | none => .ok r.defaultPath
  | some id =>
    match r.connections.lookup id with
    | some path => .ok path
    | none => .error (.connectionNotFound id)

/-- A pool at a path that is not yet open. -/
def newPool (r : Registry) (key path : String) : Pool :=
  ⟨key, path, r.maxConnections, r.readOnly && path != memoryPath, r.externalAccess, none⟩

/-- The registry with one more pool, current under a key. -/
def enrol (r : Registry) (key : String) (p : Pool) : Registry :=
  { r with pools := r.pools ++ [p], current := r.current.assign key r.pools.length }

/-- A new pool for an identifier, and the registry with it. -/
def openNew (opener : Opener) (r : Registry) (id : Option String) :
    Except Failure (Nat × Registry) :=
  match r.pathOf id with
  | .error e => .error (.chart e)
  | .ok path =>
    if r.maxConnections < 0 then .error (.unforeseen .negativeSlots)
    else match (r.newPool (keyOf id) path).opened opener with
      | some p => .ok (r.pools.length, r.enrol (keyOf id) p)
      | none => .error (.chart (.sourceUnopened (keyOf id)))

/-- The number of the pool of an identifier, and the registry afterwards; a failure changes
nothing. -/
def get (opener : Opener) (r : Registry) (id : Option String) : Except Failure Nat × Registry :=
  match r.current.lookup (keyOf id) with
  | some n => (.ok n, r)
  | none =>
    match r.openNew opener id with
    | .ok (n, r') => (.ok n, r')
    | .error e => (.error e, r)

/-- A current pool is handed out again. -/
theorem get_current {opener : Opener} {r : Registry} {id : Option String} {n : Nat}
    (h : r.current.lookup (keyOf id) = some n) : r.get opener id = (.ok n, r) := by
  simp [get, h]

/-- The registry with one of its pools changed. -/
def modifyPool (r : Registry) (n : Nat) (f : Pool → Pool) : Registry :=
  { r with pools := r.pools.modify n f }

/-- The registry with the path of an identifier set; its pool, if any, is closed and no longer
current. -/
def register (r : Registry) (id path : String) : Registry :=
  let r := { r with connections := r.connections.assign id path }
  match r.current.lookup id with
  | some n => { r.modifyPool n Pool.close with current := r.current.remove id }
  | none => r

/-- The registry without current pools, all of which are closed. -/
def closeAll (r : Registry) : Registry :=
  { r with
    pools := r.current.foldl (fun ps e => ps.modify e.2 Pool.close) r.pools
    current := [] }

/-- The session of a pool, which is opened where it has to be; none if it cannot be opened. -/
def acquire (opener : Opener) (r : Registry) (n : Nat) : Option Database × Registry :=
  match r.pools[n]?.bind fun p => p.session? opener with
  | some d => (some d, r.modifyPool n (Pool.holding d))
  | none => (none, r)

/-- What a function makes of the session of a pool, which holds afterwards what the function made of
it; none if the pool cannot be opened. -/
def withSession {α : Type} (opener : Opener) (r : Registry) (n : Nat)
    (f : Database → α × Database) : Option α × Registry :=
  match r.acquire opener n with
  | (some d, r) => (some (f d).1, r.modifyPool n (Pool.holding (f d).2))
  | (none, r) => (none, r)

end Registry

end ChartQuery
