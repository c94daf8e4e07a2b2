import ChartQuery.Database.Execution
import ChartQuery.Error

/-!
# Pools of connections

A pool belongs to one database. It is open while it holds a session of it, and opens itself again
when it is used after it was closed.

## Main definitions

* `Pool`: the path of a database, how it is opened, and the session that is open
* `Opener`: which paths can be opened
* `Pool.opened`: the pool with a session
* `Pool.close`, `Pool.moveTo`: the pool without one

## Main results

* `Pool.close_isOpen`: a closed pool holds no session
-/

namespace ChartQuery

/-- Opens a database at a path, where it can. -/
abbrev Opener := String → Option Database

/-- The path of a database that lives only while it is open. -/
def memoryPath : String := ":memory:"

/-- Opens only databases that live while they are open, each time an empty one. -/
def openInMemory : Opener := fun path => if path = memoryPath then some .empty else none

/-- The path of a database, how it is opened, and the session that is open. -/
structure Pool where
  name : String
  path : String
  maxConnections : Int
  readOnly : Bool
  externalAccess : Bool
  session : Option Database

namespace Pool

/-- The pool holds a session. -/
def isOpen (p : Pool) : Bool := p.session.isSome

/-- The pool without a session. -/
def close (p : Pool) : Pool := { p with session := none }

/-- A closed pool holds no session. -/
@[simp] theorem close_isOpen (p : Pool) : p.close.isOpen = false := rfl

@[simp] theorem close_path (p : Pool) : p.close.path = p.path := rfl

@[simp] theorem close_name (p : Pool) : p.close.name = p.name := rfl

/-- The pool at another path, without a session. -/
def moveTo (p : Pool) (path : String) : Pool := { p.close with path }

/-- The session of a pool: the open one, or else a new one. -/
def session? (opener : Opener) (p : Pool) : Option Database := p.session.or (opener p.path)

/-- The pool with a given session. -/
def holding (d : Database) (p : Pool) : Pool := { p with session := some d }

@[simp] theorem holding_path (d : Database) (p : Pool) : (p.holding d).path = p.path := rfl

/-- The pool with a session, if it has one or can be opened. -/
def opened (opener : Opener) (p : Pool) : Option Pool :=
  (p.session? opener).map fun d => p.holding d

end Pool

end ChartQuery
