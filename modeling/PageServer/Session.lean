/-
  PageServer.Session — what the server keeps for each browser session: the pages it has shown
  there, and how many context ids it has given out.

  Times are nanoseconds on a clock that never goes back.
-/

import PageServer.PageCache

namespace PageServer

structure Session (α : Type) where
  id : String
  /-- Context ids are numbers counted up from zero. -/
  contextIdCount : Nat := 0
  pages : PageCache α
  lastAccess : Nat

namespace Session

variable {α : Type}

def nextContextId (s : Session α) : String × Session α :=
  (toString s.contextIdCount, { s with contextIdCount := s.contextIdCount + 1 })

end Session

/-- The sessions, by id. -/
structure Sessions (α : Type) where
  /-- How long a session may stay unused. -/
  timeout : Nat
  pageCacheSize : Nat
  sessions : List (String × Session α) := []

namespace Sessions

variable {α : Type}

def size (ss : Sessions α) : Nat := ss.sessions.length

def isEmpty (ss : Sessions α) : Bool := ss.sessions.isEmpty

def get? (ss : Sessions α) (id : String) : Option (Session α) := Assoc.get? id ss.sessions

def put (ss : Sessions α) (s : Session α) : Sessions α :=
  { ss with sessions := Assoc.put s.id s ss.sessions }

def fresh (ss : Sessions α) (now : Nat) (id : String) : Session α :=
  { id := id, pages := .ofCapacity ss.pageCacheSize, lastAccess := now }

/-- The session with this id, new if there is none, used now. -/
def getOrCreate (ss : Sessions α) (now : Nat) (id : String) : Session α × Sessions α :=
  let s := { (ss.get? id).getD (ss.fresh now id) with lastAccess := now }
  (s, ss.put s)

def remove (ss : Sessions α) (id : String) : Option (Session α) × Sessions α :=
  (ss.get? id, { ss with sessions := Assoc.erase id ss.sessions })

/-- Drops the sessions that were not used for longer than `maxIdle`, and counts them. -/
def expireIdleFor (ss : Sessions α) (now maxIdle : Nat) : Nat × Sessions α :=
  let kept := ss.sessions.filter fun e => now - e.2.lastAccess ≤ maxIdle
  (ss.size - kept.length, { ss with sessions := kept })

def expireIdle (ss : Sessions α) (now : Nat) : Nat × Sessions α :=
  ss.expireIdleFor now ss.timeout

end Sessions

end PageServer
