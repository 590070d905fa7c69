/-
  PageServer.PageCache — pages by context id, those used last.

  Every use of a page gets a stamp from the cache's clock. `entries` holds the stamp beside the
  page and `recency` leads from the stamp back to the id, oldest stamp first, so the pages that
  are dropped when the cache is too full are those that were not used for the longest time.
-/

import PageServer.Assoc
import PageServer.Text.Quoted

namespace PageServer

/-- No page is kept under this context id, or no longer. -/
structure PageCacheMiss where
  contextId : String
  deriving DecidableEq, Repr

def PageCacheMiss.message (e : PageCacheMiss) : String :=
  "no page with context id " ++ Text.quoteKey e.contextId ++ " in the page cache"

instance : ToString PageCacheMiss := ⟨PageCacheMiss.message⟩

structure PageCache (α : Type) where
  capacity : Nat := 30
  /-- Each page with the stamp of its last use. -/
  entries : List (String × Nat × α) := []
  /-- The context ids by stamp, least recently used first. -/
  recency : List (Nat × String) := []
  /-- The last stamp given out. -/
  clock : Nat := 0

namespace PageCache

variable {α : Type}

/-- A cache for at least one page. -/
def ofCapacity (n : Nat) : PageCache α := { capacity := max n 1 }

def size (c : PageCache α) : Nat := c.entries.length

def isEmpty (c : PageCache α) : Bool := c.entries.isEmpty

def contains (c : PageCache α) (id : String) : Bool := Assoc.contains id c.entries

def page? (c : PageCache α) (id : String) : Option α := (Assoc.get? id c.entries).map (·.2)

/-- The context ids, least recently used first. -/
def contextIds (c : PageCache α) : List String := c.recency.map (·.2)

/-- The recency list after the use of `id` at `stamp`, which was last used at `old`. -/
def restamp (old : Option Nat) (stamp : Nat) (id : String) (recency : List (Nat × String)) :
    List (Nat × String) :=
  recency.filter (fun r => old != some r.1) ++ [(stamp, id)]

/-- Drops the oldest pages while there are more than `capacity`; their ids come first. -/
def evict (capacity : Nat) :
    List (Nat × String) → List (String × Nat × α) →
      List String × List (Nat × String) × List (String × Nat × α)
  | [], entries => ([], [], entries)
  | (stamp, id) :: rest, entries =>
    if capacity < entries.length then
      let (ids, recency, entries) := evict capacity rest (Assoc.erase id entries)
      (id :: ids, recency, entries)
    else ([], (stamp, id) :: rest, entries)

/-- Keeps a page as the most recently used one, in place of one with the same id. The ids of the
    pages dropped for it come first. -/
def save (c : PageCache α) (id : String) (page : α) : List String × PageCache α :=
  let stamp := c.clock + 1
  let old := (Assoc.get? id c.entries).map (·.1)
  let (ids, recency, entries) :=
    evict c.capacity (restamp old stamp id c.recency) (Assoc.put id (stamp, page) c.entries)
  (ids, { c with entries := entries, recency := recency, clock := stamp })

/-- Looking at a page is no use of it. -/
def restore (c : PageCache α) (id : String) : Except PageCacheMiss α :=
  match c.page? id with
  | some page => .ok page
  | none => .error ⟨id⟩

/-- The page becomes the most recently used one. The clock goes on even if there is none. -/
def retain (c : PageCache α) (id : String) : Except PageCacheMiss Unit × PageCache α :=
  let stamp := c.clock + 1
  match Assoc.get? id c.entries with
  | some (old, page) =>
    (.ok (), { c with
      entries := Assoc.put id (stamp, page) c.entries
      recency := restamp (some old) stamp id c.recency
      clock := stamp })
  | none => (.error ⟨id⟩, { c with clock := stamp })

/-- Looks a page up for use. -/
def reuse (c : PageCache α) (id : String) : Except PageCacheMiss α × PageCache α :=
  match c.restore id with
  | .ok page => (.ok page, (c.retain id).2)
  | .error e => (.error e, c)

/-- What has become of a page that is kept. That is no use of it. -/
def update (c : PageCache α) (id : String) (page : α) : PageCache α :=
  match Assoc.get? id c.entries with
  | some (stamp, _) => { c with entries := Assoc.put id (stamp, page) c.entries }
  | none => c

end PageCache

end PageServer
