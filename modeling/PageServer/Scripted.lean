/-
  PageServer.Scripted — components that are data: a state of entries, and actions that are lists
  of effects on it.
-/

import PageServer.Component

namespace PageServer

/-- A step of an action. -/
inductive Effect where
  /-- Adds to an integer; an entry that is none counts as zero. -/
  | add (key : String) (n : Int)
  | set (key : String) (v : Value)
  /-- Puts the value of `source` at the end of a list; an entry that is none counts as empty. -/
  | push (key source : String)
  /-- Ends the action. -/
  | reply (r : Except Failure Reply)

structure Scripted where
  name : String
  state : List (String × Value)
  /-- The keys that take no values. -/
  locked : List String := []
  /-- Whether only keys that are there take values. -/
  strict : Bool := false
  actions : List (String × List Effect) := []

namespace Scripted

def value? (c : Scripted) (key : String) : Option Value := Assoc.get? key c.state

def put (c : Scripted) (key : String) (v : Value) : Scripted :=
  { c with state := Assoc.put key v c.state }

/-- Whether a key takes values. -/
def accepts (c : Scripted) (key : String) : Bool :=
  !c.locked.contains key && (!c.strict || Assoc.contains key c.state)

def take (c : Scripted) (key : String) (v : Value) : Except Failure Scripted :=
  if c.accepts key then .ok (c.put key v)
  else .error (.application (c.name ++ ": can't set " ++ key))

def integer (c : Scripted) (key : String) : Int :=
  match c.value? key with
  | some (.int n) => n
  | _ => 0

def run : List Effect → Scripted → Except Failure Reply × Scripted
  | [], c => (.ok .stay, c)
  | .add key n :: rest, c => run rest (c.put key (.int (c.integer key + n)))
  | .set key v :: rest, c => run rest (c.put key v)
  | .push key source :: rest, c =>
    let old := ((c.value? key).bind Value.items?).getD []
    run rest (c.put key (.list (old ++ [(c.value? source).getD .null])))
  | .reply r :: _, c => (r, c)

def perform (c : Scripted) (action : String) : Except Failure Reply × Scripted :=
  match c.actions.lookup action with
  | some effects => run effects c
  | none => (.error (.application (c.name ++ ": no action " ++ action)), c)

/-- The integer `awakes`, if there is one, counts how often the component woke up. -/
def awake (c : Scripted) : Scripted :=
  match c.value? "awakes" with
  | some (.int n) => c.put "awakes" (.int (n + 1))
  | _ => c

instance : Component Scripted where
  name := name
  value? := value?
  take := take
  perform := perform
  awake := awake

end Scripted

end PageServer
