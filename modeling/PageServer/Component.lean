/-
  PageServer.Component — what the application's components are to the server: states that are
  read and written by key, and that perform actions by name.
-/

import PageServer.Failure
import PageServer.Http.Response

namespace PageServer

/-- What an action wants to happen next. -/
inductive Reply where
  /-- Stay on the page. -/
  | stay
  /-- Go on with a new page, in which these values are set first. -/
  | openPage (name : String) (values : List (String × Value))
  /-- A response of its own, or the failure to make one. -/
  | respond (result : Except Failure Http.Response)

/-- The states of an application's components. By default a component takes no values and has no
    actions. -/
class Component (σ : Type) where
  /-- What messages call the component. -/
  name : σ → String
  value? : σ → String → Option Value
  take : σ → String → Value → Except Failure σ :=
    fun s key _ => .error (.noSettableKey (name s) key)
  perform : σ → String → Except Failure Reply × σ :=
    fun s action => (.error (.noAction (name s) action), s)
  /-- What happens when a request is about to use the component. -/
  awake : σ → σ := id

/-- What a component is asked to do. -/
inductive Event where
  | set (component key : String) (value : Value)
  | perform (component action : String)

def Event.text : Event → String
  | set c key v => c ++ ".set " ++ key ++ "=" ++ v.shown
  | perform c action => c ++ ".perform " ++ action

variable {σ : Type} [Component σ]

/-! ## Key paths -/

/-- What a key path leads to; null if it leads nowhere. -/
def KeyPath.valueIn (p : KeyPath) (s : σ) : Value :=
  p.rest.foldl (fun v k => (v.derived? k).getD .null) ((Component.value? s p.first).getD .null)

/-- The value to give to the first segment, so that the path leads to `v`. -/
def KeyPath.rootFor (p : KeyPath) (v : Value) (s : σ) : Except Failure Value :=
  if p.rest.isEmpty then .ok v
  else match Value.setPath v p.rest ((Component.value? s p.first).getD .null) with
    | .ok root => .ok root
    | .error e => .error (.path p e)

def KeyPath.setIn (p : KeyPath) (v : Value) (s : σ) : Except Failure σ := do
  Component.take s p.first (← p.rootFor v s)

/-! ## Bindings -/

namespace Binding

mutual

def valueIn (hs : Helpers) (s : σ) : Binding → Except HelperError Value
  | constant v => .ok v
  | keyPath p => .ok (p.valueIn s)
  | call helper arguments => do hs.call helper (← valuesIn hs s arguments)

def valuesIn (hs : Helpers) (s : σ) : List Binding → Except HelperError (List Value)
  | [] => .ok []
  | b :: rest => do
    let v ← valueIn hs s b
    return v :: (← valuesIn hs s rest)

end

def setIn (b : Binding) (v : Value) (s : σ) : Except Failure σ :=
  match b.keyPath? with
  | some p => p.setIn v s
  | none => .error (.notSettable b)

end Binding

end PageServer
