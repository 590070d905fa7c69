/-
  PageServer.Instance — components in use: a state, and the components used in its template, by
  the text of the element id of their place.
-/

import PageServer.Component

namespace PageServer

structure Instance (σ : Type) where
  /-- The name of the definition. -/
  name : String
  state : σ
  children : List (String × Instance σ)

namespace Instance

variable {σ : Type}

def ofDefinition (d : Definition σ) : Instance σ := ⟨d.name, d.initial, []⟩

def child? (i : Instance σ) (key : String) : Option (Instance σ) := i.children.lookup key

def withoutChild (i : Instance σ) (key : String) : Instance σ :=
  { i with children := i.children.filter (·.1 != key) }

/-- In the place of the child at `key`, if there is one. -/
def withChild (i : Instance σ) (key : String) (c : Instance σ) : Instance σ :=
  { i with children := (i.withoutChild key).children ++ [(key, c)] }

variable [Component σ]

mutual

/-- A component wakes up before those in it. -/
def awake : Instance σ → Instance σ
  | ⟨name, state, children⟩ => ⟨name, Component.awake state, awakeAll children⟩

def awakeAll : List (String × Instance σ) → List (String × Instance σ)
  | [] => []
  | (key, c) :: rest => (key, c.awake) :: awakeAll rest

end

/-- The value is taken in, or refused; either way the component was asked to. -/
def set (i : Instance σ) (key : String) (v : Value) : Except Failure (Instance σ) × Event :=
  ((Component.take i.state key v).map fun s => { i with state := s }, .set i.name key v)

/-- All values in turn, up to the first that is refused. -/
def setAll : Instance σ → List (String × Value) → Except Failure (Instance σ) × List Event
  | i, [] => (.ok i, [])
  | i, (key, v) :: rest =>
    match i.set key v with
    | (.error e, event) => (.error e, [event])
    | (.ok i, event) =>
      let (result, events) := i.setAll rest
      (result, event :: events)

/-- The values of bindings go in, up to the first that fails or is refused; `parent` is the
    component they belong to. -/
def receive (hs : Helpers) (parent : σ) :
    Bindings → Instance σ → (Except Failure Unit × Instance σ) × List Event
  | [], i => ((.ok (), i), [])
  | (key, b) :: rest, i =>
    match b.valueIn hs parent with
    | .error e => ((.error (.helper e), i), [])
    | .ok v =>
      match i.set key v with
      | (.error e, event) => ((.error e, i), [event])
      | (.ok i, event) =>
        let (result, events) := receive hs parent rest i
        (result, event :: events)

/-- A new page of a component, with values set. -/
def openPage (r : Registry σ) (name : String) (values : List (String × Value)) :
    Except Failure (Instance σ) × List Event :=
  match r.resolveComponent name with
  | .error e => (.error (.resolve e), [])
  | .ok d => (ofDefinition d).setAll values

end Instance

end PageServer
