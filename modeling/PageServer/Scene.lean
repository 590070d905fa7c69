/-
  PageServer.Scene — the state of a traversal, and its steps.

  A traversal walks over the element trees of a page and of the components in it. The stack of
  components leads from the page to the one whose template is being walked over; a component is
  taken out of the one around it while it is on the stack. A step that fails leaves the scene as
  it had become.
-/

import PageServer.Context
import PageServer.Instance

namespace PageServer

/-- A component on the stack: where it was taken from, and what it is wrapped around. -/
structure Frame (σ : Type) where
  key : String
  inner : Instance σ
  content : Option Element

/-- The templates compiled so far, by definition. -/
abbrev Templates := List (String × Element)

structure Scene (σ : Type) where
  context : Context
  templates : Templates
  page : Instance σ
  /-- The components around the current element, innermost first. -/
  frames : List (Frame σ) := []
  response : Http.Response := {}
  /-- What components have been asked to do. -/
  events : List Event := []

/-- A step of a traversal. -/
abbrev Pass (σ : Type) := ExceptT Failure (StateM (Scene σ))

namespace Scene

variable {σ : Type}

/-- A page before a traversal of it. -/
def start (context : Context) (templates : Templates) (page : Instance σ) : Scene σ :=
  { context, templates, page }

/-- The component whose template is being walked over. -/
def current (s : Scene σ) : Instance σ :=
  match s.frames with
  | [] => s.page
  | f :: _ => f.inner

def withCurrent (s : Scene σ) (i : Instance σ) : Scene σ :=
  match s.frames with
  | [] => { s with page := i }
  | f :: rest => { s with frames := { f with inner := i } :: rest }

def mapContext (f : Context → Context) (s : Scene σ) : Scene σ := { s with context := f s.context }

def addEvents (s : Scene σ) (events : List Event) : Scene σ :=
  { s with events := s.events ++ events }

/-- Output counts only where it belongs to the response. -/
def mute (s : Scene σ) : Scene σ :=
  { s with response := s.response.setMuted !s.context.shouldRender }

def place (s : Scene σ) : Place :=
  ⟨s.context.elementId, s.context.isSender, s.context.inForm⟩

end Scene

namespace Pass

variable {σ : Type} {α : Type}

/-- What comes of a step in a scene, and the scene after it. -/
def on (p : Pass σ α) (s : Scene σ) : Except Failure α × Scene σ := p.run.run s

/-- `body`, and then `f` whether or not it failed. -/
def ensuring (body : Pass σ α) (f : Scene σ → Scene σ) : Pass σ α :=
  ExceptT.mk fun s => let (r, s) := body.on s; (r, f s)

/-- The result of `body`, failure or not, as a value. -/
def attempt (body : Pass σ α) : Pass σ (Except Failure α) :=
  ExceptT.mk fun s => let (r, s) := body.on s; (.ok r, s)

def lift (r : Except Failure α) : Pass σ α := ExceptT.mk (pure r)

/-- `body` one level of elements down. -/
def below (body : Pass σ α) : Pass σ α := do
  modify (·.mapContext Context.down)
  ensuring body (·.mapContext Context.up)

/-- `body` as inside of a form. -/
def inForm (body : Pass σ α) : Pass σ α := do
  modify (·.mapContext (·.withInForm true))
  ensuring body (·.mapContext (·.withInForm false))

def toNext : Pass σ Unit := modify (·.mapContext Context.next)

/-- The URL of the element. -/
def url : Pass σ String := do
  let (url, c) := (← get).context.url
  modify fun s => { s with context := c }
  return url

def write (text : String) : Pass σ Unit :=
  modify fun s => { s with response := s.response.write text }

variable [Component σ]

/-! ## The current component -/

def evaluate (hs : Helpers) (b : Binding) : Pass σ Value := do
  match b.valueIn hs (← get).current.state with
  | .ok v => return v
  | .error e => throw (.helper e)

def evaluateText (hs : Helpers) (b : Binding) : Pass σ String := do
  return (← evaluate hs b).text

/-- The truth of a binding, or `default` without one. -/
def evaluateFlag (hs : Helpers) (b : Option Binding) (default : Bool) : Pass σ Bool :=
  match b with
  | some b => do return (← evaluate hs b).isTruthy
  | none => return default

/-- The current component takes in a value. -/
def setKey (key : String) (v : Value) : Pass σ Unit := do
  let (result, event) := (← get).current.set key v
  modify (·.addEvents [event])
  let i ← lift result
  modify (·.withCurrent i)

def setPath (p : KeyPath) (v : Value) : Pass σ Unit := do
  let root ← lift (p.rootFor v (← get).current.state)
  setKey p.first root

def setBinding (b : Binding) (v : Value) : Pass σ Unit :=
  match b.keyPath? with
  | some p => setPath p v
  | none => throw (.notSettable b)

end Pass

/-! ## Actions -/

/-- What came of an action. -/
inductive Outcome (σ : Type) where
  /-- Stay on the page. -/
  | stay
  /-- Go on with this page. -/
  | page (p : Instance σ)
  /-- A response of its own, or the failure to make one. -/
  | respond (result : Except Failure Http.Response)

/-- The outcome of a reply; a page that is asked for is made now. -/
def Outcome.ofReply {σ : Type} [Component σ] (r : Registry σ) :
    Reply → Except Failure (Outcome σ) × List Event
  | .stay => (.ok .stay, [])
  | .respond result => (.ok (.respond result), [])
  | .openPage name values =>
    let (result, events) := Instance.openPage r name values
    (result.map .page, events)

namespace Pass

variable {σ : Type} [Component σ]

/-- The name of the action that a binding stands for: that of the key path itself, or else the
    text of its value. -/
def actionName (hs : Helpers) : Binding → Pass σ String
  | .keyPath p => return p.text
  | b => evaluateText hs b

/-- The current component performs an action. -/
def perform (r : Registry σ) (action : Binding) : Pass σ (Outcome σ) := do
  let name ← actionName r.helpers action
  let i := (← get).current
  let (reply, state) := Component.perform i.state name
  modify fun s => (s.withCurrent { i with state := state }).addEvents [.perform i.name name]
  let (outcome, events) := Outcome.ofReply r (← lift reply)
  modify (·.addEvents events)
  lift outcome

end Pass

/-! ## Templates -/

/-- The template of a definition, compiled on first use. A failure is not kept, so the next use
    tries again. -/
def Templates.get {σ : Type} (r : Registry σ) (d : Definition σ) (ts : Templates) :
    Except Template.CompileError Element × Templates :=
  match Assoc.get? d.name ts with
  | some e => (.ok e, ts)
  | none =>
    match Template.compile r d.template d.declarations with
    | .ok e => (.ok e, Assoc.put d.name e ts)
    | .error e => (.error (.inComponent d.name e), ts)

def Pass.template {σ : Type} (r : Registry σ) (d : Definition σ) : Pass σ Element := do
  let (result, ts) := Templates.get r d (← get).templates
  modify fun s => { s with templates := ts }
  lift (result.mapError .compile)

/-! ## Components in templates -/

namespace Pass

variable {σ : Type} [Component σ] {α : Type}

/-- What goes back through a binding: a value that the parent can take and does not have. -/
def owed (child parent : σ) (key : String) (b : Binding) : Option (KeyPath × Value) :=
  match b.keyPath?, Component.value? child key with
  | some p, some v => if p.valueIn parent != v then some (p, v) else none
  | _, _ => none

/-- The values of a component go back through the bindings that can be set, where they differ
    from what is there. -/
def pullBindings (child : σ) : Bindings → Pass σ Unit
  | [] => return
  | (key, b) :: rest => do
    if let some (p, v) := owed child (← get).current.state key b then setPath p v
    pullBindings child rest

/-- The component in the place `key` is taken out of the current one, or made. -/
def takeChild (d : Definition σ) (key : String) : Pass σ (Instance σ) := do
  let i := (← get).current
  modify (·.withCurrent (i.withoutChild key))
  return (i.child? key).getD (.ofDefinition d)

def putChild (key : String) (c : Instance σ) (s : Scene σ) : Scene σ :=
  s.withCurrent (s.current.withChild key c)

/-- The innermost component leaves the stack. -/
def popFrame : Pass σ (Frame σ) := do
  match (← get).frames with
  | [] => throw .noFrame
  | f :: rest => modify fun s => { s with frames := rest }; return f

/-- A component comes on the stack, with the bound values in it; its template is next. If it does
    not take the values, it is put back. -/
def arrive (r : Registry σ) (definition : String) (bindings : Bindings)
    (content : Option Element) : Pass σ Element := do
  let d ← lift ((r.resolveComponent definition).mapError Failure.resolve)
  let template ← template r d
  let key := (← get).context.elementId.text
  let child ← takeChild d key
  let ((pushed, child), events) :=
    Instance.receive r.helpers (← get).current.state bindings child
  modify (·.addEvents events)
  match pushed with
  | .error e =>
    modify (putChild key child)
    throw e
  | .ok () =>
    modify fun s => { s with frames := ⟨key, child, content⟩ :: s.frames }
    return template

/-- The innermost component is put back where it was taken from, after its changed values are. -/
def depart (bindings : Bindings) : Pass σ (Except Failure Unit) := do
  let frame ← popFrame
  let pulled ← attempt (pullBindings frame.inner.state bindings)
  modify (putChild frame.key frame.inner)
  return pulled

/-- `run` on the template of a component, with it as the current one. The bound values go in
    first, and changed ones come back afterwards; a failure of `run` counts before one of taking
    values back. -/
def enter (r : Registry σ) (definition : String) (bindings : Bindings) (content : Option Element)
    (run : Element → Pass σ α) : Pass σ α := do
  let template ← arrive r definition bindings content
  let result ← attempt (run template)
  let pulled ← depart bindings
  let x ← lift result
  lift pulled
  return x

/-- `run` on what the current component is wrapped around, with the component around it as the
    current one; `default` on a page, and if there is nothing between the tags. -/
def inParent (default : α) (run : Element → Pass σ α) : Pass σ α := do
  match (← get).frames with
  | [] => return default
  | f :: rest =>
    modify fun s => { s with frames := rest }
    ensuring (match f.content with | some e => run e | none => return default)
      fun s => { s with frames := f :: s.frames }

end Pass

end PageServer
