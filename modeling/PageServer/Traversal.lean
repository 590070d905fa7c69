/-
  PageServer.Traversal — the three traversals of a page: form values are taken in, the action of
  the sender is invoked, the page is rendered.

  All three visit the same elements under the same element ids. The second one leaves out what
  is off the path to the sender, and ends with the first outcome.
-/

import PageServer.Scene

namespace PageServer

inductive Phase where
  | take
  | invoke
  | render
  deriving DecidableEq, Repr

/-- The outcome that ends a traversal, if there is one yet. -/
abbrev Found (σ : Type) := Option (Outcome σ)

namespace Walk

variable {σ : Type}

/-- Nothing to do here. -/
def nothing : Pass σ (Found σ) := return none

/-- A step without outcome. -/
def ofPass (p : Pass σ Unit) : Pass σ (Found σ) := do
  p
  return none

/-- A part of a page that is left out off the path to the sender when the action is invoked. -/
def part (phase : Phase) (body : Pass σ (Found σ)) : Pass σ (Found σ) :=
  match phase with
  | .invoke => do if (← get).context.onSenderPath then body else nothing
  | _ => body

end Walk

/-! ## Controls -/

namespace Control

open Pass Walk

variable {σ : Type} [Component σ]

def visitString (hs : Helpers) (value : Binding) (escape whenEmpty : Option Binding) :
    Phase → Pass σ (Found σ)
  | .render => ofPass do
    let mut text ← evaluateText hs value
    if text = "" then
      if let some b := whenEmpty then text ← evaluateText hs b
    if ← evaluateFlag hs escape true then write (Text.htmlEscape text) else write text
  | _ => nothing

/-- The element id is the name of a control that has no name of its own. -/
def fieldName (hs : Helpers) : Option Binding → Pass σ String
  | some b => evaluateText hs b
  | none => do return (← get).context.elementId.text

/-- A submitted value is written through the binding, if it can be set. -/
def visitTextField (hs : Helpers) (value : Binding) (name : Option Binding) :
    Phase → Pass σ (Found σ)
  | .take => ofPass do
    if value.isSettable then
      let name ← fieldName hs name
      if let some v := (← get).context.request.form.get? name then
        setBinding value (.string v)
  | .invoke => nothing
  | .render => ofPass do
    let name ← fieldName hs name
    let text ← evaluateText hs value
    write (Text.tag "input"
      [("type", some "text"), ("name", some name), ("value", some text)] true)

def targetUrl (hs : Helpers) : Target → Pass σ String
  | .action _ => url
  | .href b => evaluateText hs b
  | .directAction b => do
    let name ← evaluateText hs b
    return "/wa/" ++ String.ofList (Text.percentEncode name.toList)

/-- The start tag of a link. -/
def openLink (hs : Helpers) (target : Target) : Pass σ Unit := do
  let href ← targetUrl hs target
  write (Text.tag "a" [("href", some href)] false)

/-- The text of a link is its label, or else its content. -/
def visitHyperlink (r : Registry σ) (target : Target) (label : Option Binding)
    (content : Pass σ (Found σ)) : Phase → Pass σ (Found σ)
  | .take => nothing
  | .invoke =>
    match target with
    | .action a => do
      if (← get).context.isSender then return some (← perform r a) else nothing
    | _ => nothing
  | .render => ofPass do
    openLink r.helpers target
    match label with
    | some b => do
      let text ← evaluateText r.helpers b
      write (Text.htmlEscape text)
    | none => do let _ ← content
    write "</a>"

/-- The start tag of a form, which is sent to the form's own address. -/
def openForm : Pass σ Unit := do
  let action ← url
  write (Text.tag "form" [("method", some "post"), ("action", some action)] false)

/-- A form that is the sender runs its action, or stays on the page. -/
def submitForm (r : Registry σ) (action : Option Binding) : Pass σ (Found σ) := do
  if (← get).context.isSender then
    match action with
    | some a => return some (← perform r a)
    | none => return some .stay
  else nothing

/-- A form is submitted where none of its controls takes the action. -/
def visitForm (r : Registry σ) (action : Option Binding) (content : Pass σ (Found σ)) :
    Phase → Pass σ (Found σ)
  | .take => inForm content
  | .invoke => inForm do
    match ← content with
    | some o => return some o
    | none => submitForm r action
  | .render => ofPass do
    openForm
    let _ ← inForm content
    write "</form>"

/-- A button was used if it is the sender, or if its name is among the values of its form. -/
def wasUsed (c : Context) : Bool :=
  c.isSender || (c.inForm && c.request.form.contains c.elementId.text)

def visitSubmitButton (r : Registry σ) (action value : Option Binding) : Phase → Pass σ (Found σ)
  | .take => nothing
  | .invoke =>
    match action with
    | some a => do
      if wasUsed (← get).context then return some (← perform r a) else nothing
    | none => nothing
  | .render => ofPass do
    let name := (← get).context.elementId.text
    let text ← match value with
      | some b => evaluateText r.helpers b
      | none => pure "Submit"
    write (Text.tag "input"
      [("type", some "submit"), ("name", some name), ("value", some text)] true)

def listItems (hs : Helpers) (list : Binding) : Pass σ (List Value) := do
  match ← evaluate hs list with
  | .null => return []
  | .list items => return items
  | v => throw (.notList list v)

/-- The item of a round and its number are set. -/
def setRound (item index : Option KeyPath) (i : Nat) (v : Value) : Pass σ Unit := do
  if let some p := item then setPath p v
  if let some p := index then setPath p (.int i)

/-- Each round is set before its content is visited. -/
def rounds (item index : Option KeyPath) (body : Pass σ (Found σ)) :
    Nat → List Value → Pass σ (Found σ)
  | _, [] => nothing
  | i, v :: rest => do
    setRound item index i v
    match ← body with
    | some o => return some o
    | none =>
      toNext
      rounds item index body (i + 1) rest

/-- Without content the list is not looked at. -/
def visitRepetition (hs : Helpers) (list : Binding) (item index : Option KeyPath)
    (content : Option (Pass σ (Found σ))) (phase : Phase) : Pass σ (Found σ) :=
  match content with
  | none => nothing
  | some body => do
    let items ← listItems hs list
    below (rounds item index (part phase body) 0 items)

def isShown (hs : Helpers) (condition : Binding) (negate : Option Binding) : Pass σ Bool := do
  let holds ← evaluateFlag hs (some condition) false
  let negated ← evaluateFlag hs negate false
  return holds != negated

def visitConditional (hs : Helpers) (condition : Binding) (negate : Option Binding)
    (content : Pass σ (Found σ)) : Pass σ (Found σ) := do
  if ← isShown hs condition negate then content else nothing

/-- The start tag of a container, whose name is given back. -/
def openContainer (hs : Helpers) (id : Binding) (elementName : Option Binding) :
    Pass σ String := do
  let id ← evaluateText hs id
  let name ← match elementName with
    | some b => evaluateText hs b
    | none => pure "div"
  modify fun s => (s.mapContext (·.enterContainer id)).mute
  write (Text.tag name [("id", some id)] false)
  return name

def closeContainer (name : String) (s : Scene σ) : Scene σ :=
  let s := { s with response := s.response.write ("</" ++ name ++ ">") }
  (s.mapContext Context.leaveContainer).mute

/-- The tags of a container are its own output; its end is written even if its content fails. -/
def visitUpdateContainer (hs : Helpers) (id : Binding) (elementName : Option Binding)
    (content : Pass σ (Found σ)) : Phase → Pass σ (Found σ)
  | .render => do
    let name ← openContainer hs id elementName
    ensuring content (closeContainer name)
  | _ => content

def writeAll : List (Binding × Value) → Pass σ Unit
  | [] => return
  | (b, v) :: rest => do
    setBinding b v
    writeAll rest

def visitWidget (r : Registry σ) (w : Widget) (bindings : Bindings) : Phase → Pass σ (Found σ)
  | .take => ofPass do writeAll (w.writes (← get).place bindings)
  | .invoke => do
    match w.action (← get).place bindings with
    | some a => return some (← perform r a)
    | none => nothing
  | .render => ofPass do write (w.render (← get).place bindings)

/-- A control with the walk over its content; `run` walks over elements of other templates. -/
def visit (r : Registry σ) (run : Element → Pass σ (Found σ)) (phase : Phase) (c : Control)
    (content : Option (Pass σ (Found σ))) : Pass σ (Found σ) :=
  let inside := content.getD nothing
  match c with
  | .string value escape whenEmpty => visitString r.helpers value escape whenEmpty phase
  | .textField value name => visitTextField r.helpers value name phase
  | .hyperlink target label => visitHyperlink r target label inside phase
  | .form action => visitForm r action inside phase
  | .submitButton action value => visitSubmitButton r action value phase
  | .repetition list item index => visitRepetition r.helpers list item index content phase
  | .conditional condition negate => visitConditional r.helpers condition negate inside
  | .componentContent => inParent none run
  | .updateContainer id name => visitUpdateContainer r.helpers id name inside phase
  | .widget typeName _ bindings =>
    match r.widget? typeName with
    | some w => visitWidget r w bindings phase
    | none => nothing

end Control

/-! ## Elements -/

namespace Element

open Pass Walk

variable {σ : Type} [Component σ]

mutual

/-- The walk over a template, with `run` for the elements of other templates. -/
def visitWith (r : Registry σ) (run : Element → Pass σ (Found σ)) (phase : Phase) :
    Element → Pass σ (Found σ)
  | .text s =>
    match phase with
    | .render => ofPass (write s)
    | _ => nothing
  | .group _ children => below (visitAll r run phase children)
  | .component _ definition bindings content => enter r definition bindings content run
  | .control c content => c.visit r run phase (visitContent r run phase content)

def visitAll (r : Registry σ) (run : Element → Pass σ (Found σ)) (phase : Phase) :
    List Element → Pass σ (Found σ)
  | [] => nothing
  | e :: rest => do
    match ← part phase (visitWith r run phase e) with
    | some o => return some o
    | none =>
      toNext
      visitAll r run phase rest

def visitContent (r : Registry σ) (run : Element → Pass σ (Found σ)) (phase : Phase) :
    Option Element → Option (Pass σ (Found σ))
  | none => none
  | some e => some (visitWith r run phase e)

end

/-- The walk over a template with components nested up to `depth` times. -/
def visit (r : Registry σ) (phase : Phase) : Nat → Element → Pass σ (Found σ)
  | 0, _ => throw .tooDeep
  | depth + 1, e => visitWith r (visit r phase depth) phase e

end Element

/-! ## Pages -/

namespace Pass

variable {σ : Type} [Component σ]

/-- The template of the current page, from its root on. -/
def pageTemplate (r : Registry σ) : Pass σ Element := do
  let d ← lift ((r.resolveComponent (← get).page.name).mapError Failure.resolve)
  let e ← template r d
  modify (·.mapContext Context.atRoot)
  return e

/-- A traversal of the current page. -/
def walkPage (r : Registry σ) (phase : Phase) : Pass σ (Found σ) := do
  let e ← pageTemplate r
  e.visit r phase r.maxDepth

/-- The response that shows the current page. -/
def renderPage (r : Registry σ) : Pass σ Http.Response := do
  modify fun s =>
    { s with response := Http.Response.setHeader {} "Content-Type" "text/html; charset=utf-8" }
  modify Scene.mute
  let _ ← walkPage r .render
  return (← get).response.setMuted false

end Pass

end PageServer
