/-
  PageServer.Element — compiled templates: trees of text, groups, components and controls.

  A control is what a page shows or takes in. The built-in ones are listed here; a widget is one
  that the application supplies.
-/

import PageServer.Binding.Basic
import PageServer.ElementId

namespace PageServer

/-- Where a link leads. -/
inductive Target where
  /-- An action of the component the link is in. -/
  | action (name : Binding)
  | href (url : Binding)
  /-- A named entry point of the application. -/
  | directAction (name : Binding)

inductive Control where
  /-- A text, escaped unless `escape` is false. -/
  | string (value : Binding) (escape whenEmpty : Option Binding)
  | textField (value : Binding) (name : Option Binding)
  | hyperlink (target : Target) (label : Option Binding)
  | form (action : Option Binding)
  | submitButton (action value : Option Binding)
  /-- Its content once for each item of a list. -/
  | repetition (list : Binding) (item index : Option KeyPath)
  | conditional (condition : Binding) (negate : Option Binding)
  /-- In the template of a component: what the component is wrapped around where it is used. -/
  | componentContent
  /-- A part of a page that can be asked for alone. -/
  | updateContainer (id : Binding) (elementName : Option Binding)
  /-- A control of the application, by its type and tag. -/
  | widget (typeName tag : String) (bindings : Bindings)

inductive Element where
  | text (s : String)
  /-- Children one level down; named after the tag it is the content of. -/
  | group (name : Option String) (children : List Element)
  /-- A use of a component, by the name of its definition. -/
  | component (tag definition : String) (bindings : Bindings) (content : Option Element)
  | control (control : Control) (content : Option Element)
  deriving Inhabited

/-- The name of a control in descriptions for the developer. -/
def Control.name : Control → String
  | .string .. => "StringElement"
  | .textField .. => "TextField"
  | .hyperlink .. => "Hyperlink"
  | .form .. => "Form"
  | .submitButton .. => "SubmitButton"
  | .repetition .. => "Repetition"
  | .conditional .. => "Conditional"
  | .componentContent => "ComponentContent"
  | .updateContainer .. => "UpdateContainer"
  | .widget _ tag _ => tag

def Element.isComponent : Element → Bool
  | .component .. => true
  | _ => false

/-! ## Making controls from bindings -/

inductive ElementError where
  | missingBinding (key : String)
  | notKeyPath (key : String) (got : Binding)
  | targetCount (n : Nat)
  /-- A widget's reason to refuse its bindings. -/
  | refused (text : String)

def ElementError.message : ElementError → String
  | .missingBinding k => "missing required binding " ++ Text.quote k
  | .notKeyPath k b => "binding " ++ Text.quote k ++ " must be a key path, got " ++ b.text
  | .targetCount n =>
    "need exactly one of the bindings \"action\", \"href\", \"directActionName\", got "
      ++ toString n
  | .refused text => text

instance : ToString ElementError := ⟨ElementError.message⟩

/-- The binding of `key`, and the others. -/
def Bindings.require (key : String) (bs : Bindings) : Except ElementError (Binding × Bindings) :=
  match bs.take key with
  | (some b, rest) => .ok (b, rest)
  | (none, _) => .error (.missingBinding key)

/-- The key path that `key` is bound to, if it is bound. -/
def Bindings.settable? (key : String) (bs : Bindings) : Except ElementError (Option KeyPath) :=
  match bs.get? key with
  | none => .ok none
  | some (.keyPath p) => .ok (some p)
  | some b => .error (.notKeyPath key b)

inductive Builtin where
  | string
  | textField
  | hyperlink
  | form
  | submitButton
  | repetition
  | conditional
  | componentContent
  | updateContainer
  deriving DecidableEq, Repr

namespace Builtin

def all : List Builtin :=
  [string, textField, hyperlink, form, submitButton, repetition, conditional, componentContent,
   updateContainer]

def name : Builtin → String
  | string => "String"
  | textField => "TextField"
  | hyperlink => "Hyperlink"
  | form => "Form"
  | submitButton => "SubmitButton"
  | repetition => "Repetition"
  | conditional => "Conditional"
  | componentContent => "ComponentContent"
  | updateContainer => "UpdateContainer"

/-- Whether what stands between its tags is part of the control. -/
def hasContent : Builtin → Bool
  | string | textField | submitButton | componentContent => false
  | _ => true

def targets (bs : Bindings) : List Target :=
  ((bs.get? "action").map Target.action).toList ++ ((bs.get? "href").map Target.href).toList
    ++ ((bs.get? "directActionName").map Target.directAction).toList

/-- The control with these bindings; those it has no use for are ignored. -/
def build (t : Builtin) (bs : Bindings) : Except ElementError Control :=
  match t with
  | string => do
    return .string (← bs.require "value").1 (bs.get? "escapeHTML") (bs.get? "valueWhenEmpty")
  | textField => do return .textField (← bs.require "value").1 (bs.get? "name")
  | hyperlink =>
    match targets bs with
    | [target] => .ok (.hyperlink target (bs.get? "string"))
    | ts => .error (.targetCount ts.length)
  | form => .ok (.form (bs.get? "action"))
  | submitButton => .ok (.submitButton (bs.get? "action") (bs.get? "value"))
  | repetition => do
    let list := (← bs.require "list").1
    return .repetition list (← bs.settable? "item") (← bs.settable? "index")
  | conditional => do return .conditional (← bs.require "condition").1 (bs.get? "negate")
  | componentContent => .ok .componentContent
  | updateContainer => do
    return .updateContainer (← bs.require "id").1 (bs.get? "elementName")

end Builtin

/-! ## Widgets -/

/-- What a widget knows of the place it is visited at. -/
structure Place where
  elementId : ElementId
  isSender : Bool
  inForm : Bool

/-- A control that the application supplies, by what it does with its bindings. -/
structure Widget where
  /-- Looks at the bindings of a tag and gives those to keep. -/
  accept : Bindings → Except ElementError Bindings := .ok
  /-- The markup it shows. -/
  render : Place → Bindings → String := fun _ _ => ""
  /-- The bindings it writes when values are taken in, each with what is written. -/
  writes : Place → Bindings → List (Binding × Value) := fun _ _ => []
  /-- The binding whose action it runs. -/
  action : Place → Bindings → Option Binding := fun _ _ => none

end PageServer
