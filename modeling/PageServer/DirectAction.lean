/-
  PageServer.DirectAction — actions that are reached by name, without a page that was shown
  before: `/wa/login` runs the action `login`, the path `/` the one named `default`.
-/

import PageServer.Exchange

namespace PageServer

/-- What the application does for a request by name. -/
abbrev DirectAction := Helpers → Context → Except Failure Reply × Context

/-- There is a direct action of this name. -/
structure DirectActionTaken where
  name : String
  deriving DecidableEq, Repr

def DirectActionTaken.message (e : DirectActionTaken) : String :=
  "already contained a direct action named " ++ Text.quote e.name

instance : ToString DirectActionTaken := ⟨DirectActionTaken.message⟩

/-- The direct actions by name. -/
abbrev DirectActions := List (String × DirectAction)

namespace DirectActions

def insert (actions : DirectActions) (name : String) (action : DirectAction) :
    Except DirectActionTaken DirectActions :=
  if Assoc.contains name actions then .error ⟨name⟩ else .ok (Assoc.put name action actions)

/-- The names in order, as a description for the developer. -/
def describe (actions : DirectActions) : String :=
  "DirectActions(" ++ ", ".intercalate (Assoc.keys actions) ++ ")"

/-- The first path segment of direct action URLs. -/
def handlerKey : String := "wa"

def defaultName : String := "default"

/-- The name that a path stands for, if it is the path of a direct action. -/
def nameIn? : List String → Option String
  | [] => some defaultName
  | [key] => if key = handlerKey then some defaultName else none
  | [key, name] => if key = handlerKey then some name else none
  | _ => none

variable {σ : Type} [Component σ]

/-- A page is shown under a context id of its own, and kept. -/
def showPage (r : Registry σ) (page : Instance σ) : Answer σ Http.Response := do
  let (id, context) := (← get).context.takeContextId
  modify fun x => { x with context := context }
  let ((result, page), x) := (← get).traverse page.awake (Pass.renderPage r)
  set x
  let response ← Answer.lift result
  modify fun x => { x with pages := (x.pages.save id page).2 }
  return response

def showOutcome (r : Registry σ) : Outcome σ → Answer σ Http.Response
  | .stay => throw .noResult
  | .page p => showPage r p
  | .respond result => Answer.lift result

/-- The response of an action. A page that the action asks for is made in the action. -/
def run (r : Registry σ) (name : String) (action : DirectAction) : Answer σ Http.Response := do
  let reply ← Answer.withContext r.helpers action
  let (outcome, events) := Outcome.ofReply r reply
  modify fun x => { x with events := x.events ++ events }
  (showOutcome r (← Answer.lift outcome)).adapt (Failure.directAction name)

/-- The response of the action that the path names, if there is one. -/
def respond (actions : DirectActions) (r : Registry σ) : Answer σ (Option Http.Response) := do
  match nameIn? (← get).context.request.segments with
  | none => return none
  | some name =>
    match Assoc.get? name actions with
    | none => return none
    | some action => return some (← run r name action)

end DirectActions

end PageServer
