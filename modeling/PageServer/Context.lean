/-
  PageServer.Context — what a request is about and how far its page has been traversed.

  A context id names the page that a response shows. It is taken from the session's counter when
  it is first needed, unless the request is about a page that has one.
-/

import PageServer.Address
import PageServer.Http.Request

namespace PageServer

structure Context where
  request : Http.Request
  sessionId : String
  /-- The number of context ids that the session has given out. -/
  contextIdCount : Nat := 0
  /-- The id to report an internal error under. -/
  errorId : String := "-"
  contextId : Option String := none
  /-- The context id in the address of the request. -/
  originating : Option String := none
  sender : Option ElementId := none
  elementId : ElementId := .root
  inForm : Bool := false
  /-- The ids of the update containers around the element, innermost first. -/
  containers : List String := []

namespace Context

/-- The page answering a request to an address keeps its context id. -/
def begin (c : Context) (a : Address) : Context :=
  { c with originating := some a.contextId, contextId := some a.contextId, sender := some a.sender }

/-- The next context id of the session. -/
def nextContextId (c : Context) : String × Context :=
  (toString c.contextIdCount, { c with contextIdCount := c.contextIdCount + 1 })

/-- The context id of the response. -/
def takeContextId (c : Context) : String × Context :=
  match c.contextId with
  | some id => (id, c)
  | none =>
    let (id, c) := c.nextContextId
    (id, { c with contextId := some id })

/-- The URL of the element. -/
def url (c : Context) : String × Context :=
  let (id, c) := c.takeContextId
  (Address.url ⟨id, c.elementId⟩, c)

/-! ## Elements -/

def atRoot (c : Context) : Context := { c with elementId := .root }

def down (c : Context) : Context := { c with elementId := c.elementId.down }

def up (c : Context) : Context := { c with elementId := c.elementId.up }

def next (c : Context) : Context := { c with elementId := c.elementId.next }

def withInForm (c : Context) (inForm : Bool) : Context := { c with inForm := inForm }

def isSender (c : Context) : Bool := c.sender == some c.elementId

/-- Whether the sender is the element, lies below it, or is above it, as a form is above the
    controls that are submitted with it. -/
def onSenderPath (c : Context) : Bool :=
  match c.sender with
  | some s => s.startsWith c.elementId || c.elementId.startsWith s
  | none => false

/-! ## Update containers -/

/-- The header of a request for one update container alone. -/
def updateHeader : String := "x-updatecontainerid"

def requestedContainer (c : Context) : Option String := c.request.header? updateHeader

def enterContainer (c : Context) (id : String) : Context :=
  { c with containers := id :: c.containers }

def leaveContainer (c : Context) : Context := { c with containers := c.containers.tail }

/-- Whether what is shown here belongs to the response. -/
def shouldRender (c : Context) : Bool :=
  match c.requestedContainer with
  | some id => c.containers.contains id
  | none => true

end Context

end PageServer
