/-
  PageServer.Dispatch — requests to elements of pages that were shown before.

  The address leads to a page in the session's cache. The page takes in the form values, the
  action of the sender is run, and the page is shown again, or the one the action gave instead
  of it, under the same context id. The cached page is the one that is worked on: what a phase
  did to it stays, even if the phase failed.
-/

import PageServer.Exchange
import PageServer.Http.Notice

namespace PageServer

inductive DispatchPhase where
  | validateAddress
  | restorePage
  | awaken
  | takeValues
  | invokeAction
  | generateResponse
  deriving DecidableEq, Repr

def DispatchPhase.text : DispatchPhase → String
  | validateAddress => "validate address"
  | restorePage => "restore page"
  | awaken => "awaken"
  | takeValues => "take values"
  | invokeAction => "invoke action"
  | generateResponse => "generate response"

inductive DispatchError where
  | malformedAddress (e : AddressError)
  | pageExpired (e : PageCacheMiss)
  | failed (phase : DispatchPhase) (cause : Failure)

namespace DispatchError

def phase : DispatchError → DispatchPhase
  | malformedAddress _ => .validateAddress
  | pageExpired _ => .restorePage
  | failed phase _ => phase

def message : DispatchError → String
  | malformedAddress e => "malformed component action address: " ++ e.message
  | pageExpired e => "page expired: " ++ e.message
  | failed phase cause => phase.text ++ ": " ++ cause.report

instance : ToString DispatchError := ⟨message⟩

/-- Where to start over from an expired page. -/
def restartUrl : String := "/wa/default"

def response (errorId : String) : DispatchError → Http.Response
  | malformedAddress e => Http.Notice.badRequest e.message
  | pageExpired _ => Http.Notice.expired restartUrl
  | failed _ _ => Http.Notice.internalError errorId

end DispatchError

/-- The work on a request to an element. A failure keeps what was done before it. -/
abbrev Dispatch (σ : Type) := ExceptT DispatchError (StateM (Exchange σ))

namespace Dispatch

variable {σ : Type} {α : Type} [Component σ]

def lift (r : Except DispatchError α) : Dispatch σ α := ExceptT.mk (pure r)

/-- The address in the path of the request. -/
def address : Dispatch σ Address := do
  lift ((Address.ofSegments (← get).context.request.rawSegments).mapError .malformedAddress)

/-- The page of an address, awake. -/
def restore (a : Address) : Dispatch σ (Instance σ) := do
  let (found, pages) := (← get).pages.reuse a.contextId
  modify fun x => { x with pages := pages }
  return (← lift (found.mapError .pageExpired)).awake

/-- A phase of the work on a cached page. -/
def onCached (phase : DispatchPhase) (contextId : String) (page : Instance σ) (pass : Pass σ α) :
    Dispatch σ (α × Instance σ) := do
  let ((result, page), x) := (← get).traverse page pass
  set { x with pages := x.pages.update contextId page }
  return (← lift (result.mapError (.failed phase)), page)

/-- The page is shown, and takes the place of the cached one if that succeeds. -/
def replace (r : Registry σ) (contextId : String) (page : Instance σ) :
    Dispatch σ Http.Response := do
  let ((result, page), x) := (← get).traverse page.awake (Pass.renderPage r)
  set x
  let response ← lift (result.mapError (.failed .generateResponse))
  modify fun x => { x with pages := (x.pages.save contextId page).2 }
  return response

/-- The response of a request to an element. -/
def respond (r : Registry σ) : Dispatch σ Http.Response := do
  let a ← address
  modify (·.mapContext (·.begin a))
  let page ← restore a
  let page ←
    if (← get).context.request.hasFormValues then
      Prod.snd <$> onCached .takeValues a.contextId page (Pass.walkPage r .take)
    else pure page
  let (found, page) ← onCached .invokeAction a.contextId page (Pass.walkPage r .invoke)
  match found with
  | none | some .stay =>
    Prod.fst <$> onCached .generateResponse a.contextId page (Pass.renderPage r)
  | some (.page new) => replace r a.contextId new
  | some (.respond result) => lift (result.mapError (.failed .generateResponse))

/-- A failed request to an element is answered, too. -/
def answer (r : Registry σ) : Answer σ Http.Response :=
  ExceptT.mk fun x =>
    match (respond r).run.run x with
    | (.ok response, x) => (.ok response, x)
    | (.error e, x) => (.ok (e.response x.context.errorId), x)

end Dispatch

end PageServer
