/-
  PageServer.Application — an application: what is registered with it, its sessions, and the
  answers to its requests.

  A request goes to a route of the application, or else to an element or a direct action by its
  first path segment. What nobody answers is not found.
-/

import PageServer.DirectAction
import PageServer.Dispatch
import PageServer.Router
import PageServer.Settings

namespace PageServer

structure Application (σ : Type) where
  settings : Settings
  registry : Registry σ := .builtin
  /-- The templates that are compiled. -/
  templates : Templates := []
  directActions : DirectActions := []
  router : Router := {}
  sessions : Sessions (Instance σ)
  /-- The number of requests handled so far. -/
  requestCount : Nat := 0

namespace Application

variable {σ : Type}

def new (settings : Settings) : Application σ :=
  { settings
    sessions := ⟨settings.sessionTimeout * Nat.pow 10 9, settings.pageCacheSize, []⟩ }

/-! ## Registration -/

def registerWidget (app : Application σ) (name : String) (w : Widget) :
    Except NameTaken (Application σ) := do
  return { app with registry := ← app.registry.register name (.widget w) }

def registerComponent (app : Application σ) (d : Definition σ) :
    Except NameTaken (Application σ) := do
  return { app with registry := ← app.registry.registerComponent d }

def registerHelper (app : Application σ) (name : String) (f : Helper) :
    Except HelperError (Application σ) := do
  return { app with registry := ← app.registry.registerHelper name f }

def registerDirectAction (app : Application σ) (name : String) (action : DirectAction) :
    Except DirectActionTaken (Application σ) := do
  return { app with directActions := ← app.directActions.insert name action }

/-- A route for exactly `path`, before the handlers of the server. -/
def addRoute (app : Application σ) (path : String) (route : Route) :
    Except RouteError (Application σ) := do
  return { app with router := ← app.router.add path route }

/-- A route for the paths with the first segment `key`. -/
def addKey (app : Application σ) (key : String) (route : Route) :
    Except RouteError (Application σ) := do
  if key = Address.handlerKey || key = DirectActions.handlerKey then throw (.keyReserved key)
  return { app with router := ← app.router.addKey key route }

/-- Compiles the templates of these components, up to the first that has a fault. -/
def compileAll (r : Registry σ) :
    List (Definition σ) → Templates → Except Template.CompileError Unit × Templates
  | [], ts => (.ok (), ts)
  | d :: rest, ts =>
    match Templates.get r d ts with
    | (.ok _, ts) => compileAll r rest ts
    | (.error e, ts) => (.error e, ts)

/-- Compiles all templates ahead of their use, and counts them. -/
def warmUp (app : Application σ) : Except Template.CompileError Nat × Application σ :=
  let definitions := app.registry.definitions
  let (result, templates) := compileAll app.registry definitions app.templates
  (result.map fun _ => definitions.length, { app with templates := templates })

/-- Whether the template of a component is compiled. -/
def isCompiled (app : Application σ) (name : String) : Bool := Assoc.contains name app.templates

/-! ## Sessions -/

/-- The session with this id, new if there is none, used now. -/
def session (app : Application σ) (now : Nat) (id : String) :
    Session (Instance σ) × Application σ :=
  let (s, sessions) := app.sessions.getOrCreate now id
  (s, { app with sessions := sessions })

def putSession (app : Application σ) (s : Session (Instance σ)) : Application σ :=
  { app with sessions := app.sessions.put s }

/-! ## Requests -/

/-- A request in a session. `errorId` is the id to report an internal error under. -/
def exchange (app : Application σ) (s : Session (Instance σ)) (errorId : String)
    (request : Http.Request) : Exchange σ :=
  { context :=
      { request, sessionId := s.id, contextIdCount := s.contextIdCount, errorId }
    templates := app.templates
    pages := s.pages }

/-- The session after a request. -/
def sessionAfter (s : Session (Instance σ)) (x : Exchange σ) : Session (Instance σ) :=
  { s with contextIdCount := x.context.contextIdCount, pages := x.pages }

/-- The application after a request in a session. -/
def after (app : Application σ) (s : Session (Instance σ)) (x : Exchange σ) : Application σ :=
  { app.putSession (sessionAfter s x) with templates := x.templates }

variable [Component σ]

/-- The response, if the request is for anybody. -/
def answer? (app : Application σ) : Answer σ (Option Http.Response) := do
  match ← app.router.respond app.registry.helpers with
  | some response => return some response
  | none =>
    match (← get).context.request.segments.head? with
    | none => app.directActions.respond app.registry
    | some key =>
      if key = Address.handlerKey then some <$> Dispatch.answer app.registry
      else if key = DirectActions.handlerKey then app.directActions.respond app.registry
      else return none

/-- The response in any case: an error page where there is none. -/
def respond (app : Application σ) (x : Exchange σ) : Http.Response × Exchange σ :=
  match app.answer?.run.run x with
  | (.ok (some response), x) => (response, x)
  | (.ok none, x) => (Http.Notice.ofStatus .notFound, x)
  | (.error _, x) => (Http.Notice.internalError x.context.errorId, x)

/-- Work on a request in the session `id`, which is made if there is none. -/
def within {α : Type} (app : Application σ) (now : Nat) (id errorId : String)
    (request : Http.Request) (work : Exchange σ → α × Exchange σ) :
    (α × List Event) × Application σ :=
  let (s, app) := app.session now id
  let (result, x) := work (app.exchange s errorId request)
  ((result, x.events), app.after s x)

/-- The response to a request in a session. -/
def respondIn (app : Application σ) (now : Nat) (id errorId : String) (request : Http.Request) :
    (Http.Response × List Event) × Application σ :=
  app.within now id errorId request app.respond

/-- The response to a request to an element, without the rest of the application. -/
def dispatch (app : Application σ) (now : Nat) (id errorId : String) (request : Http.Request) :
    (Except DispatchError Http.Response × List Event) × Application σ :=
  app.within now id errorId request (Dispatch.respond app.registry).run.run

/-- After this many requests, idle sessions are looked for. -/
def expiryInterval : Nat := 128

/-- Counts a request. Now and then the sessions that were idle for too long are dropped. -/
def countRequest (app : Application σ) (now : Nat) : Application σ :=
  let sessions :=
    if app.requestCount % expiryInterval = expiryInterval - 1 then (app.sessions.expireIdle now).2
    else app.sessions
  { app with requestCount := app.requestCount + 1, sessions := sessions }

/-- The response to a request that comes in. -/
def handle (app : Application σ) (now : Nat) (id errorId : String) (request : Http.Request) :
    (Http.Response × List Event) × Application σ :=
  (app.countRequest now).respondIn now id errorId request

end Application

end PageServer
