/-
  PageServer.Router — which of the application's own handlers gets a request: the one for
  exactly its path, or else the one for its first path segment.
-/

import PageServer.Exchange

namespace PageServer

/-- Code of the application that answers requests, or leaves them to others. -/
abbrev Handler := Helpers → Context → Except Failure (Option Http.Response) × Context

structure Route where
  /-- What messages call the handler. -/
  label : String
  handler : Handler

inductive RouteError where
  | pathTaken (path label : String)
  | keyTaken (key label : String)
  /-- The first path segments of the server's own handlers are not given away. -/
  | keyReserved (key : String)
  deriving DecidableEq, Repr

def RouteError.message : RouteError → String
  | .pathTaken path label =>
    "already contained an entry for " ++ Text.quote path ++ ": " ++ label
  | .keyTaken key label =>
    "already contained a handler for key " ++ Text.quoteKey key ++ ": " ++ label
  | .keyReserved key => "request handler key " ++ Text.quote key ++ " is reserved"

instance : ToString RouteError := ⟨RouteError.message⟩

/-- A path with one slash before each of these segments, or a slash alone. -/
def pathOf (segments : List (List Char)) : String :=
  String.ofList ('/' :: Text.join '/' segments)

/-- A path without empty segments: `/a//b/` and `a/b` become `/a/b`. -/
def normalizePath (path : String) : String := pathOf (Text.fullPieces '/' path.toList)

structure Router where
  /-- The routes by path. -/
  exact : List (String × Route) := []
  /-- The routes by first segment. -/
  byKey : List (String × Route) := []

namespace Router

/-- A route for exactly `path`. -/
def add (t : Router) (path : String) (route : Route) : Except RouteError Router :=
  match Assoc.get? (normalizePath path) t.exact with
  | some old => .error (.pathTaken path old.label)
  | none => .ok { t with exact := Assoc.put (normalizePath path) route t.exact }

/-- A route for all paths with the first segment `key`. -/
def addKey (t : Router) (key : String) (route : Route) : Except RouteError Router :=
  match Assoc.get? key t.byKey with
  | some old => .error (.keyTaken key old.label)
  | none => .ok { t with byKey := Assoc.put key route t.byKey }

/-- The route for the segments of a path. -/
def get? (t : Router) (segments : List String) : Option Route :=
  (Assoc.get? (pathOf (segments.map String.toList)) t.exact).or
    (segments.head?.bind fun key => Assoc.get? key t.byKey)

variable {σ : Type}

/-- Nothing if there is no route, or if its handler leaves the request to others. -/
def respond (t : Router) (hs : Helpers) : Answer σ (Option Http.Response) := do
  match t.get? (← get).context.request.segments with
  | some route => Answer.withContext hs route.handler
  | none => return none

end Router

end PageServer
