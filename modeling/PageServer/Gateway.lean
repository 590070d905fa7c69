/-
  PageServer.Gateway — between the application and the connections: requests as they come in,
  responses as they go out, and the cookie that keeps a browser in its session.

  A request that cannot be read is refused here. It does not reach the application.
-/

import PageServer.AccessLog
import PageServer.Application

namespace PageServer.Gateway

/-- A request as it comes in. -/
structure Incoming where
  method : String
  url : String
  headers : List (String × String) := []
  /-- Nothing if the body has been taken away. -/
  body : Option ByteArray := none
  remote : Http.Endpoint

/-- A response as it goes out. -/
structure Outgoing where
  code : Nat
  headers : List (String × String)
  body : ByteArray

/-! ## Requests -/

inductive Refusal where
  | unsupportedMethod (name : String)
  | badUrl (e : Text.PercentError)
  | bodyTooLarge
  deriving DecidableEq, Repr

def maxBodySize : Nat := 1024 * 1024

namespace Refusal

def message : Refusal → String
  | unsupportedMethod m => "method " ++ Text.quote m ++ " not implemented"
  | badUrl e => "invalid percent encoding: " ++ e.message
  | bodyTooLarge => "request body larger than " ++ toString maxBodySize ++ " bytes"

instance : ToString Refusal := ⟨message⟩

def response : Refusal → Http.Response
  | unsupportedMethod _ => Http.Notice.ofStatus .notImplemented
  | e => Http.Notice.badRequest e.message

end Refusal

namespace Incoming

/-- The first header of this name, in any letter case. -/
def header? (i : Incoming) (name : String) : Option String :=
  (i.headers.find? fun h => Text.asciiLower h.1 == Text.asciiLower name).map (·.2)

/-- One cookie: a name, and a value that may stand in quotes. -/
def cookie? (part : List Char) : Option (String × String) :=
  (Text.cut? '=' part).map fun (name, value) =>
    let value := Text.dropEndWhile (· == '"') ((Text.trim value).dropWhile (· == '"'))
    (String.ofList (Text.trim name), String.ofList value)

/-- The cookies of the first cookie header. -/
def cookies (i : Incoming) : List (String × String) :=
  (Text.pieces ';' ((i.header? "Cookie").getD "").toList).filterMap cookie?

/-- The faults are looked for in this order: method, URL, size of the body, form data in it. -/
def request (i : Incoming) : Except Refusal Http.Request := do
  match (Http.Method.ofName? i.method).filter Http.Method.isSimple with
  | none => throw (.unsupportedMethod i.method)
  | some method =>
    let r ← (Http.Request.ofUri method i.url).mapError .badUrl
    let r := { r with
      remote := some i.remote
      headers := r.headers.appendAll i.headers
      cookies := r.cookies.appendAll i.cookies }
    let body := i.body.getD .empty
    if maxBodySize < body.size then throw .bodyTooLarge
    (r.withContent body).mapError .badUrl

def accessInfo (i : Incoming) : AccessInfo :=
  { clientIp := i.remote.ip.text
    requestLine := i.method ++ " " ++ i.url ++ " HTTP/1.1"
    referer := i.header? "Referer"
    userAgent := i.header? "User-Agent" }

end Incoming

/-! ## Responses -/

/-- The content type comes first, the cookies last. -/
def Outgoing.ofResponse (r : Http.Response) : Outgoing :=
  let contentType := (r.headers.get? "content-type").getD "text/html; charset=utf-8"
  { code := r.status.code
    headers :=
      ("Content-Type", contentType) :: r.headers.toList.filter (·.1 != "content-type")
        ++ r.cookies.map (fun c => ("Set-Cookie", c.headerValue))
    body := r.content }

/-! ## Sessions -/

def sessionCookie : String := "ngsid"

/-- The session that the browser says it is in. -/
def Incoming.sessionId? (i : Incoming) : Option String :=
  (i.cookies.find? (·.1 == sessionCookie)).map (·.2)

/-- The cookie header that keeps the browser in its session for `timeout` more seconds. -/
def sessionHeader (id : String) (timeout : Nat) : String × String :=
  ("Set-Cookie",
   sessionCookie ++ "=" ++ id ++ "; Max-Age=" ++ toString timeout ++ "; Path=/; HttpOnly")

/-- What the server needs from outside for a request: the time, for the logs in seconds and for
    the sessions in nanoseconds on their clock, how long the work took, and two ids that nobody
    can guess. -/
structure Circumstances where
  time : Nat
  clock : Nat
  duration : Nat
  newSessionId : String
  errorId : String

variable {σ : Type} [Component σ]

/-- The response of the application, or a refusal. -/
def answer (app : Application σ) (c : Circumstances) (id : String) (i : Incoming) :
    (Http.Response × List Event) × Application σ :=
  match i.request with
  | .error e => ((e.response, []), app)
  | .ok request => app.handle c.clock id c.errorId request

/-- What goes out for a request, with its entry in the logs. -/
def serve (app : Application σ) (logs : Logs) (c : Circumstances) (i : Incoming) :
    ((Outgoing × Logs) × List Event) × Application σ :=
  let id := i.sessionId?.getD c.newSessionId
  let ((response, events), app) := answer app c id i
  let (_, logs) := logs.record i.accessInfo c.time c.duration (.answered response)
  let out := Outgoing.ofResponse response
  let headers := out.headers ++ [sessionHeader id app.settings.sessionTimeout]
  ((({ out with headers := headers }, logs), events), app)

end PageServer.Gateway
