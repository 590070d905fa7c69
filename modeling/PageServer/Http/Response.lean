/-
  PageServer.Http.Response — responses, built up piece by piece.
-/

import PageServer.Http.Fields
import PageServer.Http.Status
import PageServer.Text.Markup
import PageServer.Text.Utf8

namespace PageServer.Http

structure Cookie where
  name : String
  value : String
  path : Option String := some "/"
  maxAge : Option Nat := none
  httpOnly : Bool := true
  deriving DecidableEq, Repr

/-- The value of a `Set-Cookie` header. -/
def Cookie.headerValue (c : Cookie) : String :=
  c.name ++ "=" ++ c.value
    ++ (match c.path with | some p => "; Path=" ++ p | none => "")
    ++ (match c.maxAge with | some n => "; Max-Age=" ++ toString n | none => "")
    ++ (if c.httpOnly then "; HttpOnly" else "")

structure Response where
  status : Status := .ok
  headers : Headers := {}
  content : ByteArray := .empty
  cookies : List Cookie := []
  /-- While muted, a response takes no more content. -/
  muted : Bool := false

namespace Response

def setHeader (r : Response) (name value : String) : Response :=
  { r with headers := r.headers.set name value }

def appendHeader (r : Response) (name value : String) : Response :=
  { r with headers := r.headers.append name value }

def addCookie (r : Response) (c : Cookie) : Response := { r with cookies := r.cookies ++ [c] }

def setMuted (r : Response) (muted : Bool) : Response := { r with muted := muted }

/-- A response whose content is text of a media type. -/
def ofText (status : Status) (mediaType body : String) : Response :=
  { (Response.setHeader { status := status } "Content-Type" (mediaType ++ "; charset=utf-8")) with
    content := body.toUTF8 }

def html (status : Status) (body : String) : Response := ofText status "text/html" body

def plain (status : Status) (body : String) : Response := ofText status "text/plain" body

def redirect (status : Status) (location : String) : Response :=
  Response.setHeader { status := status } "Location" location

/-- More content, unless the response is muted. -/
def write (r : Response) (s : String) : Response :=
  if r.muted then r else { r with content := r.content ++ s.toUTF8 }

def writeEscaped (r : Response) (s : String) : Response := r.write (Text.htmlEscape s)

def contentText (r : Response) : String := Text.decodeLossy r.content

end Response

end PageServer.Http
