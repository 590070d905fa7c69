/-
  PageServer.Http.Request — a request as its handlers see it: method, path, headers, and the
  form values of the query and of the body together.
-/

import PageServer.Http.Endpoint
import PageServer.Http.Fields
import PageServer.Http.Method
import PageServer.Text.Percent

namespace PageServer.Http

structure Request where
  method : Method
  /-- The path and the query as received. -/
  uri : String
  /-- The part before the query. -/
  path : String
  /-- The pieces of the path that are not empty, decoded. -/
  segments : List String
  headers : Headers := {}
  form : Fields := {}
  cookies : Fields := {}
  content : ByteArray := .empty
  remote : Option Endpoint := none

namespace Request

def formType : String := "application/x-www-form-urlencoded"

/-- The path is decoded first, then the query, whose parameters become form values. -/
def ofUri (method : Method) (uri : String) : Except Text.PercentError Request := do
  let (path, query) := (Text.cut? '?' uri.toList).getD (uri.toList, [])
  let segments ← (Text.fullPieces '/' path).mapM Text.percentDecode
  let pairs ← Text.formPairs query
  return {
    method := method
    uri := uri
    path := String.ofList path
    segments := segments.map String.ofList
    form := Fields.appendAll pairs {} }

def header? (r : Request) (name : String) : Option String := r.headers.get? name

/-- Whether the body is to be read as form data. -/
def hasFormBody (r : Request) : Bool :=
  match r.header? "content-type" with
  | some t => formType.toList.isPrefixOf t.toList
  | none => false

/-- The pairs of a form body come after the form values there are. -/
def withContent (r : Request) (content : ByteArray) : Except Text.PercentError Request := do
  if r.hasFormBody then
    let pairs ← Text.formPairs (Text.decodeLossy content).toList
    return { r with form := r.form.appendAll pairs, content := content }
  else return { r with content := content }

def hasFormValues (r : Request) : Bool := !r.form.isEmpty

/-- The path cut at every slash but a first one, nothing dropped and nothing decoded. -/
def rawSegments (r : Request) : List String :=
  let s := match r.path.toList with
    | '/' :: rest => rest
    | s => s
  (Text.pieces '/' s).map String.ofList

/-- The line that logs show for the request. -/
def line (r : Request) : String := r.method.name ++ " " ++ r.uri ++ " HTTP/1.1"

end Request

end PageServer.Http
