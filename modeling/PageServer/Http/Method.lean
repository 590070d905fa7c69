/-
  PageServer.Http.Method — request methods.
-/

import PageServer.Text.Quoted

namespace PageServer.Http

inductive Method where
  | get
  | head
  | post
  | put
  | delete
  | connect
  | options
  | trace
  | patch
  deriving DecidableEq, Repr

namespace Method

def all : List Method := [get, head, post, put, delete, connect, options, trace, patch]

def name : Method → String
  | get => "GET"
  | head => "HEAD"
  | post => "POST"
  | put => "PUT"
  | delete => "DELETE"
  | connect => "CONNECT"
  | options => "OPTIONS"
  | trace => "TRACE"
  | patch => "PATCH"

/-- Names are in capitals. -/
def ofName? (s : String) : Option Method := all.find? (·.name == s)

/-- Whether pages and forms can be requested so. -/
def isSimple : Method → Bool
  | get | head | post => true
  | _ => false

end Method

/-- A name that is no request method. -/
structure MethodError where
  name : String
  deriving DecidableEq, Repr

def MethodError.message (e : MethodError) : String :=
  "invalid http request method " ++ Text.quote e.name

instance : ToString MethodError := ⟨MethodError.message⟩

end PageServer.Http
