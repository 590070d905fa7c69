/-
  PageServer.Http.Status — the status codes the server answers with.
-/

namespace PageServer.Http

inductive Status where
  | ok
  | found
  | seeOther
  | badRequest
  | notFound
  | gone
  | internalServerError
  | notImplemented
  deriving DecidableEq, Repr

namespace Status

def all : List Status :=
  [ok, found, seeOther, badRequest, notFound, gone, internalServerError, notImplemented]

def code : Status → Nat
  | ok => 200
  | found => 302
  | seeOther => 303
  | badRequest => 400
  | notFound => 404
  | gone => 410
  | internalServerError => 500
  | notImplemented => 501

def ofCode? (n : Nat) : Option Status := all.find? (·.code == n)

def title : Status → String
  | ok => "OK"
  | found => "Found"
  | seeOther => "See Other"
  | badRequest => "Bad Request"
  | notFound => "Not Found"
  | gone => "Gone"
  | internalServerError => "Internal Server Error"
  | notImplemented => "Not Implemented"

def description : Status → String
  | ok => "The request succeeded."
  | found => "The URI of the requested resource has been changed temporarily."
  | seeOther =>
    "The response to the request can be found under another URI using a GET request."
  | badRequest =>
    "The server cannot or will not process the request due to something that is perceived to "
      ++ "be a client error."
  | notFound => "The server cannot find the requested resource."
  | gone => "The requested content is no longer available."
  | internalServerError =>
    "The server has encountered a situation it does not know how to handle."
  | notImplemented =>
    "The request method is not supported by the server and cannot be handled."

def isRedirect : Status → Bool
  | found | seeOther => true
  | _ => false

end Status

end PageServer.Http
