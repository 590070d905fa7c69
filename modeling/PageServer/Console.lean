/-
  PageServer.Console — an application used from a terminal, which is one browser to it.

  A line is a request: method, URL, and form data if there is any, with blanks between them.
-/

import PageServer.Gateway

namespace PageServer.Console

/-- The session that the terminal is in. -/
def sessionId : String := "console"

def remote : Http.Endpoint := { ip := .v4 [127, 0, 0, 1], port := 1 }

def headers : List (String × String) :=
  [("Content-Type", Http.Request.formType), ("Cookie", Gateway.sessionCookie ++ "=" ++ sessionId)]

/-- The request that a line stands for; an empty line stands for none. -/
def request? (line : List Char) : Option Gateway.Incoming :=
  match (Text.fullPieces ' ' (Text.trim line)).map String.ofList with
  | [] => none
  | [method] => some { method, url := "/", headers, remote }
  | method :: url :: form =>
    some { method, url, headers, remote, body := some (" ".intercalate form).toUTF8 }

/-- The status code and the headers, and the body after an empty line. -/
def shown (out : Gateway.Outgoing) : String :=
  toString out.code ++ "\n" ++ String.join (out.headers.map fun h => h.1 ++ ": " ++ h.2 ++ "\n")
    ++ "\n" ++ Text.decodeLossy out.body ++ "\n"

end PageServer.Console
