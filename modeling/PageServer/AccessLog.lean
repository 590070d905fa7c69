/-
  PageServer.AccessLog — what is written about requests and their responses.

  An entry of the access log is a line of the combined log format, with the time the request
  took at its end. What clients send stands in quotes, so an entry is one line whatever they
  send.
-/

import PageServer.Calendar
import PageServer.Http.Notice
import PageServer.Http.Request
import PageServer.Text.Pieces
import PageServer.Text.Quoted

namespace PageServer

/-- What log entries say of a request. -/
structure AccessInfo where
  clientIp : String
  requestLine : String
  referer : Option String := none
  userAgent : Option String := none
  deriving DecidableEq, Repr

namespace AccessInfo

def ofRequest (r : Http.Request) : AccessInfo :=
  { clientIp := (r.remote.map fun e => e.ip.text).getD "-"
    requestLine := r.line
    referer := r.header? "referer"
    userAgent := r.header? "user-agent" }

/-- The entry for a response; `now` is in seconds, `duration` in nanoseconds. -/
def accessEntry (i : AccessInfo) (now duration : Nat) (response : Http.Response) : String :=
  i.clientIp ++ " - - [" ++ timeText now ++ "] " ++ Text.quote i.requestLine ++ " "
    ++ toString response.status.code ++ " " ++ toString response.content.size ++ " "
    ++ Text.quote (i.referer.getD "-") ++ " " ++ Text.quote (i.userAgent.getD "-") ++ " "
    ++ durationText duration ++ "\n"

/-- The entry for an error. -/
def errorEntry (i : AccessInfo) (now duration : Nat) (error : String) : String :=
  "[" ++ timeText now ++ "] [error] [client " ++ i.clientIp ++ "] " ++ Text.quote i.requestLine
    ++ " " ++ durationText duration ++ ": " ++ error ++ "\n"

end AccessInfo

/-- How the work on a request ended. -/
inductive Ending where
  | answered (r : Http.Response)
  | failed (report : String)
  /-- Without any answer. -/
  | crashed

/-- The texts of the two logs. -/
structure Logs where
  access : String := ""
  error : String := ""
  deriving DecidableEq, Repr

namespace Logs

/-- The response to a request, with the entry for it. What crashed has neither. -/
def record (logs : Logs) (i : AccessInfo) (now duration : Nat) :
    Ending → Option Http.Response × Logs
  | .answered r => (some r, { logs with access := logs.access ++ i.accessEntry now duration r })
  | .failed e =>
    (some (Http.Notice.ofStatus .internalServerError),
     { logs with error := logs.error ++ i.errorEntry now duration e })
  | .crashed => (none, logs)

end Logs

/-! ## Log files -/

/-- Why a log file cannot be opened. -/
inductive OpenFault where
  | noSuchDirectory
  | nameTooLong
  | nulInName
  deriving DecidableEq, Repr

def OpenFault.message : OpenFault → String
  | .noSuchDirectory => "No such file or directory (os error 2)"
  | .nameTooLong => "File name too long (os error 36)"
  | .nulInName => "file name contained an unexpected NUL byte"

structure LogFileError where
  path : String
  fault : OpenFault
  deriving DecidableEq, Repr

def LogFileError.message (e : LogFileError) : String :=
  "opening log file " ++ Text.quote e.path ++ " for appending: " ++ e.fault.message

instance : ToString LogFileError := ⟨LogFileError.message⟩

namespace LogFileError

/-- The path of a file in a directory. -/
def pathIn (directory file : String) : String :=
  if directory.isEmpty || directory.toList.getLast? == some '/' then directory ++ file
  else directory ++ "/" ++ file

/-- What is wrong with the way to a directory, of whose parts some are there. The first
    part that cannot be passed counts. -/
def faultOnWay (isThere : List Char → Bool) : List (List Char) → Option OpenFault
  | [] => none
  | part :: rest =>
    if isThere part then faultOnWay isThere rest
    else if 255 < (String.ofList part).utf8ByteSize then some .nameTooLong
    else some .noSuchDirectory

/-- The error of opening the access log in a directory, if there is one. -/
def ofDirectory? (isThere : List Char → Bool) (directory : String) : Option LogFileError :=
  let path := pathIn directory "access.log"
  let fault :=
    if path.toList.contains '\x00' then some .nulInName
    else if 4096 ≤ path.utf8ByteSize then some .nameTooLong
    else faultOnWay isThere (Text.pieces '/' directory.toList)
  fault.map (⟨path, ·⟩)

end LogFileError

end PageServer
