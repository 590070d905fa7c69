/-
  PageServer.Settings — what can be set from outside.
-/

import PageServer.Environment

namespace PageServer

structure Settings where
  listenAddress : String := "127.0.0.1:1200"
  /-- The number of pages kept for each session. -/
  pageCacheSize : Nat := 30
  /-- After how many seconds without a request a session may be dropped. -/
  sessionTimeout : Nat := 3600
  workerThreads : Nat := 4
  /-- Where the log files are. -/
  logDirectory : Option String := none
  debug : Bool := false
  deriving DecidableEq, Repr

namespace Settings

/-- The environment variables that hold settings. -/
def names : List String :=
  ["NG_LISTEN_ADDR", "NG_PAGE_CACHE_SIZE", "NG_SESSION_TIMEOUT", "NG_WORKER_THREADS", "NG_LOG_DIR",
   "NG_DEBUG"]

/-- The limit of the numbers. -/
def maxNumber : Nat := Nat.pow 2 64 - 1

def check (s : Settings) : Except EnvironmentError Unit :=
  if s.pageCacheSize = 0 then .error (.zero "NG_PAGE_CACHE_SIZE")
  else if s.workerThreads = 0 then .error (.zero "NG_WORKER_THREADS")
  else if s.sessionTimeout = 0 then .error (.zero "NG_SESSION_TIMEOUT")
  else .ok ()

/-- The settings in an environment; what is not set there keeps its default. -/
def ofEnvironment (env : Environment) : Except EnvironmentError Settings := do
  let default : Settings := {}
  let listenAddress ← env.textOr "NG_LISTEN_ADDR" (some default.listenAddress)
  let number := fun name default => env.number name default (Text.readNat maxNumber)
  let pageCacheSize ← number "NG_PAGE_CACHE_SIZE" default.pageCacheSize
  let sessionTimeout ← number "NG_SESSION_TIMEOUT" default.sessionTimeout
  let workerThreads ← number "NG_WORKER_THREADS" default.workerThreads
  let logDirectory ← env.text? "NG_LOG_DIR"
  let debug ← env.flag "NG_DEBUG" default.debug
  let settings : Settings :=
    { listenAddress, pageCacheSize, sessionTimeout, workerThreads, debug
      logDirectory := logDirectory.filter (· != "") }
  settings.check
  return settings

end Settings

end PageServer
