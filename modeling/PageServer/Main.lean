/-
  PageServer.Main — the guest book at the terminal.
-/

import PageServer.Console
import PageServer.Guestbook

namespace PageServer.Main

def readEnvironment : IO Environment :=
  Settings.names.filterMapM fun name => do
    return (← IO.getEnv name).map fun text => (name, text.toUTF8)

/-- Answers requests until the input ends. -/
partial def serve (app : Application Guestbook.State) (input output : IO.FS.Stream) :
    IO UInt32 := do
  let line ← input.getLine
  if line.isEmpty then return 0
  match Console.request? line.toList with
  | none => serve app input output
  | some request =>
    let clock ← IO.monoNanosNow
    let errorId := toString (← IO.rand 0 (Nat.pow 10 12 - 1))
    let circumstances : Gateway.Circumstances :=
      { time := 0, clock, duration := 0, newSessionId := Console.sessionId, errorId }
    let (((out, _), _), app) := Gateway.serve app {} circumstances request
    output.putStr (Console.shown out)
    output.flush
    serve app input output

end PageServer.Main

open PageServer in
def main : IO UInt32 := do
  match Settings.ofEnvironment (← Main.readEnvironment) with
  | .error e =>
    IO.eprintln e.message
    return 1
  | .ok settings =>
    match (Guestbook.application "guestbook" settings).warmUp with
    | (.error e, _) =>
      IO.eprintln e.message
      return 1
    | (.ok _, app) => Main.serve app (← IO.getStdin) (← IO.getStdout)
