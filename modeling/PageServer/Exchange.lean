/-
  PageServer.Exchange — a request being answered in a session: its context, and what it may
  change there.
-/

import PageServer.Session
import PageServer.Traversal

namespace PageServer

structure Exchange (σ : Type) where
  context : Context
  templates : Templates
  pages : PageCache (Instance σ)
  /-- What components have been asked to do. -/
  events : List Event := []

namespace Exchange

variable {σ : Type} {α : Type}

def mapContext (f : Context → Context) (x : Exchange σ) : Exchange σ :=
  { x with context := f x.context }

/-- A traversal of a page; it may change the page even if it fails. -/
def traverse (x : Exchange σ) (page : Instance σ) (pass : Pass σ α) :
    (Except Failure α × Instance σ) × Exchange σ :=
  let (result, scene) := pass.on (.start x.context x.templates page)
  ((result, scene.page),
   { x with
     context := scene.context
     templates := scene.templates
     events := x.events ++ scene.events })

end Exchange

/-- A step of answering a request. A failure keeps what was done before it. -/
abbrev Answer (σ : Type) := ExceptT Failure (StateM (Exchange σ))

namespace Answer

variable {σ : Type} {α : Type}

def lift (r : Except Failure α) : Answer σ α := ExceptT.mk (pure r)

/-- Code of the application that sees the helpers and the context. -/
def withContext (hs : Helpers) (f : Helpers → Context → Except Failure α × Context) :
    Answer σ α := do
  let (result, context) := f hs (← get).context
  modify fun x => { x with context := context }
  lift result

end Answer

end PageServer
