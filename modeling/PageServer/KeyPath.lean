/-
  PageServer.KeyPath — dotted paths such as `session.user.name`.
-/

import PageServer.Text.Letters
import PageServer.Text.Pieces

namespace PageServer

/-- A path has at least one segment. -/
structure KeyPath where
  first : String
  rest : List String
  deriving DecidableEq, Repr

namespace KeyPath

def segments (p : KeyPath) : List String := p.first :: p.rest

def text (p : KeyPath) : String := ".".intercalate p.segments

def isSegmentChar (c : Char) : Bool :=
  Text.isLetterOrNumber c || c == '_' || c == '@' || c == '-'

def isSegment (s : List Char) : Bool := !s.isEmpty && s.all isSegmentChar

def parse? (s : List Char) : Option KeyPath :=
  let parts := Text.pieces '.' s
  if parts.all isSegment then
    match parts.map String.ofList with
    | [] => none
    | first :: rest => some ⟨first, rest⟩
  else none

end KeyPath

end PageServer
