/-
  PageServer.ElementId — where an element stands in a page: a path of indices, written as
  `3.4.12`.
-/

import PageServer.Text.Number
import PageServer.Text.Pieces
import PageServer.Text.Quoted

namespace PageServer

/-- The indices from the page's root down; empty at the root. -/
structure ElementId where
  indices : List Nat := []
  deriving DecidableEq, Repr

namespace ElementId

/-- The largest index that can be written. -/
def maxIndex : Nat := Nat.pow 2 32 - 1

def root : ElementId := {}

def isRoot (id : ElementId) : Bool := id.indices.isEmpty

/-- The first position one level down. -/
def down (id : ElementId) : ElementId := ⟨id.indices ++ [0]⟩

def up (id : ElementId) : ElementId := ⟨id.indices.dropLast⟩

/-- The next position on the same level; the root has none beside it. -/
def next (id : ElementId) : ElementId :=
  match id.indices.getLast? with
  | some i => ⟨id.indices.dropLast ++ [i + 1]⟩
  | none => id

/-- Whether `id` is `above` or lies below it. -/
def startsWith (id above : ElementId) : Bool := above.indices.isPrefixOf id.indices

def text (id : ElementId) : String := ".".intercalate (id.indices.map toString)

/-- An index: digits, up to the largest index. -/
def readIndex? (s : List Char) : Option Nat :=
  if s.isEmpty || !s.all Char.isDigit then none
  else (Text.readNat maxIndex s).toOption

/-- Nothing is the root. -/
def parse? (s : List Char) : Option ElementId :=
  if s.isEmpty then some root else ((Text.pieces '.' s).mapM readIndex?).map ElementId.mk

end ElementId

/-- A text that is no element id. -/
structure ElementIdError where
  text : String
  deriving DecidableEq, Repr

def ElementIdError.message (e : ElementIdError) : String :=
  "invalid element id " ++ Text.quote e.text

instance : ToString ElementIdError := ⟨ElementIdError.message⟩

end PageServer
