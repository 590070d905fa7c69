/-
  PageServer.Binding.Basic — what stands on the right of a binding: a constant, a key path, or a
  call of a helper function, and its text in declaration syntax.
-/

import PageServer.KeyPath
import PageServer.Text.Escape
import PageServer.Value

namespace PageServer

inductive Binding where
  | constant (value : Value)
  | keyPath (path : KeyPath)
  | call (helper : String) (arguments : List Binding)
  deriving Inhabited

namespace Binding

/-- Only a key path can be written through. -/
def keyPath? : Binding → Option KeyPath
  | keyPath p => some p
  | _ => none

def isSettable (b : Binding) : Bool := b.keyPath?.isSome

mutual

/-- The names of all helper functions called, outer ones first. -/
def helperNames : Binding → List String
  | call helper arguments => helper :: argumentHelperNames arguments
  | _ => []

def argumentHelperNames : List Binding → List String
  | [] => []
  | b :: rest => helperNames b ++ argumentHelperNames rest

end

mutual

def beq : Binding → Binding → Bool
  | constant a, constant b => a == b
  | keyPath a, keyPath b => a == b
  | call f as, call g bs => f == g && beqArguments as bs
  | _, _ => false

def beqArguments : List Binding → List Binding → Bool
  | [], [] => true
  | a :: as, b :: bs => beq a b && beqArguments as bs
  | _, _ => false

end

instance : BEq Binding := ⟨beq⟩

/-! ## Texts -/

/-- A text as a string literal. -/
def literalText (s : String) : String :=
  "\"" ++ String.ofList (Text.escape s.toList) ++ "\""

/-- Numbers keep a point if they are no integers; what has no syntax of its own is written as
    the literal of its text. -/
def constantText : Value → String
  | .null => "null"
  | .bool b => if b then "true" else "false"
  | .int n => toString n
  | .float x => if x.isFinite then Decimal.textWithPoint x else literalText (Decimal.text x)
  | v => literalText v.text

mutual

/-- The text of an expression, as it stands among the arguments of a call. -/
def term : Binding → String
  | constant v => constantText v
  | keyPath p => p.text
  | call helper arguments => helper ++ "(" ++ ", ".intercalate (terms arguments) ++ ")"

def terms : List Binding → List String
  | [] => []
  | b :: rest => term b :: terms rest

end

/-- The text in a declaration: calls are introduced by `~`. -/
def text (b : Binding) : String :=
  match b with
  | call .. => "~" ++ b.term
  | _ => b.term

end Binding

/-! ## Lists of bindings -/

/-- The bindings of a declaration, in its order; no key is bound twice. -/
abbrev Bindings := List (String × Binding)

namespace Bindings

def get? (key : String) (bs : Bindings) : Option Binding := (bs.find? (·.1 == key)).map (·.2)

def contains (key : String) (bs : Bindings) : Bool := (bs.get? key).isSome

/-- `none` if `key` is bound already. -/
def insert? (key : String) (b : Binding) (bs : Bindings) : Option Bindings :=
  if bs.contains key then none else some (bs ++ [(key, b)])

/-- The binding of `key`, and the others. -/
def take (key : String) (bs : Bindings) : Option Binding × Bindings :=
  (bs.get? key, bs.eraseP (·.1 == key))

def names (bs : Bindings) : List String := bs.map (·.1)

end Bindings

end PageServer
