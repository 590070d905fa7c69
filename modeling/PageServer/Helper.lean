/-
  PageServer.Helper — named functions on values that bindings can call.
-/

import PageServer.Text.Case
import PageServer.Value

namespace PageServer

inductive HelperError where
  | argumentCount (helper : String) (expected got : Nat)
  | notApplicable (helper : String) (value : Value)
  | unknown (helper : String)
  | alreadyRegistered (helper : String)
  /-- A failure of a helper that the application registered, in its own words. -/
  | failed (text : String)

def HelperError.message : HelperError → String
  | .argumentCount h n got =>
    "helper function " ++ Text.quote h ++ " takes " ++ toString n ++ " argument(s), got "
      ++ toString got
  | .notApplicable h v => h ++ ": not applicable to " ++ v.shown
  | .unknown h => "unknown helper function " ++ Text.quote h
  | .alreadyRegistered h => "helper function " ++ Text.quote h ++ " is already registered"
  | .failed text => text

instance : ToString HelperError := ⟨HelperError.message⟩

abbrev Helper := List Value → Except HelperError Value

namespace Helper

/-- A helper with one argument. -/
def unary (name : String) (f : Value → Except HelperError Value) : Helper
  | [v] => f v
  | args => .error (.argumentCount name 1 args.length)

/-- A helper with two arguments. -/
def binary (name : String) (f : Value → Value → Value) : Helper
  | [v, w] => .ok (f v w)
  | args => .error (.argumentCount name 2 args.length)

/-- A helper on the text of its argument. -/
def onText (name : String) (f : List Char → List Char) : Helper :=
  unary name fun v => .ok (.string (String.ofList (f v.text.toList)))

/-- Characters of a string, items of a list, entries of a map. -/
def length : Value → Except HelperError Value
  | .null => .ok (.int 0)
  | .string s => .ok (.int s.length)
  | .list items => .ok (.int items.length)
  | .map entries => .ok (.int entries.length)
  | v => .error (.notApplicable "length" v)

def concat (args : List Value) : Value := .string (String.join (args.map Value.text))

/-- The first argument that is true, or else the last one. -/
def default (args : List Value) : Value :=
  ((args.find? Value.isTruthy).or args.getLast?).getD .null

def builtins : List (String × Helper) :=
  [("uppercase", onText "uppercase" Text.upper),
   ("lowercase", onText "lowercase" Text.lower),
   ("capitalize", onText "capitalize" Text.capitalize),
   ("length", unary "length" length),
   ("not", unary "not" fun v => .ok (.bool !v.isTruthy)),
   ("equals", binary "equals" fun v w => .bool (v == w)),
   ("concat", fun args => .ok (concat args)),
   ("default", fun args => .ok (default args))]

end Helper

/-- The helpers by name. -/
abbrev Helpers := List (String × Helper)

namespace Helpers

def builtin : Helpers := Assoc.ofList Helper.builtins

def contains (hs : Helpers) (name : String) : Bool := Assoc.contains name hs

def register (hs : Helpers) (name : String) (f : Helper) : Except HelperError Helpers :=
  if hs.contains name then .error (.alreadyRegistered name) else .ok (Assoc.put name f hs)

def call (hs : Helpers) (name : String) (args : List Value) : Except HelperError Value :=
  match Assoc.get? name hs with
  | some f => f args
  | none => .error (.unknown name)

/-- The names in order, as a description for the developer. -/
def describe (hs : Helpers) : String :=
  "HelperFunctions([" ++ ", ".intercalate ((Assoc.keys hs).map Text.quote) ++ "])"

end Helpers

end PageServer
