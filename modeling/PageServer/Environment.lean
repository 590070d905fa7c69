/-
  PageServer.Environment — environment variables, as texts, numbers and flags.
-/

import PageServer.Assoc
import PageServer.Text.Blank
import PageServer.Text.Case
import PageServer.Text.Number
import PageServer.Text.Quoted

namespace PageServer

/-- The variables that are set, with the bytes they are set to. -/
abbrev Environment := List (String × ByteArray)

inductive EnvironmentError where
  | notText (name : String)
  | missing (name : String)
  /-- Neither the variable nor a value in its place. -/
  | nothingInstead (name : String)
  | invalidNumber (name : String) (e : Text.NumberError) (text : String)
  | invalidFlag (name text : String)
  /-- A number that has to be one or more is zero. -/
  | zero (name : String)
  deriving DecidableEq, Repr

def EnvironmentError.message : EnvironmentError → String
  | .notText n => Text.quote n ++ " env var is not unicode"
  | .missing n => "missing env var " ++ Text.quote n
  | .nothingInstead n => Text.quote n ++ " env var is missing and no default provided"
  | .invalidNumber n e s =>
    "invalid value for env var " ++ Text.quote n ++ ": " ++ e.message ++ ": " ++ Text.quote s
  | .invalidFlag n s => "invalid boolean in env var " ++ Text.quote n ++ ": " ++ Text.quote s
  | .zero n => n ++ " must be at least 1"

instance : ToString EnvironmentError := ⟨EnvironmentError.message⟩

namespace Environment

/-- The text of a variable, if it is set. -/
def text? (env : Environment) (name : String) : Except EnvironmentError (Option String) :=
  match Assoc.get? name env with
  | none => .ok none
  | some bytes =>
    match String.fromUTF8? bytes with
    | some s => .ok (some s)
    | none => .error (.notText name)

/-- The text of a variable, or `default` if it is not set. -/
def textOr (env : Environment) (name : String) (default : Option String) :
    Except EnvironmentError String := do
  match (← env.text? name).or default with
  | some s => return s
  | none => throw (.nothingInstead name)

/-- The text of a variable that has to be set. -/
def required (env : Environment) (name : String) : Except EnvironmentError String := do
  match ← env.text? name with
  | some s => return s
  | none => throw (.missing name)

/-- The number in a variable, with white space around it, or `default` if it is not set. -/
def number {α : Type} (env : Environment) (name : String) (default : α)
    (read : List Char → Except Text.NumberError α) : Except EnvironmentError α := do
  match ← env.text? name with
  | none => return default
  | some s => (read (Text.trim s.toList)).mapError (.invalidNumber name · s)

def trueWords : List String := ["1", "true", "yes", "on"]

def falseWords : List String := ["0", "false", "no", "off", ""]

/-- The truth in a variable, whatever its letter case, or `default` if it is not set. -/
def flag (env : Environment) (name : String) (default : Bool) : Except EnvironmentError Bool := do
  match ← env.text? name with
  | none => return default
  | some s =>
    let word := Text.asciiLower (String.ofList (Text.trim s.toList))
    if trueWords.contains word then return true
    else if falseWords.contains word then return false
    else throw (.invalidFlag name s)

end Environment

end PageServer
