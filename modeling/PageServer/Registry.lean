/-
  PageServer.Registry — the types that tags can name, and the helpers that bindings can call.
-/

import PageServer.Element
import PageServer.Helper

namespace PageServer

/-- A type of component: its template and declarations, and the state `σ` of a new one. -/
structure Definition (σ : Type) where
  name : String
  template : String
  declarations : String
  initial : σ

inductive ElementType (σ : Type) where
  | builtin (t : Builtin)
  | widget (w : Widget)
  | component (d : Definition σ)

/-- What messages call a type. -/
def ElementType.kind {σ : Type} : ElementType σ → String
  | .component _ => "component"
  | _ => "primitive element"

inductive ResolveError where
  | unresolvable (name : String)
  | wrongKind (name expected found : String)
  deriving DecidableEq, Repr

def ResolveError.message : ResolveError → String
  | .unresolvable n => "no element or component named " ++ Text.quote n
  | .wrongKind n expected found =>
    Text.quote n ++ " is a " ++ found ++ ", not a " ++ expected

instance : ToString ResolveError := ⟨ResolveError.message⟩

/-- A name is taken by a type of this kind. -/
structure NameTaken where
  name : String
  kind : String
  deriving DecidableEq, Repr

def NameTaken.message (e : NameTaken) : String :=
  Text.quote e.name ++ " is already registered as a " ++ e.kind

instance : ToString NameTaken := ⟨NameTaken.message⟩

structure Registry (σ : Type) where
  types : List (String × ElementType σ) := []
  helpers : Helpers := Helpers.builtin
  /-- How deep the uses of components and of what they are wrapped around may be nested: deeper
      than there is room for, as nothing but room is to bound it. -/
  maxDepth : Nat := Nat.pow 10 9

namespace Registry

variable {σ : Type}

/-- The built-in elements go by two names. -/
def builtinNames (t : Builtin) : List String := [t.name, "WO" ++ t.name]

/-- The built-in elements and helpers. -/
def builtin : Registry σ :=
  { types := Assoc.ofList
      (Builtin.all.flatMap fun t => (builtinNames t).map fun n => (n, .builtin t)) }

/-- A name that is taken keeps its type. -/
def register (r : Registry σ) (name : String) (t : ElementType σ) :
    Except NameTaken (Registry σ) :=
  match Assoc.get? name r.types with
  | some old => .error ⟨name, old.kind⟩
  | none => .ok { r with types := Assoc.put name t r.types }

def registerComponent (r : Registry σ) (d : Definition σ) : Except NameTaken (Registry σ) :=
  r.register d.name (.component d)

def registerHelper (r : Registry σ) (name : String) (f : Helper) :
    Except HelperError (Registry σ) := do
  return { r with helpers := ← r.helpers.register name f }

def resolve (r : Registry σ) (name : String) : Except ResolveError (ElementType σ) :=
  match Assoc.get? name r.types with
  | some t => .ok t
  | none => .error (.unresolvable name)

def resolveComponent (r : Registry σ) (name : String) : Except ResolveError (Definition σ) := do
  match ← r.resolve name with
  | .component d => return d
  | t => throw (.wrongKind name "component" t.kind)

def widget? (r : Registry σ) (name : String) : Option Widget :=
  match Assoc.get? name r.types with
  | some (.widget w) => some w
  | _ => none

/-- The components, in the order of their names. -/
def definitions (r : Registry σ) : List (Definition σ) :=
  r.types.filterMap fun
    | (_, .component d) => some d
    | _ => none

end Registry

end PageServer
