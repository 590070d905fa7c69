/-
  PageServer.Address — the addresses of elements on rendered pages: `/wo/3.4.12` is element
  `4.12` of the page with context id `3`.
-/

import PageServer.ElementId

namespace PageServer

inductive AddressError where
  | wrongSegmentCount (n : Nat)
  | wrongHandlerKey (key : String)
  | missingPeriod (part : String)
  | nonDigitBoundary (part : String)
  | invalidCharacter (part : String)
  | emptyComponent (part : String)
  deriving DecidableEq, Repr

def AddressError.message : AddressError → String
  | .wrongSegmentCount n =>
    "expected 2 path segments for a component action, got " ++ toString n
  | .wrongHandlerKey k =>
    "path does not start with the component request handler key: " ++ Text.quote k
  | .missingPeriod p => "no '.' separating context and sender ids in " ++ Text.quote p
  | .nonDigitBoundary p =>
    "component address " ++ Text.quote p ++ " must start and end with a digit"
  | .invalidCharacter p => "invalid character in component address " ++ Text.quote p
  | .emptyComponent p => "empty element id component in " ++ Text.quote p

instance : ToString AddressError := ⟨AddressError.message⟩

/-- A page, by its context id, and the element on it that a request comes from. -/
structure Address where
  contextId : String
  sender : ElementId
  deriving DecidableEq, Repr

namespace Address

/-- The first path segment of component action URLs. -/
def handlerKey : String := "wo"

def text (a : Address) : String := a.contextId ++ "." ++ a.sender.text

def url (a : Address) : String := "/" ++ handlerKey ++ "/" ++ a.text

/-- The faults are looked for in the order of the tests here. -/
def parse (part : String) : Except AddressError Address :=
  let s := part.toList
  match s.head?, s.getLast? with
  | some a, some b =>
    if !(a.isDigit && b.isDigit) then .error (.nonDigitBoundary part)
    else if !s.all (fun c => c.isDigit || c == '.') then .error (.invalidCharacter part)
    else match Text.cut? '.' s with
      | none => .error (.missingPeriod part)
      | some (context, sender) =>
        match ElementId.parse? sender with
        | none => .error (.emptyComponent part)
        | some id => .ok ⟨String.ofList context, id⟩
  | _, _ => .error (.missingPeriod part)

/-- Exactly the handler key and an address. -/
def ofSegments : List String → Except AddressError Address
  | [key, part] => if key = handlerKey then parse part else .error (.wrongHandlerKey key)
  | segments => .error (.wrongSegmentCount segments.length)

end Address

end PageServer
