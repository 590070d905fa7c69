/-
  PageServer.Http.Fields — names with any number of values: form values, cookies, and headers,
  whose names have no letter case.
-/

import PageServer.Text.Case

namespace PageServer.Http

/-- Names with their values, in order of arrival. -/
structure Fields where
  pairs : List (String × String) := []
  deriving DecidableEq, Repr

namespace Fields

def getAll (name : String) (fs : Fields) : List String :=
  (fs.pairs.filter (·.1 == name)).map (·.2)

/-- The first value of `name`. -/
def get? (name : String) (fs : Fields) : Option String :=
  (fs.pairs.find? (·.1 == name)).map (·.2)

def contains (name : String) (fs : Fields) : Bool := fs.pairs.any (·.1 == name)

def isEmpty (fs : Fields) : Bool := fs.pairs.isEmpty

def appendAll (pairs : List (String × String)) (fs : Fields) : Fields := ⟨fs.pairs ++ pairs⟩

def append (name value : String) (fs : Fields) : Fields := fs.appendAll [(name, value)]

def without (name : String) (fs : Fields) : Fields := ⟨fs.pairs.filter (·.1 != name)⟩

/-- `value` in place of all values of `name`. -/
def set (name value : String) (fs : Fields) : Fields := (fs.without name).append name value

/-- The values of `name`, if there is such a name, and the other fields. -/
def remove (name : String) (fs : Fields) : Option (List String) × Fields :=
  (if fs.contains name then some (fs.getAll name) else none, fs.without name)

/-- All names with their values, the names in order. -/
def toList (fs : Fields) : List (String × String) := fs.pairs.mergeSort fun a b => a.1 ≤ b.1

end Fields

/-- Fields whose names are kept in lower case. -/
structure Headers where
  fields : Fields := {}
  deriving DecidableEq, Repr

namespace Headers

def getAll (name : String) (hs : Headers) : List String := hs.fields.getAll (Text.asciiLower name)

def get? (name : String) (hs : Headers) : Option String := hs.fields.get? (Text.asciiLower name)

def contains (name : String) (hs : Headers) : Bool := hs.fields.contains (Text.asciiLower name)

def appendAll (pairs : List (String × String)) (hs : Headers) : Headers :=
  ⟨hs.fields.appendAll (pairs.map fun p => (Text.asciiLower p.1, p.2))⟩

def append (name value : String) (hs : Headers) : Headers := hs.appendAll [(name, value)]

def set (name value : String) (hs : Headers) : Headers :=
  ⟨hs.fields.set (Text.asciiLower name) value⟩

def toList (hs : Headers) : List (String × String) := hs.fields.toList

end Headers

end PageServer.Http
