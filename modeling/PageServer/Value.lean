/-
  PageServer.Value — the values that components hold and bindings carry.

  Values are dynamically typed. A key leads into a map; a nested write follows a path of keys
  through maps, a null on the way counting as an empty map, and fails as a whole if anything
  else is in the way.
-/

import PageServer.Assoc
import PageServer.Decimal.Written
import PageServer.Text.Quoted

namespace PageServer

inductive Value where
  | null
  | bool (b : Bool)
  | int (n : Int)
  | float (x : Float)
  | string (s : String)
  | list (items : List Value)
  /-- The entries in key order. -/
  | map (entries : List (String × Value))
  deriving Inhabited

namespace Value

/-! ## Equality -/

mutual

/-- Equality as the `equals` helper sees it: no number is equal to NaN, and zero has no sign. -/
def beq : Value → Value → Bool
  | null, null => true
  | bool a, bool b => a == b
  | int a, int b => a == b
  | float a, float b => a == b
  | string a, string b => a == b
  | list a, list b => beqItems a b
  | map a, map b => beqEntries a b
  | _, _ => false

def beqItems : List Value → List Value → Bool
  | [], [] => true
  | a :: as, b :: bs => beq a b && beqItems as bs
  | _, _ => false

def beqEntries : List (String × Value) → List (String × Value) → Bool
  | [], [] => true
  | (k, a) :: as, (l, b) :: bs => k == l && beq a b && beqEntries as bs
  | _, _ => false

end

instance : BEq Value := ⟨beq⟩

/-! ## Texts -/

mutual

/-- The full text of a value. -/
def shown : Value → String
  | null => "null"
  | bool b => if b then "true" else "false"
  | int n => toString n
  | float x => Decimal.text x
  | string s => s
  | list items => "(" ++ ", ".intercalate (shownItems items) ++ ")"
  | map entries => "\x7b" ++ "; ".intercalate (shownEntries entries) ++ "\x7d"

def shownItems : List Value → List String
  | [] => []
  | v :: rest => shown v :: shownItems rest

def shownEntries : List (String × Value) → List String
  | [] => []
  | (k, v) :: rest => (k ++ " = " ++ shown v) :: shownEntries rest

end

/-- The text that is rendered: as `shown`, but nothing for null. -/
def text : Value → String
  | null => ""
  | v => v.shown

mutual

/-- A description that tells the type, too. -/
def inspect : Value → String
  | null => "Null"
  | bool b => if b then "Bool(true)" else "Bool(false)"
  | int n => "Int(" ++ toString n ++ ")"
  | float x => "Float(" ++ Decimal.inspect x ++ ")"
  | string s => "String(" ++ Text.quoteKey s ++ ")"
  | list items => "List([" ++ ", ".intercalate (inspectItems items) ++ "])"
  | map entries => "Map(\x7b" ++ ", ".intercalate (inspectEntries entries) ++ "\x7d)"

def inspectItems : List Value → List String
  | [] => []
  | v :: rest => inspect v :: inspectItems rest

def inspectEntries : List (String × Value) → List String
  | [] => []
  | (k, v) :: rest => (Text.quoteKey k ++ ": " ++ inspect v) :: inspectEntries rest

end

/-! ## Views -/

def isNull : Value → Bool
  | null => true
  | _ => false

/-- Null, false, zero and everything empty are false, all else is true. -/
def isTruthy : Value → Bool
  | null => false
  | bool b => b
  | int n => n != 0
  | float x => x != 0.0
  | string s => s != ""
  | list items => !items.isEmpty
  | map entries => !entries.isEmpty

def string? : Value → Option String
  | string s => some s
  | _ => none

def items? : Value → Option (List Value)
  | list items => some items
  | _ => none

/-- Where a nested write can go on: into a map, or into a null as into an empty map. -/
def entries? : Value → Option (List (String × Value))
  | null => some []
  | map entries => some entries
  | _ => none

/-- Integers are words of 64 bits; a sum beyond the largest one is no value. -/
def maxInt : Int := Nat.pow 2 63 - 1

/-! ## Keys -/

def get? (key : String) : Value → Option Value
  | map entries => Assoc.get? key entries
  | _ => none

/-- As `get?`, but lists, and maps without such a key, have a `count`. -/
def derived? (key : String) : Value → Option Value
  | list items => if key = "count" then some (int items.length) else none
  | map entries =>
    match Assoc.get? key entries with
    | some v => some v
    | none => if key = "count" then some (int entries.length) else none
  | _ => none

/-- A nested write at `key` met `value`, which is no map. -/
structure PathError where
  key : String
  value : Value

def PathError.message (e : PathError) : String :=
  "can't set " ++ Text.quoteKey e.key ++ " on non-map value " ++ e.value.shown

instance : ToString PathError := ⟨PathError.message⟩

/-- `new` is written in place at the end of `path`: what comes of it, and what has become of `v`. On
    the way a null turns into a map and a missing key gets an entry, before it is known whether the
    write goes through. -/
def store (new : Value) : List String → Value → Except PathError Unit × Value
  | [], _ => (.ok (), new)
  | key :: rest, v =>
    match v.entries? with
    | none => (.error ⟨key, v⟩, v)
    | some entries =>
      let (result, slot) := store new rest ((Assoc.get? key entries).getD null)
      (result, map (Assoc.put key slot entries))

/-- `v` with `new` in the place that `path` leads to. -/
def setPath (new : Value) (path : List String) (v : Value) : Except PathError Value :=
  let (result, v) := store new path v
  result.map fun () => v

end Value

end PageServer
