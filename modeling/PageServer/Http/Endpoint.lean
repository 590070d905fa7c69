/-
  PageServer.Http.Endpoint — the address and port a request comes from, and their texts.
-/

import PageServer.Text.Number
import PageServer.Text.Percent

namespace PageServer.Http

inductive IpAddress where
  /-- Four bytes. -/
  | v4 (bytes : List Nat)
  /-- Eight groups of sixteen bits. -/
  | v6 (groups : List Nat)
  deriving DecidableEq, Repr

namespace IpAddress

/-! ## Texts -/

def hexText (n : Nat) : String := String.ofList (Nat.toDigits 16 n)

def groupsText (groups : List Nat) : String := ":".intercalate (groups.map hexText)

def v4Text (bytes : List Nat) : String := ".".intercalate (bytes.map toString)

/-- The place and the length of the first of the longest runs of zero groups. -/
def zeroRun (groups : List Nat) : Nat × Nat :=
  (List.range groups.length).foldl
    (fun best i =>
      let n := ((groups.drop i).takeWhile (· == 0)).length
      if best.2 < n then (i, n) else best)
    (0, 0)

/-- Two or more groups of zeros are left out once; an embedded address of version 4 keeps its
    own notation. -/
def text : IpAddress → String
  | v4 bytes => v4Text bytes
  | v6 groups =>
    match groups with
    | [0, 0, 0, 0, 0, 0xFFFF, a, b] =>
      "::ffff:" ++ v4Text [a / 256, a % 256, b / 256, b % 256]
    | _ =>
      let (start, n) := zeroRun groups
      if n < 2 then groupsText groups
      else groupsText (groups.take start) ++ "::" ++ groupsText (groups.drop (start + n))

/-! ## Reading -/

/-- A byte in decimal without leading zeros. -/
def readByte? (s : List Char) : Option Nat :=
  if s.isEmpty || 3 < s.length || !s.all Char.isDigit || (1 < s.length && s.head? = some '0') then
    none
  else (Text.readNat 255 s).toOption

def readV4? (s : List Char) : Option (List Nat) :=
  let parts := Text.pieces '.' s
  if parts.length = 4 then parts.mapM readByte? else none

def readGroup? (s : List Char) : Option Nat :=
  if s.isEmpty || 4 < s.length then none
  else (s.mapM Text.hexValue?).map fun ds => ds.foldl (fun n d => 16 * n + d) 0

/-- Groups between colons; the last one may be an address of version 4. -/
def readGroups? (s : List Char) : Option (List Nat) :=
  if s.isEmpty then some []
  else
    let parts := Text.pieces ':' s
    let last := parts.getLast?.getD []
    if last.contains '.' then do
      let front ← parts.dropLast.mapM readGroup?
      match ← readV4? last with
      | [a, b, c, d] => some (front ++ [256 * a + b, 256 * c + d])
      | _ => none
    else parts.mapM readGroup?

/-- The text before and after the first double colon. -/
def cutDoubleColon? : List Char → Option (List Char × List Char)
  | [] => none
  | ':' :: ':' :: r => some ([], r)
  | c :: r => (cutDoubleColon? r).map fun (a, b) => (c :: a, b)

def readV6? (s : List Char) : Option (List Nat) :=
  match cutDoubleColon? s with
  | none => do
    let gs ← readGroups? s
    if gs.length = 8 then some gs else none
  | some (a, b) => do
    let front ← (if a.contains '.' then none else readGroups? a)
    let back ← readGroups? b
    if front.length + back.length < 8 then
      some (front ++ List.replicate (8 - front.length - back.length) 0 ++ back)
    else none

end IpAddress

structure Endpoint where
  ip : IpAddress
  port : Nat
  /-- The network that an address of version 6 belongs to, if it is not zero. -/
  scope : Nat := 0
  deriving DecidableEq, Repr

namespace Endpoint

def text (e : Endpoint) : String :=
  match e.ip with
  | .v4 _ => e.ip.text ++ ":" ++ toString e.port
  | .v6 _ =>
    let scope := if e.scope = 0 then "" else "%" ++ toString e.scope
    "[" ++ e.ip.text ++ scope ++ "]:" ++ toString e.port

/-- A number in digits alone. -/
def readDigits? (limit : Nat) (s : List Char) : Option Nat :=
  if s.all Char.isDigit then (Text.readNat limit s).toOption else none

def readPort? : List Char → Option Nat := readDigits? (Nat.pow 2 16 - 1)

/-- The scope after an address of version 6. -/
def readScope? : Option (List Char) → Option Nat
  | none => some 0
  | some s => readDigits? (Nat.pow 2 32 - 1) s

/-- An address and a port after a colon; brackets stand around addresses of version 6, and a
    percent sign before their scope. -/
def parse? (s : String) : Option Endpoint :=
  match s.toList with
  | '[' :: r => do
    let (inside, rest) ← Text.cut? ']' r
    let cut := Text.cut? '%' inside
    let groups ← IpAddress.readV6? ((cut.map (·.1)).getD inside)
    let scope ← readScope? (cut.map (·.2))
    match rest with
    | ':' :: port => do return ⟨.v6 groups, ← readPort? port, scope⟩
    | _ => none
  | s => do
    let (ip, port) ← Text.cut? ':' s
    return { ip := .v4 (← IpAddress.readV4? ip), port := ← readPort? port }

end Endpoint

end PageServer.Http
