/-
  PageServer.Text.Case — upper and lower case of all scripts.
-/

import PageServer.Text.CaseTable

namespace PageServer.Text

def upperChar (c : Char) : List Char :=
  match upperSequences.lookup c.toNat with
  | some ns => ns.map Char.ofNat
  | none => [((upperRuns.findSome? (·.map? c.toNat)).map Char.ofNat).getD c]

/-- The dotted capital I keeps its dot; all others have one lower case character. -/
def lowerChar (c : Char) : List Char :=
  if c.toNat = 0x130 then ['i', Char.ofNat 0x307]
  else [((lowerRuns.findSome? (·.map? c.toNat)).map Char.ofNat).getD c]

def upper (s : List Char) : List Char := s.flatMap upperChar

/-- The first character upper case, the rest as it is. -/
def capitalize : List Char → List Char
  | [] => []
  | c :: r => upperChar c ++ r

/-- Whether a cased letter comes next, looking past characters that case ignores. -/
def meetsCased (s : List Char) : Bool :=
  match s.dropWhile caseIgnorableRanges.holds with
  | [] => false
  | c :: _ => casedRanges.holds c

/-- Lower case of a text whose beginning, last character first, is `before`: a sigma that ends
    a word gets its final form. -/
def lowerAfter (before : List Char) : List Char → List Char
  | [] => []
  | c :: r =>
    (if c.toNat = 0x3A3 then [if meetsCased before && !meetsCased r then 'ς' else 'σ']
     else lowerChar c) ++ lowerAfter (c :: before) r

def lower (s : List Char) : List Char := lowerAfter [] s

def asciiLower (s : String) : String := s.map Char.toLower

end PageServer.Text
