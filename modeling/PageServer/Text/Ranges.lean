/-
  PageServer.Text.Ranges — sets of characters given by tables of code point ranges.
-/

namespace PageServer.Text

/-- The first and the last code point of each run of a set, in ascending order. -/
abbrev Ranges := List (Nat × Nat)

def Ranges.holds (table : Ranges) (c : Char) : Bool :=
  table.any fun r => r.1 ≤ c.toNat && c.toNat ≤ r.2

end PageServer.Text
