/-
  PageServer.Text.Pieces — cutting a text at a separator.
-/

namespace PageServer.Text

/-- The pieces between the separators, empty ones included: one more than there are separators. -/
def pieces (sep : Char) (s : List Char) : List (List Char) :=
  s.foldr
    (fun c acc =>
      if c = sep then [] :: acc
      else match acc with
        | [] => [[c]]
        | p :: ps => (c :: p) :: ps)
    [[]]

/-- The pieces that are not empty. -/
def fullPieces (sep : Char) (s : List Char) : List (List Char) :=
  (pieces sep s).filter (!·.isEmpty)

/-- The text before and after the first separator, if there is one. -/
def cut? (sep : Char) (s : List Char) : Option (List Char × List Char) :=
  match s.dropWhile (· != sep) with
  | [] => none
  | _ :: after => some (s.takeWhile (· != sep), after)

/-- `parts` with `sep` between them. -/
def join (sep : Char) (parts : List (List Char)) : List Char :=
  [sep].intercalate parts

/-! ## What cutting keeps -/

theorem pieces_ne_nil (sep : Char) (s : List Char) : pieces sep s ≠ [] := by
  cases s with
  | nil => simp [pieces]
  | cons c r =>
    simp only [pieces, List.foldr_cons]
    split
    · simp
    · split <;> simp

theorem cut?_eq {sep : Char} {s a b : List Char} (h : cut? sep s = some (a, b)) :
    s = a ++ sep :: b := by
  unfold cut? at h
  split at h
  · cases h
  · rename_i x after hd
    cases h
    have hx : (x != sep) = false := by
      have := List.head?_dropWhile_not (· != sep) s
      simpa [hd] using this
    have hx' : x = sep := by simpa using hx
    subst hx'
    rw [← hd, List.takeWhile_append_dropWhile]

theorem cut?_length {sep : Char} {s a b : List Char} (h : cut? sep s = some (a, b)) :
    b.length < s.length := by
  rw [cut?_eq h]; simp; omega

end PageServer.Text
