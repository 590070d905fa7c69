/-
  PageServer.Binding.Literals — string literals set aside while a declaration file is cut up.

  A literal is replaced by a placeholder, `#qs` and its number and `#`. No key path holds a
  `#`, so a placeholder is taken for nothing else.
-/

import PageServer.Text.Escape
import PageServer.Text.Number

namespace PageServer

/-- The contents of the literals, escapes in place, by number. -/
structure Literals where
  contents : List String := []
  deriving DecidableEq, Repr

namespace Literals

def placeholder (i : Nat) : List Char := '#' :: 'q' :: 's' :: (Nat.toDigits 10 i ++ ['#'])

/-- The placeholder for one more literal. -/
def push (t : Literals) (inner : List Char) : List Char × Literals :=
  (placeholder t.contents.length, ⟨t.contents ++ [String.ofList inner]⟩)

/-- The literal that exactly `token` stands for. -/
def lookup? (t : Literals) (token : List Char) : Option String :=
  match token with
  | '#' :: 'q' :: 's' :: r =>
    if r.getLast? = some '#' then
      match Text.readNat (Nat.pow 2 64 - 1) r.dropLast with
      | .ok i => t.contents[i]?
      | .error _ => none
    else none
  | _ => none

/-- The literal whose placeholder `s` begins with, after `#qs`, and the text after it. -/
def placeholderAt? (t : Literals) (s : List Char) : Option (String × List Char) :=
  match s.dropWhile Char.isDigit with
  | '#' :: after =>
    match Text.readNat (Nat.pow 2 64 - 1) (s.takeWhile Char.isDigit) with
    | .ok i => t.contents[i]?.map (·, after)
    | .error _ => none
  | _ => none

theorem placeholderAt?_length {t : Literals} {s after : List Char} {inner : String}
    (h : t.placeholderAt? s = some (inner, after)) : after.length < s.length := by
  unfold placeholderAt? at h
  split at h
  · rename_i after' hd
    have hs := @List.takeWhile_append_dropWhile _ Char.isDigit s
    rw [hd] at hs
    have hlen := congrArg List.length hs
    simp at hlen
    split at h
    · rename_i i hi
      cases hc : t.contents[i]? with
      | none => simp [hc] at h
      | some x => simp [hc] at h; obtain ⟨-, rfl⟩ := h; omega
    · cases h
  · cases h

/-- `s` with every placeholder turned back into its literal. -/
def reinline (t : Literals) : List Char → List Char
  | [] => []
  | '#' :: 'q' :: 's' :: r =>
    match _h : t.placeholderAt? r with
    | some (inner, after) => '"' :: (inner.toList ++ '"' :: t.reinline after)
    | none => '#' :: 'q' :: 's' :: t.reinline r
  | c :: r => c :: t.reinline r
  termination_by s => s.length
  decreasing_by
    · have := placeholderAt?_length _h; simp; omega
    · simp; omega
    · simp

end Literals

end PageServer
