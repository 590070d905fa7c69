/-
  PageServer.Proofs.Lexemes — what the readings of a declaration file see.

  A declaration file is a row of characters and literals; comments are none of them (`lex`). The two
  readings that take comments out and set literals aside see that row, the literals as placeholders
  in the order in which they stand (`readings_eq_lex`).
-/

import PageServer.Declaration

namespace PageServer

/-- A character outside of literals, or a literal with its escapes in place. -/
inductive Lexeme where
  | char (c : Char)
  | literal (inner : List Char)
  deriving DecidableEq

namespace Lexeme

def source : Lexeme → List Char
  | char c => [c]
  | literal inner => '"' :: (inner ++ ['"'])

def inner? : Lexeme → Option String
  | char _ => none
  | literal inner => some (String.ofList inner)

/-- The contents of the literals. -/
def contents (ls : List Lexeme) : List String := ls.filterMap inner?

@[simp] theorem contents_nil : contents [] = [] := rfl

@[simp] theorem contents_char (c : Char) (ls : List Lexeme) : contents (char c :: ls) = contents ls := rfl

@[simp] theorem contents_literal (inner : List Char) (ls : List Lexeme) :
    contents (literal inner :: ls) = String.ofList inner :: contents ls := rfl

/-- The row with placeholders for the literals, from number `n` on. -/
def aside (n : Nat) : List Lexeme → List Char
  | [] => []
  | char c :: ls => c :: aside n ls
  | literal _ :: ls => Literals.placeholder n ++ aside (n + 1) ls

@[simp] theorem aside_nil (n : Nat) : aside n [] = [] := rfl

@[simp] theorem aside_char (n : Nat) (c : Char) (ls : List Lexeme) : aside n (char c :: ls) = c :: aside n ls := rfl

@[simp] theorem aside_literal (n : Nat) (inner : List Char) (ls : List Lexeme) :
    aside n (literal inner :: ls) = Literals.placeholder n ++ aside (n + 1) ls := rfl

end Lexeme

namespace Declarations

open Lexeme

/-- Where the reading of a file stands; in a literal with its contents so far, last character
    first. -/
inductive LexState where
  | outside
  | literal (inner : List Char)
  | lineComment
  | blockComment

/-- The characters and literals of a file; each line comment is a line break. -/
def lex : LexState → List Char → Except DeclarationError (List Lexeme)
  | .outside, [] => .ok []
  | .lineComment, [] => .ok [.char '\n']
  | .literal _, [] => .error .unterminatedString
  | .blockComment, [] => .error .unterminatedComment
  | .outside, '/' :: '*' :: r => lex .blockComment r
  | .outside, '/' :: '/' :: r => lex .lineComment r
  | .outside, '"' :: r => lex (.literal []) r
  | .outside, c :: r => (lex .outside r).map (.char c :: ·)
  | .literal inner, '\\' :: c :: r => lex (.literal (c :: '\\' :: inner)) r
  | .literal inner, '"' :: r => (lex .outside r).map (.literal inner.reverse :: ·)
  | .literal inner, c :: r => lex (.literal (c :: inner)) r
  | .lineComment, '\n' :: r => (lex .outside r).map (.char '\n' :: ·)
  | .lineComment, _ :: r => lex .lineComment r
  | .blockComment, '*' :: '/' :: r => lex .outside r
  | .blockComment, _ :: r => lex .blockComment r

namespace LexState

def first : LexState → CommentState
  | outside => .outside
  | literal _ => .literal
  | lineComment => .lineComment
  | blockComment => .blockComment

/-- The second reading does not see block comments. -/
def second : LexState → LiteralState
  | outside | blockComment => .outside
  | literal inner => .literal inner
  | lineComment => .lineComment

end LexState

/-! ## Two readings are one -/

section Except

variable {ε α β γ : Type}

theorem map_bind (x : Except ε α) (f : α → β) (g : β → Except ε γ) : (x.map f >>= g) = x >>= fun a => g (f a) := by
  cases x <;> rfl

theorem bind_map (x : Except ε α) (g : α → Except ε β) (f : β → γ) :
    (x >>= fun a => (g a).map f) = (x >>= g).map f := by
  cases x <;> rfl

theorem map_map (x : Except ε α) (f : α → β) (g : β → γ) : (x.map f).map g = x.map fun a => g (f a) := by
  cases x <;> rfl

end Except

theorem dropBlockComments_cons {c : Char} {r : List Char} (hcomment : ∀ r', c = '/' → r = '*' :: r' → False)
    (hline : ∀ r', c = '/' → r = '/' :: r' → False) (hquote : c ≠ '"') :
    dropBlockComments .outside (c :: r) = (dropBlockComments .outside r).map (c :: ·) := by
  rw [dropBlockComments] <;> simp_all

theorem setLiteralsAside_cons {t : Literals} {c : Char} {r : List Char} (hline : ∀ r', c = '/' → r = '/' :: r' → False)
    (hquote : c ≠ '"') :
    setLiteralsAside .outside t (c :: r) = (setLiteralsAside .outside t r).map fun p => (c :: p.1, p.2) := by
  rw [setLiteralsAside] <;> simp_all

theorem dropBlockComments_inner {c : Char} {r : List Char} (hescape : ∀ c' r', c = '\\' → r = c' :: r' → False)
    (hquote : c ≠ '"') : dropBlockComments .literal (c :: r) = (dropBlockComments .literal r).map (c :: ·) := by
  rw [dropBlockComments] <;> simp_all

theorem setLiteralsAside_inner {t : Literals} {inner : List Char} {c : Char} {r : List Char}
    (hescape : ∀ c' r', c = '\\' → r = c' :: r' → False) (hquote : c ≠ '"') :
    setLiteralsAside (.literal inner) t (c :: r) = setLiteralsAside (.literal (c :: inner)) t r := by
  rw [setLiteralsAside] <;> simp_all

theorem setLiteralsAside_comment {t : Literals} {c : Char} {r : List Char} (hbreak : c ≠ '\n') :
    setLiteralsAside .lineComment t (c :: r) = setLiteralsAside .lineComment t r := by
  rw [setLiteralsAside]
  exact hbreak

/-- A slash at the front was there before comments were taken out. -/
theorem head_of_dropBlockComments {s out : List Char} (h : dropBlockComments .outside s = .ok out)
    (hs : s.head? ≠ some '/') : out.head? ≠ some '/' := by
  cases s with
  | nil =>
    rw [dropBlockComments] at h
    · cases h
      exact hs
    · simp
  | cons c r =>
    have hc : c ≠ '/' := by simpa using hs
    by_cases hquote : c = '"'
    · subst hquote
      rw [dropBlockComments] at h
      rcases hr : dropBlockComments .literal r with e | out' <;> rw [hr] at h <;> cases h
      simp
    · rw [dropBlockComments_cons (fun _ h => absurd h hc) (fun _ h => absurd h hc) hquote] at h
      rcases hr : dropBlockComments .outside r with e | out' <;> rw [hr] at h <;> cases h
      simpa using hc

/-- The two readings of a file see its characters and literals: the first one takes the block comments
    out, the second one the line comments, and sets the literals aside. -/
theorem readings_eq_lex (st : LexState) (t : Literals) (s : List Char) :
    (dropBlockComments st.first s >>= setLiteralsAside st.second t) =
      (lex st s).map fun ls => (aside t.contents.length ls, ⟨t.contents ++ contents ls⟩) := by
  fun_induction lex st s generalizing t with
  | case1 | case2 =>
    simp [LexState.first, LexState.second, dropBlockComments, setLiteralsAside, bind, Except.bind, Except.map]
  | case3 | case4 => rfl
  | case5 r ih =>
    rw [← ih t]
    rfl
  | case6 r ih | case7 r ih =>
    rw [← ih t, LexState.first, dropBlockComments, map_bind]
    rfl
  | case8 c r hblock hline hquote ih =>
    have hstep : (dropBlockComments .outside r >>= fun out => setLiteralsAside .outside t (c :: out)) =
        (dropBlockComments .outside r >>= setLiteralsAside .outside t).map fun p => (c :: p.1, p.2) := by
      rcases hr : dropBlockComments .outside r with e | out
      · rfl
      · refine setLiteralsAside_cons (fun r' hc hout => ?_) hquote
        refine head_of_dropBlockComments hr (fun hhead => ?_) (by rw [hout]; rfl)
        obtain ⟨r'', rfl⟩ := List.head?_eq_some_iff.mp hhead
        exact hline _ hc rfl
    rw [LexState.first, dropBlockComments_cons hblock hline hquote, map_bind, map_map]
    refine hstep.trans ((congrArg (Except.map _) (ih t)).trans ?_)
    rw [map_map]
    rfl
  | case9 inner c r ih =>
    rw [← ih t, LexState.first, dropBlockComments, map_bind]
    rfl
  | case10 inner r ih =>
    rw [LexState.first, dropBlockComments, map_bind, map_map]
    refine (bind_map _ (setLiteralsAside .outside (t.push inner.reverse).2)
      fun p => ((t.push inner.reverse).1 ++ p.1, p.2)).trans ((congrArg (Except.map _) (ih _)).trans ?_)
    rw [map_map]
    simp [Literals.push]
  | case11 inner c r hescape hquote ih =>
    rw [← ih t, LexState.first, LexState.first, dropBlockComments_inner hescape hquote, map_bind]
    rcases hr : dropBlockComments .literal r with e | out
    · rfl
    · refine setLiteralsAside_inner (fun c' r' hc hout => ?_) hquote
      cases r with
      | nil =>
        cases hr
        cases hout
      | cons c'' r'' => exact hescape _ _ hc rfl
  | case12 r ih =>
    rw [LexState.first, dropBlockComments, map_bind, map_map]
    refine (bind_map _ (setLiteralsAside .outside t) fun p => ('\n' :: p.1, p.2)).trans
      ((congrArg (Except.map _) (ih t)).trans ?_)
    rw [map_map]
    rfl
  | case13 c r hbreak ih =>
    rw [← ih t, LexState.first, dropBlockComments, map_bind]
    · rcases dropBlockComments .lineComment r with e | out
      · rfl
      · exact setLiteralsAside_comment hbreak
    · exact hbreak
  | case14 r ih =>
    rw [← ih t]
    rfl
  | case15 c r hend ih =>
    rw [← ih t, LexState.first, dropBlockComments]
    exact hend

/-! ## Texts one after the other -/

theorem lex_cons {c : Char} {r : List Char} (hblock : ∀ r', c = '/' → r = '*' :: r' → False)
    (hline : ∀ r', c = '/' → r = '/' :: r' → False) (hquote : c ≠ '"') :
    lex .outside (c :: r) = (lex .outside r).map (.char c :: ·) := by
  rw [lex] <;> simp_all

theorem lex_inner {inner : List Char} {c : Char} {r : List Char} (hescape : ∀ c' r', c = '\\' → r = c' :: r' → False)
    (hquote : c ≠ '"') : lex (.literal inner) (c :: r) = lex (.literal (c :: inner)) r := by
  rw [lex] <;> simp_all

theorem lex_comment {c : Char} {r : List Char} (hend : ∀ r', c = '*' → r = '/' :: r' → False) :
    lex .blockComment (c :: r) = lex .blockComment r := by
  rw [lex]
  exact hend

theorem eq_of_map {ε α β : Type} {x : Except ε α} {f : α → β} {b : β} (h : x.map f = .ok b) :
    ∃ a, x = .ok a ∧ f a = b := by
  cases x with
  | error e => cases h
  | ok a =>
    cases h
    exact ⟨a, rfl, rfl⟩

/-- What the text before a line break begins with. -/
theorem head_of_append {c : Char} {r r' s : List Char} (hc : c ≠ '\n') (h : r ++ '\n' :: s = c :: r') :
    ∃ r'', r = c :: r'' := by
  cases r with
  | nil =>
    cases h
    exact absurd rfl hc
  | cons c' r =>
    cases h
    exact ⟨r, rfl⟩

/-- A text on the next line is read as if it stood alone. A line comment takes the line break. -/
theorem lex_append (st : LexState) (s : List Char) {ls : List Lexeme} (h : lex st s = .ok ls) :
    ∃ gap, (gap = [] ∨ gap = [.char '\n']) ∧
      ∀ s', lex st (s ++ '\n' :: s') = (lex .outside s').map fun ls' => ls ++ (gap ++ ls') := by
  fun_induction lex st s generalizing ls with
  | case1 =>
    cases h
    exact ⟨_, .inr rfl, fun s' => by simp [lex]⟩
  | case2 =>
    cases h
    exact ⟨_, .inl rfl, fun s' => by simp [lex]⟩
  | case3 => cases h
  | case4 => cases h
  | case5 r ih | case6 r ih | case7 r ih | case14 r ih =>
    obtain ⟨gap, hgap, hs⟩ := ih h
    exact ⟨gap, hgap, fun s' => by simpa [lex] using hs s'⟩
  | case9 inner c r ih =>
    obtain ⟨gap, hgap, hs⟩ := ih h
    exact ⟨gap, hgap, fun s' => by simpa [lex] using hs s'⟩
  | case8 c r hblock hline hquote ih =>
    obtain ⟨ls, hls, rfl⟩ := eq_of_map h
    obtain ⟨gap, hgap, hs⟩ := ih hls
    refine ⟨gap, hgap, fun s' => ?_⟩
    rw [List.cons_append, lex_cons _ _ hquote, hs s', map_map]
    · rfl
    · intro r' hc hr
      obtain ⟨r'', rfl⟩ := head_of_append (by decide) hr
      exact hblock _ hc rfl
    · intro r' hc hr
      obtain ⟨r'', rfl⟩ := head_of_append (by decide) hr
      exact hline _ hc rfl
  | case10 inner r ih =>
    obtain ⟨ls, hls, rfl⟩ := eq_of_map h
    obtain ⟨gap, hgap, hs⟩ := ih hls
    refine ⟨gap, hgap, fun s' => ?_⟩
    rw [List.cons_append, lex, hs s', map_map]
    rfl
  | case12 r ih =>
    obtain ⟨ls, hls, rfl⟩ := eq_of_map h
    obtain ⟨gap, hgap, hs⟩ := ih hls
    refine ⟨gap, hgap, fun s' => ?_⟩
    rw [List.cons_append, lex, hs s', map_map]
    rfl
  | case11 inner c r hescape hquote ih =>
    obtain ⟨gap, hgap, hs⟩ := ih h
    refine ⟨gap, hgap, fun s' => ?_⟩
    rw [List.cons_append, lex_inner _ hquote, hs s']
    intro c' r' hc hr
    cases r with
    | nil => cases h
    | cons c'' r =>
      cases hr
      exact hescape _ _ hc rfl
  | case13 c r hbreak ih =>
    obtain ⟨gap, hgap, hs⟩ := ih h
    refine ⟨gap, hgap, fun s' => ?_⟩
    rw [List.cons_append, lex, hs s']
    exact hbreak
  | case15 c r hend ih =>
    obtain ⟨gap, hgap, hs⟩ := ih h
    refine ⟨gap, hgap, fun s' => ?_⟩
    rw [List.cons_append, lex_comment, hs s']
    intro r' hc hr
    obtain ⟨r'', rfl⟩ := head_of_append (by decide) hr
    exact hend _ hc rfl

/-- There are no more literals than characters. -/
theorem length_contents_le (st : LexState) (s : List Char) {ls : List Lexeme} (h : lex st s = .ok ls) :
    (contents ls).length ≤ s.length := by
  fun_induction lex st s generalizing ls with
  | case1 | case2 =>
    cases h
    simp
  | case3 | case4 => cases h
  | case5 r ih | case6 r ih | case9 _ _ r ih | case14 r ih =>
    have := ih h
    simp only [List.length_cons]
    omega
  | case7 r ih | case11 _ _ r _ _ ih | case13 _ r _ ih | case15 _ r _ ih =>
    have := ih h
    simp only [List.length_cons]
    omega
  | case8 c r _ _ _ ih | case12 r ih =>
    obtain ⟨ls, hls, rfl⟩ := eq_of_map h
    have := ih hls
    simp only [contents_char, List.length_cons]
    omega
  | case10 inner r ih =>
    obtain ⟨ls, hls, rfl⟩ := eq_of_map h
    have := ih hls
    simp only [contents_literal, List.length_cons]
    omega

end Declarations

end PageServer
