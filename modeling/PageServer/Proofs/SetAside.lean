/-
  PageServer.Proofs.SetAside — what placeholders for literals do to the rest of the reading.

  A text that holds placeholders stands for a row of characters and literals (`Shows`). It is cut
  at braces, semicolons and signs that no placeholder holds, so cutting the text and cutting the row
  come to the same, whatever the numbers of the placeholders are.
-/

import Mathlib.Data.List.DropRight
import Mathlib.Data.List.Forall2
import PageServer.Proofs.AddressTexts
import PageServer.Proofs.Lexemes

namespace PageServer

/-! ## Rows of lexemes, cut up -/

namespace Lexeme

def isBlank : Lexeme → Bool
  | char c => Text.isBlank c
  | literal _ => false

def trim (ls : List Lexeme) : List Lexeme := (ls.dropWhile isBlank).rdropWhile isBlank

def cut? (sep : Char) (ls : List Lexeme) : Option (List Lexeme × List Lexeme) :=
  match ls.dropWhile (· != char sep) with
  | [] => none
  | _ :: after => some (ls.takeWhile (· != char sep), after)

def trimSemicolons (ls : List Lexeme) : List Lexeme := trim ((trim ls).dropWhile (· == char ';'))

theorem eq_of_cut? {sep : Char} {ls a b : List Lexeme} (h : cut? sep ls = some (a, b)) :
    ls = a ++ char sep :: b ∧ ∀ l ∈ a, (l != char sep) = true := by
  unfold cut? at h
  split at h
  · cases h
  · rename_i l after hdrop
    cases h
    have hl := List.head?_dropWhile_not (· != char sep) ls
    rw [hdrop] at hl
    have hl' : l = char sep := by simpa using hl
    subst hl'
    exact ⟨by rw [← hdrop, List.takeWhile_append_dropWhile],
      fun l hl => List.mem_takeWhile_imp (p := (· != char sep)) hl⟩

theorem cut?_eq_some {sep : Char} {a : List Lexeme} (ha : ∀ l ∈ a, (l != char sep) = true) (b : List Lexeme) :
    cut? sep (a ++ char sep :: b) = some (a, b) := by
  rw [cut?, List.dropWhile_append_of_pos ha, List.takeWhile_append_of_pos ha, List.dropWhile_cons_of_neg (by simp),
    List.takeWhile_cons_of_neg (by simp), List.append_nil]

theorem cut?_length {sep : Char} {ls a b : List Lexeme} (h : cut? sep ls = some (a, b)) : b.length < ls.length := by
  rw [(eq_of_cut? h).1, List.length_append, List.length_cons]
  omega

/-- The headers and bodies of the declarations; `none` if there is other text. -/
def blocks (ls : List Lexeme) : Option (List (List Lexeme × List Lexeme)) :=
  match _h : cut? '\x7b' ls with
  | none => if (trimSemicolons ls).isEmpty then some [] else none
  | some (header, after) =>
    match _h' : cut? '\x7d' after with
    | none => none
    | some (body, rest) => (blocks rest).map ((trimSemicolons header, body) :: ·)
  termination_by ls.length
  decreasing_by
    have := cut?_length _h
    have := cut?_length _h'
    omega

section Equations

variable {ls header after body rest : List Lexeme}

theorem blocks_end (h : cut? '\x7b' ls = none) :
    blocks ls = if (trimSemicolons ls).isEmpty then some [] else none := by
  rw [blocks]
  split
  · rfl
  · simp_all

theorem blocks_open (h : cut? '\x7b' ls = some (header, after)) (hend : cut? '\x7d' after = none) :
    blocks ls = none := by
  rw [blocks]
  split
  · simp_all
  · split <;> simp_all

theorem blocks_cons (h : cut? '\x7b' ls = some (header, after)) (hend : cut? '\x7d' after = some (body, rest)) :
    blocks ls = (blocks rest).map ((trimSemicolons header, body) :: ·) := by
  rw [blocks]
  split
  · simp_all
  · split <;> simp_all

end Equations

/-- The bindings of a body, one by one. -/
def lines (body : List Lexeme) : List (List Lexeme) :=
  ((body.splitOn (char ';')).map trim).filter (!·.isEmpty)

end Lexeme

namespace Text

theorem isDigit_of_readDigits {limit : Nat} {excess : NumberError} {n m : Nat} {s : List Char}
    (h : readDigits limit excess n s = .ok m) : ∀ c ∈ s, c.isDigit = true := by
  induction s generalizing n with
  | nil => exact nofun
  | cons c s ih =>
    rw [readDigits] at h
    split at h
    · cases h
    · rename_i d hd
      split at h
      · intro c' hc'
        rcases List.mem_cons.mp hc' with rfl | hc'
        · by_contra hdigit
          rw [digitValue?, if_neg hdigit] at hd
          cases hd
        · exact ih h c' hc'
      · cases h

theorem not_mem_of_readNat {limit n : Nat} {s : List Char} (h : readNat limit s = .ok n) {c : Char}
    (hdigit : c.isDigit = false) (hplus : c ≠ '+') : c ∉ s := by
  intro hc
  unfold readNat at h
  split at h
  · cases h
  · cases h
  · rcases List.mem_cons.mp hc with rfl | hc
    · exact hplus rfl
    · rw [isDigit_of_readDigits h c hc] at hdigit
      cases hdigit
  · rw [isDigit_of_readDigits h c hc] at hdigit
    cases hdigit

end Text

namespace Lexeme

/-- The characters of a row without literals. -/
def chars? : List Lexeme → Option (List Char)
  | [] => some []
  | char c :: ls => (chars? ls).map (c :: ·)
  | literal _ :: _ => none

/-- The contents of a literal that stands alone. -/
def whole? : List Lexeme → Option String
  | [literal inner] => some (String.ofList inner)
  | _ => none

/-- How placeholders begin, as text of a file. -/
def lookalike : List Lexeme := [char '#', char 'q', char 's']

def Clear (ls : List Lexeme) : Prop := ¬lookalike <:+: ls

theorem Clear.within {ls ls' : List Lexeme} (h : Clear ls) (hpart : ls' <:+: ls) : Clear ls' :=
  fun hlook => h (hlook.trans hpart)

theorem chars?_eq_some {ls : List Lexeme} {cs : List Char} (h : chars? ls = some cs) : ls = cs.map .char := by
  induction ls generalizing cs with
  | nil =>
    cases h
    rfl
  | cons l ls ih =>
    cases l with
    | char c =>
      obtain ⟨cs', hcs, rfl⟩ := Option.map_eq_some_iff.mp h
      rw [ih hcs]
      rfl
    | literal inner => cases h

theorem chars?_eq_none {ls : List Lexeme} (h : chars? ls = none) : ∃ a inner b, ls = a ++ literal inner :: b := by
  induction ls with
  | nil => cases h
  | cons l ls ih =>
    cases l with
    | char c =>
      obtain ⟨a, inner, b, rfl⟩ := ih (Option.map_eq_none_iff.mp h)
      exact ⟨char c :: a, inner, b, rfl⟩
    | literal inner => exact ⟨[], inner, ls, rfl⟩

theorem trim_within (ls : List Lexeme) : trim ls <:+: ls :=
  (List.rdropWhile_prefix _ _).isInfix.trans (List.dropWhile_suffix _).isInfix

end Lexeme

namespace Declarations

section Equations

variable {s header after body rest : List Char}

theorem blocks_end (h : Text.cut? '\x7b' s = none) :
    blocks s = if (trimSemicolons s).isEmpty then .ok []
      else .error (.trailingText (String.ofList (trimSemicolons s))) := by
  rw [blocks]
  split
  · rfl
  · simp_all

theorem blocks_open (h : Text.cut? '\x7b' s = some (header, after)) (hend : Text.cut? '\x7d' after = none) :
    blocks s = .error (.unterminatedBlock (String.ofList (trimSemicolons header))) := by
  rw [blocks]
  split
  · simp_all
  · simp only
    split <;> simp_all

theorem blocks_cons (h : Text.cut? '\x7b' s = some (header, after))
    (hend : Text.cut? '\x7d' after = some (body, rest)) :
    blocks s = (blocks rest).map ((trimSemicolons header, body) :: ·) := by
  rw [blocks]
  split
  · simp_all
  · simp only
    split
    · simp_all
    · rename_i hcut _ _ hend'
      cases hcut.symm.trans h
      cases hend'.symm.trans hend
      cases blocks rest <;> rfl

end Equations

end Declarations

namespace Literals

open Lexeme

/-- With the literals in `t`, `s` stands for the row. -/
inductive Shows (t : Literals) : List Char → List Lexeme → Prop
  | nil : Shows t [] []
  | char {c : Char} {s : List Char} {ls : List Lexeme} : Shows t s ls → Shows t (c :: s) (.char c :: ls)
  | literal {i : Nat} {inner s : List Char} {ls : List Lexeme} : i < Nat.pow 2 64 →
      t.contents[i]? = some (String.ofList inner) → Shows t s ls → Shows t (placeholder i ++ s) (.literal inner :: ls)

/-- The same for a header and a body. -/
def ShowsBlock (t : Literals) (block : List Char × List Char) (lblock : List Lexeme × List Lexeme) : Prop :=
  Shows t block.1 lblock.1 ∧ Shows t block.2 lblock.2

variable {t : Literals} {s s' : List Char} {ls ls' : List Lexeme}

/-! ## Placeholders -/

/-- The characters that a placeholder may hold. -/
def isPlaceholderChar (c : Char) : Bool := c == '#' || c == 'q' || c == 's' || c.isDigit

theorem mem_placeholder {i : Nat} {c : Char} (hc : c ∈ placeholder i) : isPlaceholderChar c = true := by
  simp only [placeholder, List.mem_cons, List.mem_append, List.not_mem_nil, or_false] at hc
  rcases hc with rfl | rfl | rfl | hc | rfl
  · rfl
  · rfl
  · rfl
  · have hdigit := Text.isDigit_toDigits hc
    simp [isPlaceholderChar, hdigit]
  · rfl

/-- A text without the separator belongs to the first piece. -/
theorem splitOn_append {α : Type} [BEq α] [LawfulBEq α] {sep : α} {x : List α} (hx : sep ∉ x) (s : List α) :
    (x ++ s).splitOn sep = (s.splitOn sep).modifyHead (x ++ ·) := by
  induction x with
  | nil => cases h : s.splitOn sep <;> simp [h]
  | cons c x ih =>
    have hc : c ≠ sep := fun heq => hx (heq ▸ List.mem_cons_self)
    rw [List.cons_append, List.splitOn_cons_eq_if_modifyHead, if_neg (by simpa using hc),
      ih fun hmem => hx (List.mem_cons_of_mem _ hmem)]
    cases s.splitOn sep <;> rfl

theorem placeholder_ends (i : Nat) : placeholder i = ('#' :: 'q' :: 's' :: Nat.toDigits 10 i) ++ ['#'] := rfl

theorem placeholder_append (i : Nat) (s : List Char) :
    placeholder i ++ s = '#' :: 'q' :: 's' :: (Nat.toDigits 10 i ++ '#' :: s) := by
  simp [placeholder]

/-- A placeholder with text after it is none. -/
theorem lookup?_of_more {i : Nat} {s : List Char} (hs : s ≠ []) :
    (if (Nat.toDigits 10 i ++ '#' :: s).getLast? = some '#' then
      match Text.readNat (Nat.pow 2 64 - 1) (Nat.toDigits 10 i ++ '#' :: s).dropLast with
      | .ok i => t.contents[i]?
      | .error _ => none
    else none) = none := by
  split
  · rw [List.dropLast_append_cons, List.dropLast_cons_of_ne_nil hs]
    split
    · rename_i j hj
      exact absurd (List.mem_append_right _ List.mem_cons_self) (Text.not_mem_of_readNat hj (by decide) (by decide))
    · rfl
  · rfl

/-- What does not begin like a placeholder stays. -/
theorem reinline_other {c : Char} (h : ∀ r, c = '#' → s = 'q' :: 's' :: r → False) :
    t.reinline (c :: s) = c :: t.reinline s := by
  rw [Literals.reinline]
  exact h

/-- A placeholder ends at the sign after its digits, whatever follows, and its literal is not looked at
    again. -/
theorem reinline_placeholder {i : Nat} {inner : String} (hi : i < Nat.pow 2 64) (hget : t.contents[i]? = some inner)
    (s : List Char) : t.reinline (placeholder i ++ s) = '"' :: (inner.toList ++ '"' :: t.reinline s) := by
  obtain ⟨htake, hdrop⟩ := Text.taken_append (p := Char.isDigit) (w := Nat.toDigits 10 i)
    (fun _ => Text.isDigit_toDigits) (show ∀ c ∈ ('#' :: s).head?, c.isDigit = false by simp)
  have hat : t.placeholderAt? (Nat.toDigits 10 i ++ '#' :: s) = some (inner, s) := by
    rw [placeholderAt?, htake, hdrop]
    simp only [Text.readNat_toDigits (Nat.le_sub_one_of_lt hi), hget, Option.map_some]
  rw [placeholder_append, Literals.reinline]
  split
  · rename_i inner' after hat'
    rw [hat] at hat'
    cases hat'
    rfl
  · simp_all

namespace Shows

theorem append (h : Shows t s ls) (h' : Shows t s' ls') : Shows t (s ++ s') (ls ++ ls') := by
  induction h with
  | nil => exact h'
  | char _ ih => exact .char ih
  | literal hi hget _ ih =>
    rw [List.append_assoc]
    exact .literal hi hget ih

/-- The row that a file is read as. -/
theorem of_aside (ls : List Lexeme) (earlier : List String)
    (hsize : earlier.length + (Lexeme.contents ls).length ≤ Nat.pow 2 64) :
    Shows ⟨earlier ++ Lexeme.contents ls⟩ (aside earlier.length ls) ls := by
  induction ls generalizing earlier with
  | nil => exact .nil
  | cons l ls ih =>
    cases l with
    | char c => exact .char (ih earlier hsize)
    | literal inner =>
      rw [contents_literal, List.length_cons] at hsize
      have hrest := ih (earlier ++ [String.ofList inner]) (by rw [List.length_append, List.length_singleton]; omega)
      rw [List.length_append, List.length_singleton, List.append_assoc, List.singleton_append] at hrest
      exact .literal (by omega) (by simp) hrest

theorem of_append {a b : List Lexeme} (h : Shows t s (a ++ b)) :
    ∃ x y, s = x ++ y ∧ Shows t x a ∧ Shows t y b := by
  induction a generalizing s with
  | nil => exact ⟨[], s, rfl, .nil, h⟩
  | cons l a ih =>
    cases h with
    | char h =>
      obtain ⟨x, y, rfl, hx, hy⟩ := ih h
      exact ⟨_ :: x, y, rfl, .char hx, hy⟩
    | literal hi hget h =>
      obtain ⟨x, y, rfl, hx, hy⟩ := ih h
      exact ⟨_ ++ x, y, (List.append_assoc _ _ _).symm, .literal hi hget hx, hy⟩

theorem eq_nil_iff (h : Shows t s ls) : s = [] ↔ ls = [] := by
  cases h <;> simp [placeholder]

theorem isEmpty_eq (h : Shows t s ls) : s.isEmpty = ls.isEmpty := by
  rw [Bool.eq_iff_iff, List.isEmpty_iff, List.isEmpty_iff, h.eq_nil_iff]

theorem eq_of_chars {cs : List Char} (h : Shows t s (cs.map .char)) : s = cs := by
  induction cs generalizing s with
  | nil =>
    cases h
    rfl
  | cons c cs ih =>
    cases h with
    | char h => rw [ih h]

/-! ## Cutting -/

section Runs

variable {p : Char → Bool} {q : Lexeme → Bool} (hchar : ∀ c, q (.char c) = p c)
include hchar

/-- A run that literals belong to. -/
theorem span_over (hp : ∀ c, isPlaceholderChar c = true → p c = true) (hq : ∀ inner, q (.literal inner) = true)
    (h : Shows t s ls) :
    Shows t (s.takeWhile p) (ls.takeWhile q) ∧ Shows t (s.dropWhile p) (ls.dropWhile q) := by
  induction h with
  | nil => exact ⟨.nil, .nil⟩
  | @char c s ls h ih =>
    by_cases hc : p c = true
    · rw [List.takeWhile_cons_of_pos hc, List.dropWhile_cons_of_pos hc, List.takeWhile_cons_of_pos (by rw [hchar, hc]),
        List.dropWhile_cons_of_pos (by rw [hchar, hc])]
      exact ⟨.char ih.1, ih.2⟩
    · rw [List.takeWhile_cons_of_neg hc, List.dropWhile_cons_of_neg hc, List.takeWhile_cons_of_neg (by rwa [hchar]),
        List.dropWhile_cons_of_neg (by rwa [hchar])]
      exact ⟨.nil, .char h⟩
  | @literal i inner s ls hi hget h ih =>
    have hall : ∀ c ∈ placeholder i, p c = true := fun c hc => hp c (mem_placeholder hc)
    rw [List.takeWhile_append_of_pos hall, List.dropWhile_append_of_pos hall, List.takeWhile_cons_of_pos (hq inner),
      List.dropWhile_cons_of_pos (hq inner)]
    exact ⟨.literal hi hget ih.1, ih.2⟩

/-- A run that ends where a literal begins. -/
theorem dropWhile (hp : p '#' = false) (hq : ∀ inner, q (.literal inner) = false) (h : Shows t s ls) :
    Shows t (s.dropWhile p) (ls.dropWhile q) := by
  induction h with
  | nil => exact .nil
  | @char c s ls h ih =>
    by_cases hc : p c = true
    · rw [List.dropWhile_cons_of_pos hc, List.dropWhile_cons_of_pos (by rw [hchar, hc])]
      exact ih
    · rw [List.dropWhile_cons_of_neg hc, List.dropWhile_cons_of_neg (by rwa [hchar])]
      exact .char h
  | @literal i inner s ls hi hget h ih =>
    rw [List.dropWhile_cons_of_neg (by rw [hq]; decide)]
    have hhead : (placeholder i ++ s).dropWhile p = placeholder i ++ s := List.dropWhile_cons_of_neg (by rw [hp]; decide)
    rw [hhead]
    exact .literal hi hget h

theorem rdropWhile (hp : p '#' = false) (hq : ∀ inner, q (.literal inner) = false) (h : Shows t s ls) :
    Shows t (s.rdropWhile p) (ls.rdropWhile q) := by
  induction ls using List.reverseRecOn generalizing s with
  | nil =>
    cases h
    exact .nil
  | append_singleton ls l ih =>
    obtain ⟨x, y, rfl, hx, hy⟩ := of_append h
    cases hy with
    | @char c _ _ hy =>
      cases hy
      by_cases hc : p c = true
      · rw [List.rdropWhile_concat_pos _ _ _ hc, List.rdropWhile_concat_pos _ _ _ (by rw [hchar, hc])]
        exact ih hx
      · rw [List.rdropWhile_concat_neg _ _ _ hc, List.rdropWhile_concat_neg _ _ _ (by rwa [hchar])]
        exact h
    | @literal i inner _ _ hi hget hy =>
      cases hy
      rw [List.rdropWhile_concat_neg _ _ _ (by rw [hq]; decide), List.append_nil, placeholder_ends, ← List.append_assoc,
        List.rdropWhile_concat_neg _ _ _ (by rw [hp]; decide), List.append_assoc, ← placeholder_ends]
      rwa [List.append_nil] at h

end Runs

theorem trim (h : Shows t s ls) : Shows t (Text.trim s) (Lexeme.trim ls) :=
  rdropWhile (fun _ => rfl) (by decide) (fun _ => rfl) (dropWhile (fun _ => rfl) (by decide) (fun _ => rfl) h)

theorem trimSemicolons (h : Shows t s ls) : Shows t (Declarations.trimSemicolons s) (Lexeme.trimSemicolons ls) := by
  refine trim (dropWhile (fun c => ?_) (by decide) (fun _ => rfl) h.trim)
  simp

theorem cut? (sep : Char) (hsep : isPlaceholderChar sep = false) (h : Shows t s ls) :
    (Text.cut? sep s = none ∧ Lexeme.cut? sep ls = none) ∨
      ∃ a b la lb, Text.cut? sep s = some (a, b) ∧ Lexeme.cut? sep ls = some (la, lb) ∧ Shows t a la ∧ Shows t b lb := by
  have hover : ∀ c, isPlaceholderChar c = true → (c != sep) = true := by
    intro c hc
    refine bne_iff_ne.mpr fun heq => ?_
    rw [heq, hsep] at hc
    cases hc
  obtain ⟨htake, hdrop⟩ := span_over (p := (· != sep)) (q := (· != .char sep)) (fun c => by simp [bne_eq]) hover
    (fun _ => rfl) h
  unfold Text.cut? Lexeme.cut?
  have hhead := List.head?_dropWhile_not (· != Lexeme.char sep) ls
  rcases hls : ls.dropWhile (· != Lexeme.char sep) with _ | ⟨l, after⟩ <;> rw [hls] at hdrop hhead
  · rw [hdrop.eq_nil_iff.mpr rfl]
    exact .inl ⟨rfl, rfl⟩
  · have hl : l = .char sep := by simpa using hhead
    subst hl
    generalize s.dropWhile (· != sep) = rest at hdrop
    cases hdrop with
    | char hafter => exact .inr ⟨_, _, _, _, rfl, rfl, htake, hafter⟩

theorem splitOn {sep : Char} (hsep : isPlaceholderChar sep = false) (h : Shows t s ls) :
    List.Forall₂ (Shows t) (s.splitOn sep) (ls.splitOn (.char sep)) := by
  have grow : ∀ {x : List Char} {l : Lexeme}, (∀ {s ls}, Shows t s ls → Shows t (x ++ s) (l :: ls)) →
      ∀ {ps lps}, List.Forall₂ (Shows t) ps lps →
        List.Forall₂ (Shows t) (ps.modifyHead (x ++ ·)) (lps.modifyHead (l :: ·)) := by
    intro x l hl ps lps hps
    cases hps with
    | nil => exact .nil
    | cons hhead htail => exact .cons (hl hhead) htail
  induction h with
  | nil => exact .cons .nil .nil
  | @char c s ls h ih =>
    rw [List.splitOn_cons_eq_if_modifyHead, List.splitOn_cons_eq_if_modifyHead]
    by_cases hc : c = sep
    · subst hc
      simpa using List.Forall₂.cons .nil ih
    · simpa [hc] using grow (x := [c]) .char ih
  | @literal i inner s ls hi hget h ih =>
    have hnot : sep ∉ placeholder i := by
      intro hmem
      rw [mem_placeholder hmem] at hsep
      cases hsep
    rw [splitOn_append hnot, List.splitOn_cons_eq_if_modifyHead]
    simpa using grow (.literal hi hget) ih

theorem lines (h : Shows t s ls) :
    List.Forall₂ (Shows t) (((Text.pieces ';' s).map Text.trim).filter (!·.isEmpty)) (Lexeme.lines ls) := by
  rw [Text.pieces_eq_splitOn]
  refine List.rel_filter (fun a b hab => ?_) (List.rel_map (fun a b hab => trim hab) (splitOn (by decide) h))
  show (!a.isEmpty) = true ↔ (!b.isEmpty) = true
  rw [hab.isEmpty_eq]

theorem blocks (h : Shows t s ls) :
    (∃ bs lbs, Declarations.blocks s = .ok bs ∧ Lexeme.blocks ls = some lbs ∧ List.Forall₂ (ShowsBlock t) bs lbs) ∨
      ∃ e, Declarations.blocks s = .error e ∧ Lexeme.blocks ls = none := by
  induction hn : ls.length using Nat.strong_induction_on generalizing s ls with
  | _ n ih =>
    subst hn
    rcases h.cut? '\x7b' (by decide) with ⟨hcut, hlcut⟩ | ⟨header, after, lheader, lafter, hcut, hlcut, hheader, hafter⟩
    · have hempty := h.trimSemicolons.isEmpty_eq
      rw [Declarations.blocks_end hcut, Lexeme.blocks_end hlcut, hempty]
      by_cases hls : (Lexeme.trimSemicolons ls).isEmpty = true
      · rw [if_pos hls, if_pos hls]
        exact .inl ⟨[], [], rfl, rfl, .nil⟩
      · rw [if_neg hls, if_neg hls]
        exact .inr ⟨_, rfl, rfl⟩
    rcases hafter.cut? '\x7d' (by decide) with ⟨hend, hlend⟩ | ⟨body, rest, lbody, lrest, hend, hlend, hbody, hrest⟩
    · rw [Declarations.blocks_open hcut hend, Lexeme.blocks_open hlcut hlend]
      exact .inr ⟨_, rfl, rfl⟩
    · rw [Declarations.blocks_cons hcut hend, Lexeme.blocks_cons hlcut hlend]
      have hlt : lrest.length < ls.length := (Lexeme.cut?_length hlend).trans (Lexeme.cut?_length hlcut)
      rcases ih _ hlt hrest rfl with ⟨bs, lbs, hbs, hlbs, hblocks⟩ | ⟨e, hbs, hlbs⟩
      · rw [hbs, hlbs]
        exact .inl ⟨_, _, rfl, rfl, .cons ⟨hheader.trimSemicolons, hbody⟩ hblocks⟩
      · rw [hbs, hlbs]
        exact .inr ⟨e, rfl, rfl⟩

/-! ## Looking up -/

theorem of_cons {c : Char} (h : Shows t (c :: s) ls) (hc : c ≠ '#') : ∃ ls', ls = .char c :: ls' ∧ Shows t s ls' := by
  generalize hs : c :: s = s' at h
  cases h with
  | nil => cases hs
  | char h =>
    cases hs
    exact ⟨_, rfl, h⟩
  | literal hi hget h =>
    rw [placeholder, List.cons_append] at hs
    cases hs
    exact absurd rfl hc

/-- Text that begins like a placeholder is one. -/
theorem not_placeholder {c : Char} {r : List Char} {ls : List Lexeme} (h : Shows t s ls) (hclear : Clear (.char c :: ls)) :
    c = '#' → s = 'q' :: 's' :: r → False := by
  rintro rfl rfl
  obtain ⟨ls', rfl, h'⟩ := h.of_cons (by decide)
  obtain ⟨ls'', rfl, -⟩ := h'.of_cons (by decide)
  exact hclear ⟨[], ls'', rfl⟩

theorem lookup? (h : Shows t s ls) (hclear : Clear ls) : t.lookup? s = whole? ls := by
  cases h with
  | nil => rfl
  | @char c s ls h =>
    have hnone : t.lookup? (c :: s) = none := by
      unfold Literals.lookup?
      split
      · rename_i heq
        cases heq
        exact absurd rfl (not_placeholder h hclear rfl)
      · rfl
    rw [hnone]
    rfl
  | @literal i inner s ls hi hget h =>
    rw [placeholder_append, Literals.lookup?]
    cases h with
    | nil =>
      rw [if_pos (by simp), List.dropLast_concat, Text.readNat_toDigits (Nat.le_sub_one_of_lt hi)]
      exact hget
    | @char c s ls h =>
      exact lookup?_of_more (by simp)
    | @literal j inner' s ls hj hget' h =>
      exact lookup?_of_more (by simp [placeholder])

theorem reinline (h : Shows t s ls) (hclear : Clear ls) : t.reinline s = ls.flatMap source := by
  induction h with
  | nil => rw [Literals.reinline]; rfl
  | @char c s ls h ih =>
    rw [reinline_other fun r hc hs => not_placeholder h hclear hc hs,
      ih (hclear.within (List.suffix_cons _ _).isInfix)]
    rfl
  | @literal i inner s ls hi hget h ih =>
    rw [reinline_placeholder hi hget, ih (hclear.within (List.suffix_cons _ _).isInfix)]
    simp [source]

end Shows

end Literals

end PageServer
