/-
  PageServer.Proofs.Reinlined — putting literals back undoes setting them aside.

  A text is made of placeholders and other fragments (`Fragment`). If `#qs` occurs only where a
  placeholder starts, then each placeholder becomes its literal in quotes and all else stays
  (`reinline_fragments`): the scanner stands at the end of a fragment after each step, and never looks at
  what it has put in.

  The text that literals are set aside from is a row of characters and literals, as long as no comment
  begins in it (`row_of_setLiteralsAside`), so they are put back where they were. That a literal holds
  what looks like a placeholder makes no difference; a look-alike outside of the literals would.
-/

import PageServer.Proofs.SetAside

namespace PageServer

namespace Literals

open Declarations Lexeme

variable {t : Literals}

/-! ## Fragments -/

/-- A part of a text: a placeholder for a literal of `t`, or anything else. -/
inductive Fragment (t : Literals) where
  | placeholder (i : Fin t.contents.length)
  | other (s : List Char)

namespace Fragment

def chars : Fragment t → List Char
  | placeholder i => Literals.placeholder i
  | other s => s

/-- The literal in quotes, with its escapes; all else as it is. -/
def reinlined : Fragment t → List Char
  | placeholder i => '"' :: ((t.contents.get i).toList ++ ['"'])
  | other s => s

/-- Where the placeholders start, if the text before the fragments has `n` characters. -/
def starts (n : Nat) : List (Fragment t) → List Nat
  | [] => []
  | placeholder i :: fs => n :: starts (n + (Literals.placeholder i).length) fs
  | other s :: fs => starts (n + s.length) fs

end Fragment

/-- The text of the fragments. -/
def text (fs : List (Fragment t)) : List Char := fs.flatMap Fragment.chars

/-- How a placeholder begins. -/
def mark : List Char := ['#', 'q', 's']

/-- Placeholders start wherever the text holds the mark. -/
def MarksPlaceholders (fs : List (Fragment t)) : Prop :=
  ∀ k < (text fs).length, mark <+: (text fs).drop k → k ∈ Fragment.starts 0 fs

instance (fs : List (Fragment t)) : Decidable (MarksPlaceholders fs) :=
  inferInstanceAs (Decidable (∀ k < (text fs).length, mark <+: (text fs).drop k → k ∈ Fragment.starts 0 fs))

variable {fs : List (Fragment t)} {s : List Char}

theorem text_cons (f : Fragment t) (fs : List (Fragment t)) : text (f :: fs) = f.chars ++ text fs := List.flatMap_cons

theorem mem_starts_add {m n k : Nat} : k + m ∈ Fragment.starts (n + m) fs ↔ k ∈ Fragment.starts n fs := by
  induction fs generalizing n with
  | nil => simp [Fragment.starts]
  | cons f fs ih =>
    cases f with
    | placeholder i =>
      simp only [Fragment.starts, List.mem_cons, Nat.add_right_cancel_iff]
      rw [Nat.add_right_comm, ih]
    | other s =>
      simp only [Fragment.starts]
      rw [Nat.add_right_comm, ih]

theorem le_of_mem_starts {n k : Nat} (h : k ∈ Fragment.starts n fs) : n ≤ k := by
  induction fs generalizing n with
  | nil => cases h
  | cons f fs ih =>
    cases f with
    | placeholder i =>
      rcases List.mem_cons.mp h with rfl | h
      · exact Nat.le_refl _
      · have := ih h
        omega
    | other s =>
      have := ih h
      omega

/-- What follows a beginning of the text is marked as before. -/
theorem MarksPlaceholders.rest {front : List Char} {fs' : List (Fragment t)} (h : MarksPlaceholders fs)
    (htext : text fs = front ++ text fs')
    (hstarts : ∀ k, k + front.length ∈ Fragment.starts 0 fs → k ∈ Fragment.starts 0 fs') : MarksPlaceholders fs' := by
  intro k hk hmark
  refine hstarts k (h (k + front.length) ?_ ?_)
  · rw [htext, List.length_append]
    omega
  · rwa [htext, Nat.add_comm, List.drop_append, List.drop_of_length_le (Nat.le_add_right _ _), List.nil_append,
      Nat.add_sub_cancel_left]

theorem MarksPlaceholders.after_placeholder {i : Fin t.contents.length}
    (h : MarksPlaceholders (.placeholder i :: fs)) : MarksPlaceholders fs := by
  refine h.rest (text_cons _ _) fun k hk => ?_
  rcases List.mem_cons.mp hk with hzero | hk
  · simp [Fragment.chars, Literals.placeholder] at hzero
  · exact mem_starts_add.mp hk

theorem MarksPlaceholders.after_char {c : Char} (h : MarksPlaceholders (.other (c :: s) :: fs)) :
    MarksPlaceholders (.other s :: fs) := by
  refine h.rest (show text (.other (c :: s) :: fs) = [c] ++ text (.other s :: fs) from rfl) fun k hk => ?_
  rw [Fragment.starts] at hk ⊢
  exact mem_starts_add.mp hk

/-- No mark begins in another fragment. -/
theorem MarksPlaceholders.not_mark {c : Char} (h : MarksPlaceholders (.other (c :: s) :: fs)) (r : List Char) :
    c = '#' → s ++ text fs = 'q' :: 's' :: r → False := by
  intro hc hs
  have htext : text (.other (c :: s) :: fs) = mark ++ r := by
    rw [text_cons, Fragment.chars, List.cons_append, hs, hc]
    rfl
  have hstart := h 0 (by rw [htext]; exact Nat.zero_lt_succ _) (by rw [htext]; exact ⟨r, rfl⟩)
  rw [Fragment.starts, List.length_cons] at hstart
  have hle := le_of_mem_starts hstart
  omega

/-! ## The scanner -/

/-- Each placeholder becomes its literal in quotes, and nothing else is changed. -/
theorem reinline_fragments (hsize : t.contents.length ≤ Nat.pow 2 64) (h : MarksPlaceholders fs) :
    t.reinline (text fs) = fs.flatMap Fragment.reinlined := by
  induction fs with
  | nil =>
    rw [text, List.flatMap_nil, Literals.reinline]
    rfl
  | cons f fs ih =>
    cases f with
    | placeholder i =>
      have hget : t.contents[i.val]? = some (t.contents.get i) := by simp
      rw [text_cons, Fragment.chars, reinline_placeholder (Nat.lt_of_lt_of_le i.isLt hsize) hget,
        ih h.after_placeholder]
      simp [Fragment.reinlined]
    | other s =>
      induction s with
      | nil => exact ih (h.rest (show text (.other [] :: fs) = [] ++ text fs from rfl) fun _ hk => hk)
      | cons c s ihs =>
        have hrest := ihs h.after_char
        rw [text_cons, Fragment.chars] at hrest
        rw [text_cons, Fragment.chars, List.cons_append, reinline_other h.not_mark, hrest]
        rfl

end Literals

namespace Declarations

open Lexeme

/-! ## Literals in their places -/

/-- The text outside of string literals, which leave their two quotes; `inside` says whether the text
    begins in a literal. -/
def outsideLiterals : (inside : Bool) → List Char → List Char
  | _, [] => []
  | false, '"' :: r => '"' :: outsideLiterals true r
  | false, c :: r => c :: outsideLiterals false r
  | true, '"' :: r => '"' :: outsideLiterals false r
  | true, '\\' :: _ :: r => outsideLiterals true r
  | true, _ :: r => outsideLiterals true r

theorem outsideLiterals_char {c : Char} (hquote : c ≠ '"') (r : List Char) :
    outsideLiterals false (c :: r) = c :: outsideLiterals false r := by
  rw [outsideLiterals]
  exact hquote

theorem outsideLiterals_inner {c : Char} {r : List Char} (hescape : ∀ c' r', c = '\\' → r = c' :: r' → False)
    (hquote : c ≠ '"') : outsideLiterals true (c :: r) = outsideLiterals true r := by
  rw [outsideLiterals] <;> simp_all

/-- What a lexeme leaves outside of literals. -/
def hollow : Lexeme → List Char
  | .char c => [c]
  | .literal _ => ['"', '"']

/-- A text is set aside as a row, the literals before it in `t`. -/
structure SetAside (t : Literals) (s left out : List Char) (t' : Literals) (ls : List Lexeme) : Prop where
  source : ls.flatMap Lexeme.source = s
  left : ls.flatMap hollow = left
  aside : Lexeme.aside t.contents.length ls = out
  contents : t.contents ++ Lexeme.contents ls = t'.contents

namespace SetAside

variable {t t' : Literals} {s left out : List Char} {ls : List Lexeme}

theorem nil (t : Literals) : SetAside t [] [] [] t [] := ⟨rfl, rfl, rfl, List.append_nil _⟩

theorem char (h : SetAside t s left out t' ls) (c : Char) :
    SetAside t (c :: s) (c :: left) (c :: out) t' (.char c :: ls) where
  source := by rw [List.flatMap_cons, h.source]; rfl
  left := by rw [List.flatMap_cons, h.left]; rfl
  aside := by rw [aside_char, h.aside]
  contents := by rw [contents_char, h.contents]

theorem literal {inner : List Char} (h : SetAside (t.push inner).2 s left out t' ls) :
    SetAside t ('"' :: (inner ++ '"' :: s)) ('"' :: '"' :: left) ((t.push inner).1 ++ out) t' (.literal inner :: ls) where
  source := by simp [Lexeme.source, h.source]
  left := by rw [List.flatMap_cons, h.left]; rfl
  aside := by
    have haside := h.aside
    rw [Literals.push, List.length_append] at haside
    rw [aside_literal, ← haside]
    rfl
  contents := by
    rw [contents_literal, ← h.contents]
    simp [Literals.push]

end SetAside

namespace LiteralState

/-- What has been read of the literal that the reading stands in. -/
def opened : LiteralState → List Char
  | literal inner => '"' :: inner.reverse
  | _ => []

def isInside : LiteralState → Bool
  | literal _ => true
  | _ => false

@[simp] theorem opened_literal (inner : List Char) : (literal inner).opened = '"' :: inner.reverse := rfl

@[simp] theorem isInside_outside : outside.isInside = false := rfl

@[simp] theorem isInside_literal (inner : List Char) : (literal inner).isInside = true := rfl

end LiteralState

/-- A text without line comments is a row of characters and literals. -/
theorem row_of_setLiteralsAside {st : LiteralState} {t t' : Literals} {s out : List Char}
    (h : setLiteralsAside st t s = .ok (out, t')) (hst : st ≠ .lineComment)
    (hline : ¬['/', '/'] <:+: outsideLiterals st.isInside s) :
    ∃ ls, SetAside t (st.opened ++ s) (st.opened.take 1 ++ outsideLiterals st.isInside s) out t' ls := by
  fun_induction setLiteralsAside st t s generalizing out with
  | case1 t =>
    cases h
    exact ⟨[], .nil _⟩
  | case2 | case7 | case8 => exact absurd rfl hst
  | case3 => cases h
  | case4 t r ih =>
    refine absurd ?_ hline
    rw [LiteralState.isInside_outside, outsideLiterals_char (by decide), outsideLiterals_char (by decide)]
    exact ⟨[], _, rfl⟩
  | case5 t r ih => exact ih h (by simp) fun hpart => hline (hpart.trans (List.suffix_cons _ _).isInfix)
  | case6 t c r hslashes hquote ih =>
    obtain ⟨⟨out, t'⟩, hr, heq⟩ := eq_of_map h
    cases heq
    have hleft : outsideLiterals false (c :: r) = c :: outsideLiterals false r := outsideLiterals_char hquote r
    rw [LiteralState.isInside_outside, hleft] at hline ⊢
    obtain ⟨ls, hls⟩ := ih hr (by simp) fun hpart => hline (hpart.trans (List.suffix_cons _ _).isInfix)
    exact ⟨_, hls.char c⟩
  | case9 inner t c r ih =>
    obtain ⟨ls, hls⟩ := ih h (by simp) hline
    refine ⟨ls, ?_⟩
    simpa [outsideLiterals] using hls
  | case10 inner t r token t'' hpush ih =>
    obtain ⟨⟨out, t'⟩, hr, heq⟩ := eq_of_map h
    cases heq
    cases hpush
    have hrest : ¬['/', '/'] <:+: outsideLiterals false r := fun hpart => hline (hpart.trans (List.suffix_cons _ _).isInfix)
    obtain ⟨ls, hls⟩ := ih hr (by simp) hrest
    exact ⟨_, hls.literal⟩
  | case11 inner t c r hescape hquote ih =>
    have hleft := outsideLiterals_inner hescape hquote
    rw [LiteralState.isInside_literal, hleft] at hline ⊢
    obtain ⟨ls, hls⟩ := ih h (by simp) hline
    refine ⟨ls, ?_⟩
    simpa using hls

/-- Each literal takes up some text. -/
theorem length_contents_le_source (ls : List Lexeme) : (contents ls).length ≤ (ls.flatMap source).length := by
  induction ls with
  | nil => exact Nat.le_refl _
  | cons l ls ih =>
    rw [List.flatMap_cons, List.length_append]
    cases l with
    | char c => exact Nat.le_trans ih (Nat.le_add_left _ _)
    | literal inner =>
      have hquotes : 1 ≤ (Lexeme.literal inner).source.length := by simp [source]
      rw [contents_literal, List.length_cons]
      omega

theorem clear_of_hollow {ls : List Lexeme} (h : ¬Literals.mark <:+: ls.flatMap hollow) : Clear ls := by
  rintro ⟨a, b, rfl⟩
  refine h ⟨a.flatMap hollow, b.flatMap hollow, ?_⟩
  simp [lookalike, hollow, Literals.mark]

/-- Literals that were set aside are put back where they were. -/
theorem reinline_of_setLiteralsAside {s out : List Char} {t : Literals} (hsize : s.length ≤ Nat.pow 2 64)
    (hline : ¬['/', '/'] <:+: outsideLiterals false s) (hmark : ¬Literals.mark <:+: outsideLiterals false s)
    (h : setLiteralsAside .outside {} s = .ok (out, t)) : t.reinline out = s := by
  obtain ⟨ls, hsource, hleft, haside, hcontents⟩ := row_of_setLiteralsAside h (by simp) hline
  have ht : t = ⟨contents ls⟩ := by
    rw [List.nil_append] at hcontents
    rw [hcontents]
  have hcount : (contents ls).length ≤ Nat.pow 2 64 := by
    have hle := length_contents_le_source ls
    rw [hsource] at hle
    exact Nat.le_trans hle hsize
  have hshows := Literals.Shows.of_aside ls [] (by simpa using hcount)
  have hclear : Clear ls := clear_of_hollow (by rw [hleft]; exact hmark)
  rw [ht, ← haside]
  exact (hshows.reinline hclear).trans hsource

/-- Putting literals back undoes setting them aside. In a text of placeholders and other fragments that
    holds the mark of a placeholder only where one starts, each placeholder becomes its literal in quotes,
    with its escapes, and all else stays. A text with neither a line comment nor the mark outside of its
    literals is the same again after both, whatever its literals hold; what they hold is not looked at, so
    that a look-alike of a placeholder stays as it is in there. The bounds are those of a 64-bit count. -/
theorem reinline_undoes_setting_aside :
    (∀ (t : Literals) (fs : List (Literals.Fragment t)), t.contents.length ≤ Nat.pow 2 64 →
      Literals.MarksPlaceholders fs → t.reinline (Literals.text fs) = fs.flatMap Literals.Fragment.reinlined) ∧
    ∀ (s out : List Char) (t : Literals), s.length ≤ Nat.pow 2 64 → ¬['/', '/'] <:+: outsideLiterals false s →
      ¬Literals.mark <:+: outsideLiterals false s → setLiteralsAside .outside {} s = .ok (out, t) →
      t.reinline out = s :=
  ⟨fun _ _ hsize h => Literals.reinline_fragments hsize h,
    fun _ _ _ hsize hline hmark h => reinline_of_setLiteralsAside hsize hline hmark h⟩

/-- Placeholders beside each other and beside other signs, for literals that look like placeholders
    themselves. -/
theorem lookalikes_in_literals_stay :
    let t : Literals := ⟨["#qs1#", "a\\\"b"]⟩
    let fs : List (Literals.Fragment t) := [.other "f(#".toList, .placeholder 0, .placeholder 1, .other "#q, #)".toList]
    let s := "k = \"#qs1#\"#\"a\\\"//\";".toList
    (t.contents.length ≤ Nat.pow 2 64 ∧ Literals.MarksPlaceholders fs ∧ Literals.text fs = "f(##qs0##qs1##q, #)".toList ∧
      t.reinline (Literals.text fs) = "f(#\"#qs1#\"\"a\\\"b\"#q, #)".toList) ∧
    s.length ≤ Nat.pow 2 64 ∧ ¬['/', '/'] <:+: outsideLiterals false s ∧
    ¬Literals.mark <:+: outsideLiterals false s ∧ ∃ t', setLiteralsAside .outside {} s = .ok ("k = #qs0###qs1#;".toList, t') ∧
      t'.reinline "k = #qs0###qs1#;".toList = s := by
  intro t fs s
  have hcount : t.contents.length ≤ Nat.pow 2 64 := by decide
  have hmarks : Literals.MarksPlaceholders fs := by decide +kernel
  have hsize : s.length ≤ Nat.pow 2 64 := by decide +kernel
  have hline : ¬['/', '/'] <:+: outsideLiterals false s := by decide +kernel
  have hmark : ¬Literals.mark <:+: outsideLiterals false s := by decide +kernel
  have haside : setLiteralsAside .outside {} s = .ok ("k = #qs0###qs1#;".toList, ⟨["#qs1#", "a\\\"//"]⟩) := by
    decide +kernel
  obtain ⟨hfragments, htext⟩ := reinline_undoes_setting_aside
  refine ⟨⟨hcount, hmarks, by decide +kernel, ?_⟩, hsize, hline, hmark, _, haside, htext s _ _ hsize hline hmark haside⟩
  rw [hfragments t fs hcount hmarks]
  decide +kernel

end Declarations

end PageServer
