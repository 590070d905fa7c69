/-
  PageServer.Proofs.Segments — what a declaration file is made of, and what its readings make of it.

  A file is a row of comments, string literals and characters of neither, and it may end within a
  comment or a literal (`Cut`). A block comment runs up to the first `*/` after its `/*`, so a `/*/`
  does not close itself; a line comment runs up to the end of its line; in a literal a backslash
  protects the character after it. Every file is cut in exactly one way (`Cut.exists`, `Cut.unique`).

  Two readings take comments out and set literals aside. Each keeps to its own states, and the second
  one sees what the first one leaves. Together they are one reading from left to right, and that one
  takes the segments as they stand: `readings_of_segments`. What a file ends in tells on which files
  they fail.
-/

import PageServer.Proofs.Lexemes

namespace PageServer

/-! ## Segments -/

/-- A character on its own, or what stands between the signs around a literal or a comment. -/
inductive Segment where
  | char (c : Char)
  | literal (inner : List Char)
  | line (text : List Char)
  | block (text : List Char)
  deriving DecidableEq

/-- What the readings leave of a segment. -/
def Segment.lexeme? : Segment → Option Lexeme
  | char c => some (.char c)
  | literal inner => some (.literal inner)
  | line _ => some (.char '\n')
  | block _ => none

/-- What a file ends in, if not at the end of a segment. -/
inductive Remnant where
  | none
  | literal (inner : List Char)
  | line (text : List Char)
  | block (text : List Char)
  deriving DecidableEq

namespace Declarations

open Lexeme

/-- A line comment may end with the file. -/
def lexemesOf : Remnant → Except DeclarationError (List Lexeme)
  | .none => .ok []
  | .line _ => .ok [.char '\n']
  | .literal _ => .error .unterminatedString
  | .block _ => .error .unterminatedComment

/-- Each quote in the text is protected, and no backslash at its end protects what follows. -/
inductive Closed : List Char → Prop
  | nil : Closed []
  | char {c : Char} {r : List Char} (hquote : c ≠ '"') (hescape : c ≠ '\\') (h : Closed r) : Closed (c :: r)
  | escape (c : Char) {r : List Char} (h : Closed r) : Closed ('\\' :: c :: r)

/-- No quote in the text ends the literal that it begins in. -/
def Unclosed (s : List Char) : Prop := ∀ inner r, Closed inner → s ≠ inner ++ '"' :: r

/-- The text is the row of segments, and ends in the remnant. -/
inductive Cut : List Segment → Remnant → List Char → Prop
  | none : Cut [] .none []
  | openLiteral {inner : List Char} (h : Unclosed inner) : Cut [] (.literal inner) ('"' :: inner)
  | openLine {text : List Char} (h : '\n' ∉ text) : Cut [] (.line text) ('/' :: '/' :: text)
  | openBlock {text : List Char} (h : ¬ ['*', '/'] <:+: text) : Cut [] (.block text) ('/' :: '*' :: text)
  | char {c : Char} {segs : List Segment} {e : Remnant} {r : List Char} (hquote : c ≠ '"')
      (hslash : c = '/' → r.head? ≠ some '*' ∧ r.head? ≠ some '/') (h : Cut segs e r) :
      Cut (.char c :: segs) e (c :: r)
  | literal {inner : List Char} {segs : List Segment} {e : Remnant} {r : List Char} (hinner : Closed inner)
      (h : Cut segs e r) : Cut (.literal inner :: segs) e ('"' :: (inner ++ '"' :: r))
  | line {text : List Char} {segs : List Segment} {e : Remnant} {r : List Char} (htext : '\n' ∉ text)
      (h : Cut segs e r) : Cut (.line text :: segs) e ('/' :: '/' :: (text ++ '\n' :: r))
  | block {text : List Char} {segs : List Segment} {e : Remnant} {r : List Char} (htext : ¬ ['*', '/'] <:+: text)
      (h : Cut segs e r) : Cut (.block text :: segs) e ('/' :: '*' :: (text ++ '*' :: '/' :: r))

/-! ## Where a segment ends -/

section Ends

variable {a b r r' text : List Char} {c : Char}

theorem Closed.unique (ha : Closed a) (hb : Closed b) (h : a ++ '"' :: r = b ++ '"' :: r') : a = b ∧ r = r' := by
  induction ha generalizing b with
  | nil =>
    cases hb with
    | nil => exact ⟨rfl, (List.cons.inj h).2⟩
    | char hquote => exact absurd (List.cons.inj h).1.symm hquote
    | escape => exact absurd (List.cons.inj h).1 (by decide)
  | char hquote hescape _ ih =>
    cases hb with
    | nil => exact absurd (List.cons.inj h).1 hquote
    | char _ _ hb =>
      obtain ⟨rfl, htail⟩ := List.cons.inj h
      obtain ⟨rfl, rfl⟩ := ih hb htail
      exact ⟨rfl, rfl⟩
    | escape => exact absurd (List.cons.inj h).1 hescape
  | escape c _ ih =>
    cases hb with
    | nil => exact absurd (List.cons.inj h).1 (by decide)
    | char _ hescape => exact absurd (List.cons.inj h).1.symm hescape
    | escape _ hb =>
      obtain ⟨rfl, htail⟩ := List.cons.inj (List.cons.inj h).2
      obtain ⟨rfl, rfl⟩ := ih hb htail
      exact ⟨rfl, rfl⟩

theorem Unclosed.tail (hquote : c ≠ '"') (hescape : c ≠ '\\') (h : Unclosed (c :: r)) : Unclosed r :=
  fun inner _ hinner hr => h (c :: inner) _ (.char hquote hescape hinner) (congrArg (c :: ·) hr)

theorem Unclosed.escaped (h : Unclosed ('\\' :: c :: r)) : Unclosed r :=
  fun inner _ hinner hr => h ('\\' :: c :: inner) _ (.escape c hinner) (congrArg ('\\' :: c :: ·) hr)

theorem lineComment_unique (ha : '\n' ∉ a) (hb : '\n' ∉ b) (h : a ++ '\n' :: r = b ++ '\n' :: r') : a = b ∧ r = r' := by
  induction a generalizing b with
  | nil =>
    cases b with
    | nil => exact ⟨rfl, (List.cons.inj h).2⟩
    | cons c b => exact absurd ((List.cons.inj h).1 ▸ List.mem_cons_self) hb
  | cons c a ih =>
    cases b with
    | nil => exact absurd ((List.cons.inj h).1 ▸ List.mem_cons_self) ha
    | cons c' b =>
      obtain ⟨rfl, htail⟩ := List.cons.inj h
      obtain ⟨rfl, rfl⟩ := ih (fun h => ha (List.mem_cons_of_mem _ h)) (fun h => hb (List.mem_cons_of_mem _ h)) htail
      exact ⟨rfl, rfl⟩

/-- A comment ends at the first `*/`. -/
theorem blockComment_unique (ha : ¬ ['*', '/'] <:+: a) (hb : ¬ ['*', '/'] <:+: b)
    (h : a ++ '*' :: '/' :: r = b ++ '*' :: '/' :: r') : a = b ∧ r = r' := by
  -- the longer one of the two would begin with the shorter one and its `*/`
  have haux : ∀ {a b r r' : List Char}, ¬ ['*', '/'] <:+: b → a ++ '*' :: '/' :: r = b ++ '*' :: '/' :: r' →
      ∀ mid, b = a ++ mid → mid = [] := by
    intro a b r r' hb h mid hmid
    subst hmid
    rw [List.append_assoc, List.append_cancel_left_eq] at h
    match mid, h with
    | [], _ => rfl
    | [x], h => cases h
    | x :: y :: mid, h =>
      cases h
      exact absurd ⟨a, mid, by simp⟩ hb
  rcases List.append_eq_append_iff.mp h with ⟨mid, hmid, -⟩ | ⟨mid, hmid, -⟩
  · have hnil := haux hb h mid hmid
    rw [hnil, List.append_nil] at hmid
    subst hmid
    simpa using h
  · have hnil := haux ha h.symm mid hmid
    rw [hnil, List.append_nil] at hmid
    subst hmid
    simpa using h

theorem not_mem_of_noInfix (h : ¬ ['*', '/'] <:+: c :: text) : ¬ ['*', '/'] <:+: text :=
  fun ⟨p, q, hpq⟩ => h ⟨c :: p, q, by rw [← hpq]; rfl⟩

/-- Any text has a first `*/`, or none. -/
theorem blockComment_ends (s : List Char) :
    (∃ text r, ¬ ['*', '/'] <:+: text ∧ s = text ++ '*' :: '/' :: r) ∨ ¬ ['*', '/'] <:+: s := by
  induction s with
  | nil => exact .inr (by simp)
  | cons c s ih =>
    by_cases hend : c = '*' ∧ s.head? = some '/'
    · obtain ⟨rfl, hs⟩ := hend
      obtain ⟨r, rfl⟩ := List.head?_eq_some_iff.mp hs
      exact .inl ⟨[], r, by simp, rfl⟩
    · have hcons : ∀ text, ¬ ['*', '/'] <:+: text → text <+: s → ¬ ['*', '/'] <:+: c :: text := by
        intro text htext hprefix hinfix
        rcases List.infix_cons_iff.mp hinfix with hfirst | hlater
        · obtain ⟨q, hq⟩ := hfirst
          obtain ⟨p, rfl⟩ := hprefix
          obtain ⟨rfl, rfl⟩ := List.cons.inj hq
          exact hend ⟨rfl, rfl⟩
        · exact htext hlater
      rcases ih with ⟨text, r, htext, rfl⟩ | hs
      · exact .inl ⟨c :: text, r, hcons text htext (List.prefix_append _ _), rfl⟩
      · exact .inr (hcons s hs (List.prefix_refl s))

end Ends

/-! ## Every text is cut in one way -/

theorem Cut.exists (s : List Char) : ∃ segs e, Cut segs e s := by
  induction hlen : s.length using Nat.strongRecOn generalizing s with
  | ind n ih =>
    have hrest : ∀ r : List Char, r.length < s.length → ∃ segs e, Cut segs e r :=
      fun r hr => ih r.length (hlen ▸ hr) r rfl
    match s with
    | [] => exact ⟨[], .none, .none⟩
    | c :: s =>
      by_cases hquote : c = '"'
      · subst hquote
        by_cases hclosed : ∃ inner r, Closed inner ∧ s = inner ++ '"' :: r
        · obtain ⟨inner, r, hinner, rfl⟩ := hclosed
          obtain ⟨segs, e, h⟩ := hrest r (by simp; omega)
          exact ⟨_, e, .literal hinner h⟩
        · exact ⟨[], _, .openLiteral fun inner r hinner hs => hclosed ⟨inner, r, hinner, hs⟩⟩
      by_cases hline : c = '/' ∧ s.head? = some '/'
      · obtain ⟨rfl, hs⟩ := hline
        obtain ⟨text, rfl⟩ := List.head?_eq_some_iff.mp hs
        by_cases hbreak : '\n' ∈ text
        · obtain ⟨text, r, rfl, htext⟩ := List.eq_append_cons_of_mem hbreak
          obtain ⟨segs, e, h⟩ := hrest r (by simp; omega)
          exact ⟨_, e, .line htext h⟩
        · exact ⟨[], _, .openLine hbreak⟩
      by_cases hblock : c = '/' ∧ s.head? = some '*'
      · obtain ⟨rfl, hs⟩ := hblock
        obtain ⟨text, rfl⟩ := List.head?_eq_some_iff.mp hs
        rcases blockComment_ends text with ⟨text, r, htext, rfl⟩ | htext
        · obtain ⟨segs, e, h⟩ := hrest r (by simp; omega)
          exact ⟨_, e, .block htext h⟩
        · exact ⟨[], _, .openBlock htext⟩
      · obtain ⟨segs, e, h⟩ := hrest s (by simp)
        exact ⟨_, e, .char hquote (fun hc => ⟨fun hs => hblock ⟨hc, hs⟩, fun hs => hline ⟨hc, hs⟩⟩) h⟩

theorem Cut.unique {segs segs' : List Segment} {e e' : Remnant} {s : List Char} (h : Cut segs e s)
    (h' : Cut segs' e' s) : segs' = segs ∧ e' = e := by
  induction h generalizing segs' with
  | none =>
    cases h'
    exact ⟨rfl, rfl⟩
  | openLiteral h =>
    cases h' with
    | openLiteral => exact ⟨rfl, rfl⟩
    | char hquote => exact absurd rfl hquote
    | literal hinner => exact absurd rfl (h _ _ hinner)
  | openLine h =>
    cases h' with
    | openLine => exact ⟨rfl, rfl⟩
    | char _ hslash => exact absurd rfl (hslash rfl).2
    | line => exact absurd (by simp) h
  | openBlock h =>
    cases h' with
    | openBlock => exact ⟨rfl, rfl⟩
    | char _ hslash => exact absurd rfl (hslash rfl).1
    | block => exact absurd ⟨_, _, List.append_assoc _ _ _⟩ h
  | char hquote hslash _ ih =>
    cases h' with
    | openLiteral | literal => exact absurd rfl hquote
    | openLine | line => exact absurd rfl (hslash rfl).2
    | openBlock | block => exact absurd rfl (hslash rfl).1
    | char _ _ h' =>
      obtain ⟨rfl, rfl⟩ := ih h'
      exact ⟨rfl, rfl⟩
  | @literal inner _ _ r hinner _ ih =>
    generalize hs : '"' :: (inner ++ '"' :: r) = s at h'
    cases h' with
    | literal hinner' h' =>
      obtain ⟨rfl, rfl⟩ := hinner.unique hinner' (List.cons.inj hs).2
      obtain ⟨rfl, rfl⟩ := ih h'
      exact ⟨rfl, rfl⟩
    | openLiteral h' => exact absurd (List.cons.inj hs).2.symm (h' _ _ hinner)
    | char hquote => exact absurd (List.cons.inj hs).1.symm hquote
    | _ => cases hs
  | @line text _ _ r htext _ ih =>
    generalize hs : '/' :: '/' :: (text ++ '\n' :: r) = s at h'
    cases h' with
    | line htext' h' =>
      obtain ⟨rfl, rfl⟩ := lineComment_unique htext htext' (List.cons.inj (List.cons.inj hs).2).2
      obtain ⟨rfl, rfl⟩ := ih h'
      exact ⟨rfl, rfl⟩
    | openLine h' =>
      cases hs
      exact absurd (by simp) h'
    | char _ hslash =>
      cases hs
      exact absurd rfl (hslash rfl).2
    | _ => cases hs
  | @block text _ _ r htext _ ih =>
    generalize hs : '/' :: '*' :: (text ++ '*' :: '/' :: r) = s at h'
    cases h' with
    | block htext' h' =>
      obtain ⟨rfl, rfl⟩ := blockComment_unique htext htext' (List.cons.inj (List.cons.inj hs).2).2
      obtain ⟨rfl, rfl⟩ := ih h'
      exact ⟨rfl, rfl⟩
    | openBlock h' =>
      cases hs
      exact absurd ⟨_, _, List.append_assoc _ _ _⟩ h'
    | char _ hslash =>
      cases hs
      exact absurd rfl (hslash rfl).1
    | _ => cases hs

/-! ## One reading takes the segments -/

section Reading

variable {r text inner : List Char} {acc : List Char}

theorem lex_closed (h : Closed inner) :
    lex (.literal acc) (inner ++ '"' :: r) = (lex .outside r).map (.literal (acc.reverse ++ inner) :: ·) := by
  induction h generalizing acc with
  | nil => rw [List.nil_append, lex, List.append_nil]
  | char hquote hescape _ ih =>
    rw [List.cons_append, lex_inner (fun _ _ h => absurd h hescape) hquote, ih]
    simp
  | escape c _ ih =>
    rw [List.cons_append, List.cons_append, lex, ih]
    simp

theorem lex_unclosed {s : List Char} (acc : List Char) (h : Unclosed s) :
    lex (.literal acc) s = .error .unterminatedString := by
  match s with
  | [] => rfl
  | c :: s =>
    have hquote : c ≠ '"' := fun hc => h [] s .nil (hc ▸ rfl)
    by_cases hescape : c = '\\'
    · subst hescape
      match s with
      | [] => rfl
      | c :: s =>
        rw [lex]
        exact lex_unclosed _ h.escaped
    · rw [lex_inner (fun _ _ hc => absurd hc hescape) hquote]
      exact lex_unclosed _ (h.tail hquote hescape)

theorem lex_line (h : '\n' ∉ text) :
    lex .lineComment (text ++ '\n' :: r) = (lex .outside r).map (.char '\n' :: ·) := by
  induction text with
  | nil => rw [List.nil_append, lex]
  | cons c text ih =>
    have hc : c ≠ '\n' := fun hc => h (hc ▸ List.mem_cons_self)
    rw [List.cons_append, lex, ih (fun hmem => h (List.mem_cons_of_mem _ hmem))]
    exact hc

theorem lex_openLine (h : '\n' ∉ text) : lex .lineComment text = .ok [.char '\n'] := by
  induction text with
  | nil => rfl
  | cons c text ih =>
    have hc : c ≠ '\n' := fun hc => h (hc ▸ List.mem_cons_self)
    rw [lex, ih (fun hmem => h (List.mem_cons_of_mem _ hmem))]
    exact hc

theorem lex_block (h : ¬ ['*', '/'] <:+: text) : lex .blockComment (text ++ '*' :: '/' :: r) = lex .outside r := by
  induction text with
  | nil => rw [List.nil_append, lex]
  | cons c text ih =>
    rw [List.cons_append, lex_comment, ih (not_mem_of_noInfix h)]
    intro r' hc htext
    cases text with
    | nil => cases htext
    | cons x text =>
      cases htext
      exact h ⟨[], text, hc ▸ rfl⟩

theorem lex_openBlock (h : ¬ ['*', '/'] <:+: text) : lex .blockComment text = .error .unterminatedComment := by
  induction text with
  | nil => rfl
  | cons c text ih =>
    rw [lex_comment, ih (not_mem_of_noInfix h)]
    intro r' hc htext
    exact h ⟨[], r', by rw [hc, htext]; rfl⟩

/-- The characters and literals of a file are what its segments leave. -/
theorem lex_of_cut {segs : List Segment} {e : Remnant} {s : List Char} (h : Cut segs e s) :
    lex .outside s = (lexemesOf e).map (segs.filterMap Segment.lexeme? ++ ·) := by
  induction h with
  | none => rfl
  | openLiteral h => rw [lex, lex_unclosed [] h]; rfl
  | openLine h => rw [lex, lex_openLine h]; rfl
  | openBlock h => rw [lex, lex_openBlock h]; rfl
  | char hquote hslash _ ih =>
    rw [lex_cons (fun r' hc hr => (hslash hc).1 (by rw [hr]; rfl)) (fun r' hc hr => (hslash hc).2 (by rw [hr]; rfl))
      hquote, ih, map_map]
    rfl
  | literal hinner _ ih => rw [lex, lex_closed hinner, ih, map_map]; rfl
  | line htext _ ih => rw [lex, lex_line htext, ih, map_map]; rfl
  | block htext _ ih => rw [lex, lex_block htext, ih]; rfl

end Reading

/-- The two readings of a file, one after the other. -/
def readings (t : Literals) (s : List Char) : Except DeclarationError (List Char × Literals) :=
  dropBlockComments .outside s >>= setLiteralsAside .outside t

/-- The two readings are one reading from left to right, whatever literals are set aside already. It
    takes the one row of segments that the file is: block comments go, line comments become line
    breaks, literals become the next placeholders. It fails on the files that end in a block comment
    or in a literal, and says in which of them. -/
theorem readings_of_segments (t : Literals) (s : List Char) :
    readings t s = ((lex .outside s).map fun ls => (aside t.contents.length ls, ⟨t.contents ++ contents ls⟩)) ∧
      ∃ segs e, Cut segs e s ∧ (∀ segs' e', Cut segs' e' s → segs' = segs ∧ e' = e) ∧
        lex .outside s = (lexemesOf e).map (segs.filterMap Segment.lexeme? ++ ·) ∧
        (readings t s = .error .unterminatedComment ↔ ∃ text, e = .block text) ∧
        (readings t s = .error .unterminatedString ↔ ∃ inner, e = .literal inner) := by
  have hone : readings t s = (lex .outside s).map fun ls => (aside t.contents.length ls, ⟨t.contents ++ contents ls⟩) :=
    readings_eq_lex .outside t s
  obtain ⟨segs, e, h⟩ := Cut.exists s
  have hlex := lex_of_cut h
  refine ⟨hone, segs, e, h, fun _ _ h' => h.unique h', hlex, ?_, ?_⟩
  · rw [hone, hlex]
    cases e <;> simp [lexemesOf, Except.map]
  · rw [hone, hlex]
    cases e <;> simp [lexemesOf, Except.map]

/-- A quote in a comment opens no literal, `/*` in a literal and `*/` in a `/*/` do nothing. -/
example : readings {} "a/*/\"*/ = \"/*\\\"\" // \"".toList = .ok ("a = #qs0# \n".toList, ⟨["/*\\\""]⟩) :=
  rfl

end Declarations

end PageServer
