/-
  PageServer.Proofs.Rows — rows of characters and literals as texts.

  A row without comments, whose literals are closed (`Free`), is written out and read again as it was
  (`lex_source`). What is read off a file never holds a quote or a comment, whatever the file
  is (`lex_clean`), and setting its literals aside puts none there (`aside_clean`).

  Of what stands between blanks only the ends matter (`Tight`): something that begins and ends with
  what is not blank is left when blanks are taken off around it.
-/

import PageServer.Proofs.InPlace

namespace PageServer

/-! ## Literals -/

namespace Text

theorem literal?_of_plain {c : Char} {r : List Char} (hquote : c ≠ '"') (hslash : c ≠ '\\') :
    literal? (c :: r) = (literal? r).map fun p => (c :: p.1, p.2) := by
  rw [literal?] <;> simp_all

theorem unescape_of_plain {c : Char} {r : List Char} (hslash : c ≠ '\\') : unescape (c :: r) = c :: unescape r := by
  rw [unescape]
  simp_all

/-- A character is escaped as itself, or as a pair that stands for it. -/
theorem escapedChar_cases (c : Char) :
    (escapedChar c = [c] ∧ c ≠ '"' ∧ c ≠ '\\') ∨
      ∃ c', escapedChar c = ['\\', c'] ∧ protectedChar c' = c := by
  unfold escapedChar
  split
  · exact .inr ⟨_, rfl, by subst_vars; decide⟩
  split
  · exact .inr ⟨_, rfl, by subst_vars; decide⟩
  split
  · exact .inr ⟨_, rfl, by subst_vars; decide⟩
  split
  · exact .inr ⟨_, rfl, by subst_vars; decide⟩
  split
  · exact .inr ⟨_, rfl, by subst_vars; decide⟩
  · exact .inl ⟨rfl, ‹_›, ‹_›⟩

theorem unescape_escape (s : List Char) : unescape (escape s) = s := by
  induction s with
  | nil => rfl
  | cons c s ih =>
    rw [escape, List.flatMap_cons, ← escape]
    rcases escapedChar_cases c with ⟨hself, -, hslash⟩ | ⟨c', hpair, hc'⟩
    · rw [hself, List.singleton_append, unescape_of_plain hslash, ih]
    · rw [hpair, List.cons_append, List.singleton_append, unescape, ih, hc']

/-- The contents of a literal, escapes in place: no quote in them ends it. -/
inductive Closed : List Char → Prop
  | nil : Closed []
  | pair {c : Char} {r : List Char} : Closed r → Closed ('\\' :: c :: r)
  | plain {c : Char} {r : List Char} : c ≠ '"' → c ≠ '\\' → Closed r → Closed (c :: r)

theorem closed_escape (s : List Char) : Closed (escape s) := by
  induction s with
  | nil => exact .nil
  | cons c s ih =>
    rw [escape, List.flatMap_cons, ← escape]
    rcases escapedChar_cases c with ⟨hself, hquote, hslash⟩ | ⟨c', hpair, -⟩
    · rw [hself]
      exact .plain hquote hslash ih
    · rw [hpair]
      exact .pair ih

theorem Closed.literal? {inner : List Char} (h : Closed inner) (rest : List Char) :
    literal? (inner ++ '"' :: rest) = some (inner, rest) := by
  induction h with
  | nil => rfl
  | pair _ ih =>
    rw [List.cons_append, List.cons_append, Text.literal?, ih]
    rfl
  | plain hquote hslash _ ih =>
    rw [List.cons_append, literal?_of_plain hquote hslash, ih]
    rfl

theorem closed_of_literal? {s inner rest : List Char} (h : literal? s = some (inner, rest)) :
    Closed inner ∧ s = inner ++ '"' :: rest := by
  fun_induction literal? s generalizing inner with
  | case1 => cases h
  | case2 =>
    cases h
    exact ⟨.nil, rfl⟩
  | case3 c r ih =>
    obtain ⟨⟨inner, rest⟩, hr, hp⟩ := Option.map_eq_some_iff.mp h
    cases hp
    obtain ⟨hinner, rfl⟩ := ih hr
    exact ⟨.pair hinner, rfl⟩
  | case4 c r hquote hslash ih =>
    obtain ⟨⟨inner, rest⟩, hr, hp⟩ := Option.map_eq_some_iff.mp h
    cases hp
    obtain ⟨hinner, rfl⟩ := ih hr
    refine ⟨.plain (by simpa using hquote) (fun heq => ?_) hinner, rfl⟩
    -- a backslash before the closing quote would have taken it
    cases inner <;> exact hslash _ _ heq rfl

end Text

/-! ## Lists with ends -/

section Tight

variable {α : Type} {p : α → Bool} {a b m : List α}

/-- What is left if what lies in `p` is taken off both ends: there is something, and it stays. -/
structure Tight (p : α → Bool) (m : List α) : Prop where
  ne : m ≠ []
  head : ∀ x ∈ m.head?, p x = false
  last : ∀ x ∈ m.getLast?, p x = false

theorem Tight.of_forall (hne : m ≠ []) (h : ∀ x ∈ m, p x = false) : Tight p m :=
  ⟨hne, fun x hx => h x (List.mem_of_mem_head? hx), fun x hx => h x (List.mem_of_mem_getLast? hx)⟩

theorem Tight.strip (h : Tight p m) (ha : ∀ x ∈ a, p x = true) (hb : ∀ x ∈ b, p x = true) :
    ((a ++ (m ++ b)).dropWhile p).rdropWhile p = m := by
  obtain ⟨x, r, rfl⟩ := List.exists_cons_of_ne_nil h.ne
  have hx : ¬p x = true := by rw [h.head x rfl]; decide
  rw [List.dropWhile_append_of_pos ha, List.cons_append, List.dropWhile_cons_of_neg hx, ← List.cons_append]
  induction b using List.reverseRecOn with
  | nil =>
    rw [List.append_nil]
    exact List.rdropWhile_eq_self_iff.mpr fun hne => by
      rw [h.last _ (List.getLast?_eq_some_getLast hne)]
      decide
  | append_singleton b y ih =>
    rw [← List.append_assoc, List.rdropWhile_concat_pos _ _ _ (hb y (by simp)),
      ih fun x hx => hb x (List.mem_append_left _ hx)]

theorem Tight.strip_self (h : Tight p m) : (m.dropWhile p).rdropWhile p = m := by
  simpa using h.strip (a := []) (b := []) (by simp) (by simp)

theorem Tight.strip_cons {x : α} (h : Tight p m) (hx : p x = true) : ((x :: m).dropWhile p).rdropWhile p = m := by
  simpa using h.strip (a := [x]) (b := []) (by simpa using hx) (by simp)

theorem Tight.strip_concat {x : α} (h : Tight p m) (hx : p x = true) : ((m ++ [x]).dropWhile p).rdropWhile p = m := by
  simpa using h.strip (a := []) (b := [x]) (by simp) (by simpa using hx)

theorem Tight.append (ha : Tight p a) (hb : Tight p b) (m : List α) : Tight p (a ++ (m ++ b)) where
  ne := by simp [ha.ne]
  head := by
    rw [List.head?_append_of_ne_nil _ ha.ne]
    exact ha.head
  last := by
    rw [List.getLast?_append_of_ne_nil _ (by simp [hb.ne]), List.getLast?_append_of_ne_nil _ hb.ne]
    exact hb.last

theorem Tight.of_strip (hne : (m.dropWhile p).rdropWhile p ≠ []) : Tight p ((m.dropWhile p).rdropWhile p) where
  ne := hne
  head := by
    intro x hx
    obtain ⟨rest, hrest⟩ := List.rdropWhile_prefix p (m.dropWhile p)
    have hhead : (m.dropWhile p).head? = some x := by
      rw [← hrest, List.head?_append_of_ne_nil _ hne]
      exact hx
    have hnot := List.head?_dropWhile_not p m
    rw [hhead] at hnot
    simpa using hnot
  last := by
    intro x hx
    rw [List.getLast?_eq_some_getLast hne] at hx
    cases hx
    simpa using List.rdropWhile_last_not p (m.dropWhile p) hne

end Tight

namespace Text

theorem tight_of_trim {w : List Char} (h : trim w = w) (hne : w ≠ []) : Tight isBlank w := by
  rw [← h] at hne ⊢
  exact .of_strip hne

end Text

namespace Lexeme

def chars (w : List Char) : List Lexeme := w.map .char

@[simp] theorem char_mem_chars {c : Char} {w : List Char} : char c ∈ chars w ↔ c ∈ w := by simp [chars]

@[simp] theorem literal_not_mem_chars {inner w : List Char} : literal inner ∉ chars w := by simp [chars]

@[simp] theorem source_char (c : Char) : source (char c) = [c] := rfl

@[simp] theorem source_literal (inner : List Char) : source (literal inner) = '"' :: (inner ++ ['"']) := rfl

@[simp] theorem source_chars (w : List Char) : (chars w).flatMap source = w := by
  simp [chars, List.flatMap_map, source]

@[simp] theorem chars?_chars (w : List Char) : chars? (chars w) = some w := by
  induction w with
  | nil => rfl
  | cons c w ih =>
    change (chars? (chars w)).map (c :: ·) = _
    rw [ih]
    rfl

@[simp] theorem whole?_chars (w : List Char) : whole? (chars w) = none := by
  cases w <;> rfl

theorem bne_of_not_mem {c : Char} {ls : List Lexeme} (h : char c ∉ ls) : ∀ l ∈ ls, (l != char c) = true :=
  fun _ hl => bne_iff_ne.mpr fun heq => h (heq ▸ hl)

theorem tight_chars {w : List Char} (h : Tight Text.isBlank w) : Tight isBlank (chars w) where
  ne := by simpa [chars] using h.ne
  head := by
    intro l hl
    rw [chars, List.head?_map] at hl
    obtain ⟨c, hc, rfl⟩ := Option.map_eq_some_iff.mp hl
    exact h.head c hc
  last := by
    intro l hl
    rw [chars, List.getLast?_map] at hl
    obtain ⟨c, hc, rfl⟩ := Option.map_eq_some_iff.mp hl
    exact h.last c hc

/-! ## Rows that read as themselves -/

/-- The characters of a text are looked at one by one, and not all characters there are. -/
instance (priority := 2000) {P : Char → Prop} [DecidablePred P] (w : List Char) : Decidable (∀ c ∈ w, P c) :=
  List.decidableBAll P w

/-- How comments begin. -/
def commentMarks : List (List Char) := [['/', '/'], ['/', '*']]

/-- The row holds none of these signs and marks, and its literals end where they end. -/
structure Free (signs : List Char) (marks : List (List Char)) (ls : List Lexeme) : Prop where
  signs : ∀ c ∈ signs, char c ∉ ls
  literals : ∀ inner, literal inner ∈ ls → Text.Closed inner
  marks : ∀ m ∈ marks, ¬chars m <:+: ls

variable {signs : List Char} {marks : List (List Char)} {a b ls : List Lexeme}

/-- A part that does not hold a separator lies before or after it. -/
theorem infix_of_append_cons {α : Type} {w a b : List α} {x : α} (hx : x ∉ w) (h : w <:+: a ++ x :: b) :
    w <:+: a ∨ w <:+: b := by
  induction a with
  | nil =>
    rcases List.infix_cons_iff.mp h with h | h
    · cases w with
      | nil => exact .inl List.nil_infix
      | cons y w =>
        obtain ⟨t, ht⟩ := h
        cases ht
        exact absurd List.mem_cons_self hx
    · exact .inr h
  | cons y a ih =>
    rcases List.infix_cons_iff.mp h with h | h
    · left
      have hall : y :: a ++ [x] <+: y :: (a ++ x :: b) := ⟨b, by simp⟩
      rcases List.prefix_or_prefix_of_prefix h hall with h' | h'
      · rcases List.prefix_concat_iff.mp h' with heq | h'
        · exact absurd (heq ▸ by simp) hx
        · exact h'.isInfix
      · exact absurd (h'.subset (by simp)) hx
    · rcases ih h with h | h
      · exact .inl (h.trans (List.suffix_cons _ _).isInfix)
      · exact .inr h

theorem infix_of_chars {m w : List Char} (h : chars m <:+: chars w) : m <:+: w := by
  have := h.flatMap source
  rwa [source_chars, source_chars] at this

namespace Free

theorem of_chars {w : List Char} (hsigns : ∀ c ∈ signs, c ∉ w) (hmarks : ∀ m ∈ marks, ¬m <:+: w) :
    Free signs marks (chars w) where
  signs := by simpa using hsigns
  literals := by simp
  marks := fun m hm h => hmarks m hm (infix_of_chars h)

theorem of_literal {inner : List Char} (h : Text.Closed inner) (hmarks : ∀ m ∈ marks, m ≠ []) :
    Free signs marks [literal inner] where
  signs := by simp
  literals := by
    intro inner hmem
    cases List.mem_singleton.mp hmem
    exact h
  marks := by
    intro m hm hpart
    obtain ⟨c, r, rfl⟩ := List.exists_cons_of_ne_nil (hmarks m hm)
    have hmem := hpart.subset (show char c ∈ chars (c :: r) from List.mem_cons_self)
    cases List.mem_singleton.mp hmem

/-- A sign that is none of these may stand between. -/
theorem join (ha : Free signs marks a) (hb : Free signs marks b) {c : Char} (hsigns : c ∉ signs)
    (hmarks : ∀ m ∈ marks, c ∉ m) : Free signs marks (a ++ char c :: b) where
  signs := by
    intro c' hc' hmem
    rcases List.mem_append.mp hmem with hmem | hmem
    · exact ha.signs c' hc' hmem
    · rcases List.mem_cons.mp hmem with heq | hmem
      · cases heq
        exact hsigns hc'
      · exact hb.signs c' hc' hmem
  literals := by
    intro inner hmem
    rcases List.mem_append.mp hmem with hmem | hmem
    · exact ha.literals inner hmem
    · rcases List.mem_cons.mp hmem with heq | hmem
      · cases heq
      · exact hb.literals inner hmem
  marks := by
    intro m hm h
    rcases infix_of_append_cons (by simpa using hmarks m hm) h with h | h
    · exact ha.marks m hm h
    · exact hb.marks m hm h

theorem nil (h : Free signs marks ls) : Free signs marks [] :=
  ⟨by simp, by simp, fun m hm hnil => h.marks m hm (List.infix_nil.mp hnil ▸ List.nil_infix)⟩

theorem cons (h : Free signs marks ls) {c : Char} (hsigns : c ∉ signs) (hmarks : ∀ m ∈ marks, c ∉ m) :
    Free signs marks (char c :: ls) := h.nil.join h hsigns hmarks

theorem concat (h : Free signs marks ls) {c : Char} (hsigns : c ∉ signs) (hmarks : ∀ m ∈ marks, c ∉ m) :
    Free signs marks (ls ++ [char c]) := h.join h.nil hsigns hmarks

theorem weaken {signs' : List Char} {marks' : List (List Char)} (h : Free signs marks ls) (hsigns : signs' ⊆ signs)
    (hmarks : marks' ⊆ marks) : Free signs' marks' ls :=
  ⟨fun c hc => h.signs c (hsigns hc), h.literals, fun m hm => h.marks m (hmarks hm)⟩

theorem tail {l : Lexeme} (h : Free signs marks (l :: ls)) : Free signs marks ls :=
  ⟨fun c hc hmem => h.signs c hc (List.mem_cons_of_mem _ hmem),
    fun inner hmem => h.literals inner (List.mem_cons_of_mem _ hmem),
    fun m hm hpart => h.marks m hm (hpart.trans (List.suffix_cons _ _).isInfix)⟩

end Free

theorem lex_closed {inner : List Char} (h : Text.Closed inner) (acc rest : List Char) :
    Declarations.lex (.literal acc) (inner ++ '"' :: rest) =
      (Declarations.lex .outside rest).map (.literal (acc.reverse ++ inner) :: ·) := by
  induction h generalizing acc with
  | nil => simp [Declarations.lex]
  | pair _ ih =>
    rw [List.cons_append, List.cons_append, Declarations.lex, ih]
    simp
  | plain hquote hslash _ ih =>
    rw [List.cons_append, Declarations.lex_inner (fun _ _ heq => absurd heq hslash) hquote, ih]
    simp

/-- A row without comments is read from its text. -/
theorem lex_source (h : Free ['"'] commentMarks ls) : Declarations.lex .outside (ls.flatMap source) = .ok ls := by
  induction ls with
  | nil => rfl
  | cons l ls ih =>
    have hrest := ih h.tail
    cases l with
    | char c =>
      -- the next character is that of the next lexeme: no literal begins with the rest of a comment's mark
      have hnext : ∀ {c' r'}, c' ≠ '"' → ls.flatMap source = c' :: r' → ∃ ls', ls = char c' :: ls' := by
        intro c' r' hquote hsource
        cases ls with
        | nil => cases hsource
        | cons l ls =>
          cases l with
          | char c'' =>
            cases hsource
            exact ⟨ls, rfl⟩
          | literal inner =>
            cases hsource
            exact absurd rfl hquote
      have hmark : ∀ {c' r'}, c' ≠ '"' → [c, c'] ∈ commentMarks → ls.flatMap source = c' :: r' → False := by
        intro c' r' hquote hmem hsource
        obtain ⟨ls', rfl⟩ := hnext hquote hsource
        exact h.marks _ hmem ⟨[], ls', rfl⟩
      rw [List.flatMap_cons]
      change Declarations.lex .outside (c :: ls.flatMap source) = _
      rw [Declarations.lex_cons, hrest]
      · rfl
      · rintro r' rfl hsource
        exact hmark (by decide) (by decide) hsource
      · rintro r' rfl hsource
        exact hmark (by decide) (by decide) hsource
      · rintro rfl
        exact h.signs _ (by simp) List.mem_cons_self
    | literal inner =>
      rw [List.flatMap_cons]
      change Declarations.lex .outside ('"' :: (inner ++ ['"'] ++ ls.flatMap source)) = _
      rw [List.append_assoc, List.singleton_append, Declarations.lex,
        lex_closed (h.literals inner List.mem_cons_self), hrest]
      · rfl

/-! ## No comments -/

section Pairs

variable {α : Type} {a b l : α} {ls front : List α}

theorem not_infix_cons (h : ¬[a, b] <:+: ls) (hl : l = a → ls.head? ≠ some b) : ¬[a, b] <:+: l :: ls := by
  intro hpart
  rcases List.infix_cons_iff.mp hpart with ⟨t, ht⟩ | hpart
  · cases ht
    exact hl rfl rfl
  · exact h hpart

theorem not_infix_append (hfront : a ∉ front) (h : ¬[a, b] <:+: ls) : ¬[a, b] <:+: front ++ ls := by
  induction front with
  | nil => exact h
  | cons x front ih =>
    refine not_infix_cons (ih fun hmem => hfront (List.mem_cons_of_mem _ hmem)) fun heq => ?_
    exact absurd (heq ▸ List.mem_cons_self) hfront

end Pairs

theorem eq_of_mem_commentMarks {m : List Char} (hm : m ∈ commentMarks) : m = ['/', '/'] ∨ m = ['/', '*'] := by
  simpa [commentMarks] using hm

/-- No quotes outside of literals, and no comments. -/
structure Clean (ls : List Lexeme) : Prop where
  quote : char '"' ∉ ls
  marks : ∀ m ∈ commentMarks, ¬chars m <:+: ls

theorem Clean.tail {l : Lexeme} (h : Clean (l :: ls)) : Clean ls where
  quote := fun hmem => h.quote (List.mem_cons_of_mem _ hmem)
  marks := fun m hm hpart => h.marks m hm (hpart.trans (List.suffix_cons _ _).isInfix)

theorem Clean.cons {l : Lexeme} (h : Clean ls) (hl : l ≠ char '"')
    (hnext : ∀ x, l = char '/' → ls.head? = some (char x) → x ≠ '/' ∧ x ≠ '*') : Clean (l :: ls) where
  quote := by
    rw [List.mem_cons, not_or]
    exact ⟨hl.symm, h.quote⟩
  marks := by
    intro m hm
    rcases eq_of_mem_commentMarks hm with rfl | rfl
    · exact not_infix_cons (h.marks _ hm) fun hslash hhead => (hnext _ hslash hhead).1 rfl
    · exact not_infix_cons (h.marks _ hm) fun hslash hhead => (hnext _ hslash hhead).2 rfl

/-- A clean row stays clean when its literals are set aside. -/
theorem aside_clean (h : Clean ls) (n : Nat) :
    '"' ∉ aside n ls ∧ ∀ m ∈ commentMarks, ¬m <:+: aside n ls := by
  induction ls generalizing n with
  | nil => exact ⟨by simp, show ∀ m ∈ commentMarks, ¬m <:+: [] by decide⟩
  | cons l ls ih =>
    have ih := ih h.tail
    cases l with
    | char c =>
      obtain ⟨hrest, hrestMarks⟩ := ih n
      refine ⟨?_, fun m hm => ?_⟩
      · rw [aside_char, List.mem_cons, not_or]
        exact ⟨fun heq => h.quote (heq ▸ List.mem_cons_self), hrest⟩
      · have hnext : ∀ x, ['/', x] ∈ commentMarks → x ≠ '#' → c = '/' → (aside n ls).head? ≠ some x := by
          rintro x hx hhash rfl hhead
          refine h.marks _ hx ?_
          cases ls with
          | nil => cases hhead
          | cons l ls =>
            cases l with
            | char c' =>
              cases hhead
              exact ⟨[], ls, rfl⟩
            | literal inner =>
              cases hhead
              exact absurd rfl hhash
        rcases eq_of_mem_commentMarks hm with rfl | rfl
        · exact not_infix_cons (hrestMarks _ hm) (hnext _ hm (by decide))
        · exact not_infix_cons (hrestMarks _ hm) (hnext _ hm (by decide))
    | literal inner =>
      obtain ⟨hrest, hrestMarks⟩ := ih (n + 1)
      have hplaceholder : ∀ {c}, Literals.isPlaceholderChar c = false → c ∉ Literals.placeholder n := by
        intro c hc hmem
        rw [Literals.mem_placeholder hmem] at hc
        cases hc
      refine ⟨?_, fun m hm => ?_⟩
      · rw [aside_literal, List.mem_append, not_or]
        exact ⟨hplaceholder (by decide), hrest⟩
      · rcases eq_of_mem_commentMarks hm with rfl | rfl
        · exact not_infix_append (hplaceholder (by decide)) (hrestMarks _ hm)
        · exact not_infix_append (hplaceholder (by decide)) (hrestMarks _ hm)

end Lexeme

namespace Declarations

open Lexeme

theorem head_of_lex_literal {inner s : List Char} {ls : List Lexeme} (h : lex (.literal inner) s = .ok ls) :
    ∃ inner' ls', ls = .literal inner' :: ls' := by
  generalize hst : LexState.literal inner = st at h
  fun_induction lex st s generalizing inner ls <;> cases hst
  case case3 => cases h
  case case9 ih => exact ih rfl h
  case case10 =>
    obtain ⟨ls', -, rfl⟩ := eq_of_map h
    exact ⟨_, _, rfl⟩
  case case11 ih => exact ih rfl h

/-- After a slash that begins no comment comes no sign that would have made it one. -/
theorem head_of_lex {r : List Char} {c x : Char} {ls : List Lexeme} (h : lex .outside r = .ok (.char x :: ls))
    (hblock : ∀ r', c = '/' → r = '*' :: r' → False) (hline : ∀ r', c = '/' → r = '/' :: r' → False)
    (hc : c = '/') : x ≠ '/' ∧ x ≠ '*' := by
  cases r with
  | nil => cases h
  | cons y r =>
    have hslash : y ≠ '/' := fun heq => hline r hc (by rw [heq])
    have hstar : y ≠ '*' := fun heq => hblock r hc (by rw [heq])
    by_cases hquote : y = '"'
    · subst hquote
      rw [lex] at h
      · obtain ⟨inner, ls', heq⟩ := head_of_lex_literal h
        cases heq
    · rw [lex_cons (fun _ heq => absurd heq hslash) (fun _ heq => absurd heq hslash) hquote] at h
      obtain ⟨ls', -, heq⟩ := eq_of_map h
      cases heq
      exact ⟨hslash, hstar⟩

/-- What is read off a file is clean, whatever the file is. -/
theorem lex_clean {st : LexState} {s : List Char} {ls : List Lexeme} (h : lex st s = .ok ls) : Clean ls := by
  fun_induction lex st s generalizing ls with
  | case1 =>
    cases h
    exact ⟨by simp, by decide⟩
  | case2 =>
    cases h
    exact ⟨by simp, by decide⟩
  | case3 => cases h
  | case4 => cases h
  | case5 r ih | case6 r ih | case7 r ih | case14 r ih => exact ih h
  | case9 inner c r ih => exact ih h
  | case11 inner c r hescape hquote ih => exact ih h
  | case13 c r hbreak ih => exact ih h
  | case15 c r hend ih => exact ih h
  | case8 c r hblock hline hquote ih =>
    obtain ⟨ls, hls, rfl⟩ := eq_of_map h
    refine (ih hls).cons (by simpa using hquote) fun x hslash hhead => ?_
    obtain ⟨ls', rfl⟩ := List.head?_eq_some_iff.mp hhead
    cases hslash
    exact head_of_lex hls hblock hline rfl
  | case10 inner r ih =>
    obtain ⟨ls, hls, rfl⟩ := eq_of_map h
    exact (ih hls).cons (by simp) (by simp)
  | case12 r ih =>
    obtain ⟨ls, hls, rfl⟩ := eq_of_map h
    exact (ih hls).cons (by simp) (by simp)

end Declarations

end PageServer
