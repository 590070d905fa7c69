/-
  PageServer.Proofs.Grammar — the rows that helper expressions are read from.

  A term is a literal, a word that stands for a value or a key path, or a call: a word, and in
  parentheses terms with commas between them (`Writes`). Blanks may stand around all of them, but not
  inside of a word. Nothing else is read, and all of this is (`ofExpression_eq_ok`): the bound on the
  steps of the reading is not reached, since no character takes more than two.

  Words are as long as they can be, and a literal ends at the first quote that is not protected. So
  each step of the reading takes what one rule writes, and leaves the rest.
-/

import PageServer.Proofs.Rows

namespace PageServer

namespace Text

/-- What may stand between the words of an expression. -/
def Gap (s : List Char) : Prop := ∀ c ∈ s, isBlank c = true

theorem gap_nil : Gap [] := nofun

theorem trimStart_gap {gap : List Char} (h : Gap gap) (s : List Char) : trimStart (gap ++ s) = trimStart s :=
  List.dropWhile_append_of_pos h

theorem trimStart_eq {c : Char} {s : List Char} (hc : isBlank c = false) : trimStart (c :: s) = c :: s :=
  List.dropWhile_cons_of_neg (by rw [hc]; decide)

theorem trimStart_trimStart (s : List Char) : trimStart (trimStart s) = trimStart s := by
  rw [trimStart, trimStart, List.dropWhile_idempotent]

theorem exists_gap (s : List Char) : ∃ gap, Gap gap ∧ s = gap ++ trimStart s :=
  ⟨s.takeWhile isBlank, fun _ hc => List.mem_takeWhile_imp hc, List.takeWhile_append_dropWhile.symm⟩

end Text

namespace Binding

open Lexeme Text

variable {b : Binding} {bs : List Binding} {c : Char} {w gap s rest : List Char} {whole : String} {fuel : Nat}

/-! ## Steps of the reading -/

theorem endsWord_of_blank (h : endsWord c = false) : isBlank c = false := by
  unfold endsWord at h
  simp only [Bool.or_eq_false_iff] at h
  exact h.2

/-- A word is all read, up to what ends it. -/
theorem taken_word (hw : ∀ c ∈ w, endsWord c = false) (hrest : ∀ c ∈ rest.head?, endsWord c = true) :
    (w ++ rest).takeWhile (!endsWord ·) = w ∧ (w ++ rest).dropWhile (!endsWord ·) = rest :=
  taken_append (fun c hc => by rw [hw c hc]; rfl) fun c hc => by rw [hrest c hc]; rfl

/-- What may follow a term, blanks aside. -/
def Stops (rest : List Char) : Prop := rest = [] ∨ ∃ r, rest = ',' :: r ∨ rest = ')' :: r

theorem Stops.comma (r : List Char) : Stops (',' :: r) := .inr ⟨r, .inl rfl⟩

theorem Stops.close (r : List Char) : Stops (')' :: r) := .inr ⟨r, .inr rfl⟩

theorem Stops.trimStart (h : Stops rest) : Text.trimStart rest = rest := by
  rcases h with rfl | ⟨r, rfl | rfl⟩ <;> rfl

theorem readTerm_trimStart : readTerm whole fuel (trimStart s) = readTerm whole fuel s := by
  cases fuel with
  | zero => rw [readTerm, readTerm]
  | succ fuel => rw [readTerm, readTerm, trimStart_trimStart]

theorem readMore_trimStart : readMore whole fuel (trimStart s) = readMore whole fuel s := by
  cases fuel with
  | zero => rw [readMore, readMore]
  | succ fuel => rw [readMore, readMore, readTerm_trimStart]

theorem readTerm_gap (h : Gap gap) (s : List Char) : readTerm whole fuel (gap ++ s) = readTerm whole fuel s := by
  rw [← readTerm_trimStart, trimStart_gap h, readTerm_trimStart]

theorem readTerm_token (hc : c ≠ '"') (hw : ∀ c' ∈ c :: w, endsWord c' = false)
    (hrest : ∀ c' ∈ rest.head?, endsWord c' = true) :
    readTerm whole (fuel + 1) (c :: w ++ rest) =
      match trimStart rest with
      | '(' :: r => (readArguments whole fuel r).map fun p => (.call (String.ofList (c :: w)) p.1, p.2)
      | r => (ofWord (c :: w)).map (·, r) := by
  obtain ⟨htake, hdrop⟩ := taken_word hw hrest
  have hend := hw c List.mem_cons_self
  rw [List.cons_append] at htake hdrop ⊢
  rw [readTerm, trimStart_eq (endsWord_of_blank hend)]
  split
  · rename_i heq
    cases heq
  · rename_i heq
    cases heq
    exact absurd rfl hc
  · rename_i heq
    cases heq
    rw [hend, htake, hdrop]
    simp only [Bool.false_eq_true, if_false]
    rcases trimStart rest with _ | ⟨c', r⟩
    · cases ofWord (c :: w) <;> rfl
    · by_cases hopen : c' = '('
      · subst hopen
        cases readArguments whole fuel r <;> rfl
      · simp only [List.cons.injEq, hopen, false_and, false_implies, implies_true]
        cases ofWord (c :: w) <;> rfl

theorem endsWord_gap (hgap : Gap gap) (hrest : ∀ c ∈ rest.head?, endsWord c = true) :
    ∀ c ∈ (gap ++ rest).head?, endsWord c = true := by
  cases gap with
  | nil => exact hrest
  | cons c gap =>
    rintro _ ⟨⟩
    simp [endsWord, hgap c List.mem_cons_self]

theorem readTerm_word (hc : c ≠ '"') (hw : ∀ c' ∈ c :: w, endsWord c' = false) (hgap : Gap gap)
    (hrest : Stops rest) :
    readTerm whole (fuel + 1) (c :: w ++ (gap ++ rest)) = (ofWord (c :: w)).map (·, rest) := by
  have hends : ∀ c' ∈ rest.head?, endsWord c' = true := by
    rcases hrest with rfl | ⟨r, rfl | rfl⟩ <;> simp <;> decide
  rw [readTerm_token hc hw (endsWord_gap hgap hends), trimStart_gap hgap, hrest.trimStart]
  rcases hrest with rfl | ⟨r, rfl | rfl⟩ <;> rfl

theorem readTerm_call (hc : c ≠ '"') (hw : ∀ c' ∈ c :: w, endsWord c' = false) (hgap : Gap gap) :
    readTerm whole (fuel + 1) (c :: w ++ (gap ++ '(' :: rest)) =
      (readArguments whole fuel rest).map fun p => (.call (String.ofList (c :: w)) p.1, p.2) := by
  rw [readTerm_token hc hw (endsWord_gap hgap (by simp; decide)), trimStart_gap hgap, trimStart_eq (by decide)]
  rfl

theorem readTerm_literal {inner : List Char} (h : Closed inner) (rest : List Char) :
    readTerm whole (fuel + 1) ('"' :: (inner ++ '"' :: rest)) = .ok (.constant (unescaped inner), rest) := by
  rw [readTerm, trimStart_eq (by decide)]
  simp only [h.literal?]

/-- Arguments that are read are not closed at once. -/
theorem readArguments_of_readMore (h : readMore whole fuel s = .ok (bs, rest)) :
    readArguments whole (fuel + 1) s = .ok (bs, rest) := by
  rw [← readMore_trimStart] at h
  rw [readArguments]
  split
  · rename_i r hs
    rw [hs] at h
    cases fuel with
    | zero => cases h
    | succ fuel =>
      cases fuel with
      | zero => cases h
      | succ fuel =>
        rw [readMore, readTerm, trimStart_eq (by decide)] at h
        cases h
  · exact h

theorem readMore_of_readArguments (h : readArguments whole (fuel + 1) s = .ok (b :: bs, rest)) :
    readMore whole fuel s = .ok (b :: bs, rest) := by
  rw [readArguments] at h
  split at h
  · cases h
  · rwa [readMore_trimStart] at h

/-! ## The grammar -/

/-- A term, or the arguments of a call up to the parenthesis that closes it. -/
inductive Phrase
  | term (b : Binding)
  | arguments (bs : List Binding)

def Phrase.bindings : Phrase → List Binding
  | .term b => [b]
  | .arguments bs => bs

/-- The row is one for the phrase. -/
inductive Writes : Phrase → List Lexeme → Prop
  | literal {inner : List Char} : Closed inner → Writes (.term (.constant (unescaped inner))) [.literal inner]
  | word {c : Char} {w : List Char} {b : Binding} : c ≠ '"' → (∀ c' ∈ c :: w, endsWord c' = false) →
      ofWord (c :: w) = .ok b → Writes (.term b) (chars (c :: w))
  | call {c : Char} {w gap : List Char} {bs : List Binding} {ls : List Lexeme} : c ≠ '"' →
      (∀ c' ∈ c :: w, endsWord c' = false) → Gap gap → Writes (.arguments bs) ls →
        Writes (.term (.call (String.ofList (c :: w)) bs)) (chars (c :: w) ++ (chars gap ++ .char '(' :: ls))
  | close {gap : List Char} : Gap gap → Writes (.arguments []) (chars gap ++ [.char ')'])
  | last {gap gap' : List Char} {b : Binding} {ls : List Lexeme} : Gap gap → Writes (.term b) ls → Gap gap' →
      Writes (.arguments [b]) (chars gap ++ (ls ++ (chars gap' ++ [.char ')'])))
  | more {gap gap' : List Char} {b b' : Binding} {bs : List Binding} {ls ls' : List Lexeme} : Gap gap →
      Writes (.term b) ls → Gap gap' → Writes (.arguments (b' :: bs)) ls' →
        Writes (.arguments (b :: b' :: bs)) (chars gap ++ (ls ++ (chars gap' ++ .char ',' :: ls')))

/-! ## What is written is read -/

/-- The text of a row is read as the phrase, whatever comes after it. -/
def ReadAs (whole : String) (t : List Char) : Phrase → Prop
  | .term b => ∀ fuel gap rest, 2 * t.length + 1 ≤ fuel → Gap gap → Stops rest →
      ∃ r, readTerm whole fuel (t ++ (gap ++ rest)) = .ok (b, r) ∧ trimStart r = rest
  | .arguments bs => ∀ fuel rest, 2 * t.length + 1 ≤ fuel →
      readArguments whole (fuel + 1) (t ++ rest) = .ok (bs, rest)

theorem ReadAs.last {t gap' : List Char} (h : ReadAs whole t (.term b)) (hgap : Gap gap) (hgap' : Gap gap') :
    ReadAs whole (gap ++ (t ++ (gap' ++ [')']))) (.arguments [b]) := by
  intro fuel rest hfuel
  simp only [List.length_append, List.length_singleton] at hfuel
  obtain ⟨fuel, rfl⟩ : ∃ n, fuel = n + 1 := ⟨fuel - 1, by omega⟩
  obtain ⟨r, hterm, hr⟩ := h fuel gap' (')' :: rest) (by omega) hgap' (.close _)
  refine readArguments_of_readMore ?_
  rw [readMore, List.append_assoc, readTerm_gap hgap]
  simp only [List.append_assoc, List.singleton_append, hterm]
  simp only [bind, Except.bind, hr]
  rfl

theorem ReadAs.more {t t' gap' : List Char} {b' : Binding} (h : ReadAs whole t (.term b)) (hgap : Gap gap)
    (hgap' : Gap gap') (h' : ReadAs whole t' (.arguments (b' :: bs))) :
    ReadAs whole (gap ++ (t ++ (gap' ++ ',' :: t'))) (.arguments (b :: b' :: bs)) := by
  intro fuel rest hfuel
  simp only [List.length_append, List.length_cons] at hfuel
  obtain ⟨fuel, rfl⟩ : ∃ n, fuel = n + 1 := ⟨fuel - 1, by omega⟩
  obtain ⟨r, hterm, hr⟩ := h fuel gap' (',' :: (t' ++ rest)) (by omega) hgap' (.comma _)
  have hmore := readMore_of_readArguments (h' fuel rest (by omega))
  refine readArguments_of_readMore ?_
  rw [readMore, List.append_assoc, readTerm_gap hgap]
  simp only [List.append_assoc, List.cons_append, hterm]
  simp only [bind, Except.bind, hr, hmore]
  rfl

theorem Writes.readAs {p : Phrase} {ls : List Lexeme} (h : Writes p ls) (whole : String) :
    ReadAs whole (ls.flatMap source) p := by
  induction h with
  | literal hinner =>
    intro fuel gap rest hfuel hgap hrest
    obtain ⟨fuel, rfl⟩ : ∃ n, fuel = n + 1 := ⟨fuel - 1, by omega⟩
    refine ⟨gap ++ rest, ?_, by rw [trimStart_gap hgap, hrest.trimStart]⟩
    simpa using readTerm_literal hinner (gap ++ rest)
  | word hc hw hb =>
    intro fuel gap rest hfuel hgap hrest
    obtain ⟨fuel, rfl⟩ : ∃ n, fuel = n + 1 := ⟨fuel - 1, by omega⟩
    exact ⟨rest, by rw [source_chars, readTerm_word hc hw hgap hrest, hb]; rfl, hrest.trimStart⟩
  | @call c w gap₀ bs ls hc hw hgap₀ _ ih =>
    intro fuel gap rest hfuel hgap hrest
    simp only [List.flatMap_append, List.flatMap_cons, source_chars, source_char, List.length_append,
      List.length_cons] at hfuel
    obtain ⟨fuel, rfl⟩ : ∃ n, fuel = n + 1 + 1 := ⟨fuel - 2, by omega⟩
    refine ⟨gap ++ rest, ?_, by rw [trimStart_gap hgap, hrest.trimStart]⟩
    have hcall : readTerm whole (fuel + 1 + 1) (c :: w ++ (gap₀ ++ '(' :: (ls.flatMap source ++ (gap ++ rest)))) = _ :=
      readTerm_call hc hw hgap₀
    rw [ih fuel (gap ++ rest) (by omega)] at hcall
    simpa [Except.map] using hcall
  | close hgap =>
    intro fuel rest hfuel
    rw [readArguments]
    simp only [List.flatMap_append, source_chars, List.append_assoc, trimStart_gap hgap]
    rfl
  | last hgap _ hgap' ih => simpa using ih.last hgap hgap'
  | more hgap _ hgap' _ ih ih' => simpa using ih.more hgap hgap' ih'

/-! ## What is read is written -/

/-- A term that is read, with blanks around it. -/
def TermAt (b : Binding) (s rest : List Char) : Prop :=
  ∃ gap ls gap', Gap gap ∧ Writes (.term b) ls ∧ Gap gap' ∧ s = gap ++ (ls.flatMap source ++ (gap' ++ rest))

def ArgumentsAt (bs : List Binding) (s rest : List Char) : Prop :=
  ∃ ls, Writes (.arguments bs) ls ∧ s = ls.flatMap source ++ rest

theorem termAt_of_readTerm
    (harguments : ∀ {s bs rest}, readArguments whole fuel s = .ok (bs, rest) → ArgumentsAt bs s rest)
    (h : readTerm whole (fuel + 1) s = .ok (b, rest)) : TermAt b s rest := by
  obtain ⟨gap, hgap, hs⟩ := exists_gap s
  rw [readTerm] at h
  generalize trimStart s = t at h hs
  subst hs
  split at h
  · cases h
  · split at h
    · cases h
    · rename_i hinner
      cases h
      obtain ⟨hclosed, rfl⟩ := closed_of_literal? hinner
      exact ⟨gap, _, [], hgap, .literal hclosed, gap_nil, by simp⟩
  · rename_i c r hquote
    have hc : c ≠ '"' := hquote
    split at h
    · cases h
    rename_i hend
    have hword : (c :: r).takeWhile (!endsWord ·) = c :: r.takeWhile (!endsWord ·) :=
      List.takeWhile_cons_of_pos (by simpa using hend)
    have hends : ∀ c' ∈ c :: r.takeWhile (!endsWord ·), endsWord c' = false := by
      intro c' hc'
      rw [← hword] at hc'
      simpa using List.mem_takeWhile_imp hc'
    have hparts : c :: r = c :: r.takeWhile (!endsWord ·) ++ (c :: r).dropWhile (!endsWord ·) := by
      rw [← hword, List.takeWhile_append_dropWhile]
    obtain ⟨gap', hgap', hafter⟩ := exists_gap ((c :: r).dropWhile (!endsWord ·))
    dsimp only at h
    rw [hword] at h
    rw [hparts, hafter]
    split at h
    · rename_i r' hopen
      rcases hread : readArguments whole fuel r' with e | p <;> rw [hread] at h <;> cases h
      obtain ⟨ls, hls, rfl⟩ := harguments hread
      exact ⟨gap, _, [], hgap, .call hc hends hgap' hls, gap_nil, by rw [hopen]; simp⟩
    · rcases hw : ofWord (c :: r.takeWhile (!endsWord ·)) with e | b' <;> rw [hw] at h <;> cases h
      exact ⟨gap, _, gap', hgap, .word hc hends hw, hgap', by simp⟩

theorem argumentsAt_of_readMore (hterm : ∀ {s b rest}, readTerm whole fuel s = .ok (b, rest) → TermAt b s rest)
    (hmore : ∀ {s bs rest}, readMore whole fuel s = .ok (bs, rest) → bs ≠ [] ∧ ArgumentsAt bs s rest)
    (h : readMore whole (fuel + 1) s = .ok (bs, rest)) : bs ≠ [] ∧ ArgumentsAt bs s rest := by
  rw [readMore] at h
  rcases hread : readTerm whole fuel s with e | ⟨b, rest'⟩ <;> rw [hread] at h
  · cases h
  obtain ⟨gap, ls, gap', hgap, hls, hgap', rfl⟩ := hterm hread
  obtain ⟨gap'', hgap'', hrest'⟩ := exists_gap rest'
  have hgaps : Gap (gap' ++ gap'') := fun c hc => (List.mem_append.mp hc).elim (hgap' c) (hgap'' c)
  simp only [bind, Except.bind] at h
  rw [hrest']
  split at h
  · rename_i r hcomma
    rcases hrest : readMore whole fuel r with e | ⟨bs', after⟩ <;> rw [hrest] at h <;> cases h
    obtain ⟨hne, ls', hls', rfl⟩ := hmore hrest
    obtain ⟨b', bs', rfl⟩ := List.exists_cons_of_ne_nil hne
    exact ⟨by simp, _, .more hgap hls hgaps hls', by rw [hcomma]; simp⟩
  · rename_i r hclose
    cases h
    exact ⟨by simp, _, .last hgap hls hgaps, by rw [hclose]; simp⟩
  · cases h

/-- Whatever is read, with whatever bound on the steps, is written where it is read. -/
theorem writes_of_read (whole : String) (fuel : Nat) :
    (∀ {s b rest}, readTerm whole fuel s = .ok (b, rest) → TermAt b s rest) ∧
      (∀ {s bs rest}, readArguments whole fuel s = .ok (bs, rest) → ArgumentsAt bs s rest) ∧
        ∀ {s bs rest}, readMore whole fuel s = .ok (bs, rest) → bs ≠ [] ∧ ArgumentsAt bs s rest := by
  induction fuel with
  | zero =>
    refine ⟨fun h => ?_, fun h => ?_, fun h => ?_⟩
    · rw [readTerm] at h
      cases h
    · rw [readArguments] at h
      cases h
    · rw [readMore] at h
      cases h
  | succ fuel ih =>
    obtain ⟨hterm, harguments, hmore⟩ := ih
    refine ⟨termAt_of_readTerm harguments, fun {s bs rest} h => ?_, argumentsAt_of_readMore hterm hmore⟩
    obtain ⟨gap, hgap, hs⟩ := exists_gap s
    have hread := h
    rw [readArguments] at h
    split at h
    · rename_i r hclose
      cases h
      exact ⟨_, .close hgap, by rw [hs, hclose]; simp⟩
    · rw [readMore_trimStart] at h
      exact (hmore h).2

/-- An expression is read as what its row is one for, blanks around it or not. -/
theorem ofExpression_eq_ok {s : List Char} {b : Binding} : ofExpression s = .ok b ↔
    ∃ gap ls gap', Gap gap ∧ Writes (.term b) ls ∧ Gap gap' ∧ s = gap ++ (ls.flatMap source ++ gap') := by
  constructor
  · intro h
    rw [ofExpression] at h
    dsimp only at h
    rcases hread : readTerm (String.ofList s) (2 * s.length + 2) s with e | ⟨b', rest⟩ <;> rw [hread] at h
    · cases h
    obtain ⟨gap, ls, gap', hgap, hls, hgap', hs⟩ := (writes_of_read _ _).1 hread
    obtain ⟨gap'', hgap'', hrest⟩ := exists_gap rest
    simp only [bind, Except.bind] at h
    split at h
    · rename_i hnil
      cases h
      rw [List.isEmpty_iff.mp hnil, List.append_nil] at hrest
      exact ⟨gap, ls, gap' ++ rest, hgap, hls,
        fun c hc => (List.mem_append.mp hc).elim (hgap' c) (hrest ▸ hgap'' c), hs⟩
    · cases h
  · rintro ⟨gap, ls, gap', hgap, hls, hgap', rfl⟩
    obtain ⟨r, hread, hr⟩ := hls.readAs (String.ofList (gap ++ (ls.flatMap source ++ gap')))
      (2 * (gap ++ (ls.flatMap source ++ gap')).length + 2) gap' [] (by simp; omega) hgap' (.inl rfl)
    rw [List.append_nil] at hread
    rw [ofExpression]
    simp only [readTerm_gap hgap, hread, bind, Except.bind, hr]
    rfl

end Binding

end PageServer
