/-
  PageServer.Proofs.Drafts — files that are put together from names, keys and right hand sides.

  A draft is a declaration with the rows that its right hand sides are written as (`Draft`). It is
  written on one line: its names around a colon, and in braces its bindings, each with a semicolon. The
  row is cut where it was put together, since the signs that end something occur nowhere else outside of
  literals: a file of drafts in the order of their names is read as their declarations (`parse_drafts`).

  What is asked of a draft (`Draft.Reads`) is that the names begin and end with what is not blank, and
  hold no brace, no quote and no comment; that no key is bound twice; that keys and right hand sides hold
  no sign that ends something and nothing that begins a comment or a placeholder. The right hand sides
  that helper expressions are read from are such, if the helpers have plain names (`Writes.free`).
-/

import PageServer.Proofs.Appended
import PageServer.Proofs.Rereading

namespace PageServer

open Lexeme

namespace Declarations

/-- How comments and placeholders begin. -/
def marks : List (List Char) := ['#', 'q', 's'] :: commentMarks

/-- The signs that end a binding, a body, or begin a literal. -/
def signs : List Char := ['"', ';', '\x7d']

/-- A word that may stand in a binding. -/
structure Bare (w : List Char) : Prop where
  signs : ∀ c ∈ signs, c ∉ w
  marks : ∀ m ∈ marks, ¬m <:+: w

instance (w : List Char) : Decidable (Bare w) :=
  decidable_of_iff ((∀ c ∈ signs, c ∉ w) ∧ ∀ m ∈ marks, ¬m <:+: w)
    ⟨fun h => ⟨h.1, h.2⟩, fun h => ⟨h.signs, h.marks⟩⟩

theorem Bare.free {w : List Char} (h : Bare w) : Free Declarations.signs Declarations.marks (chars w) :=
  .of_chars h.signs h.marks

end Declarations

namespace Binding

open Declarations

/-! ## Rows of expressions -/

theorem mem_argumentHelperNames {name : String} {bs : List Binding} :
    name ∈ argumentHelperNames bs ↔ ∃ b ∈ bs, name ∈ helperNames b := by
  induction bs with
  | nil => simp [argumentHelperNames]
  | cons b bs ih => simp [argumentHelperNames, ih]

variable {b : Binding} {bs : List Binding} {w gap : List Char} {ls ls' : List Lexeme}

theorem wordChar_of_toLower {c : Char} (h : WordChar c.toLower) : WordChar c := by
  by_cases hupper : c.isUpper = true
  · have hlt : c.toNat < 128 := by
      simp only [Char.isUpper, decide_eq_true_eq, UInt32.le_iff_toNat_le] at hupper
      exact Nat.lt_of_le_of_lt hupper.2 (by decide)
    refine .inr ?_
    simp [KeyPath.isSegmentChar, Text.isLetterOrNumber, hlt, Char.isAlphanum, Char.isAlpha, hupper]
  · rwa [Char.toLower, dif_neg] at h
    simpa [Char.isUpper] using hupper

theorem wordChar_of_truthWord? {truth : Bool} (h : truthWord? w = some truth) {c : Char} (hc : c ∈ w) :
    WordChar c := by
  have hmem : c.toLower ∈ (Text.asciiLower (String.ofList w)).toList := by
    rw [Text.asciiLower, String.toList_map, String.toList_ofList]
    exact List.mem_map_of_mem hc
  have hall : ∀ word ∈ ["true", "yes", "false", "no", "nil", "null"], ∀ c ∈ word.toList, WordChar c := by
    decide +kernel
  refine wordChar_of_toLower ?_
  unfold truthWord? at h
  split at h
  case h_7 => cases h
  all_goals
    rename_i hword
    rw [hword] at hmem
    exact hall _ (by simp) _ hmem

/-- The characters of all words that stand for something. -/
theorem wordChar_of_ofWord (h : ofWord w = .ok b) {c : Char} (hc : c ∈ w) : WordChar c ∨ c = '+' := by
  unfold ofWord at h
  split at h
  · rename_i v hv
    split at hv
    · rename_i hnumeric
      have hdigits : ∀ ds : List Char, (ds.any Char.isDigit && ds.all (fun c => c.isDigit || c == '.') &&
          decide (ds.count '.' ≤ 1)) = true → c ∈ ds → WordChar c := by
        intro ds hds hmem
        simp only [Bool.and_eq_true, List.all_eq_true, Bool.or_eq_true, beq_iff_eq] at hds
        exact (hds.1.2 c hmem).elim wordChar_of_isDigit .inl
      unfold isNumeric at hnumeric
      split at hnumeric
      · rcases List.mem_cons.mp hc with rfl | hc
        · exact .inl (by decide +kernel)
        · exact .inl (hdigits _ hnumeric hc)
      · rcases List.mem_cons.mp hc with rfl | hc
        · exact .inr rfl
        · exact .inl (hdigits _ hnumeric hc)
      · exact .inl (hdigits _ hnumeric hc)
    · cases hv
  · split at h
    · rename_i truth htruth
      exact .inl (wordChar_of_truthWord? htruth hc)
    · rw [keyPathOf] at h
      split at h
      · rename_i hp
        exact .inl (KeyPath.mem_of_parse? hp hc)
      · cases h

theorem bare_of_chars {P : Char → Prop} (hsigns : ∀ c ∈ signs, ¬P c) (hmarks : ∀ m ∈ marks, ¬∀ c ∈ m, P c)
    (h : ∀ c ∈ w, P c) : Bare w where
  signs := fun c hc hmem => hsigns c hc (h c hmem)
  marks := fun m hm hpart => hmarks m hm fun c hc => h c (hpart.subset hc)

theorem bare_of_wordChars (h : ∀ c ∈ w, WordChar c) : Bare w :=
  bare_of_chars (P := WordChar) (by decide +kernel) (by decide +kernel) h

theorem bare_of_ofWord (h : ofWord w = .ok b) : Bare w :=
  bare_of_chars (P := fun c => WordChar c ∨ c = '+') (by decide +kernel) (by decide +kernel)
    fun _ hc => wordChar_of_ofWord h hc

theorem not_mem_of_blank {c : Char} (h : Text.isBlank c = true) : c ∉ signs ∧ ∀ m ∈ marks, c ∉ m := by
  have hsigns : ∀ c ∈ signs, Text.isBlank c = false := by decide
  have hmarks : ∀ m ∈ marks, ∀ c ∈ m, Text.isBlank c = false := by decide
  refine ⟨fun hmem => ?_, fun m hm hmem => ?_⟩
  · rw [hsigns c hmem] at h
    cases h
  · rw [hmarks m hm c hmem] at h
    cases h

theorem free_gap (hgap : Text.Gap gap) (h : Free signs marks ls) : Free signs marks (chars gap ++ ls) := by
  induction gap with
  | nil => exact h
  | cons c gap ih =>
    obtain ⟨hsigns, hmarks⟩ := not_mem_of_blank (hgap c List.mem_cons_self)
    exact (ih fun c hc => hgap c (List.mem_cons_of_mem _ hc)).cons hsigns hmarks

theorem free_append_gap (h : Free signs marks ls) (hgap : Text.Gap gap) : Free signs marks (ls ++ chars gap) := by
  induction gap generalizing ls with
  | nil => simpa [chars] using h
  | cons c gap ih =>
    obtain ⟨hsigns, hmarks⟩ := not_mem_of_blank (hgap c List.mem_cons_self)
    have hrest := ih (h.concat hsigns hmarks) fun c hc => hgap c (List.mem_cons_of_mem _ hc)
    rwa [List.append_assoc] at hrest

/-- Between two rows may be blanks and one of the signs that calls are written with. -/
theorem free_between {c : Char} (h : Free signs marks ls) (hgap : Text.Gap gap) (hc : c ∈ ['(', ')', ','])
    (h' : Free signs marks ls') : Free signs marks (ls ++ (chars gap ++ .char c :: ls')) := by
  have hsign : ∀ c ∈ ['(', ')', ','], c ∉ signs ∧ ∀ m ∈ marks, c ∉ m := by decide
  obtain ⟨hsigns, hmarks⟩ := hsign c hc
  rw [← List.append_assoc]
  exact (free_append_gap h hgap).join h' hsigns hmarks

theorem tight_tilde : Tight Lexeme.isBlank [.char '~'] :=
  tight_chars (w := ['~']) ⟨by simp, by simp; decide, by simp; decide⟩

theorem free_nil : Free signs marks [] := .of_chars (w := []) (by decide) (by decide)

/-- An expression is no comment and no end of a binding, if the helpers have plain names. -/
theorem Writes.free {p : Phrase} (h : Writes p ls)
    (hnames : ∀ b ∈ p.bindings, ∀ name ∈ b.helperNames, Bare name.toList) : Free signs marks ls := by
  induction h with
  | literal hinner => exact .of_literal hinner (by decide)
  | word _ _ hb => exact (bare_of_ofWord hb).free
  | @call c w gap bs ls _ _ hgap _ ih =>
    have hcall := hnames _ List.mem_cons_self
    rw [helperNames, List.forall_mem_cons, String.toList_ofList] at hcall
    refine free_between hcall.1.free hgap (by decide) (ih fun b hb name hname => hcall.2 name ?_)
    exact mem_argumentHelperNames.mpr ⟨b, hb, hname⟩
  | close hgap => exact free_gap hgap (free_nil.cons (by decide) (by decide))
  | last hgap _ hgap' ih => exact free_gap hgap (free_between (ih hnames) hgap' (by decide) free_nil)
  | more hgap _ hgap' _ ih ih' =>
    obtain ⟨hb, hbs⟩ := List.forall_mem_cons.mp hnames
    exact free_gap hgap (free_between (ih (List.forall_mem_singleton.mpr hb)) hgap' (by decide) (ih' hbs))

theorem Writes.closed {p : Phrase} (h : Writes p ls) {bs : List Binding} (hp : p = .arguments bs) :
    ∃ ls', ls = ls' ++ [.char ')'] := by
  induction h generalizing bs with
  | literal | word | call => cases hp
  | close => exact ⟨_, rfl⟩
  | @last gap gap' _ ls => exact ⟨chars gap ++ (ls ++ chars gap'), by simp⟩
  | @more gap gap' _ _ _ ls _ _ _ _ _ _ ih' =>
    obtain ⟨ls', rfl⟩ := ih' rfl
    exact ⟨chars gap ++ (ls ++ (chars gap' ++ .char ',' :: ls')), by simp⟩

/-- The row of a term begins and ends with what is not blank. -/
theorem Writes.tight (h : Writes (.term b) ls) : Tight Lexeme.isBlank ls := by
  cases h with
  | literal =>
    refine ⟨by simp, ?_, ?_⟩
    · rintro l ⟨⟩
      rfl
    · rintro l ⟨⟩
      rfl
  | word _ hw =>
    exact tight_chars (.of_forall (by simp) fun c hc => endsWord_of_blank (hw c hc))
  | @call c w gap bs ls _ hw _ hbs =>
    obtain ⟨ls', rfl⟩ := hbs.closed rfl
    have hrow : chars (c :: w) ++ (chars gap ++ .char '(' :: (ls' ++ [.char ')'])) =
        (.char c :: (chars w ++ (chars gap ++ .char '(' :: ls'))) ++ [.char ')'] := by
      simp [chars]
    rw [hrow]
    refine ⟨by simp, ?_, ?_⟩
    · rintro l ⟨⟩
      exact endsWord_of_blank (hw c List.mem_cons_self)
    · intro l hl
      rw [List.getLast?_concat] at hl
      cases hl
      rfl

end Binding

namespace Declarations

open Binding

/-! ## Bindings -/

/-- A key that may stand in a binding as it is. -/
structure PlainKey (key : String) : Prop where
  ne : key ≠ ""
  trim : Text.trim key.toList = key.toList
  equals : '=' ∉ key.toList
  bare : Bare key.toList

instance (key : String) : Decidable (PlainKey key) :=
  decidable_of_iff (key ≠ "" ∧ Text.trim key.toList = key.toList ∧ '=' ∉ key.toList ∧ Bare key.toList)
    ⟨fun h => ⟨h.1, h.2.1, h.2.2.1, h.2.2.2⟩, fun h => ⟨h.ne, h.trim, h.equals, h.bare⟩⟩

theorem PlainKey.tight {key : String} (h : PlainKey key) : Tight Text.isBlank key.toList :=
  Text.tight_of_trim h.trim fun hnil => h.ne (String.toList_eq_nil_iff.mp hnil)

theorem isBlank_gap {gap : List Char} (h : Text.Gap gap) : ∀ x ∈ chars gap, Lexeme.isBlank x = true := by
  intro x hx
  obtain ⟨c, hc, rfl⟩ := List.mem_map.mp hx
  exact h c hc

/-- A binding as it is drafted: the row that the right hand side is written as, and what it stands for. -/
structure Line where
  key : String
  raw : List Lexeme
  binding : Binding

namespace Line

def row (l : Line) : List Lexeme := chars l.key.toList ++ .char ' ' :: .char '=' :: .char ' ' :: l.raw

/-- The line is read as it was meant. -/
structure Reads (l : Line) : Prop where
  key : PlainKey l.key
  free : Free signs marks l.raw
  /-- There is something on the right, before the blanks at the end. -/
  tight : ∃ m gap, l.raw = m ++ chars gap ∧ Tight Lexeme.isBlank m ∧ Text.Gap gap
  binding : bindingOf l.raw = some l.binding

/-- The line without the blanks at its end. -/
def trimmed (l : Line) : List Lexeme :=
  chars l.key.toList ++ .char ' ' :: .char '=' :: .char ' ' :: Lexeme.trim l.raw

namespace Reads

variable {l : Line} (h : l.Reads)
include h

theorem free_row : Free signs marks l.row :=
  h.key.bare.free.join ((h.free.cons (by decide) (by decide)).cons (by decide) (by decide)) (by decide) (by decide)

theorem trim_raw : Tight Lexeme.isBlank (Lexeme.trim l.raw) ∧
    ∃ gap, l.raw = Lexeme.trim l.raw ++ chars gap ∧ Text.Gap gap := by
  obtain ⟨m, gap, hraw, hm, hgap⟩ := h.tight
  have htrim : Lexeme.trim l.raw = m := by
    rw [hraw]
    exact hm.strip (a := []) (by simp) (isBlank_gap hgap)
  exact ⟨htrim ▸ hm, gap, by rw [htrim, hraw], hgap⟩

theorem tight_trimmed : Tight Lexeme.isBlank l.trimmed :=
  (tight_chars h.key.tight).append h.trim_raw.1 [.char ' ', .char '=', .char ' ']

theorem trim_row : Lexeme.trim (.char ' ' :: l.row) = l.trimmed := by
  obtain ⟨-, gap, hraw, hgap⟩ := h.trim_raw
  have hrow : .char ' ' :: l.row = [.char ' '] ++ (l.trimmed ++ chars gap) := by
    rw [row, hraw, trimmed]
    simp
  rw [hrow]
  exact h.tight_trimmed.strip (by simp; decide) (isBlank_gap hgap)

theorem cut?_trimmed : Lexeme.cut? '=' l.trimmed =
    some (chars l.key.toList ++ [.char ' '], .char ' ' :: Lexeme.trim l.raw) := by
  have hkey : Lexeme.char '=' ∉ chars l.key.toList ++ [.char ' '] := by simpa using h.key.equals
  have hcut := cut?_eq_some (bne_of_not_mem hkey) (.char ' ' :: Lexeme.trim l.raw)
  rwa [List.append_assoc] at hcut

theorem trim_key : Lexeme.trim (chars l.key.toList ++ [.char ' ']) = chars l.key.toList :=
  (tight_chars h.key.tight).strip_concat (by decide)

end Reads

end Line

theorem keyOf_key (key : String) : keyOf (chars key.toList) = some key := by
  rw [keyOf, whole?_chars, chars?_chars]
  simp

/-- A binding is read from what it is written with. -/
theorem addBinding_trimmed {l : Line} (h : l.Reads) (acc : Bindings) :
    addBinding acc l.trimmed = acc.insert? l.key l.binding := by
  obtain ⟨htight, -⟩ := h.trim_raw
  have hvalue : Lexeme.trim (.char ' ' :: Lexeme.trim l.raw) = Lexeme.trim l.raw := htight.strip_cons (by decide)
  have hagain : Lexeme.trim (Lexeme.trim l.raw) = Lexeme.trim l.raw := htight.strip_self
  have hbinding : bindingOf (Lexeme.trim l.raw) = some l.binding := by
    rw [← h.binding, bindingOf, hagain, bindingOf]
  have hkeyNe : (chars l.key.toList).isEmpty = false := by simpa using (tight_chars h.key.tight).ne
  have hvalueNe : (Lexeme.trim l.raw).isEmpty = false := by simpa using htight.ne
  rw [addBinding, h.cut?_trimmed, Option.bind_some, h.trim_key, hvalue, hkeyNe, hvalueNe, keyOf_key, hbinding]
  rfl

theorem insert?_of_new {key : String} {b : Binding} {acc : Bindings} (h : key ∉ acc.names) :
    acc.insert? key b = some (acc ++ [(key, b)]) := by
  rw [Bindings.insert?, if_neg]
  simp only [Bindings.contains, Bindings.get?, Option.isSome_map, List.find?_isSome, not_exists, not_and]
  intro kb hkb heq
  exact h (List.mem_map.mpr ⟨kb, hkb, eq_of_beq heq⟩)

/-- If no key is bound twice, the next one is new, and stays so to those after it. -/
theorem next_is_new {key : String} {keys : List String} {acc : Bindings} (b : Binding)
    (h : (acc.names ++ key :: keys).Nodup) :
    acc.insert? key b = some (acc ++ [(key, b)]) ∧ (Bindings.names (acc ++ [(key, b)]) ++ keys).Nodup := by
  refine ⟨insert?_of_new fun hmem => ?_, by simpa [Bindings.names] using h⟩
  exact (List.nodup_append.mp h).2.2 key hmem key List.mem_cons_self rfl

/-! ## Bodies -/

variable {ls : List Line}

def bodyRow (ls : List Line) : List Lexeme :=
  ls.flatMap (fun l => .char ' ' :: (l.row ++ [.char ';'])) ++ [.char ' ']

theorem bodyRow_cons (l : Line) (ls : List Line) :
    bodyRow (l :: ls) = (.char ' ' :: l.row) ++ .char ';' :: bodyRow ls := by
  simp [bodyRow]

theorem lines_bodyRow (h : ∀ l ∈ ls, l.Reads) : Lexeme.lines (bodyRow ls) = ls.map Line.trimmed := by
  induction ls with
  | nil => decide
  | cons l ls ih =>
    have hl := h l List.mem_cons_self
    have hends : Lexeme.char ';' ∉ .char ' ' :: l.row := by
      rw [List.mem_cons, not_or]
      exact ⟨by decide, hl.free_row.signs ';' (by decide)⟩
    have hne : l.trimmed.isEmpty = false := by simpa using hl.tight_trimmed.ne
    rw [bodyRow_cons, Lexeme.lines, Literals.splitOn_append hends, List.splitOn_cons_eq_if_modifyHead,
      if_pos (by simp), List.modifyHead_cons, List.append_nil, List.map_cons, hl.trim_row,
      List.filter_cons_of_pos (by rw [hne]; rfl), List.map_cons,
      ← ih fun l hl => h l (List.mem_cons_of_mem _ hl), Lexeme.lines]

/-- A body is read from what it is written with. -/
theorem bindingsOf_bodyRow (h : ∀ l ∈ ls, l.Reads) (hkeys : (ls.map (·.key)).Nodup) :
    bindingsOf (bodyRow ls) = some (ls.map fun l => (l.key, l.binding)) := by
  have hfold : ∀ acc : Bindings, (acc.names ++ ls.map (·.key)).Nodup →
      (ls.map Line.trimmed).foldlM addBinding acc = some (acc ++ ls.map fun l => (l.key, l.binding)) := by
    clear hkeys
    induction ls with
    | nil => intro acc _; simp
    | cons l ls ih =>
      intro acc hnodup
      obtain ⟨hinsert, hrest⟩ := next_is_new l.binding hnodup
      rw [List.map_cons, List.foldlM_cons, addBinding_trimmed (h l List.mem_cons_self), hinsert]
      change (ls.map Line.trimmed).foldlM addBinding (acc ++ [(l.key, l.binding)]) = _
      rw [ih (fun l hl => h l (List.mem_cons_of_mem _ hl)) _ hrest]
      simp
  rw [bindingsOf, lines_bodyRow h]
  simpa using hfold [] (by simpa [Bindings.names] using hkeys)

theorem free_bodyRow (h : ∀ l ∈ ls, l.Reads) : Free ['"', '\x7d'] marks (bodyRow ls) := by
  induction ls with
  | nil => exact .of_chars (w := [' ']) (by decide) (by decide)
  | cons l ls ih =>
    have hl : Free ['"', '\x7d'] marks (.char ' ' :: l.row) :=
      ((h l List.mem_cons_self).free_row.weaken (by decide) (List.Subset.refl _)).cons (by decide) (by decide)
    rw [bodyRow_cons]
    exact hl.join (ih fun l hl => h l (List.mem_cons_of_mem _ hl)) (by decide) (by decide)

/-! ## Headers -/

/-- What the text before a declaration's bindings holds none of. -/
structure HeaderPart (w : List Char) : Prop where
  brace : '\x7b' ∉ w
  quote : '"' ∉ w
  marks : ∀ m ∈ commentMarks, ¬m <:+: w

/-- A name in a header. -/
structure HeaderWord (w : List Char) : Prop extends HeaderPart w where
  tight : Tight Text.isBlank w

/-- A declaration as it is drafted. -/
structure Draft where
  name : String
  typeName : String
  lines : List Line

namespace Draft

def declaration (d : Draft) : Declaration := ⟨d.name, d.typeName, d.lines.map fun l => (l.key, l.binding)⟩

/-- The draft is read as it was meant. -/
structure Reads (d : Draft) : Prop where
  name : HeaderWord d.name.toList
  colon : ':' ∉ d.name.toList
  semicolon : d.name.toList.head? ≠ some ';'
  typeName : HeaderWord d.typeName.toList
  keys : (d.lines.map (·.key)).Nodup
  lines : ∀ l ∈ d.lines, l.Reads

def header (d : Draft) : List Char := d.name.toList ++ ([' ', ':', ' '] ++ d.typeName.toList)

/-- What the draft is written with. -/
def row (d : Draft) : List Lexeme :=
  chars d.header ++ .char ' ' :: .char '\x7b' :: (bodyRow d.lines ++ [.char '\x7d'])

end Draft

theorem HeaderWord.free {w : List Char} (h : HeaderWord w) : Free ['"'] commentMarks (chars w) :=
  .of_chars (by simpa using h.quote) h.marks

namespace Draft.Reads

variable {d : Draft} (h : d.Reads)
include h

theorem tight_header : Tight Text.isBlank d.header := h.name.tight.append h.typeName.tight _

theorem namesOf_header : namesOf (chars d.header) = some (d.name, d.typeName) := by
  have hcut : Text.cut? ':' d.header = some (d.name.toList ++ [' '], ' ' :: d.typeName.toList) := by
    have hcolon : ':' ∉ d.name.toList ++ [' '] := by simpa using h.colon
    have hcut := Text.cut?_eq_some hcolon (' ' :: d.typeName.toList)
    rwa [List.append_assoc] at hcut
  have hname : Text.trim (d.name.toList ++ [' ']) = d.name.toList := h.name.tight.strip_concat (by decide)
  have htype : Text.trim (' ' :: d.typeName.toList) = d.typeName.toList := h.typeName.tight.strip_cons (by decide)
  have hne : ¬(d.name = "" ∨ d.typeName = "") := not_or.mpr
    ⟨fun heq => h.name.tight.ne (by rw [heq]; rfl), fun heq => h.typeName.tight.ne (by rw [heq]; rfl)⟩
  rw [namesOf, chars?_chars, Option.bind_some, hcut]
  dsimp only
  rw [hname, htype, String.ofList_toList, String.ofList_toList, if_neg hne]

theorem declarationOf_row : declarationOf (chars d.header, bodyRow d.lines) = some d.declaration := by
  rw [declarationOf, h.namesOf_header, Option.bind_some, bindingsOf_bodyRow h.lines h.keys]
  rfl

theorem wellPlaced : Lexeme.WellPlaced (chars d.header, bodyRow d.lines) where
  header := by rw [chars?_chars]; rfl
  keys := by
    intro line hline p hp
    rw [lines_bodyRow h.lines] at hline
    obtain ⟨l, hl, rfl⟩ := List.mem_map.mp hline
    rw [(h.lines l hl).cut?_trimmed] at hp
    cases hp
    rw [(h.lines l hl).trim_key, keyOf_key]
    rfl
  clear := (free_bodyRow h.lines).marks ['#', 'q', 's'] (by decide)

theorem free_header : Free ['"'] commentMarks (chars d.header) := by
  have hheader : chars d.header =
      chars d.name.toList ++ .char ' ' :: .char ':' :: .char ' ' :: chars d.typeName.toList := by
    simp [chars, header]
  rw [hheader]
  exact h.name.free.join ((h.typeName.free.cons (by decide) (by decide)).cons (by decide) (by decide))
    (by decide) (by decide)

theorem free_row : Free ['"'] commentMarks d.row := by
  have hbody : Free ['"'] commentMarks (bodyRow d.lines) := (free_bodyRow h.lines).weaken (by decide) (by decide)
  exact h.free_header.join ((hbody.concat (by decide) (by decide)).cons (by decide) (by decide))
    (by decide) (by decide)

theorem trimSemicolons_header : Lexeme.trimSemicolons (chars d.header ++ [.char ' ']) = chars d.header := by
  have htight := tight_chars h.tight_header
  have htrim : Lexeme.trim (chars d.header ++ [.char ' ']) = chars d.header := htight.strip_concat (by decide)
  have hhead : (chars d.header).head? ≠ some (.char ';') := by
    rw [chars, List.head?_map, header, List.head?_append_of_ne_nil _ h.name.tight.ne]
    intro heq
    obtain ⟨c, hc, hchar⟩ := Option.map_eq_some_iff.mp heq
    cases hchar
    exact h.semicolon hc
  rw [Lexeme.trimSemicolons, htrim, dropWhile_semicolons hhead]
  exact htight.strip_self

end Draft.Reads

/-! ## Files -/

/-- The drafts, one per line. -/
def draftRows (ds : List Draft) : List Lexeme := ds.flatMap fun d => d.row ++ [.char '\n']

variable {ds : List Draft}

theorem draftRows_cons (d : Draft) (ds : List Draft) : draftRows (d :: ds) = d.row ++ .char '\n' :: draftRows ds := by
  simp [draftRows]

theorem free_draftRows (h : ∀ d ∈ ds, d.Reads) : Free ['"'] commentMarks (draftRows ds) := by
  induction ds with
  | nil => exact .of_chars (w := []) (by decide) (by decide)
  | cons d ds ih =>
    rw [draftRows_cons]
    exact (h d List.mem_cons_self).free_row.join (ih fun d hd => h d (List.mem_cons_of_mem _ hd))
      (by decide) (by decide)

/-- The file is cut up into the headers and bodies of its drafts. -/
theorem blocks_draftRows (h : ∀ d ∈ ds, d.Reads) :
    Lexeme.blocks (draftRows ds) = some (ds.map fun d => (chars d.header, bodyRow d.lines)) := by
  induction ds with
  | nil => exact Lexeme.blocks_end rfl
  | cons d ds ih =>
    have hd := h d List.mem_cons_self
    have hopen : Lexeme.char '\x7b' ∉ chars d.header ++ [.char ' '] := by
      have hname := hd.name.brace
      have htype := hd.typeName.brace
      simp [Draft.header, hname, htype]
    have hclose := (free_bodyRow hd.lines).signs '\x7d' (by decide)
    have hcut := cut?_eq_some (bne_of_not_mem hopen)
      (bodyRow d.lines ++ .char '\x7d' :: .char '\n' :: draftRows ds)
    have hcut' := cut?_eq_some (bne_of_not_mem hclose) (.char '\n' :: draftRows ds)
    have hrest : Lexeme.blocks (.char '\n' :: draftRows ds) = _ :=
      blocks_of_blank (a := [.char '\n']) (by simp [AllBlank]; decide)
        (ih fun d hd => h d (List.mem_cons_of_mem _ hd))
    have hrow : draftRows (d :: ds) = chars d.header ++ [.char ' '] ++
        .char '\x7b' :: (bodyRow d.lines ++ .char '\x7d' :: .char '\n' :: draftRows ds) := by
      rw [draftRows_cons]
      simp [Draft.row]
    rw [hrow, Lexeme.blocks_cons hcut hcut', hd.trimSemicolons_header, hrest]
    rfl

theorem put_last {α : Type} {acc : List (String × α)} {key : String} (h : ∀ e ∈ acc, e.1 < key) (value : α) :
    Assoc.put key value acc = acc ++ [(key, value)] ∧ Assoc.contains key acc = false := by
  induction acc with
  | nil => exact ⟨rfl, rfl⟩
  | cons e acc ih =>
    obtain ⟨hput, hnew⟩ := ih fun e he => h e (List.mem_cons_of_mem _ he)
    have hlt := h e List.mem_cons_self
    have hne : e.1 ≠ key := fun heq => String.lt_irrefl key (heq ▸ hlt)
    refine ⟨?_, ?_⟩
    · rw [Assoc.put, if_neg hne, if_neg (String.lt_asymm hlt), hput]
      rfl
    · rw [Assoc.contains, Assoc.get?, if_neg hne]
      exact hnew

/-- Declarations that are in the order of their names are collected as they are. -/
theorem collect_sorted {ds : Declarations} (h : Assoc.Sorted ds) (hnames : ∀ e ∈ ds, e.1 = e.2.name) :
    collect (ds.map (·.2)) = .ok ds := by
  have hfold : ∀ acc : Declarations, Assoc.Sorted (acc ++ ds) →
      (ds.map (·.2)).foldlM add acc = .ok (acc ++ ds) := by
    induction ds with
    | nil => intro acc _; simp [pure, Except.pure]
    | cons e ds ih =>
      intro acc hsorted
      have hlt : ∀ e' ∈ acc, e'.1 < e.2.name := fun e' he' => by
        rw [← hnames e List.mem_cons_self]
        exact (List.pairwise_append.mp hsorted).2.2 e' he' e List.mem_cons_self
      obtain ⟨hput, hnew⟩ := put_last hlt e.2
      rw [List.map_cons, List.foldlM_cons, add, hnew, hput, ← hnames e List.mem_cons_self]
      change (ds.map (·.2)).foldlM add (acc ++ [e]) = _
      rw [ih (List.pairwise_cons.mp h).2 (fun e he => hnames e (List.mem_cons_of_mem _ he)), List.append_assoc]
      · rfl
      · rwa [List.append_assoc]
  exact hfold [] h

theorem declarations_drafted (h : ∀ d ∈ ds, d.Reads) :
    (ds.map fun d => (chars d.header, bodyRow d.lines)).mapM declarationOf = some (ds.map Draft.declaration) := by
  induction ds with
  | nil => rfl
  | cons d ds ih =>
    rw [List.map_cons, List.mapM_cons, (h d List.mem_cons_self).declarationOf_row,
      ih fun d hd => h d (List.mem_cons_of_mem _ hd)]
    rfl

/-- A file of drafts in the order of their names is read as their declarations. -/
theorem parse_drafts {file : String} (hfile : (draftRows ds).flatMap source = file.toList)
    (hsorted : ds.Pairwise (·.name < ·.name)) (h : ∀ d ∈ ds, d.Reads) (hsize : file.length ≤ Nat.pow 2 64) :
    parse file = .ok (ds.map fun d => (d.name, d.declaration)) := by
  have hlex : lex .outside file.toList = .ok (draftRows ds) := by
    rw [← hfile]
    exact lex_source (free_draftRows h)
  have hblocks := blocks_draftRows h
  -- the literals of the file are set aside and looked up on the way, which leaves no trace in such a row
  have hplaced : RowWellPlaced (draftRows ds) := by
    rw [RowWellPlaced, hblocks]
    intro lb hlb
    obtain ⟨d, hd, rfl⟩ := List.mem_map.mp hlb
    exact (h d hd).wellPlaced
  have hdecls : declarationsOf (draftRows ds) = some (ds.map Draft.declaration) := by
    rw [declarationsOf, hblocks, Option.bind_some, declarations_drafted h]
  have hcollect : collect (ds.map Draft.declaration) = .ok (ds.map fun d => (d.name, d.declaration)) := by
    have hentries : ds.map Draft.declaration = (ds.map fun d => (d.name, d.declaration)).map (·.2) := by
      rw [List.map_map]
      rfl
    rw [hentries]
    refine collect_sorted (List.pairwise_map.mpr hsorted) fun e he => ?_
    obtain ⟨d, hd, rfl⟩ := List.mem_map.mp he
    rfl
  rcases parse_eq_collect hlex hsize hplaced with ⟨decls, hdecls', hparse⟩ | ⟨hnone, -⟩
  · cases hdecls.symm.trans hdecls'
    rw [hparse, hcollect]
  · cases hdecls.symm.trans hnone

end Declarations

end PageServer
