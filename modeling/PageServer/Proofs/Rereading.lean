/-
  PageServer.Proofs.Rereading — what is bound to a key is read from the text it is written as.

  What a file binds to a key is a literal, a word or a call (`Read`). A number, a truth value or a
  key path is written as a word that is read as it (`IsWord`), anything else as the literal of a text
  (`Read.written`). A call is written with its arguments between commas, so its row is one of the
  grammar (`writes_row`).

  Numbers that are not finite have no syntax of their own. They are written as the literal of their
  text and come back as that text: what is read is the binding as `settled` has it
  (`ofExpression_term`).
-/

import PageServer.Proofs.Decimals
import PageServer.Proofs.Grammar

namespace PageServer

namespace Text

/-! ## Whole numbers -/

theorem le_of_readDigits {limit : Nat} {excess : NumberError} {n m : Nat} {s : List Char}
    (h : readDigits limit excess n s = .ok m) (hn : n ≤ limit) : m ≤ limit := by
  induction s generalizing n with
  | nil =>
    cases h
    exact hn
  | cons c s ih =>
    rw [readDigits] at h
    split at h
    · cases h
    · split at h
      · exact ih h ‹_›
      · cases h

/-- What is read is a number of that many bits. -/
theorem range_of_readInt {bits : Nat} {n : Int} {s : List Char} (h : readInt bits s = .ok n) :
    -(2 ^ (bits - 1) : Nat) ≤ n ∧ n < (2 ^ (bits - 1) : Nat) := by
  have hpos : 0 < 2 ^ (bits - 1) := Nat.two_pow_pos _
  unfold readInt at h
  simp only [Nat.pow_eq] at h
  split at h
  · cases h
  · cases h
  · cases h
  · rename_i r _
    rcases hr : readDigits (2 ^ (bits - 1)) .tooSmall 0 r with e | m <;> rw [hr] at h <;> cases h
    have := le_of_readDigits hr (Nat.zero_le _)
    change -((2 ^ (bits - 1) : Nat) : Int) ≤ -(m : Int) ∧ -(m : Int) < ((2 ^ (bits - 1) : Nat) : Int)
    omega
  · obtain ⟨m, hm, rfl⟩ := Declarations.eq_of_map h
    have := le_of_readDigits hm (Nat.zero_le _)
    simp only [Int.ofNat_eq_natCast]
    omega
  · obtain ⟨m, hm, rfl⟩ := Declarations.eq_of_map h
    have := le_of_readDigits hm (Nat.zero_le _)
    simp only [Int.ofNat_eq_natCast]
    omega

theorem toList_toString (n : Int) :
    (toString n).toList = if n < 0 then '-' :: Nat.toDigits 10 n.natAbs else Nat.toDigits 10 n.natAbs := by
  rcases n with n | n
  · rw [if_neg (by simp)]
    exact Nat.toList_repr
  · rw [if_pos (Int.negSucc_lt_zero n)]
    change ("-" ++ Nat.repr (n + 1)).toList = _
    rw [String.toList_append, Nat.toList_repr]
    rfl

/-- A number of that many bits is read back. -/
theorem readInt_toString {bits : Nat} {n : Int} (hlow : -(2 ^ (bits - 1) : Nat) ≤ n)
    (hhigh : n < (2 ^ (bits - 1) : Nat)) : readInt bits (toString n).toList = .ok n := by
  have hfirst : ∀ {c r}, Nat.toDigits 10 n.natAbs = c :: r → c.isDigit = true :=
    fun h => isDigit_toDigits (h ▸ List.mem_cons_self)
  rw [toList_toString]
  by_cases hneg : n < 0
  · rw [if_pos hneg, readInt, Nat.pow_eq, readDigits_toDigits (by omega)]
    · change Except.ok (-(n.natAbs : Int)) = _
      congr 1
      omega
    · exact Nat.toDigits_ne_nil
  · rw [if_neg hneg, readInt, Nat.pow_eq, readDigits_toDigits (by omega)]
    · change Except.ok (n.natAbs : Int) = _
      congr 1
      omega
    · exact Nat.toDigits_ne_nil
    · exact fun h => absurd (hfirst h) (by decide)
    · exact fun h => absurd (hfirst h) (by decide)
    · exact fun r h => absurd (hfirst h) (by decide)
    · exact fun r h => absurd (hfirst h) (by decide)

end Text

/-! ## Words -/

namespace KeyPath

theorem text_of_parse? {s : List Char} {p : KeyPath} (h : parse? s = some p) : p.text.toList = s := by
  rw [parse?] at h
  split at h
  · have hsegments : p.segments = (Text.pieces '.' s).map String.ofList := by
      rcases hparts : (Text.pieces '.' s).map String.ofList with _ | ⟨first, rest⟩ <;> simp only [hparts] at h
      · cases h
      · cases h
        rfl
    have hid : String.toList ∘ String.ofList = id := funext fun _ => String.toList_ofList
    rw [text, hsegments, String.toList_intercalate, List.map_map, hid, List.map_id, Text.pieces_eq_splitOn]
    exact List.intercalate_splitOn '.'
  · cases h

end KeyPath

namespace Binding

variable {b : Binding}

/-- What is read off the words and literals of a file. -/
inductive Read : Binding → Prop
  | string (s : String) : Read (.constant (.string s))
  | bool (b : Bool) : Read (.constant (.bool b))
  | int {n : Int} : -(2 ^ 63 : Nat) ≤ n → n < (2 ^ 63 : Nat) → Read (.constant (.int n))
  | float (x : Float) : Read (.constant (.float x))
  | keyPath {p : KeyPath} : ofWord p.text.toList = .ok (.keyPath p) → Read (.keyPath p)
  | call {c : Char} {w : List Char} {arguments : List Binding} : c ≠ '"' →
      (∀ c' ∈ c :: w, endsWord c' = false) → (∀ a ∈ arguments, Read a) →
        Read (.call (String.ofList (c :: w)) arguments)

theorem read_of_ofWord {w : List Char} (h : ofWord w = .ok b) : Read b := by
  have hself := h
  unfold ofWord at h
  split at h
  · rename_i v hv
    cases h
    split at hv
    · unfold number? at hv
      split at hv
      · obtain ⟨x, -, rfl⟩ := Option.map_eq_some_iff.mp hv
        exact .float x
      · split at hv
        · rename_i n hn
          cases hv
          exact .int (Text.range_of_readInt hn).1 (Text.range_of_readInt hn).2
        · obtain ⟨x, -, rfl⟩ := Option.map_eq_some_iff.mp hv
          exact .float x
    · cases hv
  · split at h
    · cases h
      exact .bool _
    · rw [keyPathOf] at h
      split at h
      · rename_i p hp
        cases h
        exact .keyPath (by rw [KeyPath.text_of_parse? hp, hself])
      · cases h

/-- The characters of numbers, truth values and key paths. -/
def WordChar (c : Char) : Prop := c = '.' ∨ KeyPath.isSegmentChar c = true

instance (c : Char) : Decidable (WordChar c) := inferInstanceAs (Decidable (_ ∨ _))

theorem wordChar_of_isDigit {c : Char} (hc : c.isDigit = true) : WordChar c := by
  have hlt : c.toNat < 128 := by
    simp only [Char.isDigit, Bool.and_eq_true, decide_eq_true_eq, UInt32.le_iff_toNat_le] at hc
    exact Nat.lt_of_le_of_lt hc.2 (by decide)
  refine .inr ?_
  simp [KeyPath.isSegmentChar, Text.isLetterOrNumber, hlt, Char.isAlphanum, hc]

/-- The blank characters. -/
def blanks : List Nat :=
  [9, 10, 11, 12, 13, 0x20, 0x85, 0xA0, 0x1680, 0x2000, 0x2001, 0x2002, 0x2003, 0x2004, 0x2005, 0x2006,
    0x2007, 0x2008, 0x2009, 0x200A, 0x2028, 0x2029, 0x202F, 0x205F, 0x3000]

theorem not_isBlank_of_wordChar {c : Char} (hc : WordChar c) : Text.isBlank c = false := by
  have hall : ∀ n ∈ blanks, ¬WordChar (Char.ofNat n) := by decide +kernel
  by_contra hblank
  have hmem : c.toNat ∈ blanks := by
    simp only [Text.isBlank, Bool.not_eq_false, Bool.or_eq_true, Bool.and_eq_true, decide_eq_true_eq,
      beq_iff_eq] at hblank
    simp only [blanks, List.mem_cons, List.not_mem_nil, or_false]
    omega
  exact hall _ hmem (by rwa [Char.ofNat_toNat])

theorem endsWord_of_wordChar {c : Char} (hc : WordChar c) : endsWord c = false := by
  have hne : ∀ c', ¬WordChar c' → (c == c') = false :=
    fun c' hc' => beq_eq_false_iff_ne.mpr fun heq => hc' (heq ▸ hc)
  rw [endsWord, not_isBlank_of_wordChar hc, hne '(' (by decide +kernel), hne ')' (by decide +kernel),
    hne ',' (by decide +kernel)]
  rfl

/-- A word that is read as the binding. -/
structure IsWord (w : List Char) (b : Binding) : Prop where
  ne : w ≠ []
  chars : ∀ c ∈ w, WordChar c
  reads : ofWord w = .ok b

theorem isWord_bool (b : Bool) : IsWord (constantText (.bool b)).toList (.constant (.bool b)) := by
  have hreads : ∀ w b, isNumeric w = false → truthWord? w = some b → ofWord w = .ok (.constant (.bool b)) := by
    intro w b hnumeric htruth
    rw [ofWord, hnumeric, htruth]
    rfl
  cases b
  · exact ⟨by decide, by decide +kernel, hreads _ _ (by decide) (by decide +kernel)⟩
  · exact ⟨by decide, by decide +kernel, hreads _ _ (by decide) (by decide +kernel)⟩

/-- Digits, after a minus or not, and with a point among them or not. -/
theorem isNumeric_eq {ds : List Char} (minus : Bool) (hpoint : ds.count '.' ≤ 1)
    (hchars : ∀ c ∈ ds, c.isDigit = true ∨ c = '.') (hdigit : ∃ c r, ds = c :: r ∧ c.isDigit = true) :
    isNumeric ((if minus then ['-'] else []) ++ ds) = true := by
  obtain ⟨c, r, rfl, hc⟩ := hdigit
  have hall : ((c :: r).any Char.isDigit && (c :: r).all (fun c => c.isDigit || c == '.') &&
      decide ((c :: r).count '.' ≤ 1)) = true := by
    rw [Bool.and_eq_true, Bool.and_eq_true, decide_eq_true_eq]
    have hall : ∀ c' ∈ c :: r, (c'.isDigit || c' == '.') = true := fun c' hc' => by simpa using hchars c' hc'
    exact ⟨⟨List.any_eq_true.mpr ⟨c, List.mem_cons_self, hc⟩, List.all_eq_true.mpr hall⟩, hpoint⟩
  cases minus
  · unfold isNumeric
    dsimp only [Bool.false_eq_true, if_false, List.nil_append]
    split
    · rename_i heq
      cases heq
      exact absurd hc (by decide)
    · rename_i heq
      cases heq
      exact absurd hc (by decide)
    · exact hall
  · exact hall

/-- Numbers are words. -/
theorem isWord_number {w ds : List Char} {v : Value} (minus : Bool) (hw : w = (if minus then ['-'] else []) ++ ds)
    (hpoint : ds.count '.' ≤ 1) (hchars : ∀ c ∈ ds, c.isDigit = true ∨ c = '.')
    (hdigit : ∃ c r, ds = c :: r ∧ c.isDigit = true) (hread : number? w = some v) : IsWord w (.constant v) where
  ne := by
    obtain ⟨c, r, rfl, -⟩ := hdigit
    rw [hw]
    simp
  chars := by
    intro c hc
    rw [hw] at hc
    rcases List.mem_append.mp hc with hc | hc
    · split at hc
      · rw [List.mem_singleton.mp hc]
        decide +kernel
      · cases hc
    · rcases hchars c hc with hc | rfl
      · exact wordChar_of_isDigit hc
      · exact .inl rfl
  reads := by
    rw [ofWord, hw, isNumeric_eq minus hpoint hchars hdigit, ← hw, if_pos rfl, hread]

theorem isWord_int {n : Int} (hlow : -(2 ^ 63 : Nat) ≤ n) (hhigh : n < (2 ^ 63 : Nat)) :
    IsWord (constantText (.int n)).toList (.constant (.int n)) := by
  have hdigits : ∀ c ∈ Nat.toDigits 10 n.natAbs, c.isDigit = true := fun _ => Text.isDigit_toDigits
  have hpoint : '.' ∉ Nat.toDigits 10 n.natAbs := fun hmem => absurd (hdigits _ hmem) (by decide)
  have htext : (constantText (.int n)).toList =
      (if decide (n < 0) then ['-'] else []) ++ Nat.toDigits 10 n.natAbs := by
    rw [constantText, Text.toList_toString]
    by_cases hneg : n < 0 <;> simp [hneg]
  obtain ⟨c, r, hcons⟩ := List.exists_cons_of_ne_nil (Nat.toDigits_ne_nil (n := n.natAbs) (b := 10))
  refine isWord_number (decide (n < 0)) htext (by rw [List.count_eq_zero.mpr hpoint]; decide)
    (fun c hc => .inl (hdigits c hc)) ⟨c, r, hcons, hdigits c (hcons ▸ List.mem_cons_self)⟩ ?_
  have hnone : (constantText (.int n)).toList.contains '.' = false := by
    rw [Bool.eq_false_iff, ne_eq, List.contains_iff_mem, htext]
    intro hmem
    rcases List.mem_append.mp hmem with hmem | hmem
    · split at hmem <;> simp at hmem
    · exact hpoint hmem
  rw [number?, hnone, constantText, Text.readInt_toString hlow hhigh]
  rfl

theorem isWord_float {x : Float} (hx : x.isFinite = true) :
    IsWord (constantText (.float x)).toList (.constant (.float x)) := by
  have htext : constantText (.float x) = Decimal.textWithPoint x := by
    rw [constantText, if_pos hx]
  have hparts := Decimal.textWithPoint_eq hx
  obtain ⟨hwhole, hplaces⟩ := (Decimal.shortest x).isDigit_parts
  obtain ⟨c, r, hcons⟩ := List.exists_cons_of_ne_nil (Decimal.shortest x).parts_ne_nil
  rw [htext]
  refine isWord_number (Decimal.isNegative x) hparts ?_ (fun c' hc' => ?_)
    ⟨c, _, by rw [hcons]; rfl, hwhole c (hcons ▸ List.mem_cons_self)⟩ ?_
  · have hnone : ∀ {ds : List Char}, (∀ c ∈ ds, c.isDigit = true) → ds.count '.' = 0 :=
      fun h => List.count_eq_zero.mpr fun hmem => absurd (h _ hmem) (by decide)
    rw [List.count_append, List.count_cons_self, hnone hwhole, hnone hplaces]
  · rcases List.mem_append.mp hc' with hc' | hc'
    · exact .inl (hwhole c' hc')
    · rcases List.mem_cons.mp hc' with rfl | hc'
      · exact .inr rfl
      · exact .inl (hplaces c' hc')
  · have hcontains : (Decimal.textWithPoint x).toList.contains '.' = true := by
      rw [hparts]
      simp
    rw [number?, hcontains, if_pos rfl, Decimal.read?_textWithPoint hx]
    rfl

theorem parse?_of_ofWord {w : List Char} {p : KeyPath} (h : ofWord w = .ok (.keyPath p)) :
    KeyPath.parse? w = some p := by
  unfold ofWord at h
  split at h
  · cases h
  · split at h
    · cases h
    · rw [keyPathOf] at h
      split at h
      · rename_i hp
        cases h
        exact hp
      · cases h

theorem isWord_keyPath {p : KeyPath} (h : ofWord p.text.toList = .ok (.keyPath p)) :
    IsWord p.text.toList (.keyPath p) where
  ne := by
    have hparse := parse?_of_ofWord h
    rintro hnil
    rw [hnil] at hparse
    cases hparse
  chars := fun _ hc => KeyPath.mem_of_parse? (parse?_of_ofWord h) hc
  reads := h

/-! ## Expressions -/

/-- What holds of words and texts, and of the calls of what it holds of, holds of all that is read. -/
structure HoldsOfRead (P : Binding → Prop) : Prop where
  string : ∀ s, P (.constant (.string s))
  word : ∀ {w b}, ofWord w = .ok b → P b
  call : ∀ {c w arguments}, c ≠ '"' → (∀ c' ∈ c :: w, endsWord c' = false) → (∀ a ∈ arguments, P a) →
    P (.call (String.ofList (c :: w)) arguments)

namespace HoldsOfRead

variable {P : Binding → Prop} (k : HoldsOfRead P)
include k

theorem of_writes {p : Phrase} {ls : List Lexeme} (h : Writes p ls) : ∀ b ∈ p.bindings, P b := by
  induction h with
  | literal _ => exact List.forall_mem_singleton.mpr (k.string _)
  | word _ _ hb => exact List.forall_mem_singleton.mpr (k.word hb)
  | call hc hw _ _ ih => exact List.forall_mem_singleton.mpr (k.call hc hw ih)
  | close _ => exact nofun
  | last _ _ _ ih => exact ih
  | more _ _ _ _ ih ih' => exact List.forall_mem_cons.mpr ⟨ih _ List.mem_cons_self, ih'⟩

theorem of_ofExpression {s : List Char} (h : ofExpression s = .ok b) : P b := by
  obtain ⟨-, ls, -, -, hls, -, -⟩ := ofExpression_eq_ok.mp h
  exact k.of_writes hls b List.mem_cons_self

end HoldsOfRead

theorem read_of_ofExpression {s : List Char} (h : ofExpression s = .ok b) : Read b :=
  HoldsOfRead.of_ofExpression ⟨.string, read_of_ofWord, .call⟩ h

/-- Whatever is read as the right hand side of a binding. -/
theorem read_of_ofRaw {t : Literals} {raw : List Char} (h : ofRaw t raw = .ok b) : Read b := by
  unfold ofRaw at h
  split at h
  · exact read_of_ofExpression h
  · split at h
    · cases h
      exact .string _
    · exact read_of_ofWord h

/-! ## What is written -/

mutual

/-- What has no syntax of its own is written as the literal of its text, and read as that. -/
def settled : Binding → Binding
  | constant (.float x) => if x.isFinite then constant (.float x) else constant (.string (Decimal.text x))
  | call helper arguments => call helper (settledArguments arguments)
  | b => b

def settledArguments : List Binding → List Binding
  | [] => []
  | b :: rest => settled b :: settledArguments rest

end

mutual

/-- All numbers are finite. -/
def isFinite : Binding → Bool
  | constant (.float x) => x.isFinite
  | call _ arguments => areFinite arguments
  | _ => true

def areFinite : List Binding → Bool
  | [] => true
  | b :: rest => isFinite b && areFinite rest

end

mutual

theorem settled_eq_self_iff (b : Binding) : settled b = b ↔ b.isFinite = true := by
  match b with
  | constant (.float x) =>
    rw [settled, isFinite]
    split <;> simp_all
  | call helper arguments =>
    rw [settled, isFinite, ← settledArguments_eq_self_iff arguments, call.injEq, eq_self, true_and]
  | constant .null | constant (.bool _) | constant (.int _) => simp [settled, isFinite]
  | constant (.string _) | constant (.list _) | constant (.map _) | keyPath _ => simp [settled, isFinite]

theorem settledArguments_eq_self_iff (bs : List Binding) : settledArguments bs = bs ↔ areFinite bs = true := by
  match bs with
  | [] => simp [settledArguments, areFinite]
  | b :: rest =>
    rw [settledArguments, areFinite, Bool.and_eq_true, ← settled_eq_self_iff b, ← settledArguments_eq_self_iff rest,
      List.cons.injEq]

end

@[simp] theorem settledArguments_eq (bs : List Binding) : settledArguments bs = bs.map settled := by
  induction bs with
  | nil => rfl
  | cons b bs ih => rw [settledArguments, ih, List.map_cons]

/-- A constant is written as a literal or as a word. -/
def constantRow (v : Value) : List Lexeme :=
  match settled (.constant v) with
  | .constant (.string s) => [.literal (Text.escape s.toList)]
  | _ => Lexeme.chars (constantText v).toList

mutual

/-- The characters and literals that a term is written with. -/
def row : Binding → List Lexeme
  | constant v => constantRow v
  | keyPath p => Lexeme.chars p.text.toList
  | call helper arguments => Lexeme.chars helper.toList ++ .char '(' :: (argumentsRow arguments ++ [.char ')'])

def argumentsRow : List Binding → List Lexeme
  | [] => []
  | [b] => row b
  | b :: b' :: rest => row b ++ .char ',' :: .char ' ' :: argumentsRow (b' :: rest)

end

/-- The arguments of a call, with commas between them. -/
def argumentsText (bs : List Binding) : List Char := (", ".intercalate (terms bs)).toList

@[simp] theorem argumentsText_singleton (b : Binding) : argumentsText [b] = b.term.toList := rfl

@[simp] theorem argumentsText_cons (b b' : Binding) (bs : List Binding) :
    argumentsText (b :: b' :: bs) = b.term.toList ++ ',' :: ' ' :: argumentsText (b' :: bs) := by
  simp only [argumentsText, terms, String.toList_intercalate, List.map_cons]
  rw [List.intercalate_cons_cons]
  simp

theorem term_call (helper : String) (arguments : List Binding) :
    (term (call helper arguments)).toList = helper.toList ++ '(' :: (argumentsText arguments ++ [')']) := by
  rw [term]
  simp [argumentsText]

theorem term_string (s : String) :
    (term (constant (.string s))).toList = '"' :: (Text.escape s.toList ++ ['"']) := by
  rw [term]
  simp [constantText, literalText, Value.text, Value.shown]

theorem term_float (x : Float) : term (constant (.float x)) =
    if x.isFinite then Decimal.textWithPoint x else term (constant (.string (Decimal.text x))) := by
  rw [term, constantText]
  rfl

/-- It is written as a word that is read as it. -/
structure WrittenAsWord (b : Binding) : Prop where
  word : IsWord b.term.toList b
  settled : b.settled = b
  row : b.row = Lexeme.chars b.term.toList
  no_call : ∀ helper arguments, b ≠ .call helper arguments

/-- It is written as the literal of a text, and read as the text. -/
structure WrittenAsLiteral (b : Binding) (s : String) : Prop where
  text : b.term.toList = '"' :: (Text.escape s.toList ++ ['"'])
  settled : b.settled = .constant (.string s)
  row : b.row = [.literal (Text.escape s.toList)]
  no_call : ∀ helper arguments, b ≠ .call helper arguments

theorem writtenAsLiteral_string (s : String) : WrittenAsLiteral (.constant (.string s)) s where
  text := term_string s
  settled := rfl
  row := rfl
  no_call := by simp

theorem written_float (x : Float) :
    WrittenAsWord (.constant (.float x)) ∨ WrittenAsLiteral (.constant (.float x)) (Decimal.text x) := by
  by_cases hx : x.isFinite = true
  · have hsettled : (Binding.constant (.float x)).settled = .constant (.float x) := by rw [settled, if_pos hx]
    refine .inl ⟨isWord_float hx, hsettled, ?_, by simp⟩
    rw [row, constantRow, hsettled]
    rfl
  · have hsettled : (Binding.constant (.float x)).settled = .constant (.string (Decimal.text x)) := by
      rw [settled, if_neg hx]
    refine .inr ⟨?_, hsettled, ?_, by simp⟩
    · rw [term_float, if_neg hx, term_string]
    · rw [row, constantRow, hsettled]

/-- What is read is written as a word, as a literal, or as a call of what is. -/
theorem Read.written {motive : ∀ b, Read b → Prop}
    (word : ∀ {b} (h : Read b), WrittenAsWord b → motive b h)
    (literal : ∀ {b s} (h : Read b), WrittenAsLiteral b s → motive b h)
    (call : ∀ {c w arguments} (hc : c ≠ '"') (hw : ∀ c' ∈ c :: w, endsWord c' = false)
      (ha : ∀ a ∈ arguments, Read a), (∀ a (hmem : a ∈ arguments), motive a (ha a hmem)) →
        motive _ (.call hc hw ha)) {b : Binding} (h : Read b) : motive b h := by
  induction h with
  | string s => exact literal _ (writtenAsLiteral_string s)
  | bool b => exact word _ ⟨isWord_bool b, rfl, rfl, by simp⟩
  | int hlow hhigh => exact word _ ⟨isWord_int hlow hhigh, rfl, rfl, by simp⟩
  | float x =>
    rcases written_float x with hx | hx
    · exact word _ hx
    · exact literal _ hx
  | keyPath h => exact word _ ⟨isWord_keyPath h, rfl, rfl, by simp⟩
  | call hc hw ha ih => exact call hc hw ha ih

theorem source_argumentsRow {bs : List Binding} (h : ∀ b ∈ bs, (row b).flatMap Lexeme.source = b.term.toList) :
    (argumentsRow bs).flatMap Lexeme.source = argumentsText bs := by
  induction bs with
  | nil => rfl
  | cons b bs ih =>
    have hb := h b List.mem_cons_self
    cases bs with
    | nil => rw [argumentsRow, argumentsText_singleton, hb]
    | cons b' bs =>
      rw [argumentsRow, argumentsText_cons, List.flatMap_append, hb, List.flatMap_cons, List.flatMap_cons,
        ih fun b hb => h b (List.mem_cons_of_mem _ hb)]
      rfl

/-- The row of a term is what the term is written as. -/
theorem source_row (h : Read b) : (row b).flatMap Lexeme.source = b.term.toList := by
  induction h using Read.written with
  | word _ hb => rw [hb.row, Lexeme.source_chars]
  | literal _ hb =>
    rw [hb.row, hb.text]
    simp
  | call hc hw ha ih =>
    rw [row, term_call, List.flatMap_append, Lexeme.source_chars, List.flatMap_cons, List.flatMap_append,
      source_argumentsRow ih]
    rfl

theorem IsWord.writes {w : List Char} (h : IsWord w b) : Writes (.term b) (Lexeme.chars w) := by
  obtain ⟨c, r, rfl⟩ := List.exists_cons_of_ne_nil h.ne
  refine .word ?_ (fun c' hc' => endsWord_of_wordChar (h.chars c' hc')) h.reads
  rintro rfl
  exact absurd (h.chars _ List.mem_cons_self) (by decide +kernel)

theorem writes_argumentsRow {bs : List Binding} (h : ∀ b ∈ bs, Writes (.term (settled b)) (row b)) {gap : List Char}
    (hgap : Text.Gap gap) :
    Writes (.arguments (bs.map settled)) (Lexeme.chars gap ++ (argumentsRow bs ++ [.char ')'])) := by
  induction bs generalizing gap with
  | nil => exact .close hgap
  | cons b bs ih =>
    have hb := h b List.mem_cons_self
    cases bs with
    | nil => exact .last hgap hb Text.gap_nil
    | cons b' bs =>
      have hblank : Text.Gap [' '] := List.forall_mem_singleton.mpr (by decide)
      rw [argumentsRow, List.append_assoc]
      exact .more hgap hb Text.gap_nil (ih (fun b hb => h b (List.mem_cons_of_mem _ hb)) hblank)

/-- A term is written in a row for what is read again. -/
theorem writes_row (h : Read b) : Writes (.term (settled b)) (row b) := by
  induction h using Read.written with
  | word _ hb =>
    rw [hb.settled, hb.row]
    exact hb.word.writes
  | @literal _ s _ hb =>
    have hclosed := Writes.literal (Text.closed_escape s.toList)
    rwa [unescaped, Text.unescape_escape, String.ofList_toList, ← hb.settled, ← hb.row] at hclosed
  | call hc hw ha ih =>
    rw [settled, settledArguments_eq, row, String.toList_ofList]
    exact .call hc hw Text.gap_nil (writes_argumentsRow ih Text.gap_nil)

/-- An expression is read back. -/
theorem ofExpression_term (h : Read b) : ofExpression b.term.toList = .ok (settled b) :=
  ofExpression_eq_ok.mpr ⟨[], row b, [], Text.gap_nil, writes_row h, Text.gap_nil, by simp [source_row h]⟩

end Binding

end PageServer
