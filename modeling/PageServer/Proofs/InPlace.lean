/-
  PageServer.Proofs.InPlace — files whose literals stand where literals may stand.

  In such a file (`WellPlaced`) there is no literal in a header, a key is a literal or holds none, and
  no text in a body begins like a placeholder. The file is read as its row of characters and literals
  is read (`declarationOf`), in which no placeholder is to be seen: the declarations are collected in
  the order of the file (`parse_eq_collect`). A file of another kind may be read too, but with
  placeholders in names, or with a text taken for one.
-/

import Mathlib.Data.List.Infix
import PageServer.Proofs.SetAside

namespace PageServer

/-! ## Reading rows of lexemes -/

namespace Lexeme

/-- A key is a word, or a literal. -/
def keyOf (key : List Lexeme) : Option String :=
  match whole? key with
  | some inner => some (String.ofList (Text.unescape inner.toList))
  | none => (chars? key).map String.ofList

/-- A literal, or a word. -/
def plainOf (s : List Lexeme) : Option Binding :=
  match whole? s with
  | some inner => some (.constant (Binding.unescaped inner.toList))
  | none => (chars? s).bind fun w => (Binding.ofWord w).toOption

/-- The right hand side of a binding. -/
def bindingOf (raw : List Lexeme) : Option Binding :=
  match trim raw with
  | char '~' :: r => (Binding.ofExpression (r.flatMap source)).toOption
  | s => plainOf s

theorem bindingOf_expression {raw r : List Lexeme} (h : trim raw = char '~' :: r) :
    bindingOf raw = (Binding.ofExpression (r.flatMap source)).toOption := by
  simp only [bindingOf, h]

theorem bindingOf_plain {raw : List Lexeme} (h : ∀ r, trim raw ≠ char '~' :: r) : bindingOf raw = plainOf (trim raw) := by
  unfold bindingOf
  split
  · exact absurd ‹_› (h _)
  · rfl

/-- The bindings so far with that of one line. -/
def addBinding (bs : Bindings) (line : List Lexeme) : Option Bindings :=
  (cut? '=' line).bind fun p =>
    if (trim p.1).isEmpty || (trim p.2).isEmpty then none
    else (keyOf (trim p.1)).bind fun name => (bindingOf (trim p.2)).bind fun b => bs.insert? name b

def bindingsOf (body : List Lexeme) : Option Bindings := (lines body).foldlM addBinding []

/-- The name and the type in a header. -/
def namesOf (header : List Lexeme) : Option (String × String) :=
  match (chars? header).bind (Text.cut? ':') with
  | none => none
  | some (name, typeName) =>
    if String.ofList (Text.trim name) = "" ∨ String.ofList (Text.trim typeName) = "" then none
    else some (String.ofList (Text.trim name), String.ofList (Text.trim typeName))

/-- The declaration with this header and body. -/
def declarationOf (block : List Lexeme × List Lexeme) : Option Declaration :=
  (namesOf block.1).bind fun names => (bindingsOf block.2).map fun bs => ⟨names.1, names.2, bs⟩

/-- The literals of a declaration stand where they may. -/
structure WellPlaced (block : List Lexeme × List Lexeme) : Prop where
  header : (chars? block.1).isSome = true
  keys : ∀ line ∈ lines block.2, ∀ p ∈ cut? '=' line, (keyOf (trim p.1)).isSome = true
  clear : Clear block.2

instance (block : List Lexeme × List Lexeme) : Decidable (WellPlaced block) :=
  decidable_of_iff ((chars? block.1).isSome = true ∧
      (∀ line ∈ lines block.2, ∀ p ∈ cut? '=' line, (keyOf (trim p.1)).isSome = true) ∧ ¬lookalike <:+: block.2)
    ⟨fun ⟨header, keys, clear⟩ => ⟨header, keys, clear⟩, fun ⟨header, keys, clear⟩ => ⟨header, keys, clear⟩⟩

theorem parts_of_cut? {sep : Char} {ls a b : List Lexeme} (h : cut? sep ls = some (a, b)) : a <:+: ls ∧ b <:+: ls := by
  obtain ⟨rfl, -⟩ := eq_of_cut? h
  exact ⟨⟨[], char sep :: b, rfl⟩, ⟨a ++ [char sep], [], by simp⟩⟩

/-- The first piece stands at the front, the others stand somewhere. -/
theorem pieces_within (sep : Lexeme) (ls : List Lexeme) :
    ∃ p ps, ls.splitOn sep = p :: ps ∧ p <+: ls ∧ ∀ q ∈ ps, q <:+: ls := by
  induction ls with
  | nil => exact ⟨[], [], rfl, List.prefix_rfl, nofun⟩
  | cons l ls ih =>
    obtain ⟨p, ps, hsplit, hp, hps⟩ := ih
    have hgrow : ∀ {q : List Lexeme}, q <:+: ls → q <:+: l :: ls := fun h => h.trans (List.suffix_cons _ _).isInfix
    rw [List.splitOn_cons_eq_if_modifyHead, hsplit]
    by_cases hl : l = sep
    · rw [if_pos (by simpa using hl)]
      refine ⟨[], _, rfl, List.nil_prefix, fun q hq => ?_⟩
      rcases List.mem_cons.mp hq with rfl | hq
      · exact hgrow hp.isInfix
      · exact hgrow (hps q hq)
    · rw [if_neg (by simpa using hl)]
      exact ⟨l :: p, ps, rfl, (List.prefix_cons_inj l).mpr hp, fun q hq => hgrow (hps q hq)⟩

theorem mem_lines {body line : List Lexeme} (h : line ∈ lines body) : line <:+: body := by
  obtain ⟨piece, hpiece, rfl⟩ := List.mem_map.mp (List.mem_filter.mp h).1
  refine (trim_within piece).trans ?_
  obtain ⟨p, ps, hsplit, hp, hps⟩ := pieces_within (char ';') body
  rw [hsplit] at hpiece
  rcases List.mem_cons.mp hpiece with rfl | hpiece
  · exact hp.isInfix
  · exact hps _ hpiece

end Lexeme

/-! ## Words with a placeholder -/

theorem Text.mem_pieces {sep c : Char} {s : List Char} (hc : c ∈ s) (hsep : c ≠ sep) : ∃ p ∈ pieces sep s, c ∈ p := by
  rw [pieces_eq_splitOn]
  induction s with
  | nil => cases hc
  | cons c' s ih =>
    rw [List.splitOn_cons_eq_if_modifyHead]
    rcases hs : s.splitOn sep with _ | ⟨p, ps⟩
    · exact absurd hs (List.splitOn_ne_nil _ _)
    rw [hs] at ih
    by_cases hc' : c' = sep
    · rw [if_pos (by simpa using hc')]
      obtain ⟨p', hp', hmem⟩ := ih ((List.mem_cons.mp hc).resolve_left fun heq => hsep (heq.trans hc'))
      exact ⟨p', List.mem_cons_of_mem _ hp', hmem⟩
    · rw [if_neg (by simpa using hc'), List.modifyHead_cons]
      rcases List.mem_cons.mp hc with rfl | hc
      · exact ⟨_, List.mem_cons_self, List.mem_cons_self⟩
      · obtain ⟨p', hp', hmem⟩ := ih hc
        rcases List.mem_cons.mp hp' with rfl | hp'
        · exact ⟨_, List.mem_cons_self, List.mem_cons_of_mem _ hmem⟩
        · exact ⟨p', List.mem_cons_of_mem _ hp', hmem⟩

/-- Key paths are letters, digits, a few signs, and dots. -/
theorem KeyPath.mem_of_parse? {s : List Char} {p : KeyPath} (h : parse? s = some p) {c : Char} (hc : c ∈ s) :
    c = '.' ∨ isSegmentChar c = true := by
  by_cases hdot : c = '.'
  · exact .inl hdot
  · obtain ⟨part, hpart, hmem⟩ := Text.mem_pieces hc hdot
    rw [parse?] at h
    split at h
    · rename_i hall
      have hsegment := List.all_eq_true.mp hall part hpart
      rw [isSegment, Bool.and_eq_true] at hsegment
      exact .inr (List.all_eq_true.mp hsegment.2 c hmem)
    · cases h

namespace Binding

theorem isNumeric_of_hash {w : List Char} (h : '#' ∈ w) : isNumeric w = false := by
  have hnot : ∀ digits : List Char, '#' ∈ digits → (digits.all fun c => c.isDigit || c == '.') = false :=
    fun digits hmem => List.all_eq_false.mpr ⟨'#', hmem, by decide⟩
  unfold isNumeric
  split
  · rename_i r
    simp [hnot r ((List.mem_cons.mp h).resolve_left (by decide))]
  · rename_i r
    simp [hnot r ((List.mem_cons.mp h).resolve_left (by decide))]
  · simp [hnot w h]

theorem truthWord?_of_hash {w : List Char} (h : '#' ∈ w) : truthWord? w = none := by
  have hmem : '#' ∈ (Text.asciiLower (String.ofList w)).toList := by
    rw [Text.asciiLower, String.toList_map, String.toList_ofList]
    exact List.mem_map.mpr ⟨'#', h, by decide⟩
  unfold truthWord?
  split <;> first | rfl | (rename_i heq; rw [heq] at hmem; exact absurd hmem (by decide))

theorem keyPathOf_of_hash {w : List Char} (h : '#' ∈ w) : ∃ e, keyPathOf w = .error e := by
  rw [keyPathOf]
  rcases hp : KeyPath.parse? w with _ | p
  · exact ⟨_, rfl⟩
  · exact absurd (KeyPath.mem_of_parse? hp h) (by decide)

/-- A placeholder in a word makes it none. -/
theorem ofWord_of_hash {w : List Char} (h : '#' ∈ w) : (ofWord w).toOption = none := by
  obtain ⟨e, he⟩ := keyPathOf_of_hash h
  rw [ofWord, isNumeric_of_hash h, truthWord?_of_hash h, he]
  rfl

end Binding

namespace Declarations

/-- What a key stands for. -/
def keyName (t : Literals) (key : List Char) : String :=
  match t.lookup? key with
  | some inner => String.ofList (Text.unescape inner.toList)
  | none => String.ofList key

theorem toOption_readBinding (t : Literals) (tag : String) (bs : Bindings) (line : List Char) :
    (readBinding t tag bs line).toOption = (Text.cut? '=' line).bind fun p =>
      if (Text.trim p.1).isEmpty || (Text.trim p.2).isEmpty then none
      else (Binding.ofRaw t (Text.trim p.2)).toOption.bind fun b => bs.insert? (keyName t (Text.trim p.1)) b := by
  unfold readBinding keyName
  rcases Text.cut? '=' line with _ | ⟨key, value⟩
  · rfl
  rw [Option.bind_some]
  dsimp only
  cases (Text.trim key).isEmpty
  · cases (Text.trim value).isEmpty
    · rcases Binding.ofRaw t (Text.trim value) with e | b
      · rfl
      · rcases t.lookup? (Text.trim key) with _ | inner
        · change _ = bs.insert? (String.ofList (Text.trim key)) b
          simp only [Bool.false_eq_true, if_false]
          rcases bs.insert? (String.ofList (Text.trim key)) b with _ | bs' <;> rfl
        · change _ = bs.insert? (String.ofList (Text.unescape inner.toList)) b
          simp only [Bool.false_eq_true, if_false]
          rcases bs.insert? (String.ofList (Text.unescape inner.toList)) b with _ | bs' <;> rfl
    · rfl
  · rfl

end Declarations

namespace Literals.Shows

open Lexeme

variable {t : Literals} {s : List Char} {ls : List Lexeme} (h : Shows t s ls) (hclear : Clear ls)
include h hclear

theorem ofWord_eq_plainOf (hw : whole? ls = none) :
    (Binding.ofWord s).toOption = plainOf ls := by
  rw [plainOf, hw]
  rcases hcs : chars? ls with _ | cs
  · obtain ⟨a, inner, b, rfl⟩ := chars?_eq_none hcs
    obtain ⟨x, y, rfl, -, hy⟩ := h.of_append
    refine Binding.ofWord_of_hash (List.mem_append_right _ ?_)
    cases hy
    exact List.mem_cons_self
  · obtain rfl := chars?_eq_some hcs
    rw [h.eq_of_chars]
    rfl

theorem ofRaw : (Binding.ofRaw t s).toOption = bindingOf ls := by
  have htrim := h.trim
  have hclear' : Clear (Lexeme.trim ls) := hclear.within (trim_within ls)
  unfold Binding.ofRaw
  split
  · rename_i hs
    rw [hs] at htrim
    obtain ⟨ls', hls, hrest⟩ := htrim.of_cons (by decide)
    rw [hls] at hclear'
    rw [bindingOf_expression hls, hrest.reinline (hclear'.within (List.suffix_cons _ _).isInfix)]
  · rename_i hnot
    have hnot' : ∀ r, Lexeme.trim ls ≠ .char '~' :: r := by
      intro r hls
      rw [hls] at htrim
      generalize hs : Text.trim s = s' at htrim
      cases htrim with
      | char => exact hnot _ hs
    rw [bindingOf_plain hnot', htrim.lookup? hclear']
    rcases hw : whole? (Lexeme.trim ls) with _ | inner
    · exact htrim.ofWord_eq_plainOf hclear' hw
    · simp only [plainOf, hw]
      rfl

theorem keyName {name : String} (hname : keyOf ls = some name) : Declarations.keyName t s = name := by
  unfold keyOf at hname
  rw [Declarations.keyName, h.lookup? hclear]
  rcases hw : whole? ls with _ | inner <;> rw [hw] at hname
  · obtain ⟨cs, hcs, rfl⟩ := Option.map_eq_some_iff.mp hname
    obtain rfl := chars?_eq_some hcs
    rw [h.eq_of_chars]
  · cases hname
    rfl

theorem readBinding (tag : String) (bs : Bindings)
    (hkey : ∀ p ∈ Lexeme.cut? '=' ls, (keyOf (Lexeme.trim p.1)).isSome = true) :
    (Declarations.readBinding t tag bs s).toOption = addBinding bs ls := by
  rw [Declarations.toOption_readBinding, addBinding]
  rcases h.cut? '=' (by decide) with ⟨hcut, hlcut⟩ | ⟨key, value, lkey, lvalue, hcut, hlcut, hshown, hshown'⟩
  · rw [hcut, hlcut]
    rfl
  have hkeyClear : Clear (Lexeme.trim lkey) := hclear.within ((trim_within _).trans (parts_of_cut? hlcut).1)
  have hvalueClear : Clear (Lexeme.trim lvalue) := hclear.within ((trim_within _).trans (parts_of_cut? hlcut).2)
  obtain ⟨name, hname⟩ := Option.isSome_iff_exists.mp (hkey _ hlcut)
  rw [hcut, hlcut]
  simp only [hshown.trim.isEmpty_eq, hshown'.trim.isEmpty_eq, hname, hshown.trim.keyName hkeyClear hname,
    hshown'.trim.ofRaw hvalueClear, Option.bind_some]

end Literals.Shows

/-! ## Files -/

namespace Declarations

open Lexeme

/-- What every step keeps, a whole run keeps. -/
theorem of_foldlM {α β ε : Type} {f : β → α → Except ε β} {P : β → Prop} {as : List α} {b b' : β}
    (h : as.foldlM f b = .ok b') (hstep : ∀ a ∈ as, ∀ b b', f b a = .ok b' → P b → P b') (hb : P b) : P b' := by
  induction as generalizing b with
  | nil =>
    cases h
    exact hb
  | cons a as ih =>
    rw [List.foldlM_cons] at h
    rcases ha : f b a with e | b'' <;> rw [ha] at h
    · cases h
    · exact ih h (fun a' ha' => hstep a' (List.mem_cons_of_mem _ ha')) (hstep a List.mem_cons_self b b'' ha hb)

/-- Reading lines one after the other. -/
theorem toOption_foldlM {α β γ : Type} {R : α → γ → Prop} {f : β → α → Except DeclarationError β} {g : β → γ → Option β}
    {as : List α} {cs : List γ} (h : List.Forall₂ R as cs) (hstep : ∀ a c b, R a c → c ∈ cs → (f b a).toOption = g b c)
    (b : β) : (as.foldlM f b).toOption = cs.foldlM g b := by
  induction h generalizing b with
  | nil => rfl
  | @cons a c as cs hac _ ih =>
    rw [List.foldlM_cons, List.foldlM_cons, ← hstep a c b hac List.mem_cons_self]
    rcases f b a with e | b'
    · rfl
    · exact ih (fun a' c' b h hmem => hstep a' c' b h (List.mem_cons_of_mem _ hmem)) b'

variable {t : Literals} {block : List Char × List Char} {lblock : List Lexeme × List Lexeme}

theorem toOption_readBody (h : Literals.ShowsBlock t block lblock) (hplace : WellPlaced lblock) (tag : String) :
    (readBody t tag block.2).toOption = bindingsOf lblock.2 := by
  refine toOption_foldlM h.2.lines (fun line lline bs hline hmem => ?_) []
  exact hline.readBinding (hplace.clear.within (mem_lines hmem)) tag bs (hplace.keys lline hmem)

/-- One more declaration; no tag name is given twice. -/
def add (ds : Declarations) (d : Declaration) : Except DeclarationError Declarations :=
  if Assoc.contains d.name ds then .error (.duplicateTagName d.name) else .ok (Assoc.put d.name d ds)

/-- The declarations of a file by tag name. -/
def collect (ds : List Declaration) : Except DeclarationError Declarations := ds.foldlM add []

theorem readBlock_named {ds : Declarations} {header body name typeName : List Char}
    (hcut : Text.cut? ':' header = some (name, typeName)) (hname : String.ofList (Text.trim name) ≠ "")
    (htype : String.ofList (Text.trim typeName) ≠ "") :
    readBlock t ds (header, body) =
      if Assoc.contains (String.ofList (Text.trim name)) ds then
        .error (.duplicateTagName (String.ofList (Text.trim name)))
      else (readBody t (String.ofList (Text.trim name)) body).map fun bs =>
        Assoc.put (String.ofList (Text.trim name))
          ⟨String.ofList (Text.trim name), String.ofList (Text.trim typeName), bs⟩ ds := by
  unfold readBlock
  simp only [hcut, if_neg hname, if_neg htype]
  by_cases htaken : Assoc.contains (String.ofList (Text.trim name)) ds = true
  · rw [if_pos htaken, if_pos htaken]
    rfl
  · rw [if_neg htaken, if_neg htaken]
    cases readBody t (String.ofList (Text.trim name)) body <;> rfl

theorem readBlock_unnamed {ds : Declarations} {header body : List Char}
    (h : ∀ name typeName, Text.cut? ':' header = some (name, typeName) →
      String.ofList (Text.trim name) = "" ∨ String.ofList (Text.trim typeName) = "") :
    ∃ e, readBlock t ds (header, body) = .error e := by
  unfold readBlock
  rcases hcut : Text.cut? ':' header with _ | ⟨name, typeName⟩
  · simp only [hcut]
    exact ⟨_, rfl⟩
  simp only [hcut]
  by_cases hname : String.ofList (Text.trim name) = ""
  · rw [if_pos hname]
    exact ⟨_, rfl⟩
  · rw [if_neg hname, if_pos ((h name typeName hcut).resolve_left hname)]
    exact ⟨_, rfl⟩

/-- A block of a file adds its declaration to those before it. -/
theorem readBlock_eq_add (h : Literals.ShowsBlock t block lblock) (hplace : WellPlaced lblock) (ds : Declarations) :
    match declarationOf lblock with
    | some d => readBlock t ds block = add ds d
    | none => ∃ e, readBlock t ds block = .error e := by
  obtain ⟨header, body⟩ := block
  obtain ⟨cs, hcs⟩ := Option.isSome_iff_exists.mp hplace.header
  have hheader : header = cs := by
    have hshown := h.1
    rw [chars?_eq_some hcs] at hshown
    exact hshown.eq_of_chars
  subst hheader
  unfold declarationOf namesOf
  rw [hcs, Option.bind_some]
  rcases hcut : Text.cut? ':' header with _ | ⟨name, typeName⟩
  · exact readBlock_unnamed fun name typeName hcut' => by rw [hcut] at hcut'; cases hcut'
  dsimp only
  by_cases hnames : String.ofList (Text.trim name) = "" ∨ String.ofList (Text.trim typeName) = ""
  · rw [if_pos hnames]
    refine readBlock_unnamed fun name' typeName' hcut' => ?_
    cases hcut.symm.trans hcut'
    exact hnames
  rw [if_neg hnames, Option.bind_some, readBlock_named hcut (not_or.mp hnames).1 (not_or.mp hnames).2]
  have hbody := toOption_readBody h hplace (String.ofList (Text.trim name))
  unfold add
  rcases hbs : readBody t (String.ofList (Text.trim name)) body with e | bs <;> rw [hbs] at hbody <;> rw [← hbody]
  · by_cases htaken : Assoc.contains (String.ofList (Text.trim name)) ds = true
    · rw [if_pos htaken]
      exact ⟨_, rfl⟩
    · rw [if_neg htaken]
      exact ⟨_, rfl⟩
  · rfl

theorem foldlM_readBlock {bs : List (List Char × List Char)} {lbs : List (List Lexeme × List Lexeme)}
    (h : List.Forall₂ (Literals.ShowsBlock t) bs lbs) (hplace : ∀ lb ∈ lbs, WellPlaced lb) (ds : Declarations) :
    (∃ decls, lbs.mapM declarationOf = some decls ∧ bs.foldlM (readBlock t) ds = decls.foldlM add ds) ∨
      lbs.mapM declarationOf = none ∧ ∃ e, bs.foldlM (readBlock t) ds = .error e := by
  induction h generalizing ds with
  | nil => exact .inl ⟨[], rfl, rfl⟩
  | @cons b lb bs lbs hb _ ih =>
    have hstep := readBlock_eq_add hb (hplace lb List.mem_cons_self) ds
    have ih := ih fun lb' hlb' => hplace lb' (List.mem_cons_of_mem _ hlb')
    rw [List.mapM_cons, List.foldlM_cons]
    rcases hd : declarationOf lb with _ | d <;> simp only [hd] at hstep
    · obtain ⟨e, he⟩ := hstep
      exact .inr ⟨rfl, e, by rw [he]; rfl⟩
    rw [hstep]
    rcases hadd : add ds d with e | ds'
    · rcases hrest : lbs.mapM declarationOf with _ | decls
      · exact .inr ⟨rfl, e, rfl⟩
      · exact .inl ⟨d :: decls, rfl, by rw [List.foldlM_cons, hadd]; rfl⟩
    · rcases ih ds' with ⟨decls, hdecls, hfold⟩ | ⟨hnone, e, he⟩
      · exact .inl ⟨d :: decls, by rw [hdecls]; rfl, by rw [List.foldlM_cons, hadd]; exact hfold⟩
      · exact .inr ⟨by rw [hnone]; rfl, e, he⟩

/-- The declarations of a file, in its order. -/
def declarationsOf (ls : List Lexeme) : Option (List Declaration) := (Lexeme.blocks ls).bind (·.mapM declarationOf)

/-- The literals of a row stand where they may. -/
def RowWellPlaced (ls : List Lexeme) : Prop := ∀ lb ∈ (Lexeme.blocks ls).getD [], WellPlaced lb

instance (ls : List Lexeme) : Decidable (RowWellPlaced ls) := List.decidableBAll _ _

variable {text : String} {ls : List Lexeme}

/-- Parsing cuts up the row of the file, its literals set aside. -/
theorem parse_eq (text : String) :
    parse text = lex .outside text.toList >>= fun ls =>
      blocks (aside 0 ls) >>= fun bs => bs.foldlM (readBlock ⟨contents ls⟩) [] := by
  have hread := readings_eq_lex .outside {} text.toList
  have hparse : parse text = (dropBlockComments .outside text.toList >>= setLiteralsAside .outside {}) >>= fun p =>
      blocks p.1 >>= fun bs => bs.foldlM (readBlock p.2) [] := by
    unfold parse
    cases dropBlockComments .outside text.toList <;> rfl
  rw [hparse, show (dropBlockComments .outside text.toList >>= setLiteralsAside .outside {}) = _ from hread, map_bind]
  rfl

/-- A file whose literals are well placed is read as its row of characters and literals. -/
theorem parse_eq_collect (hlex : lex .outside text.toList = .ok ls) (hsize : text.length ≤ Nat.pow 2 64)
    (hplace : RowWellPlaced ls) :
    (∃ decls, declarationsOf ls = some decls ∧ parse text = collect decls) ∨
      declarationsOf ls = none ∧ ∃ e, parse text = .error e := by
  have hcount : (contents ls).length ≤ Nat.pow 2 64 := (length_contents_le _ _ hlex).trans hsize
  have hshows : Literals.Shows ⟨contents ls⟩ (aside 0 ls) ls :=
    Literals.Shows.of_aside ls [] (by simpa using hcount)
  have hparse : parse text = blocks (aside 0 ls) >>= fun bs => bs.foldlM (readBlock ⟨contents ls⟩) [] := by
    rw [parse_eq, hlex]
    rfl
  rw [hparse, declarationsOf]
  rcases hshows.blocks with ⟨bs, lbs, hbs, hlbs, hblocks⟩ | ⟨e, hbs, hlbs⟩
  · rw [RowWellPlaced, hlbs] at hplace
    rw [hbs, hlbs]
    exact foldlM_readBlock hblocks hplace []
  · rw [hbs, hlbs]
    exact .inr ⟨rfl, e, rfl⟩

end Declarations

end PageServer
