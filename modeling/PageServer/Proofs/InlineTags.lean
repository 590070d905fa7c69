/-
  PageServer.Proofs.InlineTags — a tag may carry its bindings itself, or name a declaration of them.

  A right hand side is a text, a key path or a helper expression (`RightHand`). In a tag it is the value
  of an attribute, in quotes that it does not hold; in a declaration a text is a literal with escapes,
  a key path a word. Whatever characters it has, the same is bound to the key (`Proper.drafted`): what
  ends a binding, begins a comment or looks like a placeholder occurs in literals only, and these are
  set aside.

  So the two ways to write a tag compile to the same element, or fail for the same reason, but for what
  the tag is called (`inline_tags_agree_with_declared_ones`): one that carries its bindings is numbered
  and not named.
-/

import PageServer.Proofs.Checked
import PageServer.Proofs.Drafts
import PageServer.Proofs.Tags

namespace PageServer

variable {σ : Type}

/-! ## What tags are called -/

/-- The element of a tag that is called `name`. -/
def Element.called (name : String) : Element → Element
  | .component _ definition bindings content => .component name definition bindings content
  | .control (.widget typeName _ bindings) content => .control (.widget typeName name bindings) content
  | e => e

/-- The elements side by side in a template, the tags of all of them called `name`. -/
def Element.allCalled (name : String) : Element → Element
  | .group parent es => .group parent (es.map (Element.called name))
  | e => e

namespace Template

open Lexeme Declarations

def CompileError.called (name : String) : CompileError → CompileError
  | .noDeclaration _ => .noDeclaration name
  | .unresolvedType _ e => .unresolvedType name e
  | .invalidElement _ typeName e => .invalidElement name typeName e
  | .unknownHelper _ helper => .unknownHelper name helper
  | e => e

/-- What becomes of a template if its tags are called `name`. -/
def called (name : String) (compiled : Except CompileError Element) : Except CompileError Element :=
  (compiled.map (Element.allCalled name)).mapError (CompileError.called name)

/-! ## Right hand sides -/

/-- What a key is bound to. -/
inductive RightHand where
  | text (s : String)
  | path (s : String)
  | expression (s : String)

namespace RightHand

/-- The value of the attribute. -/
def inTag : RightHand → String
  | text s => s
  | path s => "$" ++ s
  | expression s => "~" ++ s

def declared : RightHand → String
  | text s => Binding.literalText s
  | path s => s
  | expression s => "~" ++ s

/-- Texts do not begin like the other two, paths are no other words, and expressions can be read. -/
def Proper : RightHand → Prop
  | text s => ∀ c ∈ s.toList.head?, c ≠ '$' ∧ c ≠ '~'
  | path s => (KeyPath.parse? s.toList).isSome = true ∧ Binding.isNumeric s.toList = false ∧
      Text.asciiLower s ∉ ["true", "yes", "false", "no", "nil", "null"]
  | expression s => ∃ b, Binding.ofExpression s.toList = .ok b ∧
      ∀ name ∈ b.helperNames, ∀ c ∈ name.toList, KeyPath.isSegmentChar c = true

/-- The row of the right hand side in a declaration, and what both ways to write it stand for. -/
structure Drafted (v : RightHand) (raw : List Lexeme) (b : Binding) : Prop where
  source : raw.flatMap Lexeme.source = v.declared.toList
  free : Free signs marks raw
  tight : ∃ m gap, raw = m ++ Lexeme.chars gap ∧ Tight Lexeme.isBlank m ∧ Text.Gap gap
  binding : bindingOf raw = some b
  inTag : attributeBinding v.inTag = .ok b

theorem drafted_text {s : String} (h : (text s).Proper) :
    (text s).Drafted [.literal (Text.escape s.toList)] (.constant (.string s)) where
  source := by simp [declared, Binding.literalText]
  free := .of_literal (Text.closed_escape _) (by decide)
  tight := ⟨_, [], (List.append_nil _).symm, (Binding.Writes.literal (Text.closed_escape _)).tight, Text.gap_nil⟩
  binding := by
    have htrim : Lexeme.trim [.literal (Text.escape s.toList)] = [.literal (Text.escape s.toList)] := rfl
    rw [bindingOf_plain (by simp [htrim]), htrim]
    change some (Binding.constant (Binding.unescaped (String.ofList (Text.escape s.toList)).toList)) = _
    rw [Binding.unescaped, String.toList_ofList, Text.unescape_escape, String.ofList_toList]
  inTag := by
    rw [RightHand.inTag, attributeBinding]
    split
    · rename_i hs
      exact absurd rfl (h '$' (by rw [hs]; rfl)).1
    · rename_i hs
      exact absurd rfl (h '~' (by rw [hs]; rfl)).2
    · rfl

theorem ofWord_path {s : String} {p : KeyPath} (hp : KeyPath.parse? s.toList = some p) (h : (path s).Proper) :
    Binding.ofWord s.toList = .ok (.keyPath p) := by
  obtain ⟨-, hnumeric, hword⟩ := h
  have htruth : Binding.truthWord? s.toList = none := by
    rw [Binding.truthWord?, String.ofList_toList]
    split
    case h_7 => rfl
    all_goals
      rename_i heq
      rw [heq] at hword
      exact absurd (by decide) hword
  rw [Binding.ofWord, hnumeric, htruth]
  simp only [Bool.false_eq_true, if_false]
  rw [Binding.keyPathOf, hp]

theorem drafted_path {s : String} {p : KeyPath} (hp : KeyPath.parse? s.toList = some p) (h : (path s).Proper) :
    (path s).Drafted (Lexeme.chars s.toList) (.keyPath p) := by
  have hword := ofWord_path hp h
  have hchars : ∀ c ∈ s.toList, Binding.WordChar c := fun c hc => KeyPath.mem_of_parse? hp hc
  have hne : s.toList ≠ [] := by
    intro hnil
    rw [hnil] at hp
    cases hp
  have htight : Tight Lexeme.isBlank (Lexeme.chars s.toList) :=
    tight_chars (.of_forall hne fun c hc => Binding.not_isBlank_of_wordChar (hchars c hc))
  refine ⟨source_chars _, (Binding.bare_of_wordChars hchars).free,
    ⟨_, [], (List.append_nil _).symm, htight, Text.gap_nil⟩, ?_, ?_⟩
  · have htrim : Lexeme.trim (Lexeme.chars s.toList) = Lexeme.chars s.toList := htight.strip_self
    have hhead : ∀ r, Lexeme.trim (Lexeme.chars s.toList) ≠ .char '~' :: r := by
      intro r heq
      have hmem : Lexeme.char '~' ∈ Lexeme.chars s.toList := by
        rw [← htrim, heq]
        exact List.mem_cons_self
      exact absurd (hchars '~' (char_mem_chars.mp hmem)) (by decide +kernel)
    rw [bindingOf_plain hhead, htrim, plainOf, whole?_chars, chars?_chars, Option.bind_some, hword]
    rfl
  · rw [inTag, attributeBinding, String.toList_append]
    change Binding.keyPathOf s.toList = _
    rw [Binding.keyPathOf, hp]

/-- Blanks at the end of an expression are not part of it. -/
theorem drafted_expression {s : String} {b : Binding} (hs : Binding.ofExpression s.toList = .ok b)
    (hnames : ∀ name ∈ b.helperNames, ∀ c ∈ name.toList, KeyPath.isSegmentChar c = true) :
    ∃ raw, (expression s).Drafted raw b := by
  obtain ⟨gap, ls, gap', hgap, hls, hgap', hparts⟩ := Binding.ofExpression_eq_ok.mp hs
  have hfree : Free signs marks ls := hls.free <| List.forall_mem_singleton.mpr fun name hname =>
    Binding.bare_of_wordChars fun c hc => .inr (hnames name hname c hc)
  have hrow : Free signs marks (ls ++ Lexeme.chars gap') := Binding.free_append_gap hfree hgap'
  have htight : Tight Lexeme.isBlank (.char '~' :: (Lexeme.chars gap ++ ls)) :=
    Binding.tight_tilde.append hls.tight (Lexeme.chars gap)
  have hraw : .char '~' :: (Lexeme.chars gap ++ (ls ++ Lexeme.chars gap')) =
      .char '~' :: (Lexeme.chars gap ++ ls) ++ Lexeme.chars gap' := by
    simp
  refine ⟨.char '~' :: (Lexeme.chars gap ++ (ls ++ Lexeme.chars gap')), ?_, ?_,
    ⟨_, gap', hraw, htight, hgap'⟩, ?_, ?_⟩
  · rw [declared, String.toList_append, hparts]
    simp
  · exact (Binding.free_gap hgap hrow).cons (by decide) (by decide)
  · have htrim : Lexeme.trim (.char '~' :: (Lexeme.chars gap ++ (ls ++ Lexeme.chars gap'))) =
        .char '~' :: (Lexeme.chars gap ++ ls) := by
      rw [hraw]
      exact htight.strip (a := []) (by simp) (isBlank_gap hgap')
    have hread : Binding.ofExpression ((Lexeme.chars gap ++ ls).flatMap Lexeme.source) = .ok b :=
      Binding.ofExpression_eq_ok.mpr ⟨gap, ls, [], hgap, hls, Text.gap_nil, by simp⟩
    rw [bindingOf_expression htrim, hread]
    rfl
  · rw [inTag, attributeBinding, String.toList_append]
    exact hs

theorem Proper.drafted {v : RightHand} (h : v.Proper) : ∃ raw b, v.Drafted raw b := by
  cases v with
  | text s => exact ⟨_, _, drafted_text h⟩
  | path s =>
    obtain ⟨p, hp⟩ := Option.isSome_iff_exists.mp h.1
    exact ⟨_, _, drafted_path hp h⟩
  | expression s =>
    obtain ⟨b, hs, hnames⟩ := h
    obtain ⟨raw, hraw⟩ := drafted_expression hs hnames
    exact ⟨raw, b, hraw⟩

end RightHand

/-! ## Attributes and bindings -/

/-- A binding in both ways to write it: as an attribute with this quotation mark, and on a line of a
    declaration. -/
structure Setting where
  key : String
  value : RightHand
  quote : Char

namespace Setting

def inTag (s : Setting) : Attribute := ⟨s.key, s.value.inTag, s.quote⟩

structure Proper (s : Setting) : Prop where
  inTag : s.inTag.Quoted
  value : s.value.Proper

/-- The line that the setting is in a declaration. -/
structure Drafted (s : Setting) (l : Line) : Prop where
  key : l.key = s.key
  value : s.value.Drafted l.raw l.binding

end Setting

namespace IsIdentifier

variable {w : String}

theorem tight (h : IsIdentifier w) : Tight Text.isBlank w.toList := .of_forall h.ne h.not_blank

theorem bare (h : IsIdentifier w) : Bare w.toList :=
  Binding.bare_of_wordChars fun c hc => .inr (h.chars c hc)

theorem plainKey (h : IsIdentifier w) : PlainKey w where
  ne := h.ne_empty
  trim := h.tight.strip_self
  equals := h.not_mem (by decide +kernel)
  bare := h.bare

theorem headerWord (h : IsIdentifier w) : HeaderWord w.toList where
  brace := h.not_mem (by decide +kernel)
  quote := h.not_mem (by decide +kernel)
  marks := fun m hm => h.bare.marks m (List.mem_cons_of_mem _ hm)
  tight := h.tight

end IsIdentifier

theorem Setting.Drafted.reads {s : Setting} {l : Line} (h : s.Drafted l) (hs : s.Proper) : l.Reads where
  key := h.key ▸ hs.inTag.key.plainKey
  free := h.value.free
  tight := h.value.tight
  binding := h.value.binding

theorem exists_lines {settings : List Setting} (h : ∀ s ∈ settings, s.Proper) :
    ∃ ls, List.Forall₂ Setting.Drafted settings ls := by
  induction settings with
  | nil => exact ⟨[], .nil⟩
  | cons s settings ih =>
    obtain ⟨ls, hls⟩ := ih fun s hs => h s (List.mem_cons_of_mem _ hs)
    obtain ⟨raw, b, hraw⟩ := (h s List.mem_cons_self).value.drafted
    exact ⟨⟨s.key, raw, b⟩ :: ls, .cons ⟨rfl, hraw⟩ hls⟩

variable {settings : List Setting} {ls : List Line}

theorem keys_of_drafted (h : List.Forall₂ Setting.Drafted settings ls) :
    ls.map (·.key) = settings.map (·.key) := by
  induction h with
  | nil => rfl
  | cons hs _ ih => rw [List.map_cons, List.map_cons, ih, hs.key]

theorem reads_of_drafted (h : List.Forall₂ Setting.Drafted settings ls) (hsettings : ∀ s ∈ settings, s.Proper) :
    ∀ l ∈ ls, l.Reads := by
  induction h with
  | nil => exact nofun
  | cons hs _ ih =>
    refine List.forall_mem_cons.mpr ⟨hs.reads (hsettings _ List.mem_cons_self), ih fun s hs => ?_⟩
    exact hsettings s (List.mem_cons_of_mem _ hs)

/-- Attributes bind their keys to what the lines of the declaration do. -/
theorem inlineDeclaration_of_drafted (h : List.Forall₂ Setting.Drafted settings ls) (count : Nat) (typeName : String)
    (hkeys : (settings.map (·.key)).Nodup) :
    inlineDeclaration count typeName (settings.map fun s => (s.inTag.key, s.inTag.value)) =
      .ok ⟨"_inline_" ++ toString count, typeName, ls.map fun l => (l.key, l.binding)⟩ := by
  have hfold : ∀ (name : String) (acc : Bindings), (acc.names ++ settings.map (·.key)).Nodup →
      (settings.map fun s => (s.inTag.key, s.inTag.value)).foldlM (addAttribute name typeName) acc =
        .ok (acc ++ ls.map fun l => (l.key, l.binding)) := by
    intro name
    clear hkeys
    induction h with
    | nil => intro acc _; simp [pure, Except.pure]
    | @cons s l settings ls hs _ ih =>
      intro acc hnodup
      obtain ⟨hinsert, hrest⟩ := next_is_new l.binding hnodup
      have hadd : addAttribute name typeName acc (s.inTag.key, s.inTag.value) = .ok (acc ++ [(s.key, l.binding)]) := by
        rw [addAttribute, Setting.inTag]
        simp only [hs.value.inTag, hinsert]
      rw [List.map_cons, foldlM_cons_ok hadd, ih _ hrest]
      simp [hs.key]
  rw [inlineDeclaration, hfold _ [] (by simpa [Bindings.names] using hkeys)]
  rfl

/-! ## Templates and declarations -/

namespace Setting

/-- An attribute in a tag. -/
def text (s : Setting) : String :=
  " " ++ s.key ++ "=" ++ String.singleton s.quote ++ s.value.inTag ++ String.singleton s.quote

/-- A binding in a declaration. -/
def line (s : Setting) : String := " " ++ s.key ++ " = " ++ s.value.declared ++ ";"

end Setting

def inlineTemplate (typeName : String) (settings : List Setting) (content : String) : String :=
  "<wo:" ++ typeName ++ String.join (settings.map Setting.text) ++ ">" ++ content ++ "</wo:" ++ typeName ++ ">"

def namedTemplate (name content : String) : String :=
  "<webobject name=\"" ++ name ++ "\">" ++ content ++ "</webobject>"

def declarationText (name typeName : String) (settings : List Setting) : String :=
  name ++ " : " ++ typeName ++ " \x7b" ++ String.join (settings.map Setting.line) ++ " \x7d\n"

theorem toList_inlineTemplate (typeName : String) (settings : List Setting) (content : String) :
    (inlineTemplate typeName settings content).toList =
      Tag.openInlineText typeName (settings.map Setting.inTag) ++
        (content.toList ++ Tag.closeInlineText typeName) := by
  have hattributes : attributesText (settings.map Setting.inTag) = settings.flatMap fun s => s.text.toList := by
    rw [attributesText, List.flatMap_map]
    refine congrFun (congrArg _ (funext fun s => ?_)) _
    simp [Attribute.text, Setting.inTag, Setting.text]
  simp [inlineTemplate, Tag.openInlineText, Tag.closeInlineText, Tag.inlineMark, hattributes, List.flatMap_map]

theorem openNamedText_eq (name : String) :
    Tag.openNamedText name = "<webobject name=\"".toList ++ (name.toList ++ "\">".toList) := by
  have hstart : "<webobject name=\"".toList = '<' :: (Tag.webobject ++ ' ' :: ("name".toList ++ ['=', '"'])) := by
    decide +kernel
  have hend : "\">".toList = ['"', '>'] := by decide
  simp only [hstart, hend, Tag.openNamedText, attributesText, List.flatMap_singleton, Attribute.text,
    Tag.nameAttribute, List.cons_append, List.append_assoc, List.nil_append]

theorem toList_namedTemplate (name content : String) :
    (namedTemplate name content).toList = Tag.openNamedText name ++ (content.toList ++ Tag.closeNamedText) := by
  have hparts : ∀ a b c d e : String,
      (a ++ b ++ c ++ d ++ e).toList = a.toList ++ (b.toList ++ c.toList) ++ (d.toList ++ e.toList) := by
    simp [String.toList_append]
  have hend : Tag.closeNamedText = "</webobject>".toList := by decide +kernel
  rw [openNamedText_eq, hend]
  exact hparts _ _ _ _ _

theorem source_of_drafted (h : List.Forall₂ Setting.Drafted settings ls) :
    (bodyRow ls).flatMap Lexeme.source = (String.join (settings.map Setting.line)).toList ++ [' '] := by
  induction h with
  | nil => rfl
  | @cons s l settings ls hs _ ih =>
    rw [bodyRow_cons, List.flatMap_append, List.flatMap_cons, List.flatMap_cons, ih, Line.row, List.flatMap_append,
      source_chars, List.flatMap_cons, List.flatMap_cons, List.flatMap_cons, hs.value.source, hs.key, List.map_cons,
      String.join_cons]
    simp [Setting.line]

/-- The declaration is read with what the attributes are read as. -/
theorem parse_declarationText {name typeName : String} (hname : IsIdentifier name) (htype : IsIdentifier typeName)
    (h : List.Forall₂ Setting.Drafted settings ls) (hsettings : ∀ s ∈ settings, s.Proper)
    (hkeys : (settings.map (·.key)).Nodup)
    (hsize : (declarationText name typeName settings).length ≤ Nat.pow 2 64) :
    Declarations.parse (declarationText name typeName settings) =
      .ok [(name, ⟨name, typeName, ls.map fun l => (l.key, l.binding)⟩)] := by
  have hreads : ∀ d ∈ [(⟨name, typeName, ls⟩ : Draft)], d.Reads := by
    refine List.forall_mem_singleton.mpr ⟨hname.headerWord, hname.not_mem (by decide +kernel), ?_,
      htype.headerWord, keys_of_drafted h ▸ hkeys, reads_of_drafted h hsettings⟩
    intro hsemicolon
    exact hname.not_mem (c := ';') (by decide +kernel) (List.mem_of_mem_head? hsemicolon)
  have hfile : (draftRows [(⟨name, typeName, ls⟩ : Draft)]).flatMap Lexeme.source =
      (declarationText name typeName settings).toList := by
    rw [draftRows_cons, Draft.row]
    simp [source_of_drafted h, declarationText, Draft.header, draftRows]
  exact parse_drafts hfile (List.pairwise_singleton _ _) hreads hsize

/-! ## Compiling -/

variable {r : Registry σ} {ds : Declarations}

theorem foldlM_text (text : List Char) (c : Compilation) :
    (text.map Token.char).foldlM (Compilation.step r ds) c =
      .ok { c with top := { c.top with text := text.reverse ++ c.top.text } } := by
  induction text generalizing c with
  | nil => rfl
  | cons ch text ih =>
    rw [List.map_cons, foldlM_cons_ok (show Compilation.step r ds c (.char ch) = _ from rfl), ih]
    simp [OpenTag.addText]

/-- One tag with a text in it compiles to its element. -/
theorem compileWith_enclosed {template : String} {text source source' : List Char} {opening closing : Tag}
    {t : OpenTag} {count : Nat}
    (hlex : lex template.toList = .ok (.tag opening source :: (text.map .char ++ [.tag closing source'])))
    (hopen : Compilation.handle r ds {} opening = .ok ⟨[({} : Compilation).top], t, count⟩) (ht : t.text = [])
    (hclose : ∀ c : Compilation, c.top.kind = t.kind → c.handle r ds closing = c.close r ds) :
    compileWith r ds template = (build r ds { t with text := text.reverse }).map fun e => .group none [e] := by
  have hstep : Compilation.step r ds {} (.tag opening source) = _ := hopen
  rw [Compilation.compileWith_eq hlex, foldlM_cons_ok hstep,
    foldlM_append_ok (foldlM_text text _), List.foldlM_cons]
  simp only [Compilation.step, ht, List.append_nil]
  rw [hclose _ rfl, Compilation.close]
  rcases build r ds { t with text := text.reverse } with e | e <;> rfl

/-- Text between tags is no content of its own, so the tag does not give it a name. -/
theorem content_text (name name' : Option String) (kind kind' : TagKind) (text : List Char) :
    (⟨name, kind, [], text⟩ : OpenTag).content = (⟨name', kind', [], text⟩ : OpenTag).content := by
  cases text <;> rfl

theorem called_elementOf {d : Declaration} {type : ElementType σ} {content : Option Element} (name : String) :
    elementOf { d with name := name } type content = (elementOf d type content).map (Element.called name) := by
  cases type with
  | component c => rfl
  | builtin b =>
    rw [elementOf, elementOf]
    rcases hbuild : b.build d.bindings with e | control
    · rfl
    · -- what is built in is not told the name of its tag
      have hbuiltIn := (Builtin.from_of_build hbuild).builtIn
      cases control with
      | widget typeName tag bs => exact absurd rfl (hbuiltIn typeName tag bs)
      | _ => rfl
  | widget w =>
    rw [elementOf, elementOf]
    rcases w.accept d.bindings with e | bindings <;> rfl

/-- Elements are made the same, and fail for the same reason, whatever the tag is called. -/
theorem build_called {ds' : Declarations} {t t' : OpenTag} {d : Declaration} {name : String}
    (ht : declarationOf ds t = .ok { d with name := name }) (ht' : declarationOf ds' t' = .ok d)
    (hcontent : t.content = t'.content) :
    build r ds t = ((build r ds' t').map (Element.called name)).mapError (CompileError.called name) := by
  rw [build, build, ht, ht', hcontent]
  simp only [bind, Except.bind]
  generalize (d.bindings.flatMap (·.2.helperNames)).find? (!r.helpers.contains ·) = unknown
  cases unknown with
  | some helper => rfl
  | none =>
    simp only [called_elementOf name]
    rcases r.resolve d.typeName with e | type
    · rfl
    · simp only
      rcases elementOf d type t'.content with e | e <;> rfl

section Tags

variable {name typeName content : String}

/-- The tag that carries its bindings has the declaration that they make. -/
theorem compileWith_inlineTemplate (htype : IsIdentifier typeName) (h : List.Forall₂ Setting.Drafted settings ls)
    (hsettings : ∀ s ∈ settings, s.Proper) (hkeys : (settings.map (·.key)).Nodup)
    (hcontent : '<' ∉ content.toList) :
    compileWith r ds (inlineTemplate typeName settings content) =
      (build r ds ⟨some "_inline_0", .inline ⟨"_inline_0", typeName, ls.map fun l => (l.key, l.binding)⟩, [],
        content.toList.reverse⟩).map fun e => .group none [e] := by
  have hquoted : ∀ a ∈ settings.map Setting.inTag, a.Quoted := by
    intro a ha
    obtain ⟨s, hs, rfl⟩ := List.mem_map.mp ha
    exact (hsettings s hs).inTag
  have hread := Tag.read?_openInline htype hquoted
  rw [List.map_map] at hread
  obtain ⟨_, _, hlex⟩ := lex_enclosed hread (Tag.read?_closeInline htype) hcontent
  rw [← toList_inlineTemplate] at hlex
  have hopen : Compilation.handle r ds {}
        (.openInline typeName (settings.map fun s => (s.inTag.key, s.inTag.value)) false) =
      .ok ⟨[({} : Compilation).top],
        ⟨some "_inline_0", .inline ⟨"_inline_0", typeName, ls.map fun l => (l.key, l.binding)⟩, [], []⟩, 1⟩ := by
    rw [Compilation.handle]
    exact congrArg (· >>= _) (inlineDeclaration_of_drafted h 0 typeName hkeys)
  refine compileWith_enclosed hlex hopen rfl fun c hc => ?_
  · rw [Compilation.handle, Compilation.closeTag, hc]
    simp

theorem compileWith_namedTemplate (hname : IsIdentifier name) (hcontent : '<' ∉ content.toList) :
    compileWith r ds (namedTemplate name content) =
      (build r ds ⟨some name, .named, [], content.toList.reverse⟩).map fun e => .group none [e] := by
  obtain ⟨_, _, hlex⟩ := lex_enclosed (Tag.read?_openNamed hname) Tag.read?_closeNamed hcontent
  rw [← toList_namedTemplate] at hlex
  refine compileWith_enclosed hlex rfl rfl fun c hc => ?_
  rw [Compilation.handle, Compilation.closeTag, hc]
  rfl

end Tags

/-- A tag that carries its bindings itself compiles as one that names a declaration with the same bindings in the same
    order, but for what the tag is called. Literals are numbered below `2^64`, and no text in memory has more. -/
theorem inline_tags_agree_with_declared_ones (r : Registry σ) {name typeName content : String}
    {settings : List Setting} (hname : IsIdentifier name) (htype : IsIdentifier typeName)
    (hsettings : ∀ s ∈ settings, s.Proper) (hkeys : (settings.map (·.key)).Nodup) (hcontent : '<' ∉ content.toList)
    (hsize : (declarationText name typeName settings).length ≤ Nat.pow 2 64) :
    compile r (inlineTemplate typeName settings content) "" =
      called "_inline_0" (compile r (namedTemplate name content) (declarationText name typeName settings)) := by
  obtain ⟨ls, hls⟩ := exists_lines hsettings
  have hempty : (draftRows []).flatMap Lexeme.source = "".toList := rfl
  have hnone : Declarations.parse "" = .ok [] := parse_drafts hempty .nil nofun (by decide)
  have hinline : ∀ d : Declaration,
      declarationOf [] ⟨some d.name, .inline d, [], content.toList.reverse⟩ = .ok d := fun _ => rfl
  have hnamed : ∀ d : Declaration,
      declarationOf [(name, d)] ⟨some name, .named, [], content.toList.reverse⟩ = .ok d := by
    intro d
    rw [declarationOf]
    simp [Assoc.get?]
  simp only [compile, hnone, parse_declarationText hname htype hls hsettings hkeys hsize]
  rw [compileWith_inlineTemplate htype hls hsettings hkeys hcontent, compileWith_namedTemplate hname hcontent,
    build_called (hinline ⟨"_inline_0", typeName, ls.map fun l => (l.key, l.binding)⟩)
      (hnamed ⟨name, typeName, ls.map fun l => (l.key, l.binding)⟩) (content_text _ _ _ _ _)]
  rcases build r _ _ with e | e <;> rfl

/-- A text that would end a binding, begin a comment and look like a placeholder; a key path; and a call of a helper
    with a literal in its arguments. -/
def cardSettings : List Setting :=
  [⟨"title", .text "a;\t\"b\" \\ \x7d // /* #qs0#", '\''⟩, ⟨"items", .path "user.items", '"'⟩,
    ⟨"note", .expression " default( user.note, \";none\")", '\''⟩]

def cards : Registry Unit := { types := [("Card", .component ⟨"Card", "", "", ()⟩)] }

theorem card_tags_agree :
    compile cards (inlineTemplate "Card" cardSettings "1 > 0 & \"so on\"") "" =
        called "_inline_0"
          (compile cards (namedTemplate "X" "1 > 0 & \"so on\"") (declarationText "X" "Card" cardSettings)) ∧
      (compile cards (inlineTemplate "Card" cardSettings "1 > 0 & \"so on\"") "").toOption.isSome = true := by
  have htags : ∀ s ∈ cardSettings, s.inTag.Quoted := by decide +kernel
  have hvalues : ∀ s ∈ cardSettings, s.value.Proper := by
    refine List.forall_mem_cons.mpr ⟨?_, List.forall_mem_cons.mpr ⟨?_, List.forall_mem_singleton.mpr ?_⟩⟩
    · intro c hc
      obtain rfl : 'a' = c := Option.some.inj hc
      decide
    · exact ⟨by decide +kernel, by decide +kernel, by decide +kernel⟩
    · have hread : (Binding.ofExpression " default( user.note, \";none\")".toList).toOption.map Binding.helperNames =
          some ["default"] := by
        decide +kernel
      rcases h : Binding.ofExpression " default( user.note, \";none\")".toList with e | b <;> rw [h] at hread
      · cases hread
      · have hnames : b.helperNames = ["default"] := Option.some.inj hread
        refine ⟨b, h, ?_⟩
        rw [hnames]
        decide +kernel
  exact ⟨inline_tags_agree_with_declared_ones cards (by decide +kernel) (by decide +kernel)
    (fun s hs => ⟨htags s hs, hvalues s hs⟩) (by decide) (by decide +kernel) (by decide +kernel), by decide +kernel⟩

end Template

end PageServer
