/-
  PageServer.Proofs.Sources — what stands in a template stays in its place.

  A template is a row of characters and dynamic tags (`Template.lex`), and the sources of the two
  make up the template (`lex_source`). Elements are written as such a row depth first: a text as its
  characters, what a tag stands for as the tag, its content and the closing tag (`Written`). What a
  compilation holds is written as the part of the template that was read so far, with each open tag
  before what it holds (`Nested`); every character and every tag keeps it so (`Nested.run`).

  This is about elements as they are made. The built-in elements that show a value of their own have
  no content, and what stands between their tags is checked but not kept: `KeepsContent` leaves them
  out.
-/

import Mathlib.Data.List.Chain
import PageServer.Template.Compiler

namespace PageServer

variable {σ : Type}

/-! ## Elements side by side -/

namespace Element

/-- What stands between the tags of a component or control. -/
def content : Element → Option Element
  | .component _ _ _ content | .control _ content => content
  | _ => none

def isText : Element → Bool
  | .text _ => true
  | _ => false

/-- No two texts stand side by side. -/
def Spaced (es : List Element) : Prop := es.IsChain fun a b => ¬(a.isText ∧ b.isText)

/-- What stands between the tags called `name`, as one element. -/
def joined (name : Option String) : List Element → Option Element
  | [] => none
  | [e] => if e.isComponent then some (.group name [e]) else some e
  | es => some (.group name es)

theorem Spaced.append {es : List Element} {e : Element} (h : Spaced es)
    (he : e.isText = false ∨ ∀ last ∈ es.getLast?, last.isText = false) : Spaced (es ++ [e]) := by
  refine List.isChain_append.mpr ⟨h, .singleton e, fun last hlast first hfirst ⟨htext, htext'⟩ => ?_⟩
  cases hfirst
  rcases he with he | he
  · rw [he] at htext'
    cases htext'
  · rw [he last hlast] at htext
    cases htext

end Element

/-- What is made for a tag has what stands between its tags. -/
def Registry.KeepsContent (r : Registry σ) : Prop :=
  ∀ name type d content e, r.resolve name = .ok type → Template.elementOf d type content = .ok e → e.content = content

def ElementType.keepsContent : ElementType σ → Bool
  | .builtin t => t.hasContent
  | _ => true

theorem Registry.keepsContent_of_all {r : Registry σ} (h : r.types.all (·.2.keepsContent) = true) :
    r.KeepsContent := by
  intro name type d content e htype he
  have hkeeps : type.keepsContent = true := by
    rw [Registry.resolve] at htype
    split at htype <;> cases htype
    rename_i hget
    exact List.all_eq_true.mp h _ (Assoc.mem_of_get? hget)
  cases type with
  | component c =>
    cases he
    rfl
  | builtin t =>
    rw [Template.elementOf] at he
    rcases ht : t.build d.bindings with error | control <;> rw [ht] at he <;> cases he
    rw [if_pos (show t.hasContent = true from hkeeps)]
    rfl
  | widget w =>
    rw [Template.elementOf] at he
    rcases hw : w.accept d.bindings with error | bindings <;> rw [hw] at he <;> cases he
    rfl

namespace Template

/-! ## Characters and tags -/

inductive Token where
  | char (c : Char)
  | tag (t : Tag) (source : List Char)

def Token.source : Token → List Char
  | .char c => [c]
  | .tag _ source => source

/-- The characters and dynamic tags of a template. -/
def lex (s : List Char) : Except MarkupError (List Token) :=
  match s with
  | [] => .ok []
  | c :: rest =>
    match _h : Tag.read? (c :: rest) with
    | .error e => .error e
    | .ok none => (lex rest).map (.char c :: ·)
    | .ok (some (t, after)) =>
      (lex after).map (.tag t ((c :: rest).take ((c :: rest).length - after.length)) :: ·)
  termination_by s.length
  decreasing_by
    · simp
    · exact Tag.read?_length _h

/-! ## Sources -/

theorem Tag.cutEnd?_eq {quote : Option Char} {s inner after : List Char}
    (h : cutEnd? quote s = some (inner, after)) : s = inner ++ '>' :: after := by
  induction s generalizing quote inner with
  | nil => cases h
  | cons c r ih =>
    have step : ∀ q, ((cutEnd? q r).map fun p => (c :: p.1, p.2)) = some (inner, after) →
        c :: r = inner ++ '>' :: after := by
      intro q hq
      obtain ⟨⟨i, a⟩, hi, ha⟩ := Option.map_eq_some_iff.mp hq
      cases ha
      rw [ih hi, List.cons_append]
    unfold cutEnd? at h
    cases quote with
    | some q => exact step _ h
    | none =>
      dsimp only at h
      by_cases hquote : c = '"' ∨ c = '\''
      · rw [if_pos hquote] at h
        exact step _ h
      rw [if_neg hquote] at h
      by_cases hend : c = '>'
      · rw [if_pos hend] at h
        cases h
        rw [hend, List.nil_append]
      · rw [if_neg hend] at h
        exact step _ h

theorem Tag.readMark_eq (s : List Char) : s = mark (readMark s).1 ++ (readMark s).2 := by
  unfold readMark
  split <;> rfl

/-- A dynamic tag stands between angle brackets. -/
theorem Tag.read?_eq {s after : List Char} {t : Tag} (h : read? s = .ok (some (t, after))) :
    ∃ inside, s = '<' :: (inside ++ '>' :: after) := by
  unfold read? at h
  split at h
  · rename_i r
    have hmark := readMark_eq r
    generalize readMark r = p at h hmark
    simp only at h
    split at h
    · cases h
    · split at h
      · cases h
      · rename_i inner after' hcut
        obtain rfl := after_of_map h
        refine ⟨mark p.1 ++ inner, ?_⟩
        rw [hmark, cutEnd?_eq hcut, List.append_assoc]
  · cases h

theorem lex_char {c : Char} {rest : List Char} (h : Tag.read? (c :: rest) = .ok none) :
    lex (c :: rest) = (lex rest).map (.char c :: ·) := by
  rw [lex]
  split
  · simp_all
  · rfl
  · simp_all

theorem lex_tag {c : Char} {rest after : List Char} {t : Tag} (h : Tag.read? (c :: rest) = .ok (some (t, after))) :
    ∃ source, c :: rest = source ++ after ∧ lex (c :: rest) = (lex after).map (.tag t source :: ·) := by
  obtain ⟨inside, hinside⟩ := Tag.read?_eq h
  have htake : (c :: rest).take ((c :: rest).length - after.length) = '<' :: (inside ++ ['>']) := by
    rw [hinside, show '<' :: (inside ++ '>' :: after) = '<' :: (inside ++ ['>']) ++ after by simp,
      List.length_append, Nat.add_sub_cancel, List.take_left]
  refine ⟨'<' :: (inside ++ ['>']), by rw [hinside]; simp, ?_⟩
  rw [lex]
  split
  · simp_all
  · simp_all
  · rename_i t' after' h'
    rw [h] at h'
    cases h'
    rw [htake]

/-- The sources of its characters and tags make up a template. -/
theorem lex_source {s : List Char} {ts : List Token} (h : lex s = .ok ts) : ts.flatMap Token.source = s := by
  induction hn : s.length using Nat.strong_induction_on generalizing s ts with
  | _ n ih =>
    subst hn
    cases s with
    | nil =>
      rw [lex] at h
      cases h
      rfl
    | cons c rest =>
      rcases hread : Tag.read? (c :: rest) with e | _ | ⟨t, after⟩
      · rw [lex] at h
        split at h <;> simp_all
      · rw [lex_char hread] at h
        rcases hrest : lex rest with e | ts' <;> rw [hrest] at h <;> cases h
        rw [List.flatMap_cons, ih _ (by simp) hrest rfl]
        rfl
      · obtain ⟨source, hsource, hlex⟩ := lex_tag hread
        rw [hlex] at h
        rcases hafter : lex after with e | ts' <;> rw [hafter] at h <;> cases h
        rw [List.flatMap_cons, ih _ (Tag.read?_length hread) hafter rfl, hsource]
        rfl

/-! ## Elements as they are written -/

/-- The tag `name` with the declaration `d` opens here. -/
inductive Opens (ds : Declarations) : Tag → String → Declaration → Prop
  | named {name : String} {selfClosing : Bool} {d : Declaration} :
      Assoc.get? name ds = some d → Opens ds (.openNamed name selfClosing) name d
  | inline {count : Nat} {typeName : String} {attributes : List (String × String)} {selfClosing : Bool}
      {d : Declaration} : inlineDeclaration count typeName attributes = .ok d →
      Opens ds (.openInline typeName attributes selfClosing) d.name d

namespace Tag

def isSelfClosing : Tag → Bool
  | .openNamed _ selfClosing | .openInline _ _ selfClosing => selfClosing
  | _ => false

def isClosedBy : Tag → Tag → Bool
  | .openNamed _ false, .closeNamed => true
  | .openInline typeName _ false, .closeInline typeName' => typeName == typeName'
  | _, _ => false

end Tag

/-- `e` is made from the declaration, around the content. -/
def Made (r : Registry σ) (d : Declaration) (content : Option Element) (e : Element) : Prop :=
  (∃ type, r.resolve d.typeName = .ok type ∧ elementOf d type content = .ok e) ∧ e.content = content

/-- The elements, one after the other, as the characters and tags they come from. -/
inductive Written (r : Registry σ) (ds : Declarations) : List Element → List Token → Prop
  | nil : Written r ds [] []
  | text {s : List Char} {es : List Element} {ts : List Token} : s ≠ [] → Written r ds es ts →
      Written r ds (.text (String.ofList s) :: es) (s.map .char ++ ts)
  /-- A tag that is closed in itself. -/
  | alone {opening : Tag} {source : List Char} {name : String} {d : Declaration} {e : Element} {es : List Element}
      {ts : List Token} : Opens ds opening name d → opening.isSelfClosing = true → Made r d none e →
      Written r ds es ts → Written r ds (e :: es) (.tag opening source :: ts)
  /-- A tag with what stands before its closing tag. -/
  | around {opening closing : Tag} {source source' : List Char} {name : String} {d : Declaration} {e : Element}
      {inside es : List Element} {between ts : List Token} : Opens ds opening name d →
      opening.isClosedBy closing = true → Written r ds inside between → Element.Spaced inside →
      Made r d (Element.joined (some name) inside) e → Written r ds es ts →
      Written r ds (e :: es) (.tag opening source :: (between ++ .tag closing source' :: ts))

variable {r : Registry σ} {ds : Declarations}

theorem Written.append {es es' : List Element} {ts ts' : List Token} (h : Written r ds es ts)
    (h' : Written r ds es' ts') : Written r ds (es ++ es') (ts ++ ts') := by
  induction h with
  | nil => exact h'
  | text hs _ ih =>
    rw [List.cons_append, List.append_assoc]
    exact .text hs ih
  | alone hopens hself hmade _ ih => exact .alone hopens hself hmade ih
  | around hopens hcloses hinside hspaced hmade _ _ ih =>
    simp only [List.cons_append, List.append_assoc]
    exact .around hopens hcloses hinside hspaced hmade ih

theorem Made.isText {d : Declaration} {content : Option Element} {e : Element} (h : Made r d content e) :
    e.isText = false := by
  obtain ⟨⟨type, -, he⟩, -⟩ := h
  cases type with
  | component c =>
    cases he
    rfl
  | builtin b =>
    rw [elementOf] at he
    rcases hb : b.build d.bindings with error | control <;> rw [hb] at he <;> cases he
    rfl
  | widget w =>
    rw [elementOf] at he
    rcases hw : w.accept d.bindings with error | bindings <;> rw [hw] at he <;> cases he
    rfl

/-! ## Open tags -/

namespace OpenTag

/-- What an open tag was opened by. -/
inductive OpenedBy : OpenTag → Tag → Prop
  | named {t : OpenTag} {name : String} {selfClosing : Bool} : t.name = some name → t.kind = .named →
      OpenedBy t (.openNamed name selfClosing)
  | inline {t : OpenTag} {d : Declaration} {count : Nat} {typeName : String} {attributes : List (String × String)}
      {selfClosing : Bool} : t.name = some d.name → t.kind = .inline d →
      inlineDeclaration count typeName attributes = .ok d → OpenedBy t (.openInline typeName attributes selfClosing)

theorem OpenedBy.congr {t t' : OpenTag} {opening : Tag} (h : t.OpenedBy opening) (hname : t'.name = t.name)
    (hkind : t'.kind = t.kind) : t'.OpenedBy opening := by
  cases h with
  | named hn hk => exact .named (hname.trans hn) (hkind.trans hk)
  | inline hn hk hd => exact .inline (hname.trans hn) (hkind.trans hk) hd

/-- What is in an open tag so far. -/
structure Holds (r : Registry σ) (ds : Declarations) (t : OpenTag) (ts : List Token) : Prop where
  written : ∃ before, Written r ds t.elements.reverse before ∧ ts = before ++ t.text.reverse.map .char
  spaced : Element.Spaced t.elements.reverse
  /-- A text is put down with the tag after it. -/
  last : ∀ e ∈ t.elements.head?, e.isText = false

theorem OpenedBy.opens {t : OpenTag} {opening : Tag} {d : Declaration} (h : t.OpenedBy opening)
    (hd : declarationOf ds t = .ok d) : ∃ name, t.name = some name ∧ Opens ds opening name d := by
  cases h with
  | named hname hkind =>
    refine ⟨_, hname, .named ?_⟩
    simp only [declarationOf, hkind, hname, Option.getD_some] at hd
    split at hd <;> cases hd
    assumption
  | inline hname hkind hdeclared =>
    simp only [declarationOf, hkind] at hd
    cases hd
    exact ⟨_, hname, .inline hdeclared⟩

theorem content_eq (t : OpenTag) : t.content = Element.joined t.name t.children := rfl

variable {t : OpenTag} {ts : List Token}

theorem Holds.nothing {name : Option String} {kind : TagKind} : Holds r ds ⟨name, kind, [], []⟩ [] :=
  ⟨⟨[], .nil, rfl⟩, .nil, nofun⟩

theorem Holds.addText (h : t.Holds r ds ts) (c : Char) : (t.addText c).Holds r ds (ts ++ [.char c]) := by
  obtain ⟨before, hbefore, rfl⟩ := h.written
  exact ⟨⟨before, hbefore, by simp [OpenTag.addText]⟩, h.spaced, h.last⟩

theorem Holds.children (h : t.Holds r ds ts) : Written r ds t.children ts ∧ Element.Spaced t.children := by
  obtain ⟨before, hbefore, rfl⟩ := h.written
  unfold OpenTag.children flushed
  by_cases htext : t.text = []
  · rw [if_pos (by rw [htext]; rfl), htext]
    simpa using ⟨hbefore, h.spaced⟩
  · rw [if_neg (by simpa using htext), List.reverse_cons]
    refine ⟨hbefore.append ?_, h.spaced.append (.inr fun last hlast => h.last last ?_)⟩
    · have hlast : Written r ds [.text (String.ofList t.text.reverse)] (t.text.reverse.map .char ++ []) :=
        .text (by simpa using htext) .nil
      rwa [List.append_nil] at hlast
    · rwa [List.getLast?_reverse] at hlast

theorem Holds.addElement (h : t.Holds r ds ts) {e : Element} {row : List Token} (he : Written r ds [e] row)
    (htext : e.isText = false) : (t.addElement e).Holds r ds (ts ++ row) := by
  obtain ⟨hchildren, hspaced⟩ := h.children
  refine ⟨⟨ts ++ row, ?_, by simp [OpenTag.addElement]⟩, ?_, ?_⟩
  · rw [OpenTag.addElement, List.reverse_cons]
    exact hchildren.append he
  · rw [OpenTag.addElement, List.reverse_cons]
    exact hspaced.append (.inl htext)
  · intro last hlast
    cases hlast
    exact htext

/-- A tag that an element is made for has a declaration, calls no unknown helpers, and has a type. -/
theorem build_eq_ok {e : Element} (h : build r ds t = .ok e) :
    ∃ d type, declarationOf ds t = .ok d ∧ (∀ name ∈ d.bindings.flatMap (·.2.helperNames), r.helpers.contains name = true) ∧
      r.resolve d.typeName = .ok type ∧ elementOf d type t.content = .ok e := by
  unfold build at h
  rcases hd : declarationOf ds t with error | d <;> rw [hd] at h
  · cases h
  simp only [bind, Except.bind] at h
  split at h
  · cases h
  · rename_i hfind
    rcases htype : r.resolve d.typeName with error | type <;> rw [htype] at h
    · cases h
    rcases he : elementOf d type t.content with error | e' <;> simp only [he] at h <;> cases h
    refine ⟨d, type, rfl, fun name hname => ?_, htype, he⟩
    simpa using List.find?_eq_none.mp (Option.eq_none_iff_forall_ne_some.mpr hfind) name hname

theorem made_of_build (hr : r.KeepsContent) {e : Element} (h : build r ds t = .ok e) :
    ∃ d, declarationOf ds t = .ok d ∧ Made r d t.content e := by
  obtain ⟨d, type, hd, -, htype, he⟩ := build_eq_ok h
  exact ⟨d, hd, ⟨type, htype, he⟩, hr _ _ _ _ _ htype he⟩

end OpenTag

/-! ## Compilations -/

/-- The open tags, innermost one first, hold these characters and tags. -/
inductive Nested (r : Registry σ) (ds : Declarations) : List OpenTag → List Token → Prop
  | root {t : OpenTag} {ts : List Token} : t.name = none → t.kind = .root → t.Holds r ds ts → Nested r ds [t] ts
  | inside {t t' : OpenTag} {outer : List OpenTag} {opening : Tag} {source : List Char} {ts between : List Token} :
      Nested r ds (t :: outer) ts → t'.OpenedBy opening → opening.isSelfClosing = false → t'.Holds r ds between →
      Nested r ds (t' :: t :: outer) (ts ++ .tag opening source :: between)

namespace Nested

variable {t : OpenTag} {outer : List OpenTag} {ts : List Token}

/-- What is added to what the innermost tag holds is added to the whole. -/
theorem mapTop {t' : OpenTag} {row : List Token} (h : Nested r ds (t :: outer) ts) (hname : t'.name = t.name)
    (hkind : t'.kind = t.kind) (hholds : ∀ held, t.Holds r ds held → t'.Holds r ds (held ++ row)) :
    Nested r ds (t' :: outer) (ts ++ row) := by
  cases h with
  | root hroot hk hheld => exact .root (hname.trans hroot) (hkind.trans hk) (hholds _ hheld)
  | inside houter hopened hself hheld =>
    rw [List.append_assoc, List.cons_append]
    exact .inside houter (hopened.congr hname hkind) hself (hholds _ hheld)

theorem addText (h : Nested r ds (t :: outer) ts) (c : Char) :
    Nested r ds (t.addText c :: outer) (ts ++ [.char c]) :=
  h.mapTop rfl rfl fun _ hheld => hheld.addText c

theorem addElement (h : Nested r ds (t :: outer) ts) {e : Element} {row : List Token} (he : Written r ds [e] row)
    (htext : e.isText = false) : Nested r ds (t.addElement e :: outer) (ts ++ row) :=
  h.mapTop rfl rfl fun _ hheld => hheld.addElement he htext

end Nested

/-- What each step keeps of what was read holds at the end of a run that goes well. -/
theorem foldlM_keeps {ε α β : Type} {f : β → α → Except ε β} {P : β → List α → Prop}
    (hstep : ∀ {b b' : β} {a : α} {read : List α}, P b read → f b a = .ok b' → P b' (read ++ [a])) {b b' : β}
    {read l : List α} (h : P b read) (hl : l.foldlM f b = .ok b') : P b' (read ++ l) := by
  induction l generalizing b read with
  | nil =>
    cases hl
    rwa [List.append_nil]
  | cons a l ih =>
    rw [List.foldlM_cons] at hl
    rcases hnext : f b a with error | next <;> rw [hnext] at hl
    · cases hl
    · rw [List.append_cons]
      exact ih (hstep h hnext) hl

namespace Compilation

/-- What the open tags hold, the innermost one and those around it. -/
def Covers (r : Registry σ) (ds : Declarations) (c : Compilation) (ts : List Token) : Prop :=
  Nested r ds (c.top :: c.outer) ts

theorem covers_start : Covers r ds {} [] := .root rfl rfl .nothing

variable {c c' : Compilation} {ts : List Token}

theorem eq_of_close {t : OpenTag} {outer : List OpenTag} (houter : c.outer = t :: outer)
    (h : c.close r ds = .ok c') :
    ∃ e, build r ds c.top = .ok e ∧ c' = { c with outer := outer, top := t.addElement e } := by
  rw [close, houter] at h
  rcases he : build r ds c.top with error | e <;> simp only [he] at h <;> cases h
  exact ⟨e, rfl, rfl⟩

theorem typeName_of_inline {count : Nat} {typeName : String} {attributes : List (String × String)} {d : Declaration}
    (h : inlineDeclaration count typeName attributes = .ok d) : d.typeName = typeName := by
  rw [inlineDeclaration] at h
  rcases hbs : attributes.foldlM (addAttribute ("_inline_" ++ toString count) typeName) [] with error | bs <;>
    simp only [hbs] at h <;> cases h
  rfl

/-- One more character or tag is read. -/
def step (r : Registry σ) (ds : Declarations) (c : Compilation) : Token → Except CompileError Compilation
  | .char ch => .ok { c with top := c.top.addText ch }
  | .tag t _ => c.handle r ds t

/-- Compiling goes over the characters and tags of a text, one after the other. -/
theorem lex_of_run {s : List Char} (hc : run r ds c s = .ok c') :
    ∃ read, lex s = .ok read ∧ read.foldlM (step r ds) c = .ok c' := by
  induction hn : s.length using Nat.strong_induction_on generalizing c s with
  | _ n ih =>
    subst hn
    cases s with
    | nil =>
      rw [run] at hc
      cases hc
      exact ⟨[], by rw [lex], rfl⟩
    | cons char rest =>
      rw [run] at hc
      split at hc
      · cases hc
      · rename_i hread
        obtain ⟨read, hlex, hfold⟩ := ih _ (by simp) hc rfl
        exact ⟨.char char :: read, by rw [lex_char hread, hlex]; rfl, hfold⟩
      · rename_i tag after hread
        obtain ⟨source, -, hlex⟩ := lex_tag hread
        rcases hhandled : c.handle r ds tag with error | next <;> rw [hhandled] at hc
        · cases hc
        obtain ⟨read, hlex', hfold⟩ := ih _ (Tag.read?_length hread) hc rfl
        refine ⟨.tag tag source :: read, by rw [hlex, hlex']; rfl, ?_⟩
        rw [List.foldlM_cons, show step r ds c (.tag tag source) = .ok next from hhandled]
        exact hfold

variable (hr : r.KeepsContent)
include hr

theorem openTag_covers {t : OpenTag} {opening : Tag} (h : c.Covers r ds ts) (ht : t = ⟨t.name, t.kind, [], []⟩)
    (hopened : t.OpenedBy opening) (hc : c.openTag r ds t opening.isSelfClosing = .ok c') (source : List Char) :
    c'.Covers r ds (ts ++ [.tag opening source]) := by
  have hholds : t.Holds r ds [] := ht ▸ .nothing
  rw [openTag] at hc
  by_cases hself : opening.isSelfClosing = true
  · rw [if_pos hself] at hc
    obtain ⟨e, he, rfl⟩ := eq_of_close rfl hc
    obtain ⟨d, hd, hmade⟩ := OpenTag.made_of_build hr he
    obtain ⟨name, -, hopens⟩ := hopened.opens hd
    have hempty : t.content = none := by rw [ht]; rfl
    rw [hempty] at hmade
    exact Nested.addElement h (.alone hopens hself hmade .nil) hmade.isText
  · rw [if_neg hself] at hc
    cases hc
    exact .inside h hopened (by simpa using hself) hholds

theorem close_covers {closing : Tag} (h : c.Covers r ds ts)
    (hfits : ∀ opening : Tag, c.top.OpenedBy opening → opening.isSelfClosing = false → opening.isClosedBy closing = true)
    (hc : c.close r ds = .ok c') (source : List Char) : c'.Covers r ds (ts ++ [.tag closing source]) := by
  obtain ⟨outer, top, count⟩ := c
  cases h with
  | root => cases hc
  | inside houter hopened hself hholds =>
    obtain ⟨e, he, rfl⟩ := eq_of_close rfl hc
    obtain ⟨d, hd, hmade⟩ := OpenTag.made_of_build hr he
    obtain ⟨name, hname, hopens⟩ := hopened.opens hd
    obtain ⟨hchildren, hspaced⟩ := hholds.children
    rw [OpenTag.content_eq, hname] at hmade
    rw [List.append_assoc, List.cons_append]
    exact Nested.addElement houter
      (.around hopens (hfits _ hopened hself) hchildren hspaced hmade .nil) hmade.isText

theorem closeTag_covers {closing : Tag} {fits : TagKind → Bool} {found : String} (h : c.Covers r ds ts)
    (hfits : ∀ opening : Tag, c.top.OpenedBy opening → opening.isSelfClosing = false → fits c.top.kind = true →
      opening.isClosedBy closing = true)
    (hc : c.closeTag r ds fits found = .ok c') (source : List Char) :
    c'.Covers r ds (ts ++ [.tag closing source]) := by
  rw [closeTag] at hc
  by_cases hkind : fits c.top.kind = true
  · rw [if_pos hkind] at hc
    exact close_covers hr h (fun opening hopened hself => hfits opening hopened hself hkind) hc source
  · rw [if_neg hkind] at hc
    split at hc <;> cases hc

theorem handle_covers {tag : Tag} (h : c.Covers r ds ts) (hc : c.handle r ds tag = .ok c') (source : List Char) :
    c'.Covers r ds (ts ++ [.tag tag source]) := by
  cases tag with
  | openNamed name selfClosing => exact openTag_covers hr h rfl (.named rfl rfl) hc source
  | openInline typeName attributes selfClosing =>
    rw [handle] at hc
    rcases hd : inlineDeclaration c.inlineCount typeName attributes with error | d <;> rw [hd] at hc
    · cases hc
    · exact openTag_covers hr (c := { c with inlineCount := c.inlineCount + 1 }) h rfl (.inline rfl rfl hd) hc source
  | closeNamed =>
    rw [handle] at hc
    refine closeTag_covers hr h (fun opening hopened hself hkind => ?_) hc source
    cases hopened with
    | named _ hk =>
      cases hself
      rfl
    | inline _ hk _ =>
      rw [hk] at hkind
      cases hkind
  | closeInline typeName =>
    rw [handle] at hc
    refine closeTag_covers hr h (fun opening hopened hself hkind => ?_) hc source
    cases hopened with
    | named _ hk =>
      rw [hk] at hkind
      cases hkind
    | inline _ hk hd =>
      rw [hk] at hkind
      cases hself
      obtain rfl := typeName_of_inline hd
      exact hkind

theorem step_covers {token : Token} (h : c.Covers r ds ts) (hc : step r ds c token = .ok c') :
    c'.Covers r ds (ts ++ [token]) := by
  cases token with
  | char ch =>
    cases hc
    exact Nested.addText h ch
  | tag tag source => exact handle_covers hr h hc source

/-- Reading on adds the characters and tags that are read. -/
theorem run_covers {s : List Char} (h : c.Covers r ds ts) (hc : run r ds c s = .ok c') :
    ∃ read, lex s = .ok read ∧ c'.Covers r ds (ts ++ read) := by
  obtain ⟨read, hlex, hfold⟩ := lex_of_run hc
  exact ⟨read, hlex, foldlM_keeps (step_covers hr) h hfold⟩

end Compilation

/-- The elements of a template, written one after the other, are the template again. -/
theorem written_as_template (r : Registry σ) (hr : r.KeepsContent) (ds : Declarations) (template : String)
    {e : Element} (h : compileWith r ds template = .ok e) :
    ∃ es ts, e = .group none es ∧ Element.Spaced es ∧ Written r ds es ts ∧ lex template.toList = .ok ts ∧
      ts.flatMap Token.source = template.toList := by
  rw [compileWith] at h
  rcases hrun : Compilation.run r ds {} template.toList with error | c <;> rw [hrun] at h
  · cases h
  obtain ⟨ts, hlex, hcovers⟩ := Compilation.run_covers hr Compilation.covers_start hrun
  obtain ⟨outer, top, count⟩ := c
  cases hcovers with
  | root hname _ hholds =>
    obtain ⟨hchildren, hspaced⟩ := hholds.children
    cases h
    exact ⟨top.children, ts, by rw [hname], hspaced, hchildren, hlex, lex_source hlex⟩
  | inside => cases h

/-- A loop around text, markup and a component, and a box that is closed in itself. -/
theorem loop_and_box_are_written_as_template :
    let types : List (String × ElementType Unit) :=
      [("Box", .widget {}), ("Loop", .builtin .repetition), ("Part", .component ⟨"Part", "", "", ()⟩)]
    let r : Registry Unit := { types := types }
    let ds : Declarations := [("L", ⟨"L", "Loop", [("list", .constant (.string "abc"))]⟩)]
    let template := "a <webobject name=\"L\">b<i>c</i><wo:Part x=\">\"/></webobject><wo:Box/> d"
    ∃ e, compileWith r ds template = .ok e ∧ r.KeepsContent ∧
      ∃ es ts, e = .group none es ∧ Element.Spaced es ∧ Written r ds es ts ∧ lex template.toList = .ok ts ∧
        ts.flatMap Token.source = template.toList := by
  intro types r ds template
  have hr : r.KeepsContent := Registry.keepsContent_of_all (by decide +kernel)
  have hok : (compileWith r ds template).isOk = true := by decide +kernel
  rcases hc : compileWith r ds template with error | e
  · rw [hc] at hok
    cases hok
  · exact ⟨e, rfl, hr, written_as_template r hr ds template hc⟩

end Template

end PageServer
