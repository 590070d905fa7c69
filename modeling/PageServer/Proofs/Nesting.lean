/-
  PageServer.Proofs.Nesting — the templates that compile are the well-nested ones.

  What has to nest are the dynamic tags of a template (`tagsOf`), a closing tag with the tag that it
  closes (`Tag.isClosedBy`); text, other markup and tags that are closed in themselves do not count.
  The tags are balanced (`Balanced`), or leave some open (`LeavesOpen`), or there is a first closing tag
  that does not fit (`Offends`). Going over them with a stack tells which (`advance`), and as long as
  each tag by itself is in order (`Sound`), compiling is nothing but that: its open tags are those that
  the tags so far leave open, with the root below them (`Stands`).

  `nested_templates_compile` puts this together: it says which templates compile, and which error all
  others end in.
-/

import PageServer.Proofs.Sources

namespace PageServer.Template

/-! ## Tags that nest -/

namespace Tag

/-- A tag that a closing tag has to follow. -/
def isOpening : Tag → Bool
  | .openNamed _ selfClosing | .openInline _ _ selfClosing => !selfClosing
  | _ => false

def isClosing : Tag → Bool
  | .closeNamed | .closeInline _ => true
  | _ => false

/-- What messages call a tag. -/
def shown : Tag → String
  | .openNamed name _ => "webobject " ++ Text.quote name
  | .openInline typeName _ _ => "wo:" ++ typeName
  | .closeNamed => "</webobject>"
  | .closeInline typeName => "</wo:" ++ typeName ++ ">"

end Tag

inductive Balanced : List Tag → Prop
  | nil : Balanced []
  | alone {t : Tag} {ts : List Tag} (h : t.isSelfClosing = true) (hrest : Balanced ts) : Balanced (t :: ts)
  | around {opening closing : Tag} {inside ts : List Tag} (h : opening.isClosedBy closing = true)
      (hinside : Balanced inside) (hrest : Balanced ts) : Balanced (opening :: (inside ++ closing :: ts))

/-- The tags leave these open, the innermost one first. -/
inductive LeavesOpen : List Tag → List Tag → Prop
  | balanced {ts : List Tag} (h : Balanced ts) : LeavesOpen [] ts
  | inside {opened before inside : List Tag} {opening : Tag} (hbefore : LeavesOpen opened before)
      (h : opening.isOpening = true) (hinside : Balanced inside) :
      LeavesOpen (opening :: opened) (before ++ opening :: inside)

/-- A closing tag does not fit the tags that are open. -/
inductive Offends : List Tag → Tag → MarkupError → Prop
  | unexpected {closing : Tag} (h : closing.isClosing = true) :
      Offends [] closing (.unexpectedClosingTag closing.shown)
  | mismatched {inner closing : Tag} {outer : List Tag} (h : closing.isClosing = true)
      (hfits : inner.isClosedBy closing = false) :
      Offends (inner :: outer) closing (.mismatchedClosingTag inner.shown closing.shown)

/-- What is wrong with tags that do not nest: the first closing tag that does not fit or, if they all
    do, the innermost tag left open. -/
inductive Misnested : List Tag → MarkupError → Prop
  | offends {opened before after : List Tag} {closing : Tag} {e : MarkupError} (hbefore : LeavesOpen opened before)
      (h : Offends opened closing e) : Misnested (before ++ closing :: after) e
  | unclosed {inner : Tag} {outer ts : List Tag} (h : LeavesOpen (inner :: outer) ts) :
      Misnested ts (.unclosedTag inner.shown)

/-! ## Nesting, tag by tag -/

/-- The tags that are open after a closing one. -/
def closeInner : List Tag → Tag → Except MarkupError (List Tag)
  | [], t => .error (.unexpectedClosingTag t.shown)
  | inner :: outer, t =>
    if inner.isClosedBy t then .ok outer else .error (.mismatchedClosingTag inner.shown t.shown)

/-- The tags that are open after one more. -/
def advance (opened : List Tag) (t : Tag) : Except MarkupError (List Tag) :=
  if t.isOpening then .ok (t :: opened)
  else if t.isSelfClosing then .ok opened
  else closeInner opened t

section Folds

variable {ε α β : Type} {f : β → α → Except ε β} {b b' : β}

theorem foldlM_cons_ok {a : α} (h : f b a = .ok b') (l : List α) : (a :: l).foldlM f b = l.foldlM f b' := by
  rw [List.foldlM_cons, h]
  rfl

theorem foldlM_append_ok {l : List α} (h : l.foldlM f b = .ok b') (l' : List α) :
    (l ++ l').foldlM f b = l'.foldlM f b' := by
  rw [List.foldlM_append, h]
  rfl

theorem foldlM_append_error {l : List α} {e : ε} (h : l.foldlM f b = .error e) (l' : List α) :
    (l ++ l').foldlM f b = .error e := by
  rw [List.foldlM_append, h]
  rfl

theorem foldlM_concat {l : List α} (h : l.foldlM f b = .ok b') (a : α) : (l ++ [a]).foldlM f b = f b' a := by
  rw [foldlM_append_ok h, List.foldlM_cons]
  rcases f b' a with e | b'' <;> rfl

end Folds

section Advance

variable {t opening closing : Tag} {opened opened' ts more : List Tag} {e : MarkupError}

theorem Tag.isOpening_of_isClosedBy (h : opening.isClosedBy closing = true) : opening.isOpening = true := by
  unfold isClosedBy at h
  split at h
  · rfl
  · rfl
  · cases h

theorem Tag.isClosing_of_isClosedBy (h : opening.isClosedBy closing = true) : closing.isClosing = true := by
  unfold isClosedBy at h
  split at h
  · rfl
  · rfl
  · cases h

/-- A tag opens, is closed in itself or closes. -/
theorem Tag.cases (t : Tag) : t.isOpening = true ∧ t.isSelfClosing = false ∨ t.isSelfClosing = true ∧ t.isOpening = false ∨
    t.isClosing = true ∧ t.isOpening = false ∧ t.isSelfClosing = false := by
  cases t with
  | openNamed _ selfClosing | openInline _ _ selfClosing => cases selfClosing <;> simp [isOpening, isSelfClosing]
  | closeNamed | closeInline => simp [isOpening, isSelfClosing, isClosing]

theorem advance_opening (h : t.isOpening = true) : advance opened t = .ok (t :: opened) := by
  rw [advance, if_pos h]

theorem advance_alone (h : t.isSelfClosing = true) : advance opened t = .ok opened := by
  have hopening : t.isOpening = false := by
    rcases t.cases with ⟨-, hself⟩ | ⟨-, hopening⟩ | ⟨-, hopening, -⟩
    · rw [h] at hself
      cases hself
    · exact hopening
    · exact hopening
  rw [advance, if_neg (by simp [hopening]), if_pos h]

theorem advance_closing (h : t.isClosing = true) : advance opened t = closeInner opened t := by
  cases t with
  | openNamed | openInline => cases h
  | closeNamed | closeInline => rfl

theorem advance_closed (h : opening.isClosedBy closing = true) : advance (opening :: opened) closing = .ok opened := by
  rw [advance_closing (Tag.isClosing_of_isClosedBy h), closeInner, if_pos h]

/-- Nothing opens but the tag itself. -/
theorem mem_advance (h : advance opened t = .ok opened') (hmem : opening ∈ opened') : opening = t ∨ opening ∈ opened := by
  rcases t.cases with ⟨hopening, -⟩ | ⟨hself, -⟩ | ⟨hclosing, -⟩
  · rw [advance_opening hopening] at h
    cases h
    exact List.mem_cons.mp hmem
  · rw [advance_alone hself] at h
    cases h
    exact .inr hmem
  · rw [advance_closing hclosing] at h
    cases opened with
    | nil => cases h
    | cons inner outer =>
      rw [closeInner] at h
      by_cases hfits : inner.isClosedBy t = true
      · rw [if_pos hfits] at h
        cases h
        exact .inr (List.mem_cons_of_mem _ hmem)
      · rw [if_neg hfits] at h
        cases h

theorem closeInner_eq_error (hclosing : t.isClosing = true) : closeInner opened t = .error e ↔ Offends opened t e := by
  constructor
  · intro h
    cases opened with
    | nil =>
      cases h
      exact .unexpected hclosing
    | cons inner outer =>
      rw [closeInner] at h
      by_cases hfits : inner.isClosedBy t = true
      · rw [if_pos hfits] at h
        cases h
      · rw [if_neg hfits] at h
        cases h
        exact .mismatched hclosing (by simpa using hfits)
  · intro h
    cases h with
    | unexpected => rfl
    | mismatched _ hfits => rw [closeInner, if_neg (by simp [hfits])]

theorem Offends.isClosing (h : Offends opened t e) : t.isClosing = true := by
  cases h <;> assumption

theorem advance_eq_error : advance opened t = .error e ↔ Offends opened t e := by
  constructor
  · intro h
    rcases t.cases with ⟨hopening, -⟩ | ⟨hself, -⟩ | ⟨hclosing, -⟩
    · rw [advance_opening hopening] at h
      cases h
    · rw [advance_alone hself] at h
      cases h
    · rw [advance_closing hclosing] at h
      exact (closeInner_eq_error hclosing).mp h
  · intro h
    rw [advance_closing h.isClosing]
    exact (closeInner_eq_error h.isClosing).mpr h

theorem Balanced.append (h : Balanced ts) (hmore : Balanced more) : Balanced (ts ++ more) := by
  induction h with
  | nil => exact hmore
  | alone hself _ ih => exact .alone hself ih
  | around hcloses hinside _ _ ih =>
    rw [List.cons_append, List.append_assoc, List.cons_append]
    exact .around hcloses hinside ih

theorem LeavesOpen.append (h : LeavesOpen opened ts) (hmore : Balanced more) : LeavesOpen opened (ts ++ more) := by
  cases h with
  | balanced h => exact .balanced (h.append hmore)
  | inside hbefore hopening hinside =>
    rw [List.append_assoc, List.cons_append]
    exact .inside hbefore hopening (hinside.append hmore)

theorem LeavesOpen.close (h : LeavesOpen (opening :: opened) ts) (hcloses : opening.isClosedBy closing = true) :
    LeavesOpen opened (ts ++ [closing]) := by
  cases h with
  | inside hbefore _ hinside =>
    rw [List.append_assoc, List.cons_append]
    exact hbefore.append (.around hcloses hinside .nil)

/-- Balanced tags are gone over and leave no trace. -/
theorem Balanced.advances (h : Balanced ts) (opened : List Tag) : ts.foldlM advance opened = .ok opened := by
  induction h generalizing opened with
  | nil => rfl
  | alone hself _ ih => rw [foldlM_cons_ok (advance_alone hself), ih]
  | around hcloses _ _ ihinside ih =>
    rw [foldlM_cons_ok (advance_opening (Tag.isOpening_of_isClosedBy hcloses)), foldlM_append_ok (ihinside _),
      foldlM_cons_ok (advance_closed hcloses), ih]

theorem LeavesOpen.step (h : LeavesOpen opened ts) (ht : advance opened t = .ok opened') :
    LeavesOpen opened' (ts ++ [t]) := by
  rcases t.cases with ⟨hopening, -⟩ | ⟨hself, -⟩ | ⟨hclosing, -⟩
  · rw [advance_opening hopening] at ht
    cases ht
    exact .inside h hopening .nil
  · rw [advance_alone hself] at ht
    cases ht
    exact h.append (.alone hself .nil)
  · rw [advance_closing hclosing] at ht
    cases opened with
    | nil => cases ht
    | cons inner outer =>
      rw [closeInner] at ht
      by_cases hfits : inner.isClosedBy t = true
      · rw [if_pos hfits] at ht
        cases ht
        exact h.close hfits
      · rw [if_neg hfits] at ht
        cases ht

/-- The stack holds the tags that are left open. -/
theorem advances_iff : ts.foldlM advance [] = .ok opened ↔ LeavesOpen opened ts := by
  constructor
  · intro h
    induction ts using List.reverseRecOn generalizing opened with
    | nil =>
      cases h
      exact .balanced .nil
    | append_singleton ts t ih =>
      rcases hts : ts.foldlM advance [] with e | before
      · rw [foldlM_append_error hts] at h
        cases h
      · rw [foldlM_concat hts] at h
        exact (ih hts).step h
  · intro h
    induction h with
    | balanced h => exact h.advances []
    | inside _ hopening hinside ih =>
      rw [foldlM_append_ok ih, foldlM_cons_ok (advance_opening hopening), hinside.advances]

/-- It fails at the first closing tag that does not fit. -/
theorem advances_eq_error : ts.foldlM advance [] = .error e ↔
    ∃ before closing after opened, ts = before ++ closing :: after ∧ LeavesOpen opened before ∧ Offends opened closing e := by
  constructor
  · intro h
    induction ts using List.reverseRecOn with
    | nil => cases h
    | append_singleton ts t ih =>
      rcases hts : ts.foldlM advance [] with e' | before
      · rw [foldlM_append_error hts] at h
        cases h
        obtain ⟨before, closing, after, opened, rfl, hbefore, hoffends⟩ := ih hts
        exact ⟨before, closing, after ++ [t], opened, by simp, hbefore, hoffends⟩
      · rw [foldlM_concat hts] at h
        exact ⟨ts, t, [], before, rfl, advances_iff.mp hts, advance_eq_error.mp h⟩
  · rintro ⟨before, closing, after, opened, rfl, hbefore, hoffends⟩
    rw [foldlM_append_ok (advances_iff.mpr hbefore), List.foldlM_cons, advance_eq_error.mpr hoffends]
    rfl

theorem leavesOpen_nil_iff : LeavesOpen [] ts ↔ Balanced ts :=
  ⟨fun h => by cases h; assumption, .balanced⟩

end Advance

/-! ## Tags that are in order by themselves -/

variable {σ : Type}

/-- An element can be made from the declaration. -/
structure Makes (r : Registry σ) (d : Declaration) : Prop where
  helpers : ∀ h ∈ d.bindings.flatMap (·.2.helperNames), r.helpers.contains h = true
  element : ∃ type content e, r.resolve d.typeName = .ok type ∧ elementOf d type content = .ok e

/-- Nothing is wrong with the tag but maybe its place. -/
def Sound (r : Registry σ) (ds : Declarations) (t : Tag) : Prop :=
  t.isClosing = false → ∃ name d, Opens ds t name d ∧ Makes r d

section Sound

variable {r : Registry σ} {ds : Declarations} {d : Declaration}

/-- Bindings are taken or refused whatever stands between the tags, and whatever the tag is called. -/
theorem elementOf_rename {type : ElementType σ} {content : Option Element} {e : Element}
    (h : elementOf d type content = .ok e) (name : String) (content' : Option Element) :
    ∃ e', elementOf { d with name := name } type content' = .ok e' := by
  cases type with
  | component c => exact ⟨_, rfl⟩
  | builtin b =>
    rw [elementOf] at h
    rcases hb : b.build d.bindings with error | control <;> rw [hb] at h
    · cases h
    · exact ⟨_, by rw [elementOf, hb]; rfl⟩
  | widget w =>
    rw [elementOf] at h
    rcases hw : w.accept d.bindings with error | bindings <;> rw [hw] at h
    · cases h
    · exact ⟨_, by rw [elementOf, hw]; rfl⟩

theorem Makes.rename (h : Makes r d) (name : String) : Makes r { d with name := name } := by
  obtain ⟨type, content, e, htype, he⟩ := h.element
  obtain ⟨e', he'⟩ := elementOf_rename he name content
  exact ⟨h.helpers, type, content, e', htype, he'⟩

theorem build_of_makes {t : OpenTag} (hd : declarationOf ds t = .ok d) (h : Makes r d) : ∃ e, build r ds t = .ok e := by
  obtain ⟨type, content, e, htype, he⟩ := h.element
  obtain ⟨e', he'⟩ := elementOf_rename he d.name t.content
  have hhelpers : (d.bindings.flatMap (·.2.helperNames)).find? (!r.helpers.contains ·) = none := by
    rw [List.find?_eq_none]
    intro name hname
    simp [h.helpers name hname]
  refine ⟨e', ?_⟩
  rw [build, hd]
  simp only [bind, Except.bind, hhelpers, htype]
  rw [show elementOf d type t.content = .ok e' from he']
  rfl

theorem addAttribute_rename {name typeName : String} {bs bs' : Bindings} {a : String × String}
    (h : addAttribute name typeName bs a = .ok bs') (name' : String) : addAttribute name' typeName bs a = .ok bs' := by
  unfold addAttribute at h ⊢
  split at h
  · cases h
  · exact h

theorem inlineDeclaration_rename {count : Nat} {typeName : String} {attributes : List (String × String)}
    (h : inlineDeclaration count typeName attributes = .ok d) (count' : Nat) :
    inlineDeclaration count' typeName attributes = .ok { d with name := "_inline_" ++ toString count' } := by
  have hattributes : ∀ {name name' : String} {bs bs' : Bindings} {as : List (String × String)},
      as.foldlM (addAttribute name typeName) bs = .ok bs' → as.foldlM (addAttribute name' typeName) bs = .ok bs' := by
    intro name name' bs bs' as has
    induction as generalizing bs with
    | nil => exact has
    | cons a as ih =>
      rw [List.foldlM_cons] at has
      rcases ha : addAttribute name typeName bs a with error | next <;> rw [ha] at has
      · cases has
      · rw [foldlM_cons_ok (addAttribute_rename ha name')]
        exact ih has
  rw [inlineDeclaration] at h ⊢
  rcases hbs : attributes.foldlM (addAttribute ("_inline_" ++ toString count) typeName) [] with error | bs <;>
    rw [hbs] at h <;> cases h
  rw [hattributes hbs]
  rfl

/-- What holds of one declaration that a tag opens with holds of every one: they differ in their names at most. -/
theorem Sound.makes {tag : Tag} {name : String} (h : Sound r ds tag) (hopens : Opens ds tag name d) : Makes r d := by
  cases hopens with
  | named hget =>
    obtain ⟨_, d', hopens', hmakes⟩ := h rfl
    cases hopens' with
    | named hget' =>
      cases hget.symm.trans hget'
      exact hmakes
  | @inline count typeName attributes selfClosing d hd =>
    obtain ⟨_, d', hopens', hmakes⟩ := h rfl
    cases hopens' with
    | inline hd' =>
      cases (inlineDeclaration_rename hd' count).symm.trans hd
      exact hmakes.rename _

end Sound

/-! ## Compiling goes over the tags -/

def Token.tag? : Token → Option Tag
  | .char _ => none
  | .tag t _ => some t

def tagsOf (ts : List Token) : List Tag := ts.filterMap Token.tag?

namespace Compilation

variable {r : Registry σ} {ds : Declarations}

theorem run_eq {c : Compilation} {s : List Char} {ts : List Token} (h : lex s = .ok ts) :
    run r ds c s = ts.foldlM (step r ds) c := by
  induction hn : s.length using Nat.strong_induction_on generalizing c s ts with
  | _ n ih =>
    subst hn
    cases s with
    | nil =>
      rw [lex] at h
      cases h
      rw [run]
      rfl
    | cons char rest =>
      rcases hread : Tag.read? (char :: rest) with error | _ | ⟨tag, after⟩
      · rw [lex] at h
        split at h <;> simp_all
      · rw [lex_char hread] at h
        rcases hrest : lex rest with error | ts' <;> rw [hrest] at h <;> cases h
        rw [run]
        split
        · simp_all
        · exact ih _ (by simp) hrest rfl
        · simp_all
      · obtain ⟨source, -, hlex⟩ := lex_tag hread
        rw [hlex] at h
        rcases hafter : lex after with error | ts' <;> rw [hafter] at h <;> cases h
        rw [run]
        split
        · simp_all
        · simp_all
        · rename_i tag' after' hread'
          rw [hread] at hread'
          cases hread'
          have hnext : ∀ next, run r ds next after = ts'.foldlM (step r ds) next :=
            fun next => ih _ (Tag.read?_length hread) hafter rfl
          simp only [hnext, List.foldlM_cons, step]

theorem compileWith_eq {template : String} {ts : List Token} (h : lex template.toList = .ok ts) :
    compileWith r ds template = ts.foldlM (step r ds) {} >>= finish := by
  rw [compileWith, run_eq h]

/-- The open tags, innermost one first: the root below all others, and what these tags have opened. -/
inductive Stands : List OpenTag → List Tag → Prop
  | root {t : OpenTag} (hname : t.name = none) (hkind : t.kind = .root) : Stands [t] []
  | inside {t : OpenTag} {outer : List OpenTag} {opening : Tag} {opened : List Tag} (houter : Stands outer opened)
      (hopened : t.OpenedBy opening) (hopening : opening.isOpening = true) : Stands (t :: outer) (opening :: opened)

section Stands

variable {c c' : Compilation} {t t' : OpenTag} {outer : List OpenTag} {opening tag : Tag} {opened opened' : List Tag}
  {e : MarkupError}

theorem Stands.mapTop (h : Stands (t :: outer) opened) (hname : t'.name = t.name) (hkind : t'.kind = t.kind) :
    Stands (t' :: outer) opened := by
  cases h with
  | root hn hk => exact .root (hname.trans hn) (hkind.trans hk)
  | inside houter hopened hopening => exact .inside houter (hopened.congr hname hkind) hopening

theorem Stands.outer_ne_nil (h : Stands outer opened) : outer ≠ [] := by
  cases h <;> simp

/-- Messages call an open tag what they call the tag that opened it. -/
theorem shown_of_openedBy (h : t.OpenedBy opening) : t.shown = opening.shown := by
  cases h with
  | named hname hkind => simp [OpenTag.shown, Tag.shown, hname, hkind]
  | inline _ hkind hd => simp [OpenTag.shown, Tag.shown, hkind, typeName_of_inline hd]

theorem kind_ne_root (h : t.OpenedBy opening) : t.kind ≠ .root := by
  cases h with
  | named _ hkind | inline _ hkind =>
    rw [hkind]
    simp

/-- An element is made for an open tag. -/
theorem build_of_sound (h : t.OpenedBy opening) (hsound : Sound r ds opening) : ∃ e, build r ds t = .ok e := by
  cases h with
  | named hname hkind =>
    obtain ⟨_, d, hopens, hmakes⟩ := hsound rfl
    cases hopens with
    | named hget => exact build_of_makes (by simp [declarationOf, hkind, hname, hget]) hmakes
  | inline _ hkind hd => exact build_of_makes (by simp only [declarationOf, hkind]) (hsound.makes (.inline hd))

theorem close_of_sound (hc : c.top.OpenedBy opening) (hsound : Sound r ds opening)
    (houter : Stands c.outer opened) : ∃ c', c.close r ds = .ok c' ∧ Stands (c'.top :: c'.outer) opened := by
  obtain ⟨e, he⟩ := build_of_sound hc hsound
  obtain ⟨around, top, count⟩ := c
  cases around with
  | nil => exact absurd rfl houter.outer_ne_nil
  | cons t outer =>
    refine ⟨⟨outer, t.addElement e, count⟩, ?_, houter.mapTop rfl rfl⟩
    rw [close, he]
    rfl

theorem openTag_of_sound (ht : t.OpenedBy tag) (hclosing : tag.isClosing = false) (hsound : Sound r ds tag)
    (h : Stands (c.top :: c.outer) opened) (hstep : advance opened tag = .ok opened') :
    ∃ c', c.openTag r ds t tag.isSelfClosing = .ok c' ∧ Stands (c'.top :: c'.outer) opened' := by
  rcases tag.cases with ⟨hopening, hself⟩ | ⟨hself, -⟩ | ⟨hclosing', -⟩
  · rw [advance_opening hopening] at hstep
    cases hstep
    exact ⟨_, by rw [openTag, hself]; rfl, .inside h ht hopening⟩
  · rw [advance_alone hself] at hstep
    cases hstep
    rw [openTag, hself]
    exact close_of_sound (c := { c with outer := c.top :: c.outer, top := t }) ht hsound h
  · rw [hclosing] at hclosing'
    cases hclosing'

/-- A closing tag goes with the innermost open one, or is an error. -/
theorem closeTag_of_sound (fits : TagKind → Bool) (hclosing : tag.isClosing = true) (hroot : fits .root = false)
    (hfits : ∀ t opening, OpenTag.OpenedBy t opening → opening.isOpening = true →
      fits t.kind = opening.isClosedBy tag)
    (hopened : ∀ t ∈ opened, Sound r ds t) (h : Stands (c.top :: c.outer) opened) :
    (∀ opened', advance opened tag = .ok opened' →
      ∃ c', c.closeTag r ds fits tag.shown = .ok c' ∧ Stands (c'.top :: c'.outer) opened') ∧
    ∀ e, advance opened tag = .error e → c.closeTag r ds fits tag.shown = .error (.markup e) := by
  rw [advance_closing hclosing]
  obtain ⟨outer, top, count⟩ := c
  cases h with
  | root _ hkind =>
    refine ⟨fun _ hstep => (by cases hstep), fun e hstep => ?_⟩
    cases hstep
    have hkind : top.kind = .root := hkind
    simp only [closeTag, hkind, hroot]
    rfl
  | @inside _ _ inner _ houter hinner hopening =>
    have hkind : fits top.kind = inner.isClosedBy tag := hfits _ _ hinner hopening
    by_cases hcloses : inner.isClosedBy tag = true
    · rw [closeInner, if_pos hcloses, closeTag, if_pos (hkind.trans hcloses)]
      refine ⟨fun _ hstep => ?_, fun _ hstep => (by cases hstep)⟩
      cases hstep
      exact close_of_sound hinner (hopened inner List.mem_cons_self) houter
    · rw [closeInner, if_neg hcloses, closeTag, if_neg (by rwa [hkind])]
      refine ⟨fun _ hstep => (by cases hstep), fun _ hstep => ?_⟩
      cases hstep
      rw [← shown_of_openedBy hinner]
      split
      · rename_i hroot'
        exact absurd hroot' (kind_ne_root hinner)
      · rfl

/-- A tag that is in order is handled as its place has it. -/
theorem handle_of_sound (hsound : Sound r ds tag) (hopened : ∀ t ∈ opened, Sound r ds t)
    (h : Stands (c.top :: c.outer) opened) :
    (∀ opened', advance opened tag = .ok opened' →
      ∃ c', c.handle r ds tag = .ok c' ∧ Stands (c'.top :: c'.outer) opened') ∧
    ∀ e, advance opened tag = .error e → c.handle r ds tag = .error (.markup e) := by
  have hopens : tag.isClosing = false → ∀ e, advance opened tag ≠ .error e := by
    intro hclosing e hstep
    have hclosing' := (advance_eq_error.mp hstep).isClosing
    rw [hclosing] at hclosing'
    cases hclosing'
  cases tag with
  | openNamed name selfClosing =>
    exact ⟨fun _ => openTag_of_sound (.named rfl rfl) rfl hsound h, fun e he => absurd he (hopens rfl e)⟩
  | openInline typeName attributes selfClosing =>
    refine ⟨fun opened' hstep => ?_, fun e he => absurd he (hopens rfl e)⟩
    obtain ⟨_, d, hd, -⟩ := hsound rfl
    cases hd with
    | inline hd =>
      have hdeclared := inlineDeclaration_rename hd c.inlineCount
      rw [handle, hdeclared]
      exact openTag_of_sound (c := { c with inlineCount := c.inlineCount + 1 }) (.inline rfl rfl hdeclared) rfl hsound h
        hstep
  | closeNamed =>
    simp only [handle]
    refine closeTag_of_sound _ rfl rfl (fun t opening ht hopening => ?_) hopened h
    cases ht with
    | named _ hkind | inline _ hkind =>
      obtain rfl := (by simpa [Tag.isOpening] using hopening : _ = false)
      rw [hkind]
      rfl
  | closeInline typeName =>
    simp only [handle]
    refine closeTag_of_sound _ rfl rfl (fun t opening ht hopening => ?_) hopened h
    cases ht with
    | named _ hkind =>
      obtain rfl := (by simpa [Tag.isOpening] using hopening : _ = false)
      rw [hkind]
      rfl
    | inline _ hkind hd =>
      obtain rfl := (by simpa [Tag.isOpening] using hopening : _ = false)
      rw [hkind, ← typeName_of_inline hd]
      rfl

/-- What is read of a template leaves the tags open that compiling has open, unless it is misnested. -/
theorem reads_of_sound {ts : List Token} (hsound : ∀ tag ∈ tagsOf ts, Sound r ds tag)
    (hopened : ∀ t ∈ opened, Sound r ds t) (h : Stands (c.top :: c.outer) opened) :
    (∀ opened', (tagsOf ts).foldlM advance opened = .ok opened' →
      ∃ c', ts.foldlM (step r ds) c = .ok c' ∧ Stands (c'.top :: c'.outer) opened') ∧
    ∀ e, (tagsOf ts).foldlM advance opened = .error e → ts.foldlM (step r ds) c = .error (.markup e) := by
  induction ts generalizing c opened with
  | nil =>
    refine ⟨fun opened' hopened' => ?_, nofun⟩
    cases hopened'
    exact ⟨c, rfl, h⟩
  | cons token ts ih =>
    cases token with
    | char ch => exact ih (c := { c with top := c.top.addText ch }) hsound hopened (h.mapTop rfl rfl)
    | tag tag source =>
      have htag : Sound r ds tag := hsound tag List.mem_cons_self
      obtain ⟨hok, herror⟩ := handle_of_sound htag hopened h
      have htags : tagsOf (.tag tag source :: ts) = tag :: tagsOf ts := rfl
      rw [htags]
      rcases hstep : advance opened tag with e | next
      · have hfails : (Token.tag tag source :: ts).foldlM (step r ds) c = .error (.markup e) := by
          rw [List.foldlM_cons, step, herror e hstep]
          rfl
        rw [List.foldlM_cons, hstep]
        refine ⟨nofun, fun e' he' => ?_⟩
        cases he'
        exact hfails
      · obtain ⟨c', hc', hstands⟩ := hok next hstep
        have hnext : ∀ t ∈ next, Sound r ds t := fun t ht => by
          rcases mem_advance hstep ht with rfl | ht
          · exact htag
          · exact hopened t ht
        rw [foldlM_cons_ok hstep, foldlM_cons_ok (show step r ds c (.tag tag source) = .ok c' from hc')]
        exact ih (fun t ht => hsound t (List.mem_cons_of_mem _ ht)) hnext hstands

end Stands

end Compilation

/-! ## The templates that compile -/

theorem tagsOf_append (ts ts' : List Token) : tagsOf (ts ++ ts') = tagsOf ts ++ tagsOf ts' :=
  List.filterMap_append

theorem finish_of_stands {c : Compilation} {opened : List Tag} (h : Compilation.Stands (c.top :: c.outer) opened) :
    (opened = [] → ∃ e, c.finish = .ok e) ∧
      ∀ inner outer, opened = inner :: outer → c.finish = .error (.markup (.unclosedTag inner.shown)) := by
  obtain ⟨outer, top, count⟩ := c
  cases h with
  | root => exact ⟨fun _ => ⟨_, rfl⟩, nofun⟩
  | inside houter hopened =>
    refine ⟨nofun, fun inner outer hinner => ?_⟩
    cases hinner
    rw [← Compilation.shown_of_openedBy hopened, Compilation.finish, if_neg (by simpa using houter.outer_ne_nil)]

/-- A template whose tags are in order, each by itself, compiles just if they are balanced; otherwise
    the error is what is wrong with their nesting. All along the open tags are the root and, above it,
    those that the tags so far leave open. -/
theorem nested_templates_compile (r : Registry σ) (ds : Declarations) (template : String) {ts : List Token}
    (hlex : lex template.toList = .ok ts) (hsound : ∀ t ∈ tagsOf ts, Sound r ds t) :
    ((∃ e, compileWith r ds template = .ok e) ↔ Balanced (tagsOf ts)) ∧
      (∀ error, compileWith r ds template = .error error ↔ ∃ e, error = .markup e ∧ Misnested (tagsOf ts) e) ∧
      compileWith r ds template = ts.foldlM (Compilation.step r ds) {} >>= Compilation.finish ∧
      ∀ read rest c, ts = read ++ rest → read.foldlM (Compilation.step r ds) {} = .ok c →
        ∃ opened, LeavesOpen opened (tagsOf read) ∧ Compilation.Stands (c.top :: c.outer) opened := by
  have hstart : Compilation.Stands [⟨none, .root, [], []⟩] [] := .root rfl rfl
  have hcompile : compileWith r ds template = ts.foldlM (Compilation.step r ds) {} >>= Compilation.finish :=
    Compilation.compileWith_eq hlex
  obtain ⟨hok, herror⟩ := Compilation.reads_of_sound (c := {}) hsound (List.forall_mem_nil _) hstart
  have hbalanced : Balanced (tagsOf ts) → ∃ e, compileWith r ds template = .ok e := by
    intro h
    obtain ⟨c, hc, hstands⟩ := hok [] (h.advances [])
    obtain ⟨e, he⟩ := (finish_of_stands hstands).1 rfl
    exact ⟨e, by rw [hcompile, hc]; exact he⟩
  have hmisnested : ∀ e, Misnested (tagsOf ts) e → compileWith r ds template = .error (.markup e) := by
    intro e h
    rw [hcompile]
    generalize htags : tagsOf ts = tags at h
    cases h with
    | offends hbefore hoffends =>
      rw [herror e (htags ▸ advances_eq_error.mpr ⟨_, _, _, _, rfl, hbefore, hoffends⟩)]
      rfl
    | unclosed hopen =>
      obtain ⟨c, hc, hstands⟩ := hok _ (htags ▸ advances_iff.mpr hopen)
      rw [hc]
      exact (finish_of_stands hstands).2 _ _ rfl
  have hcases : Balanced (tagsOf ts) ∨ ∃ e, Misnested (tagsOf ts) e := by
    rcases htags : (tagsOf ts).foldlM advance [] with e | opened
    · obtain ⟨before, closing, after, opened, htags', hbefore, hoffends⟩ := advances_eq_error.mp htags
      exact .inr ⟨e, htags' ▸ .offends hbefore hoffends⟩
    · have hopen := advances_iff.mp htags
      cases opened with
      | nil => exact .inl (leavesOpen_nil_iff.mp hopen)
      | cons inner outer => exact .inr ⟨_, .unclosed hopen⟩
  refine ⟨⟨fun ⟨e, he⟩ => ?_, hbalanced⟩, fun error => ⟨fun h => ?_, fun ⟨e, he, h⟩ => he ▸ hmisnested e h⟩, hcompile,
    fun read rest c hread hc => ?_⟩
  · rcases hcases with h | ⟨e', h⟩
    · exact h
    · rw [hmisnested e' h] at he
      cases he
  · rcases hcases with h' | ⟨e, h'⟩
    · obtain ⟨e, he⟩ := hbalanced h'
      rw [he] at h
      cases h
    · rw [hmisnested e h'] at h
      cases h
      exact ⟨e, rfl, h'⟩
  · subst hread
    have hread : ∀ t ∈ tagsOf read, Sound r ds t := by
      intro t ht
      exact hsound t (tagsOf_append read rest ▸ List.mem_append_left _ ht)
    obtain ⟨hok', herror'⟩ := Compilation.reads_of_sound (c := {}) hread (List.forall_mem_nil _) hstart
    rcases htags : (tagsOf read).foldlM advance [] with e | opened
    · rw [herror' e htags] at hc
      cases hc
    · obtain ⟨c', hc', hstands⟩ := hok' opened htags
      rw [hc] at hc'
      cases hc'
      exact ⟨opened, advances_iff.mp htags, hstands⟩

/-- A box with a part in it, which a closing tag of the other kind is to close. -/
theorem box_is_not_closed_by_webobject :
    let types : List (String × ElementType Unit) :=
      [("Box", .widget {}), ("Part", .component ⟨"Part", "", "", ()⟩)]
    let r : Registry Unit := { types := types }
    let template := "<wo:Box>a<b></b><wo:Part/></webobject></wo:Box>"
    ∃ ts, lex template.toList = .ok ts ∧ (∀ t ∈ tagsOf ts, Sound r [] t) ∧
      compileWith r [] template = .error (.markup (.mismatchedClosingTag "wo:Box" "</webobject>")) := by
  intro types r template
  have hread : (lex template.toList).toOption.map tagsOf =
      some [.openInline "Box" [] false, .openInline "Part" [] true, .closeNamed, .closeInline "Box"] := by
    decide +kernel
  rcases hlex : lex template.toList with error | ts <;> rw [hlex] at hread
  · cases hread
  have htags : tagsOf ts = _ := Option.some.inj hread
  have hbox : ∀ selfClosing, Sound r [] (.openInline "Box" [] selfClosing) := fun _ _ =>
    ⟨_, _, .inline (rfl : inlineDeclaration 0 "Box" [] = _), nofun, .widget {}, none, _, rfl, rfl⟩
  have hpart : ∀ selfClosing, Sound r [] (.openInline "Part" [] selfClosing) := fun _ _ =>
    ⟨_, _, .inline (rfl : inlineDeclaration 0 "Part" [] = _), nofun, .component _, none, _, rfl, rfl⟩
  have hsound : ∀ t ∈ tagsOf ts, Sound r [] t := by
    rw [htags]
    rintro t (_ | ⟨_, _ | ⟨_, _ | ⟨_, _ | ⟨_, ⟨⟩⟩⟩⟩⟩)
    · exact hbox _
    · exact hpart _
    · exact nofun
    · exact nofun
  have hmisnested : Misnested ([.openInline "Box" [] false, .openInline "Part" [] true] ++ .closeNamed :: [.closeInline "Box"])
      (.mismatchedClosingTag "wo:Box" "</webobject>") :=
    .offends (.inside (.balanced .nil) rfl (.alone rfl .nil)) (.mismatched rfl rfl)
  obtain ⟨-, herror, -⟩ := nested_templates_compile r [] template hlex hsound
  exact ⟨ts, rfl, hsound, (herror _).mpr ⟨_, rfl, htags ▸ hmisnested⟩⟩

end PageServer.Template
