/-
  PageServer.Proofs.Checked — what a template that compiles has been checked for.

  A tag gets its element only if every helper is registered that its bindings call, in arguments of
  arguments as well (`Known`), and if its type is. So in a template that compiles every tag is in
  order (`Sound`), and its elements use no binding that calls an unknown helper and no component that
  there is not (`Element.Checked`, `checked_of_compile`).

  To evaluate a binding calls helpers by the names that `helperNames` collects, and no others
  (`Binding.valueIn_error`).
-/

import PageServer.Proofs.Compiled
import PageServer.Proofs.Nesting

namespace PageServer

variable {σ : Type}

/-! ## Helpers of bindings -/

namespace Binding

/-- Every helper that the binding calls is registered. -/
def Known (hs : Helpers) (b : Binding) : Prop := ∀ name ∈ b.helperNames, hs.contains name = true

section ValueIn

variable [Component σ] {hs : Helpers} {x : σ} {e : HelperError}

mutual

/-- Evaluating a binding fails where a call of one of its helpers does. -/
theorem valueIn_error : ∀ {b : Binding}, b.valueIn hs x = .error e →
    ∃ name ∈ b.helperNames, ∃ arguments, hs.call name arguments = .error e
  | .constant v, h => by cases h
  | .keyPath p, h => by cases h
  | .call helper arguments, h => by
    rw [valueIn] at h
    rcases hvs : valuesIn hs x arguments with e' | vs <;> rw [hvs] at h
    · cases h
      obtain ⟨name, hname, hcall⟩ := valuesIn_error hvs
      exact ⟨name, by rw [helperNames]; exact List.mem_cons_of_mem _ hname, hcall⟩
    · exact ⟨helper, by rw [helperNames]; exact List.mem_cons_self, vs, h⟩

theorem valuesIn_error : ∀ {bs : List Binding}, valuesIn hs x bs = .error e →
    ∃ name ∈ argumentHelperNames bs, ∃ arguments, hs.call name arguments = .error e
  | [], h => by cases h
  | b :: bs, h => by
    rw [valuesIn] at h
    rcases hv : b.valueIn hs x with e' | v <;> rw [hv] at h
    · cases h
      obtain ⟨name, hname, hcall⟩ := valueIn_error hv
      exact ⟨name, by rw [argumentHelperNames]; exact List.mem_append_left _ hname, hcall⟩
    · rcases hvs : valuesIn hs x bs with e' | vs <;> simp only [bind, Except.bind, hvs] at h <;> cases h
      obtain ⟨name, hname, hcall⟩ := valuesIn_error hvs
      exact ⟨name, by rw [argumentHelperNames]; exact List.mem_append_right _ hname, hcall⟩

end

/-- If all helpers are registered, only a helper can fail. -/
theorem Known.valueIn_error {b : Binding} (hb : b.Known hs) (h : b.valueIn hs x = .error e) :
    ∃ name ∈ b.helperNames, ∃ helper arguments, Assoc.get? name hs = some helper ∧ helper arguments = .error e := by
  obtain ⟨name, hname, arguments, hcall⟩ := Binding.valueIn_error h
  obtain ⟨helper, hget⟩ := Option.isSome_iff_exists.mp (hb name hname)
  rw [Helpers.call, hget] at hcall
  exact ⟨name, hname, helper, arguments, hget, hcall⟩

end ValueIn

end Binding

/-- All of the bindings call registered helpers only. -/
def Bindings.Known (hs : Helpers) (bs : Bindings) : Prop := ∀ b ∈ bs, b.2.Known hs

theorem Bindings.known_iff {hs : Helpers} {bs : Bindings} :
    bs.Known hs ↔ ∀ name ∈ bs.flatMap (·.2.helperNames), hs.contains name = true := by
  constructor
  · intro h name hname
    obtain ⟨b, hb, hname⟩ := List.mem_flatMap.mp hname
    exact h b hb name hname
  · intro h b hb name hname
    exact h name (List.mem_flatMap.mpr ⟨b, hb, hname⟩)

/-! ## Elements -/

def Target.binding : Target → Binding
  | action b | href b | directAction b => b

/-- The bindings that a control evaluates. A widget does with its bindings what it likes. -/
def Control.evaluated : Control → List Binding
  | string value escape whenEmpty => value :: (escape.toList ++ whenEmpty.toList)
  | textField value name => value :: name.toList
  | hyperlink target label => target.binding :: label.toList
  | form action => action.toList
  | submitButton action value => action.toList ++ value.toList
  | repetition list _ _ => [list]
  | conditional condition negate => condition :: negate.toList
  | updateContainer id elementName => id :: elementName.toList
  | componentContent | widget .. => []

/-- The control evaluates registered helpers only; a widget has accepted such bindings. -/
structure Control.Checked (r : Registry σ) (c : Control) : Prop where
  known : ∀ b ∈ c.evaluated, b.Known r.helpers
  widget : ∀ typeName tag bs, c = .widget typeName tag bs →
    ∃ w accepted, Assoc.get? typeName r.types = some (.widget w) ∧ Bindings.Known r.helpers accepted ∧
      w.accept accepted = .ok bs

namespace Element

/-- The element and those in it use what is registered. -/
inductive Checked (r : Registry σ) : Element → Prop
  | text (s : String) : Checked r (.text s)
  | group (name : Option String) {children : List Element} (h : ∀ e ∈ children, Checked r e) :
      Checked r (.group name children)
  | component (tag : String) {definition : String} {bs : Bindings} {content : Option Element} {d : Definition σ}
      (hd : r.resolveComponent definition = .ok d) (hbs : bs.Known r.helpers) (h : ∀ e ∈ content, Checked r e) :
      Checked r (.component tag definition bs content)
  | control {c : Control} {content : Option Element} (hc : c.Checked r) (h : ∀ e ∈ content, Checked r e) :
      Checked r (.control c content)

namespace Checked

variable {r : Registry σ} {content : Option Element}

theorem of_group {name : Option String} {children : List Element} (h : Checked r (.group name children)) :
    ∀ e ∈ children, Checked r e := by
  cases h with
  | group _ hchildren => exact hchildren

theorem of_component {tag definition : String} {bs : Bindings} (h : Checked r (.component tag definition bs content)) :
    (∃ d, r.resolveComponent definition = .ok d) ∧ bs.Known r.helpers ∧ ∀ e ∈ content, Checked r e := by
  cases h with
  | component _ hd hbs hcontent => exact ⟨⟨_, hd⟩, hbs, hcontent⟩

theorem of_control {c : Control} (h : Checked r (.control c content)) : c.Checked r ∧ ∀ e ∈ content, Checked r e := by
  cases h with
  | control hc hcontent => exact ⟨hc, hcontent⟩

end Checked

end Element

/-! ## What is made of checked bindings -/

theorem Bindings.mem_of_get? {bs : Bindings} {key : String} {b : Binding} (h : bs.get? key = some b) :
    ∃ key, (key, b) ∈ bs := by
  obtain ⟨⟨key', b'⟩, hfind, rfl⟩ := Option.map_eq_some_iff.mp h
  exact ⟨key', List.mem_of_find?_eq_some hfind⟩

theorem Bindings.get?_of_require {bs : Bindings} {key : String} {o : Binding × Bindings} (h : bs.require key = .ok o) :
    bs.get? key = some o.1 := by
  unfold Bindings.require at h
  split at h
  · rename_i b rest htake
    cases h
    exact congrArg Prod.fst htake
  · cases h

/-- The control is built in, and what it evaluates are bindings of its tag. -/
structure Control.From (bs : Bindings) (c : Control) : Prop where
  evaluated : ∀ b ∈ c.evaluated, ∃ key, (key, b) ∈ bs
  builtIn : ∀ typeName tag bs', c ≠ .widget typeName tag bs'

namespace Builtin

theorem target_of_targets {bs : Bindings} {target : Target} (h : target ∈ targets bs) : ∃ key, (key, target.binding) ∈ bs := by
  simp only [targets, List.mem_append, Option.mem_toList, Option.map_eq_some_iff] at h
  rcases h with (⟨b, hb, rfl⟩ | ⟨b, hb, rfl⟩) | ⟨b, hb, rfl⟩ <;> exact Bindings.mem_of_get? hb

theorem from_of_build {t : Builtin} {bs : Bindings} {c : Control} (h : t.build bs = .ok c) : c.From bs := by
  have hget : ∀ key, ∀ b ∈ (bs.get? key).toList, ∃ key, (key, b) ∈ bs := fun _ _ hb =>
    Bindings.mem_of_get? (Option.mem_toList.mp hb)
  have hrequire : ∀ {key o}, bs.require key = .ok o → ∃ key, (key, o.1) ∈ bs := fun ho =>
    Bindings.mem_of_get? (Bindings.get?_of_require ho)
  cases t with
  | string =>
    rw [build] at h
    rcases ho : bs.require "value" with e | o <;> rw [ho] at h <;> cases h
    exact ⟨List.forall_mem_cons.mpr ⟨hrequire ho, List.forall_mem_append.mpr ⟨hget _, hget _⟩⟩, nofun⟩
  | textField =>
    rw [build] at h
    rcases ho : bs.require "value" with e | o <;> rw [ho] at h <;> cases h
    exact ⟨List.forall_mem_cons.mpr ⟨hrequire ho, hget _⟩, nofun⟩
  | hyperlink =>
    rw [build] at h
    split at h <;> cases h
    rename_i target htargets
    have htarget := target_of_targets (htargets ▸ List.mem_singleton_self target)
    exact ⟨List.forall_mem_cons.mpr ⟨htarget, hget _⟩, nofun⟩
  | form =>
    cases h
    exact ⟨hget _, nofun⟩
  | submitButton =>
    cases h
    exact ⟨List.forall_mem_append.mpr ⟨hget _, hget _⟩, nofun⟩
  | repetition =>
    rw [build] at h
    rcases ho : bs.require "list" with e | o <;> rw [ho] at h
    · cases h
    rcases hitem : bs.settable? "item" with e | item <;> simp only [hitem] at h
    · cases h
    rcases hindex : bs.settable? "index" with e | index <;> simp only [hindex] at h <;> cases h
    exact ⟨List.forall_mem_singleton.mpr (hrequire ho), nofun⟩
  | conditional =>
    rw [build] at h
    rcases ho : bs.require "condition" with e | o <;> rw [ho] at h <;> cases h
    exact ⟨List.forall_mem_cons.mpr ⟨hrequire ho, hget _⟩, nofun⟩
  | componentContent =>
    cases h
    exact ⟨nofun, nofun⟩
  | updateContainer =>
    rw [build] at h
    rcases ho : bs.require "id" with e | o <;> rw [ho] at h <;> cases h
    exact ⟨List.forall_mem_cons.mpr ⟨hrequire ho, hget _⟩, nofun⟩

end Builtin

namespace Template

variable {r : Registry σ} {ds : Declarations} {d : Declaration}

theorem resolve_eq_ok {name : String} {type : ElementType σ} (h : r.resolve name = .ok type) :
    Assoc.get? name r.types = some type := by
  rw [Registry.resolve] at h
  split at h <;> cases h
  assumption

/-- What is made of bindings that are known is checked. -/
theorem checked_of_elementOf (hk : r.Keyed) {type : ElementType σ} {content : Option Element} {e : Element}
    (htype : r.resolve d.typeName = .ok type) (hbs : d.bindings.Known r.helpers) (hcontent : ∀ e ∈ content, e.Checked r)
    (h : elementOf d type content = .ok e) : e.Checked r := by
  have hget := resolve_eq_ok htype
  cases type with
  | component c =>
    cases h
    have hd : r.resolveComponent d.typeName = .ok c := Registry.resolveComponent_eq_ok.mpr hget
    have hname : c.name = d.typeName := hk _ _ hd
    exact .component d.name (by rwa [hname]) hbs hcontent
  | builtin t =>
    rw [elementOf] at h
    rcases ht : t.build d.bindings with error | c <;> rw [ht] at h <;> cases h
    have hinside : ∀ e ∈ (if t.hasContent then content else none), e.Checked r := by
      split
      · exact hcontent
      · exact fun _ he => absurd he (Option.not_mem_none _)
    have hfrom := Builtin.from_of_build ht
    refine .control ⟨fun b hb => ?_, fun typeName tag bs hw => absurd hw (hfrom.builtIn _ _ _)⟩ hinside
    obtain ⟨key, hmem⟩ := hfrom.evaluated b hb
    exact hbs _ hmem
  | widget w =>
    rw [elementOf] at h
    rcases hw : w.accept d.bindings with error | bs <;> rw [hw] at h <;> cases h
    refine .control ⟨List.forall_mem_nil _, fun typeName tag bs' hc => ?_⟩ hcontent
    cases hc
    exact ⟨w, d.bindings, hget, hbs, hw⟩

/-! ## Templates that compile -/

namespace OpenTag

theorem checked_children {t : OpenTag} (h : ∀ e ∈ t.elements, e.Checked r) : ∀ e ∈ t.children, e.Checked r := by
  intro e he
  rw [children, List.mem_reverse, flushed] at he
  split at he
  · exact h e he
  · rcases List.mem_cons.mp he with rfl | he
    · exact .text _
    · exact h e he

theorem checked_content {t : OpenTag} (h : ∀ e ∈ t.elements, e.Checked r) : ∀ e ∈ t.content, e.Checked r := by
  have hchildren := checked_children h
  intro e he
  unfold content at he
  split at he
  · cases he
  · rename_i only honly
    have hchecked : only.Checked r := hchildren only (honly ▸ List.mem_singleton_self only)
    split at he <;> cases he
    · exact .group t.name (List.forall_mem_singleton.mpr hchecked)
    · exact hchecked
  · cases he
    exact .group t.name hchildren

theorem checked_addElement {t : OpenTag} (h : ∀ e ∈ t.elements, e.Checked r) {e : Element} (he : e.Checked r) :
    ∀ e' ∈ (t.addElement e).elements, e'.Checked r := by
  refine List.forall_mem_cons.mpr ⟨he, fun e' he' => ?_⟩
  exact checked_children h e' (List.mem_reverse.mpr he')

/-- A tag that an element is made for is in order. -/
theorem OpenedBy.sound {t : OpenTag} {tag : Tag} (ht : t.OpenedBy tag) {e : Element} (h : build r ds t = .ok e) :
    Sound r ds tag := by
  obtain ⟨d, type, hd, hhelpers, htype, he⟩ := build_eq_ok h
  obtain ⟨name, -, hopens⟩ := ht.opens hd
  exact fun _ => ⟨name, d, hopens, hhelpers, type, t.content, e, htype, he⟩

theorem checked_build (hk : r.Keyed) {t : OpenTag} (ht : ∀ e ∈ t.elements, e.Checked r) {e : Element}
    (h : build r ds t = .ok e) : e.Checked r := by
  obtain ⟨d, type, -, hhelpers, htype, he⟩ := build_eq_ok h
  exact checked_of_elementOf hk htype (Bindings.known_iff.mpr hhelpers) (checked_content ht) he

end OpenTag

namespace Compilation

/-- What is read so far is checked, but for the tags that are open still. -/
structure Checked (r : Registry σ) (ds : Declarations) (c : Compilation) (read : List Tag) : Prop where
  elements : ∀ t ∈ c.top :: c.outer, ∀ e ∈ t.elements, e.Checked r
  tags : ∃ opened, Stands (c.top :: c.outer) opened ∧ ∀ tag ∈ read, Sound r ds tag ∨ tag ∈ opened

theorem checked_start : Checked r ds {} [] where
  elements t ht e he := by
    rcases List.mem_singleton.mp ht with rfl
    cases he
  tags := ⟨[], .root rfl rfl, List.forall_mem_nil _⟩

variable {c c' : Compilation} {read : List Tag} {tag : Tag}

theorem Checked.addText (h : c.Checked r ds read) (ch : Char) :
    ({ c with top := c.top.addText ch } : Compilation).Checked r ds read where
  elements := List.forall_mem_cons.mpr (List.forall_mem_cons.mp h.elements)
  tags := by
    obtain ⟨opened, hstands, htags⟩ := h.tags
    exact ⟨opened, hstands.mapTop rfl rfl, htags⟩

/-- The innermost tag is checked as it is closed. -/
theorem Checked.close (hk : r.Keyed) (h : c.Checked r ds read) (hc : c.close r ds = .ok c') : c'.Checked r ds read := by
  obtain ⟨around, top, count⟩ := c
  obtain ⟨opened, hstands, htags⟩ := h.tags
  obtain ⟨htop, houter⟩ := List.forall_mem_cons.mp h.elements
  cases hstands with
  | root => cases hc
  | @inside _ _ opening opened hstands hopened hopening =>
    cases around with
    | nil => cases hc
    | cons t outer =>
      obtain ⟨e, he, rfl⟩ := eq_of_close rfl hc
      obtain ⟨ht, hrest⟩ := List.forall_mem_cons.mp houter
      refine ⟨List.forall_mem_cons.mpr ⟨OpenTag.checked_addElement ht (OpenTag.checked_build hk htop he), hrest⟩, opened,
        hstands.mapTop rfl rfl, fun tag htag => ?_⟩
      rcases htags tag htag with hsound | hmem
      · exact .inl hsound
      · rcases List.mem_cons.mp hmem with rfl | hmem
        · exact .inl (hopened.sound he)
        · exact .inr hmem

theorem Checked.openTag (hk : r.Keyed) (h : c.Checked r ds read) {t : OpenTag} (ht : t.elements = [])
    (hopened : t.OpenedBy tag) (hclosing : tag.isClosing = false) (hc : c.openTag r ds t tag.isSelfClosing = .ok c') :
    c'.Checked r ds (read ++ [tag]) := by
  have hnone : ∀ e ∈ t.elements, e.Checked r := ht ▸ List.forall_mem_nil _
  obtain ⟨opened, hstands, htags⟩ := h.tags
  obtain ⟨htop, houter⟩ := List.forall_mem_cons.mp h.elements
  rw [Compilation.openTag] at hc
  rcases tag.cases with ⟨hopening, hself⟩ | ⟨hself, -⟩ | ⟨hclosing', -⟩
  · rw [hself] at hc
    cases hc
    refine ⟨List.forall_mem_cons.mpr ⟨hnone, h.elements⟩, tag :: opened, .inside hstands hopened hopening,
      List.forall_mem_append.mpr ⟨fun tag' htag' => ?_, List.forall_mem_singleton.mpr (.inr List.mem_cons_self)⟩⟩
    exact (htags tag' htag').imp_right (List.mem_cons_of_mem _)
  · rw [hself, if_pos rfl] at hc
    obtain ⟨e, he, rfl⟩ := eq_of_close rfl hc
    refine ⟨List.forall_mem_cons.mpr ⟨OpenTag.checked_addElement htop (OpenTag.checked_build hk hnone he), houter⟩,
      opened, hstands.mapTop rfl rfl, List.forall_mem_append.mpr ⟨htags, List.forall_mem_singleton.mpr (.inl ?_)⟩⟩
    exact hopened.sound he
  · rw [hclosing] at hclosing'
    cases hclosing'

theorem Checked.closeTag (hk : r.Keyed) (h : c.Checked r ds read) {fits : TagKind → Bool} {found : String}
    (hclosing : tag.isClosing = true) (hc : c.closeTag r ds fits found = .ok c') : c'.Checked r ds (read ++ [tag]) := by
  rw [Compilation.closeTag] at hc
  by_cases hfits : fits c.top.kind = true
  · rw [if_pos hfits] at hc
    obtain ⟨helements, opened, hstands, htags⟩ := h.close hk hc
    refine ⟨helements, opened, hstands, List.forall_mem_append.mpr ⟨htags, List.forall_mem_singleton.mpr (.inl ?_)⟩⟩
    intro hopening
    rw [hclosing] at hopening
    cases hopening
  · rw [if_neg hfits] at hc
    split at hc <;> cases hc

theorem Checked.handle (hk : r.Keyed) (h : c.Checked r ds read) (hc : c.handle r ds tag = .ok c') :
    c'.Checked r ds (read ++ [tag]) := by
  cases tag with
  | openNamed name selfClosing => exact h.openTag hk rfl (.named rfl rfl) rfl hc
  | openInline typeName attributes selfClosing =>
    rw [Compilation.handle] at hc
    rcases hd : inlineDeclaration c.inlineCount typeName attributes with error | d <;> rw [hd] at hc
    · cases hc
    · have hcount : ({ c with inlineCount := c.inlineCount + 1 } : Compilation).Checked r ds read :=
        ⟨h.elements, h.tags⟩
      exact hcount.openTag hk rfl (.inline rfl rfl hd) rfl hc
  | closeNamed | closeInline =>
    rw [Compilation.handle] at hc
    exact h.closeTag hk rfl hc

theorem Checked.step (hk : r.Keyed) {ts : List Token} {token : Token} (h : c.Checked r ds (tagsOf ts))
    (hc : step r ds c token = .ok c') : c'.Checked r ds (tagsOf (ts ++ [token])) := by
  rw [tagsOf_append]
  cases token with
  | char ch =>
    cases hc
    rw [show tagsOf [.char ch] = [] from rfl, List.append_nil]
    exact h.addText ch
  | tag tag source => exact h.handle hk hc

end Compilation

/-- The tags of a template that compiles are all in order, and so are the elements made of them. -/
theorem checked_of_compileWith (hk : r.Keyed) {template : String} {e : Element}
    (h : compileWith r ds template = .ok e) :
    e.Checked r ∧ ∃ ts, lex template.toList = .ok ts ∧ ∀ tag ∈ tagsOf ts, Sound r ds tag := by
  rw [compileWith] at h
  rcases hrun : Compilation.run r ds {} template.toList with error | c <;> rw [hrun] at h
  · cases h
  obtain ⟨ts, hlex, hfold⟩ := Compilation.lex_of_run hrun
  have hstart : ({} : Compilation).Checked r ds (tagsOf []) := Compilation.checked_start
  obtain ⟨helements, opened, hstands, htags⟩ :=
    foldlM_keeps (P := fun c ts => c.Checked r ds (tagsOf ts)) (Compilation.Checked.step hk) hstart hfold
  obtain ⟨outer, top, count⟩ := c
  cases hstands with
  | inside houter _ =>
    rw [show (Except.ok _ >>= Compilation.finish) = Compilation.finish _ from rfl, Compilation.finish,
      if_neg (by simpa using houter.outer_ne_nil)] at h
    cases h
  | root =>
    cases h
    refine ⟨.group top.name (OpenTag.checked_children (helements top List.mem_cons_self)), ts, hlex, fun tag htag => ?_⟩
    exact (htags tag htag).resolve_right (List.not_mem_nil)

theorem checked_of_compile (hk : r.Keyed) {template declarations : String} {e : Element}
    (h : compile r template declarations = .ok e) :
    e.Checked r ∧ ∃ ds ts, Declarations.parse declarations = .ok ds ∧ lex template.toList = .ok ts ∧
      ∀ tag ∈ tagsOf ts, Sound r ds tag := by
  rw [compile] at h
  rcases hds : Declarations.parse declarations with error | ds <;> rw [hds] at h
  · cases h
  · obtain ⟨hchecked, ts, hlex, hsound⟩ := checked_of_compileWith hk h
    exact ⟨hchecked, ds, ts, rfl, hlex, hsound⟩

end Template

end PageServer
