/-
  PageServer.Proofs.Growth — what stays as more is registered.

  A name that is given away keeps its meaning (`Registry.PartOf`), so what compiles goes on to compile
  to the same elements (`compile_of_partOf`), and every template that is kept goes on to be that of its
  definition (`Templates.OfDefinitions`). What is kept stays when another template is asked for; once
  the templates of all definitions are kept, none is compiled any more (`Templates.Complete`).

  The states that components get into are what the code of the application makes of the initial ones
  (`Registry.Reaches`). They stay within reach, too, as the definitions are still there.
-/

import PageServer.Proofs.Checked

namespace PageServer

variable {σ : Type}

/-! ## What is registered stays -/

namespace Registry

variable {r r' : Registry σ} {name : String}

/-- What is registered with `r` is registered with `r'`, under the same names. -/
structure PartOf (r r' : Registry σ) : Prop where
  types : ∀ {name type}, Assoc.get? name r.types = some type → Assoc.get? name r'.types = some type
  helpers : ∀ {name helper}, Assoc.get? name r.helpers = some helper → Assoc.get? name r'.helpers = some helper

theorem partOf_register {t : ElementType σ} (h : r.register name t = .ok r') : r.PartOf r' := by
  obtain ⟨hnone, rfl⟩ := register_eq_ok h
  exact ⟨Assoc.get?_put_of_none hnone, id⟩

theorem partOf_registerHelper {f : Helper} (h : r.registerHelper name f = .ok r') :
    r.PartOf r' ∧ r'.types = r.types := by
  unfold registerHelper Helpers.register at h
  by_cases hc : r.helpers.contains name = true
  · rw [if_pos hc] at h
    cases h
  · rw [if_neg hc] at h
    cases h
    have hnone : Assoc.get? name r.helpers = none := Option.not_isSome_iff_eq_none.mp hc
    exact ⟨⟨id, Assoc.get?_put_of_none hnone⟩, rfl⟩

namespace PartOf

variable (h : r.PartOf r')
include h

theorem contains (hc : r.helpers.contains name = true) : r'.helpers.contains name = true := by
  obtain ⟨f, hf⟩ := Option.isSome_iff_exists.mp hc
  exact Option.isSome_iff_exists.mpr ⟨f, h.helpers hf⟩

theorem resolve {t : ElementType σ} (ht : r.resolve name = .ok t) : r'.resolve name = .ok t := by
  rw [Registry.resolve, h.types (Template.resolve_eq_ok ht)]

theorem resolveComponent {d : Definition σ} (hd : r.resolveComponent name = .ok d) : r'.resolveComponent name = .ok d :=
  resolveComponent_eq_ok.mpr (h.types (resolveComponent_eq_ok.mp hd))

end PartOf

/-- A definition is registered if it is found by its name. -/
theorem resolveComponent_of_mem (hk : r.Keyed) (hs : Assoc.Sorted r.types) {d : Definition σ} (hd : d ∈ r.definitions) :
    r.resolveComponent d.name = .ok d := by
  obtain ⟨⟨name, t⟩, hmem, ht⟩ := List.mem_filterMap.mp hd
  cases t with
  | component d' =>
    cases ht
    have hget : r.resolveComponent name = .ok d :=
      resolveComponent_eq_ok.mpr ((Assoc.get?_eq_some_iff hs.nodup).mpr hmem)
    rwa [hk name d hget]
  | _ => cases ht

theorem mem_definitions {d : Definition σ} (hd : r.resolveComponent name = .ok d) : d ∈ r.definitions :=
  List.mem_filterMap.mpr ⟨_, Assoc.mem_of_get? (resolveComponent_eq_ok.mp hd), rfl⟩

theorem sorted_builtin : Assoc.Sorted (builtin : Registry σ).types := by
  dsimp only [builtin]
  exact Assoc.sorted_ofList _

theorem keyed_builtin : (builtin : Registry σ).Keyed := by
  intro name d hd
  have hmem := Assoc.mem_of_get? (resolveComponent_eq_ok.mp hd)
  dsimp only [builtin] at hmem
  obtain ⟨t, -, hnames⟩ := List.mem_flatMap.mp (Assoc.mem_ofList hmem)
  obtain ⟨_, -, hbuiltin⟩ := List.mem_map.mp hnames
  cases hbuiltin

end Registry

/-! ## What compiles goes on to compile -/

namespace Template

variable {r r' : Registry σ} {ds : Declarations}

theorem build_of_partOf (h : r.PartOf r') {t : OpenTag} {e : Element} (he : build r ds t = .ok e) :
    build r' ds t = .ok e := by
  obtain ⟨d, type, hd, hhelpers, htype, hmade⟩ := OpenTag.build_eq_ok he
  have hfind : (d.bindings.flatMap (·.2.helperNames)).find? (!r'.helpers.contains ·) = none := by
    rw [List.find?_eq_none]
    intro name hname
    simp [h.contains (hhelpers name hname)]
  rw [build, hd]
  simp only [bind, Except.bind, hfind, h.resolve htype, hmade]
  rfl

namespace Compilation

variable {c c' : Compilation}

theorem close_of_partOf (h : r.PartOf r') (hc : c.close r ds = .ok c') : c.close r' ds = .ok c' := by
  obtain ⟨outer, top, count⟩ := c
  cases outer with
  | nil => cases hc
  | cons t outer =>
    obtain ⟨e, he, rfl⟩ := eq_of_close rfl hc
    rw [close, build_of_partOf h he]
    rfl

theorem openTag_of_partOf (h : r.PartOf r') {t : OpenTag} {selfClosing : Bool}
    (hc : c.openTag r ds t selfClosing = .ok c') : c.openTag r' ds t selfClosing = .ok c' := by
  cases selfClosing with
  | false => exact hc
  | true =>
    rw [openTag, if_pos rfl] at hc ⊢
    exact close_of_partOf h hc

theorem closeTag_of_partOf (h : r.PartOf r') {fits : TagKind → Bool} {found : String}
    (hc : c.closeTag r ds fits found = .ok c') : c.closeTag r' ds fits found = .ok c' := by
  rw [closeTag] at hc ⊢
  by_cases hfits : fits c.top.kind = true
  · rw [if_pos hfits] at hc ⊢
    exact close_of_partOf h hc
  · rw [if_neg hfits] at hc ⊢
    exact hc

theorem step_of_partOf (h : r.PartOf r') {token : Token} (hc : step r ds c token = .ok c') :
    step r' ds c token = .ok c' := by
  cases token with
  | char ch => exact hc
  | tag tag source =>
    rw [step] at hc ⊢
    cases tag with
    | openNamed => exact openTag_of_partOf h hc
    | openInline typeName attributes selfClosing =>
      rw [handle] at hc ⊢
      rcases hd : inlineDeclaration c.inlineCount typeName attributes with error | d <;> rw [hd] at hc
      · cases hc
      · exact openTag_of_partOf h hc
    | closeNamed | closeInline =>
      rw [handle] at hc ⊢
      exact closeTag_of_partOf h hc

theorem reads_of_partOf (h : r.PartOf r') {ts : List Token} (hc : ts.foldlM (step r ds) c = .ok c') :
    ts.foldlM (step r' ds) c = .ok c' := by
  induction ts generalizing c with
  | nil => exact hc
  | cons token ts ih =>
    rw [List.foldlM_cons] at hc
    rcases hstep : step r ds c token with error | next <;> rw [hstep] at hc
    · cases hc
    · rw [foldlM_cons_ok (step_of_partOf h hstep)]
      exact ih hc

end Compilation

/-- What compiles is the same when more is registered. -/
theorem compile_of_partOf (h : r.PartOf r') {template declarations : String} {e : Element}
    (he : compile r template declarations = .ok e) : compile r' template declarations = .ok e := by
  rw [compile] at he ⊢
  rcases hds : Declarations.parse declarations with error | ds <;> rw [hds] at he
  · cases he
  simp only [compileWith] at he ⊢
  rcases hrun : Compilation.run r ds {} template.toList with error | c <;> rw [hrun] at he
  · cases he
  obtain ⟨ts, hlex, hfold⟩ := Compilation.lex_of_run hrun
  rw [Compilation.run_eq hlex, Compilation.reads_of_partOf h hfold]
  exact he

end Template

/-! ## The templates that are kept -/

namespace Templates

variable {r r' : Registry σ} {ts : Templates} {name : String} {d : Definition σ}

/-- Every template that is kept is that of the definition with its name. -/
def OfDefinitions (r : Registry σ) (ts : Templates) : Prop :=
  ∀ name e, Assoc.get? name ts = some e → ∃ d, r.resolveComponent name = .ok d ∧
    Template.compile r d.template d.declarations = .ok e

/-- The template of every definition is kept. -/
def Complete (r : Registry σ) (ts : Templates) : Prop :=
  ∀ name d, r.resolveComponent name = .ok d → ∃ e, Assoc.get? name ts = some e ∧
    Template.compile r d.template d.declarations = .ok e

theorem OfDefinitions.partOf (h : OfDefinitions r ts) (hr : r.PartOf r') : OfDefinitions r' ts := by
  intro name e hget
  obtain ⟨d, hd, he⟩ := h name e hget
  exact ⟨d, hr.resolveComponent hd, Template.compile_of_partOf hr he⟩

/-- A template that is asked for is kept from then on, and the others stay. -/
theorem get_cases (r : Registry σ) (d : Definition σ) (ts : Templates) :
    (∃ e, Assoc.get? d.name ts = some e ∧ get r d ts = (.ok e, ts)) ∨
      (∃ e, Assoc.get? d.name ts = none ∧ Template.compile r d.template d.declarations = .ok e ∧
        get r d ts = (.ok e, Assoc.put d.name e ts)) ∨
      ∃ e, get r d ts = (.error e, ts) := by
  unfold get
  rcases hget : Assoc.get? d.name ts with _ | e
  · rcases hc : Template.compile r d.template d.declarations with e | e
    · exact .inr (.inr ⟨_, rfl⟩)
    · exact .inr (.inl ⟨e, rfl, rfl, rfl⟩)
  · exact .inl ⟨e, rfl, rfl⟩

theorem preserves_ofDefinitions (hk : r.Keyed) : r.Preserves (OfDefinitions r) := by
  intro name d ts hd h
  rcases get_cases r d ts with ⟨e, -, hget⟩ | ⟨e, -, he, hget⟩ | ⟨e, hget⟩ <;> rw [hget]
  · exact h
  · intro name' e' hget'
    by_cases hname : name' = d.name
    · subst hname
      rw [Assoc.get?_put_self] at hget'
      cases hget'
      exact ⟨d, by rwa [hk name d hd], he⟩
    · rw [Assoc.get?_put_of_ne hname] at hget'
      exact h name' e' hget'
  · exact h

theorem preserves_kept {e : Element} : r.Preserves fun ts => Assoc.get? name ts = some e := by
  intro _ d ts _ h
  rcases get_cases r d ts with ⟨e', -, hget⟩ | ⟨e', hnone, -, hget⟩ | ⟨e', hget⟩ <;> rw [hget]
  · exact h
  · exact Assoc.get?_put_of_none hnone h
  · exact h

/-- If all templates are kept, none is compiled again. -/
theorem Complete.get_eq (hk : r.Keyed) (h : Complete r ts) (hd : r.resolveComponent name = .ok d) :
    ∃ e, get r d ts = (.ok e, ts) ∧ Template.compile r d.template d.declarations = .ok e := by
  obtain ⟨e, hget, he⟩ := h name d hd
  refine ⟨e, ?_, he⟩
  rw [Templates.get, hk name d hd, hget]

theorem preserves_complete (hk : r.Keyed) : r.Preserves (Complete r) := by
  intro name d ts hd h
  obtain ⟨e, hget, -⟩ := h.get_eq hk hd
  rwa [hget]

end Templates

/-! ## States that components get into -/

section States

variable [Component σ]

/-- The code of the application can bring a component into this state. -/
inductive Registry.Reaches (r : Registry σ) : σ → Prop
  | initial {name : String} {d : Definition σ} (hd : r.resolveComponent name = .ok d) : Reaches r d.initial
  | take {x y : σ} {key : String} {v : Value} (h : Reaches r x) (ht : Component.take x key v = .ok y) : Reaches r y
  | perform {x : σ} (h : Reaches r x) (action : String) : Reaches r (Component.perform x action).2
  | awake {x : σ} (h : Reaches r x) : Reaches r (Component.awake x)

theorem Registry.Reaches.partOf {r r' : Registry σ} {x : σ} (h : r.Reaches x) (hr : r.PartOf r') : r'.Reaches x := by
  induction h with
  | initial hd => exact .initial (hr.resolveComponent hd)
  | take _ ht ih => exact ih.take ht
  | perform _ action ih => exact ih.perform action
  | awake _ ih => exact ih.awake

namespace Instance

/-- The component and those in it are in such states. -/
inductive Made (r : Registry σ) : Instance σ → Prop
  | mk {name : String} {state : σ} {children : List (String × Instance σ)} (hstate : r.Reaches state)
      (hchildren : ∀ c ∈ children, Made r c.2) : Made r ⟨name, state, children⟩

theorem made_ofDefinition {r : Registry σ} {name : String} {d : Definition σ} (hd : r.resolveComponent name = .ok d) :
    (ofDefinition d).Made r := .mk (.initial hd) (List.forall_mem_nil _)

omit [Component σ] in
theorem mem_of_child? {i c : Instance σ} {key : String} (h : i.child? key = some c) : (key, c) ∈ i.children := by
  obtain ⟨before, after, heq, -⟩ := List.lookup_eq_some_iff.mp h
  rw [heq]
  exact List.mem_append_right before List.mem_cons_self

theorem awakeAll_eq_map (children : List (String × Instance σ)) :
    awakeAll children = children.map fun c => (c.1, c.2.awake) := by
  induction children with
  | nil => rfl
  | cons c rest ih => rw [awakeAll, ih]; rfl

namespace Made

variable {r r' : Registry σ} {i c : Instance σ}

theorem partOf (h : i.Made r) (hr : r.PartOf r') : i.Made r' := by
  induction h with
  | mk hstate _ ih => exact .mk (hstate.partOf hr) ih

theorem state (h : i.Made r) : r.Reaches i.state := by
  cases h with
  | mk hstate _ => exact hstate

theorem children (h : i.Made r) : ∀ c ∈ i.children, c.2.Made r := by
  cases h with
  | mk _ hchildren => exact hchildren

theorem withState (h : i.Made r) {x : σ} (hx : r.Reaches x) : ({ i with state := x } : Instance σ).Made r :=
  .mk hx h.children

theorem withoutChild (h : i.Made r) (key : String) : (i.withoutChild key).Made r :=
  .mk h.state fun c hc => h.children c (List.mem_filter.mp hc).1

theorem withChild (h : i.Made r) (key : String) (hc : c.Made r) : (i.withChild key c).Made r :=
  .mk h.state (List.forall_mem_append.mpr ⟨(h.withoutChild key).children, List.forall_mem_singleton.mpr hc⟩)

theorem child? (h : i.Made r) {key : String} (hc : i.child? key = some c) : c.Made r :=
  h.children (key, c) (mem_of_child? hc)

theorem awake (h : i.Made r) : i.awake.Made r := by
  induction h with
  | mk hstate _ ih =>
    rw [Instance.awake, awakeAll_eq_map]
    exact .mk hstate.awake (List.forall_mem_map.mpr ih)

end Made

end Instance

end States

end PageServer
