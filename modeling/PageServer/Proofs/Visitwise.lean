/-
  PageServer.Proofs.Visitwise — what holds across a traversal because of what it visits.

  `Kept` asks the same of a relation at every scene there is. `KeptAt` asks less: at a form and
  at a use of a component it may take for granted what `E` says of the visit, which is the element
  together with the scene the traversal really comes to it in. If `E` holds of every visit that can
  be reached, the relation holds across the traversal (`KeptAt.run`). The induction is the one over
  visits; the children of a group and the rounds of a repetition are walked along their own lists.
-/

import PageServer.Proofs.Visits

namespace PageServer

variable {σ : Type} [Component σ] {r : Registry σ} {phase : Phase} {R : Scene σ → Scene σ → Prop}

/-- One step after the other, the second where the first one ended. -/
theorem Plain.bind_at {α β : Type} (k : Plain R) {p : Pass σ α} {f : α → Pass σ β} {s : Scene σ}
    (hp : R s (p.on s).2) (hf : ∀ a t, p.on s = (.ok a, t) → R t ((f a).on t).2) :
    R s ((p >>= f).on s).2 := by
  rw [Pass.on_bind]
  rcases h : p.on s with ⟨e | a, t⟩ <;> rw [h] at hp
  · exact hp
  · exact k.trans hp (hf a t h)

theorem Context.url_inForm (c : Context) : c.url.2.inForm = c.inForm := by
  simp only [Context.url, Context.takeContextId, Context.nextContextId]
  cases c.contextId <;> rfl

/-- What a relation has to withstand to hold across a traversal whose visits are as `E` says. -/
structure KeptAt (r : Registry σ) (E : Visit σ → Prop) (R : Scene σ → Scene σ → Prop) : Prop
    extends InPlace r R where
  next : ∀ s, R s (s.mapContext Context.next)
  level : ∀ s t, R (s.mapContext Context.down) t → R s (t.mapContext Context.up)
  /-- A form has written its start tag in `s`, or is where the traversal came to it. -/
  form : ∀ v s t, E v → v.element.isForm = true → s.context.inForm = v.scene.context.inForm →
    R (s.mapContext (·.withInForm true)) t → R s (t.mapContext (·.withInForm false))
  container : ∀ s id t, R (s.mapContext (·.enterContainer id)) t → R s (t.mapContext Context.leaveContainer)
  /-- A component that does not take its values is put back at once. -/
  refused : ∀ depth s tag name bs content d e child es,
    E ⟨depth, .component tag name bs content, s⟩ → r.resolveComponent name = .ok d →
    Instance.receive r.helpers s.current.state bs (Pass.childAt d s) = ((.error e, child), es) →
    R s (Pass.putChild s.context.elementId.text child
      (((s.compiled r d).addEvents es).without s.context.elementId.text))
  left : ∀ depth s tag name bs content d child es t,
    E ⟨depth, .component tag name bs content, s⟩ → r.resolveComponent name = .ok d →
    Instance.receive r.helpers s.current.state bs (Pass.childAt d s) = ((.ok (), child), es) →
    R (((s.compiled r d).addEvents es).pushed s.context.elementId.text child content) t →
    (t.frames = [] → R s t) ∧
    ∀ f rest, t.frames = f :: rest → ∀ u, R { t with frames := rest } u →
      R s (Pass.putChild f.key f.inner u)
  aside : ∀ s f rest t, s.frames = f :: rest → R { s with frames := rest } t →
    R s { t with frames := f :: t.frames }

namespace KeptAt

variable {E : Visit σ → Prop} (k : KeptAt r E R)
include k

/-! ## The parts of one level -/

/-- The children that follow those that were passed. -/
theorem children {depth : Nat} {s : Scene σ} {name : Option String} {children : List Element}
    (ih : ∀ w u, Part r phase ⟨depth, .group name children, s⟩ w u → R u.scene (u.run r phase).2)
    (xs ys : List Element) (t : Scene σ) (hsplit : children = xs ++ ys)
    (hs : (Element.visitAll r (Element.visit r phase depth) phase xs).on (s.mapContext Context.down) =
      (.ok none, t)) :
    R t ((Element.visitAll r (Element.visit r phase depth) phase ys).on t).2 := by
  induction ys generalizing xs t with
  | nil => exact k.refl t
  | cons e ys hrest =>
    have hpart : R t ((Walk.part phase (e.visitWith r (Element.visit r phase depth) phase)).on t).2 := by
      rw [Pass.on_part]
      split
      · rename_i hv
        exact ih (.child xs.length) ⟨depth, e, t⟩ (.child (by simp [hsplit]) (by simpa [hsplit] using hs) hv)
      · exact k.refl t
    rw [Pass.on_visitAll_cons]
    rcases ho : (Walk.part phase (e.visitWith r (Element.visit r phase depth) phase)).on t with
      ⟨_ | _ | o, u⟩ <;> rw [ho] at hpart
    · exact hpart
    · have hpassed : (Element.visitAll r (Element.visit r phase depth) phase (xs ++ [e])).on
          (s.mapContext Context.down) = (.ok none, u.mapContext Context.next) := by
        rw [visitAll_snoc hs, ho]
      have hys := hrest (xs ++ [e]) _ (by simp [hsplit]) hpassed
      exact k.trans hpart (k.trans (k.next u) hys)
    · exact hpart

/-- The rounds that follow those that were passed. -/
theorem rounds {depth : Nat} {s : Scene σ} {list : Binding} {item index : Option KeyPath} {e : Element}
    (ih : ∀ w u, Part r phase ⟨depth, .control (.repetition list item index) (some e), s⟩ w u →
      R u.scene (u.run r phase).2)
    {items : List Value} (hl : (Control.listItems r.helpers list).on s = (.ok items, s))
    (xs ys : List Value) (t : Scene σ) (hsplit : items = xs ++ ys)
    (hs : (Control.rounds item index
        (Walk.part phase (e.visitWith r (Element.visit r phase depth) phase)) 0 xs).on
      (s.mapContext Context.down) = (.ok none, t)) :
    R t ((Control.rounds item index
      (Walk.part phase (e.visitWith r (Element.visit r phase depth) phase)) xs.length ys).on t).2 := by
  induction ys generalizing xs t with
  | nil => exact k.refl t
  | cons y ys hrest =>
    have hset := Pass.Within.setRound k.toPlain item index xs.length y t
    rw [Pass.on_rounds_cons]
    rcases hto : (Control.setRound item index xs.length y).on t with ⟨_ | _, t'⟩ <;> rw [hto] at hset
    · exact hset
    have hpart : R t' ((Walk.part phase (e.visitWith r (Element.visit r phase depth) phase)).on t').2 := by
      rw [Pass.on_part]
      split
      · rename_i hv
        exact ih (.round xs.length) ⟨depth, e, t'⟩
          (.round hl (by simp [hsplit]) (by simpa [hsplit] using hs) hto hv)
      · exact k.refl t'
    dsimp only
    rcases ho : (Walk.part phase (e.visitWith r (Element.visit r phase depth) phase)).on t' with
      ⟨_ | _ | o, u⟩ <;> rw [ho] at hpart
    · exact k.trans hset hpart
    · have hpassed : (Control.rounds item index
          (Walk.part phase (e.visitWith r (Element.visit r phase depth) phase)) 0 (xs ++ [y])).on
          (s.mapContext Context.down) = (.ok none, u.mapContext Context.next) := by
        rw [rounds_snoc hs hto, ho]
      have hys := hrest (xs ++ [y]) _ (by simp [hsplit]) hpassed
      rw [List.length_append, List.length_singleton] at hys
      exact k.trans hset (k.trans hpart (k.trans (k.next u) hys))
    · exact k.trans hset hpart

/-! ## Components -/

theorem component {depth : Nat} {s : Scene σ} {tag name : String} {bs : Bindings} {content : Option Element}
    (hE : E ⟨depth, .component tag name bs content, s⟩)
    (ih : ∀ w u, Part r phase ⟨depth, .component tag name bs content, s⟩ w u → R u.scene (u.run r phase).2) :
    R s ((Pass.enter r name bs content (Element.visit r phase depth)).on s).2 := by
  rw [Pass.on_enter]
  rcases hs : (Pass.arrive r name bs content).on s with ⟨_ | template, t⟩
  · rw [Pass.on_arrive] at hs
    rcases hd : r.resolveComponent name with e | d <;> simp only [hd] at hs
    · cases hs
      exact k.refl _
    rcases hte : (Templates.get r d s.templates).1 with e | template <;> simp only [hte] at hs
    · cases hs
      exact k.templates s name d hd
    rcases hr : Instance.receive r.helpers s.current.state bs (Pass.childAt d s) with ⟨⟨e | _, child⟩, es⟩ <;>
      simp only [hr] at hs
    · cases hs
      exact k.refused depth s tag name bs content d _ child es hE hd hr
    · cases hs
  · obtain ⟨d, child, es, hd, -, hr, ht⟩ := Pass.arrive_ok hs
    have hrun : R t ((Element.visit r phase depth template).on t).2 := by
      cases depth with
      | zero => exact k.refl t
      | succ depth => exact ih .template ⟨depth, template, t⟩ (.template hs)
    rw [ht] at hrun
    obtain ⟨hnil, hcons⟩ := k.left depth s tag name bs content d child es _ hE hd hr hrun
    dsimp only
    rw [ht]
    generalize (Element.visit r phase depth template).on _ = o at hnil hcons ⊢
    rw [Pass.on_depart]
    rcases hf : o.2.frames with _ | ⟨f, rest⟩
    · exact hnil hf
    · exact hcons f rest hf _ (Pass.Within.pullBindings k.toPlain f.inner.state bs _)

/-! ## Controls -/

/-- The content of a control, come to in `t`. -/
theorem content {depth : Nat} {s t : Scene σ} {c : Control} {content : Option Element}
    (ih : ∀ w u, Part r phase ⟨depth, .control c content, s⟩ w u → R u.scene (u.run r phase).2)
    (ht : (c.approach r phase).on s = (.ok true, t)) :
    R t (((Element.visitContent r (Element.visit r phase depth) phase content).getD Walk.nothing).on t).2 := by
  cases content with
  | none => exact k.refl t
  | some e => exact ih .inside ⟨depth, e, t⟩ (.inside ht)

theorem hyperlink {depth : Nat} {s : Scene σ} {target : Target} {label : Option Binding}
    {content : Option Element}
    (ih : ∀ w u, Part r phase ⟨depth, .control (.hyperlink target label) content, s⟩ w u →
      R u.scene (u.run r phase).2) :
    R s ((Control.visitHyperlink r target label
      ((Element.visitContent r (Element.visit r phase depth) phase content).getD Walk.nothing) phase).on s).2 := by
  cases phase with
  | take => exact k.refl s
  | invoke =>
    cases target with
    | action a =>
      simp only [Control.visitHyperlink, Pass.on_bind, Pass.on_get]
      split
      · exact Pass.Within.bind k.toPlain (Pass.Within.perform k.toInPlace a)
          (fun _ => Pass.Within.pure k.toPlain _) s
      · exact k.refl s
    | href b => exact k.refl s
    | directAction b => exact k.refl s
  | render =>
    refine k.bind_at (k.bind_at (Pass.Within.openLink k.toPlain target s) fun _ t ht => ?_) fun _ t _ => k.refl t
    cases label with
    | some b =>
      exact Pass.Within.bind k.toPlain (Pass.Within.evaluateText k.toPlain r.helpers b)
        (fun _ => Pass.Within.bind k.toPlain (Pass.Within.write k.toPlain _)
          fun _ => Pass.Within.write k.toPlain _) t
    | none =>
      have happroach : ((Control.hyperlink target none).approach r .render).on s = (.ok true, t) := by
        rw [Control.approach, Pass.on_bind, ht]
        rfl
      exact k.bind_at (k.content ih happroach) fun _ u _ => Pass.Within.write k.toPlain _ u

theorem formControl {depth : Nat} {s : Scene σ} {action : Option Binding} {content : Option Element}
    (hE : E ⟨depth, .control (.form action) content, s⟩)
    (ih : ∀ w u, Part r phase ⟨depth, .control (.form action) content, s⟩ w u → R u.scene (u.run r phase).2) :
    R s ((Control.visitForm r action
      ((Element.visitContent r (Element.visit r phase depth) phase content).getD Walk.nothing) phase).on s).2 := by
  cases phase with
  | take =>
    rw [Control.visitForm, Pass.on_inForm]
    exact k.form _ s _ hE rfl rfl (k.content ih rfl)
  | invoke =>
    rw [Control.visitForm, Pass.on_inForm]
    refine k.form _ s _ hE rfl rfl (k.bind_at (k.content ih rfl) fun o t _ => ?_)
    split
    · exact k.refl t
    · exact Pass.Within.submitForm k.toInPlace action t
  | render =>
    refine k.bind_at (k.bind_at (Pass.Within.openForm k.toPlain s) fun _ t ht => ?_) fun _ t _ => k.refl t
    have happroach : ((Control.form action).approach r .render).on s =
        (.ok true, t.mapContext (·.withInForm true)) := by
      simp only [Control.approach, if_true, Pass.on_bind, ht]
      rfl
    have hflag : t.context.inForm = s.context.inForm := by
      cases ht
      exact Context.url_inForm s.context
    refine k.bind_at ?_ fun _ u _ => Pass.Within.write k.toPlain _ u
    rw [Pass.on_inForm]
    exact k.form _ t _ hE rfl hflag (k.content ih happroach)

theorem updateContainer {depth : Nat} {s : Scene σ} {id : Binding} {elementName : Option Binding}
    {content : Option Element}
    (ih : ∀ w u, Part r phase ⟨depth, .control (.updateContainer id elementName) content, s⟩ w u →
      R u.scene (u.run r phase).2) :
    R s ((Control.visitUpdateContainer r.helpers id elementName
      ((Element.visitContent r (Element.visit r phase depth) phase content).getD Walk.nothing) phase).on s).2 := by
  cases phase with
  | take => exact k.content ih rfl
  | invoke => exact k.content ih rfl
  | render =>
    rw [Control.visitUpdateContainer, Pass.on_bind]
    rcases Pass.on_openContainer s r.helpers id elementName with ⟨e, ho⟩ | ⟨id', name, x, ho⟩ <;> rw [ho]
    · exact k.refl s
    · have happroach : ((Control.updateContainer id elementName).approach r .render).on s =
          (.ok true, { s.mapContext (·.enterContainer id') with response := x }) := by
        simp only [Control.approach, if_true, Pass.on_bind, ho]
        rfl
      dsimp only
      rw [Pass.on_ensuring]
      have ht := k.trans (k.response (s.mapContext (·.enterContainer id')) x) (k.content ih happroach)
      exact k.trans (k.container s id' _ (k.trans ht (k.response _ _))) (k.response _ _)

/-- Whatever control is visited. -/
theorem control {depth : Nat} {s : Scene σ} {c : Control} {content : Option Element}
    (hE : E ⟨depth, .control c content, s⟩)
    (ih : ∀ w u, Part r phase ⟨depth, .control c content, s⟩ w u → R u.scene (u.run r phase).2) :
    R s ((c.visit r (Element.visit r phase depth) phase
      (Element.visitContent r (Element.visit r phase depth) phase content)).on s).2 := by
  cases c with
  | string value escape whenEmpty => exact Pass.Within.visitString k.toPlain value escape whenEmpty phase s
  | textField value name => exact Pass.Within.visitTextField k.toPlain value name phase s
  | hyperlink target label => exact k.hyperlink ih
  | form action => exact k.formControl hE ih
  | submitButton action value => exact Pass.Within.visitSubmitButton k.toInPlace action value phase s
  | repetition list item index =>
    cases content with
    | none => exact k.refl s
    | some e =>
      simp only [Control.visit, Element.visitContent, Control.visitRepetition, Pass.on_bind]
      have hk := Pass.listItems_keeps s r.helpers list
      rcases hl : (Control.listItems r.helpers list).on s with ⟨_ | items, t⟩ <;> rw [hl] at hk <;> cases hk
      · exact k.refl t
      · dsimp only
        rw [Pass.on_below]
        exact k.level t _ (k.rounds ih hl [] items (t.mapContext Context.down) rfl rfl)
  | conditional condition negate =>
    simp only [Control.visit, Control.visitConditional, Pass.on_bind]
    have hk := Pass.isShown_keeps s r.helpers condition negate
    rcases hc : (Control.isShown r.helpers condition negate).on s with ⟨_ | b, t⟩ <;> rw [hc] at hk <;> cases hk
    · exact k.refl t
    · cases b with
      | false => exact k.refl t
      | true => exact k.content ih hc
  | componentContent =>
    simp only [Control.visit, Pass.on_inParent]
    rcases hf : s.frames with _ | ⟨f, rest⟩
    · exact k.refl s
    dsimp only
    rcases hc : f.content with _ | e
    · exact k.refl s
    · refine k.aside s f rest _ hf ?_
      cases depth with
      | zero => exact k.refl _
      | succ depth => exact ih .content ⟨depth, e, { s with frames := rest }⟩ (.content hf hc)
  | updateContainer id name => exact k.updateContainer ih
  | widget typeName tag bindings =>
    simp only [Control.visit]
    split
    · exact Pass.Within.visitWidget k.toInPlace _ bindings phase s
    · exact k.refl s

/-! ## Traversals -/

/-- What is as `E` says at every visit that can be reached is kept by the traversal. -/
theorem run (v : Visit σ) (hE : ∀ π u, v.at? r phase π = some u → E u) : R v.scene (v.run r phase).2 := by
  induction v using Visit.induction r phase with
  | step v ih =>
  obtain ⟨depth, element, s⟩ := v
  have hv : E ⟨depth, element, s⟩ := hE [] _ rfl
  have hparts : ∀ w u, Part r phase ⟨depth, element, s⟩ w u → R u.scene (u.run r phase).2 :=
    fun w u hu => ih w u hu fun π x hx => hE (w :: π) x (Visit.at?_cons.mpr ⟨u, hu, hx⟩)
  show R s ((element.visitWith r (Element.visit r phase depth) phase).on s).2
  cases element with
  | text text =>
    cases phase with
    | take => exact k.refl s
    | invoke => exact k.refl s
    | render => exact Pass.Within.ofPass k.toPlain (Pass.Within.write k.toPlain text) s
  | group name children =>
    rw [Element.visitWith, Pass.on_below]
    exact k.level s _ (k.children hparts [] children (s.mapContext Context.down) rfl rfl)
  | component tag name bs content =>
    rw [Element.visitWith]
    exact k.component hv hparts
  | control c content =>
    rw [Element.visitWith]
    exact k.control hv hparts

end KeptAt

end PageServer
