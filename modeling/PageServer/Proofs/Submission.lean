/-
  PageServer.Proofs.Submission — which button a form is submitted with.

  A form whose action is invoked asks its content first, and the traversal ends at the first
  button that was submitted. What it would come to after that is what it comes to when nothing is
  submitted (`Visit.unsubmitted`). As far as no button was submitted the two traversals do the
  same (`Visit.goes_on`), so the one with the values comes to the first such button, in document
  order (`Path.Before`), of all those that the other one visits (`Visit.at?_submitting`). Its
  action is the only one that is performed; where there is none, the form performs its own.
-/

import PageServer.Proofs.DocumentOrder
import PageServer.Proofs.Oblivious
import PageServer.Proofs.Sender

namespace PageServer

variable {σ : Type}

/-! ## With the form values and without -/

def Context.submitting (form : Http.Fields) (c : Context) : Context :=
  { c with request := { c.request with form := form } }

/-- The scene for a request that submits `form`. -/
def Scene.submitting (form : Http.Fields) (s : Scene σ) : Scene σ := s.mapContext (·.submitting form)

def Visit.submitting (form : Http.Fields) (v : Visit σ) : Visit σ := { v with scene := v.scene.submitting form }

/-- The same visit where nothing is submitted. -/
def Visit.unsubmitted (v : Visit σ) : Visit σ := v.submitting {}

/-- The visit is to a submit button with the action `a` whose name was submitted. -/
structure Visit.Submitted (form : Http.Fields) (a : Binding) (v : Visit σ) : Prop where
  button : ∃ value content, v.element = .control (.submitButton (some a) value) content
  named : form.contains v.scene.context.elementId.text = true

/-- The visit has no part in the submission: it is neither the sender nor a form, and no button that
    was submitted. -/
structure Visit.Idle (form : Http.Fields) (v : Visit σ) : Prop where
  notSender : ∀ c content, v.element = .control c content → v.scene.context.isSender = false
  notForm : v.element.isForm = false
  notSubmitted : ∀ a, ¬ v.Submitted form a

/-- The walk does the same with the form values as without, and no action comes of it. -/
structure GoesOn (form : Http.Fields) (p : Pass σ (Found σ)) (s : Scene σ) : Prop where
  same : p.on (s.submitting form) = ((p.on s).1, (p.on s).2.submitting form)
  nothing : ∀ o, (p.on s).1 ≠ .ok (some o)
  inForm : (p.on s).2.context.inForm = s.context.inForm

variable {form : Http.Fields}

theorem Pass.Oblivious.submitting {α : Type} {p : Pass σ α} (h : p.Oblivious) (form : Http.Fields) (s : Scene σ) :
    p.on (s.submitting form) = ((p.on s).1, (p.on s).2.submitting form) := by
  obtain ⟨hon, hu⟩ := h s { s.context.request with form := form } s.response
  refine hon.trans ?_
  rw [← hu.request, ← hu.response]
  rfl

namespace GoesOn

variable {s t : Scene σ} {p q : Pass σ (Found σ)}

theorem quiet : GoesOn form (Walk.nothing : Pass σ (Found σ)) s := ⟨rfl, nofun, rfl⟩

/-- Nothing is done, with the form values or without. -/
theorem passes (hs : p.on s = (.ok none, s)) (hs' : p.on (s.submitting form) = (.ok none, s.submitting form)) :
    GoesOn form p s := by
  refine ⟨?_, ?_, ?_⟩
  · rw [hs', hs]
  · rw [hs]
    exact nofun
  · rw [hs]

theorem fails {e : Failure} (hs : p.on s = (.error e, t)) (hs' : p.on (s.submitting form) = (.error e, t.submitting form))
    (hin : t.context.inForm = s.context.inForm) : GoesOn form p s := by
  refine ⟨?_, ?_, ?_⟩
  · rw [hs', hs]
  · rw [hs]
    exact nofun
  · rw [hs]
    exact hin

/-- What goes on in a bracket that does not look at the request goes on around it. -/
theorem within (h : GoesOn form q t) (f : Scene σ → Scene σ) (hs : p.on s = ((q.on t).1, f (q.on t).2))
    (hs' : p.on (s.submitting form) = ((q.on (t.submitting form)).1, f (q.on (t.submitting form)).2))
    (hf : ∀ u, f (u.submitting form) = (f u).submitting form)
    (hin : ∀ u, u.context.inForm = t.context.inForm → (f u).context.inForm = s.context.inForm) : GoesOn form p s := by
  obtain ⟨hsame, hnothing, hkeeps⟩ := h
  refine ⟨?_, ?_, ?_⟩
  · rw [hs', hs, hsame, hf]
  · rw [hs]
    exact hnothing
  · rw [hs]
    exact hin _ hkeeps

/-- A step that does not look at the request comes first. -/
theorem after {α : Type} {p : Pass σ α} {f : α → Pass σ (Found σ)} (hp : p.Oblivious)
    (hf : ∀ a t, p.on s = (.ok a, t) → GoesOn form (f a) t) : GoesOn form (p >>= f) s := by
  have hsame := hp.submitting form s
  have hin := (hp s s.context.request s.response).2.inForm
  rcases hs : p.on s with ⟨e | a, t⟩ <;> rw [hs] at hsame hin
  · exact fails (by rw [Pass.on_bind, hs]) (by rw [Pass.on_bind, hsame]) hin
  · exact (hf a t hs).within id (by rw [Pass.on_bind, hs]; rfl) (by rw [Pass.on_bind, hsame]; rfl) (fun _ => rfl)
      fun _ hu => hu.trans hin

/-- A walk that goes on comes first. -/
theorem bind {f : Found σ → Pass σ (Found σ)} (hp : GoesOn form p s)
    (hf : ∀ t, p.on s = (.ok none, t) → GoesOn form (f none) t) : GoesOn form (p >>= f) s := by
  obtain ⟨hsame, hnothing, hin⟩ := hp
  rcases hs : p.on s with ⟨e | _ | o, t⟩ <;> rw [hs] at hsame hnothing hin
  · exact fails (by rw [Pass.on_bind, hs]) (by rw [Pass.on_bind, hsame]) hin
  · exact (hf t hs).within id (by rw [Pass.on_bind, hs]; rfl) (by rw [Pass.on_bind, hsame]; rfl) (fun _ => rfl)
      fun _ hu => hu.trans hin
  · exact absurd rfl (hnothing o)

theorem part (h : Phase.invoke.visits s = true → GoesOn form p s) : GoesOn form (Walk.part .invoke p) s := by
  have hvisits : Phase.invoke.visits (s.submitting form) = Phase.invoke.visits s := rfl
  by_cases hv : Phase.invoke.visits s = true
  · exact (h hv).within id (by rw [Pass.on_part, if_pos hv]; rfl) (by rw [Pass.on_part, hvisits, if_pos hv]; rfl)
      (fun _ => rfl) fun _ hu => hu
  · exact passes (by rw [Pass.on_part, if_neg hv]) (by rw [Pass.on_part, hvisits, if_neg hv])

theorem below (h : GoesOn form p (s.mapContext Context.down)) : GoesOn form (Pass.below p) s :=
  h.within (·.mapContext Context.up) (Pass.on_below s p) (Pass.on_below _ p) (fun _ => rfl) fun _ hu => hu

theorem inParent {run : Element → Pass σ (Found σ)}
    (h : ∀ f rest e, s.frames = f :: rest → f.content = some e → GoesOn form (run e) { s with frames := rest }) :
    GoesOn form (Pass.inParent none run) s := by
  have hframes : (s.submitting form).frames = s.frames := rfl
  rcases hf : s.frames with _ | ⟨f, rest⟩
  · exact passes (by rw [Pass.on_inParent, hf]) (by rw [Pass.on_inParent, hframes, hf])
  rcases hc : f.content with _ | e
  · exact passes (by rw [Pass.on_inParent, hf]; simp only [hc])
      (by rw [Pass.on_inParent, hframes, hf]; simp only [hc])
  · exact (h f rest e hf hc).within (fun u => { u with frames := f :: u.frames })
      (by rw [Pass.on_inParent, hf]; simp only [hc]) (by rw [Pass.on_inParent, hframes, hf]; simp only [hc]; rfl)
      (fun _ => rfl) fun _ hu => hu

variable [Component σ] {r : Registry σ}

theorem enter {run : Element → Pass σ (Found σ)} {name : String} {bs : Bindings} {content : Option Element}
    (h : ∀ e t, (Pass.arrive r name bs content).on s = (.ok e, t) → GoesOn form (run e) t) :
    GoesOn form (Pass.enter r name bs content run) s := by
  refine after (.arrive r name bs content) fun e t ht => ?_
  obtain ⟨hsame, hnothing, hin⟩ := h e t ht
  rcases hrun : (run e).on t with ⟨x, u⟩
  rw [hrun] at hsame hnothing hin
  -- The rest of the way out, with what came of the template as a value.
  have hrest : GoesOn form (do
      let pulled ← Pass.depart bs
      let a ← Pass.lift x
      Pass.lift pulled
      return a) u := by
    refine after (.depart bs) fun pulled y _ => ?_
    rcases x with e' | _ | o
    · exact fails rfl rfl rfl
    · rcases pulled with e' | _
      · exact fails rfl rfl rfl
      · exact ⟨rfl, nofun, rfl⟩
    · exact absurd rfl (hnothing o)
  exact hrest.within id (by rw [Pass.on_bind, Pass.on_attempt, hrun]; rfl)
    (by rw [Pass.on_bind, Pass.on_attempt, hsame]; rfl) (fun _ => rfl) fun _ hu => hu.trans hin

end GoesOn

/-! ## Visits that are idle -/

section Idle

variable [Component σ] {r : Registry σ} {depth : Nat} {s : Scene σ}

/-- The walk goes on at a visit. -/
def Visit.GoesOn (r : Registry σ) (form : Http.Fields) (v : Visit σ) : Prop :=
  PageServer.GoesOn form (v.element.visit r .invoke (v.depth + 1)) v.scene

/-- Some children after those that were passed. -/
theorem children_go_on {name : Option String} {children : List Element} (xs ys zs : List Element) (t : Scene σ)
    (hgo : ∀ k u, k < xs.length + ys.length → Part r .invoke ⟨depth, .group name children, s⟩ (.child k) u →
      u.GoesOn r form)
    (hsplit : children = xs ++ ys ++ zs)
    (hs : (Element.visitAll r (Element.visit r .invoke depth) .invoke xs).on (s.mapContext Context.down) =
      (.ok none, t)) :
    GoesOn form (Element.visitAll r (Element.visit r .invoke depth) .invoke ys) t := by
  induction ys generalizing xs t with
  | nil => exact .quiet
  | cons e ys hrest =>
    have hfirst : GoesOn form (Walk.part .invoke (e.visitWith r (Element.visit r .invoke depth) .invoke)) t :=
      .part fun hv => hgo xs.length ⟨depth, e, t⟩ (by simp) (.child (by simp [hsplit]) (by simpa [hsplit] using hs) hv)
    refine .bind hfirst fun t' ht' => .after .toNext fun _ u hu => ?_
    cases hu
    refine hrest (xs ++ [e]) _ (fun k u hk => hgo k u ?_) (by simp [hsplit]) ?_
    · simp only [List.length_append, List.length_cons, List.length_nil] at hk ⊢
      omega
    · rw [visitAll_snoc hs, ht']

/-- Some rounds after those that were passed. -/
theorem rounds_go_on {list : Binding} {item index : Option KeyPath} {e : Element} {items : List Value}
    (hl : (Control.listItems r.helpers list).on s = (.ok items, s)) (xs ys zs : List Value) (t : Scene σ)
    (hgo : ∀ i u, i < xs.length + ys.length →
      Part r .invoke ⟨depth, .control (.repetition list item index) (some e), s⟩ (.round i) u → u.GoesOn r form)
    (hsplit : items = xs ++ ys ++ zs)
    (hs : (Control.rounds item index
        (Walk.part .invoke (e.visitWith r (Element.visit r .invoke depth) .invoke)) 0 xs).on
      (s.mapContext Context.down) = (.ok none, t)) :
    GoesOn form (Control.rounds item index
      (Walk.part .invoke (e.visitWith r (Element.visit r .invoke depth) .invoke)) xs.length ys) t := by
  induction ys generalizing xs t with
  | nil => exact .quiet
  | cons y ys hrest =>
    refine .after (.setRound item index xs.length y) fun _ t' ht' => ?_
    have hfirst : GoesOn form (Walk.part .invoke (e.visitWith r (Element.visit r .invoke depth) .invoke)) t' :=
      .part fun hv => hgo xs.length ⟨depth, e, t'⟩ (by simp)
        (.round hl (by simp [hsplit]) (by simpa [hsplit] using hs) ht' hv)
    refine .bind hfirst fun t'' ht'' => .after .toNext fun _ u hu => ?_
    cases hu
    have hlen : xs.length + 1 = (xs ++ [y]).length := by simp
    rw [hlen]
    refine hrest (xs ++ [y]) _ (fun i u hi => hgo i u ?_) (by simp [hsplit]) ?_
    · simp only [List.length_append, List.length_cons, List.length_nil] at hi ⊢
      omega
    · rw [rounds_snoc hs ht', ht'']

theorem content_goes_on {c : Control} {content : Option Element} {t : Scene σ}
    (hgo : ∀ w u, Part r .invoke ⟨depth, .control c content, s⟩ w u → u.GoesOn r form)
    (ht : (c.approach r .invoke).on s = (.ok true, t)) :
    GoesOn form ((Element.visitContent r (Element.visit r .invoke depth) .invoke content).getD Walk.nothing) t := by
  cases content with
  | none => exact .quiet
  | some e => exact hgo .inside _ (.inside ht)

/-- A control that is idle goes on if its parts do. -/
theorem control_goes_on (hw : r.WidgetsHeedSender) {c : Control} {content : Option Element}
    (hgo : ∀ w u, Part r .invoke ⟨depth, .control c content, s⟩ w u → u.GoesOn r form)
    (hidle : Visit.Idle form ⟨depth, .control c content, s⟩) (hempty : s.context.request.form = {}) :
    GoesOn form (c.visit r (Element.visit r .invoke depth) .invoke
      (Element.visitContent r (Element.visit r .invoke depth) .invoke content)) s := by
  have hsender : s.context.isSender = false := hidle.notSender c content rfl
  have hsender' : (s.submitting form).context.isSender = false := hsender
  cases c with
  | string value escape whenEmpty => exact .quiet
  | textField value name => exact .quiet
  | hyperlink target label =>
    cases target with
    | action a =>
      have hon : ∀ u : Scene σ, u.context.isSender = false →
          (Control.visitHyperlink r (.action a) label
            ((Element.visitContent r (Element.visit r .invoke depth) .invoke content).getD Walk.nothing)
            .invoke).on u = (.ok none, u) := by
        intro u hu
        simp only [Control.visitHyperlink, Pass.on_bind, Pass.on_get, hu]
        rfl
      exact .passes (hon s hsender) (hon _ hsender')
    | href b => exact .quiet
    | directAction b => exact .quiet
  | form action => cases hidle.notForm
  | submitButton action value =>
    cases action with
    | none => exact .quiet
    | some a =>
      have hon : ∀ u : Scene σ, Control.wasUsed u.context = false →
          (Control.visitSubmitButton r (some a) value .invoke).on u = (.ok none, u) := by
        intro u hu
        simp only [Control.visitSubmitButton, Pass.on_bind, Pass.on_get, hu]
        rfl
      have hunused : Control.wasUsed s.context = false := by
        simp [Control.wasUsed, hsender, hempty, Http.Fields.contains]
      have hunnamed : form.contains s.context.elementId.text = false := by
        cases hnamed : form.contains s.context.elementId.text with
        | false => rfl
        | true => exact absurd ⟨⟨value, content, rfl⟩, hnamed⟩ (hidle.notSubmitted a)
      have hunused' : Control.wasUsed (s.submitting form).context = false := by
        have hform : (s.submitting form).context.request.form.contains (s.submitting form).context.elementId.text =
          false := hunnamed
        simp [Control.wasUsed, hsender', hform]
      exact .passes (hon s hunused) (hon _ hunused')
  | repetition list item index =>
    cases content with
    | none => exact .quiet
    | some e =>
      refine .after (.listItems r.helpers list) fun items t hl => ?_
      have hk := Pass.listItems_keeps s r.helpers list
      rw [hl] at hk
      cases hk
      exact .below (rounds_go_on hl [] items [] _ (fun i u _ => hgo _ u) (by simp) rfl)
  | conditional condition negate =>
    refine .after (.isShown r.helpers condition negate) fun b t hb => ?_
    have hk := Pass.isShown_keeps s r.helpers condition negate
    rw [hb] at hk
    cases hk
    cases b with
    | false => exact .quiet
    | true => exact content_goes_on hgo hb
  | componentContent =>
    refine .inParent fun f rest e hf hc => ?_
    cases depth with
    | zero => exact .fails rfl rfl rfl
    | succ depth => exact hgo .content _ (.content hf hc)
  | updateContainer id name => exact content_goes_on hgo rfl
  | widget typeName tag bindings =>
    simp only [Control.visit]
    split
    · rename_i w hwid
      have hnone : w.action s.place bindings = none := by
        cases ha : w.action s.place bindings with
        | none => rfl
        | some a => exact absurd ((hw _ _ hwid _ _ _ ha).symm.trans hsender) (by decide)
      have hon : ∀ u : Scene σ, u.place = s.place →
          (Control.visitWidget r w bindings .invoke).on u = (.ok none, u) := by
        intro u hu
        simp only [Control.visitWidget, Pass.on_bind, Pass.on_get, hu, hnone]
        rfl
      exact .passes (hon s rfl) (hon _ rfl)
    · exact .quiet

/-- Where every visit is idle the walk goes on. -/
theorem Visit.goes_on (form : Http.Fields) (hw : r.WidgetsHeedSender) (v : Visit σ) (hempty : v.scene.context.request.form = {})
    (hidle : ∀ π x, v.at? r .invoke π = some x → x.Idle form) : v.GoesOn r form := by
  induction v using Visit.induction r .invoke with
  | step v ih =>
  have hgo : ∀ w u, Part r .invoke v w u → u.GoesOn r form := fun w u hu =>
    ih w u hu (hu.below.request ▸ hempty) fun π x hx => hidle (w :: π) x (Visit.at?_cons.mpr ⟨u, hu, hx⟩)
  have hhere : v.Idle form := hidle [] v rfl
  obtain ⟨depth, element, s⟩ := v
  show PageServer.GoesOn form (element.visitWith r (Element.visit r .invoke depth) .invoke) s
  cases element with
  | text text => exact .quiet
  | group name children =>
    rw [Element.visitWith]
    exact .below (children_go_on [] children [] _ (fun k u _ => hgo _ u) (by simp) rfl)
  | component tag name bs content =>
    rw [Element.visitWith]
    refine .enter fun e t ht => ?_
    cases depth with
    | zero => exact .fails rfl rfl rfl
    | succ depth => exact hgo .template _ (.template ht)
  | control c content =>
    rw [Element.visitWith]
    exact control_goes_on hw hgo hhere hempty

/-! ## The visits that a traversal comes to with the form values -/

/-- Where all that comes before is idle, a way leads to the same visit with the form values. -/
theorem Part.submitting {v u : Visit σ} {w : Way} (h : Part r .invoke v w u) (hform : v.element.isForm = false)
    (hgo : ∀ w' u', w'.Before w → Part r .invoke v w' u' → u'.GoesOn r form) :
    Part r .invoke (v.submitting form) w (u.submitting form) ∧ u.scene.context.inForm = v.scene.context.inForm := by
  cases h with
  | @child depth k s t name children e hk hs hv =>
    have hlt := (List.getElem?_eq_some_iff.mp hk).1
    have hpassed : GoesOn form _ (s.mapContext Context.down) :=
      children_go_on (r := r) [] (children.take k) (children.drop k) _
        (fun j u hj => hgo (.child j) u (.child (by simp at hj; omega))) (by simp) rfl
    have hsame := hpassed.same
    have hin := hpassed.inForm
    rw [hs] at hsame hin
    exact ⟨.child hk hsame hv, hin⟩
  | @round depth i s t u list item index items x e hl hi hr hset hv =>
    have hlt := (List.getElem?_eq_some_iff.mp hi).1
    have hpassed : GoesOn form _ (s.mapContext Context.down) :=
      rounds_go_on hl [] (items.take i) (items.drop i) _
        (fun j u hj => hgo (.round j) u (.round (by simp at hj; omega))) (by simp) rfl
    have hsame := hpassed.same
    have hin := hpassed.inForm
    rw [List.length_nil, hr] at hsame hin
    have hlist := (Pass.Oblivious.listItems r.helpers list).submitting form s
    have hround : Pass.Oblivious (Control.setRound item index i x : Pass σ Unit) := .setRound item index i x
    have hnext := hround.submitting form t
    have hkeeps := (hround t t.context.request t.response).2.inForm
    rw [hl] at hlist
    rw [hset] at hnext hkeeps
    exact ⟨.round hlist hi hsame hnext hv, hkeeps.trans hin⟩
  | @inside depth s t c e hs =>
    cases approached hs with
    | form => cases hform
    | @conditional _ _ condition negate hc =>
      have hshown := (Pass.Oblivious.isShown r.helpers condition negate).submitting form s
      rw [hc] at hshown
      exact ⟨.inside hshown, rfl⟩
    | container => exact ⟨.inside rfl, rfl⟩
  | @template depth s t tag name bindings content e hs =>
    have harrive : Pass.Oblivious (Pass.arrive r name bindings content) := .arrive r name bindings content
    have hcome := harrive.submitting form s
    have hkeeps := (harrive s s.context.request s.response).2.inForm
    rw [hs] at hcome hkeeps
    exact ⟨.template hcome, hkeeps⟩
  | content hf hc => exact ⟨.content hf hc, rfl⟩

/-- A visit before which all are idle is come to with the form values, too. -/
theorem Visit.at?_submitting (form : Http.Fields) (hw : r.WidgetsHeedSender) {v y : Visit σ} {π : Path}
    (hempty : v.scene.context.request.form = {}) (hy : v.at? r .invoke π = some y)
    (hidle : ∀ ρ x, ρ.Before π → v.at? r .invoke ρ = some x → x.Idle form) :
    (v.submitting form).at? r .invoke π = some (y.submitting form) ∧
      y.scene.context.inForm = v.scene.context.inForm := by
  induction π generalizing v with
  | nil =>
    cases hy
    exact ⟨rfl, rfl⟩
  | cons w π ih =>
    obtain ⟨u, hu, hy⟩ := at?_cons.mp hy
    have hform : v.element.isForm = false := (hidle [] v .nil rfl).notForm
    obtain ⟨hpart, hin⟩ := hu.submitting hform fun w' u' hlt hu' =>
      u'.goes_on form hw (hu'.below.request ▸ hempty) fun ρ x hx =>
        hidle (w' :: ρ) x (.rel hlt) (at?_cons.mpr ⟨u', hu', hx⟩)
    obtain ⟨hat, hin'⟩ := ih (hu.below.request ▸ hempty) hy fun ρ x hlt hx =>
      hidle (w :: ρ) x (.cons hlt) (at?_cons.mpr ⟨u, hu, hx⟩)
    exact ⟨at?_cons.mpr ⟨_, hpart, hat⟩, hin'.trans hin⟩

end Idle

/-! ## Forms -/

section Forms

variable [Component σ] {r : Registry σ}

/-- The button of the visit `x`, inside of the form `v`, is the first one that was submitted, of all
    that are visited where nothing is submitted. -/
structure Visit.FirstSubmitted (r : Registry σ) (v : Visit σ) (π : Path) (x : Visit σ) (a : Binding) : Prop where
  visited : v.at? r .invoke (.inside :: π) = some x
  listed : v.unsubmitted.at? r .invoke (.inside :: π) = some x.unsubmitted
  submitted : x.Submitted v.scene.context.request.form a
  first : ∀ ρ y b, v.unsubmitted.at? r .invoke (.inside :: ρ) = some y →
    y.Submitted v.scene.context.request.form b → ρ = π ∨ π.Before ρ

/-- In a group that is where the sender is, no control is the sender. -/
theorem Visit.at?_group_notSender {v x : Visit σ} {π : Path} {name : Option String} {children : List Element}
    (hv : v.element = .group name children) (hs : v.scene.context.isSender = true)
    (hx : v.at? r .invoke π = some x) {c : Control} {content : Option Element}
    (hc : x.element = .control c content) : x.scene.context.isSender = false := by
  obtain ⟨depth, element, s⟩ := v
  cases hv
  have hid := at?_elementId hx
  rw [Context.isSender, at?_sender hx, beq_eq_false_iff_ne]
  intro hsame
  rw [Context.isSender, beq_iff_eq] at hs
  have heq : s.context.elementId = x.scene.context.elementId := Option.some.inj (hs.symm.trans hsame)
  cases π with
  | nil =>
    cases hx
    cases hc
  | cons w π =>
    obtain ⟨u, hu, -⟩ := at?_cons.mp hx
    cases hu
    rw [← heq] at hid
    have hlen := congrArg List.length hid
    simp [Path.indices, Way.index?] at hlen

omit [Component σ] in
theorem Visit.unsubmitted_submitting {form : Http.Fields} {x : Visit σ} (h : x.scene.context.request.form = {}) :
    (x.submitting form).unsubmitted = x := by
  unfold Visit.unsubmitted
  rw [← h]
  rfl

/-- A visit to a button that was submitted, in a form, performs its action. -/
theorem Visit.Submitted.run {form : Http.Fields} {a : Binding} {x : Visit σ} (h : x.Submitted form a)
    (hform : x.scene.context.request.form = form) (hin : x.scene.context.inForm = true) :
    x.run r .invoke = (do return some (← Pass.perform r a) : Pass σ (Found σ)).on x.scene := by
  obtain ⟨depth, element, s⟩ := x
  obtain ⟨⟨value, content, he⟩, hnamed⟩ := h
  cases he
  cases hform
  have hused : Control.wasUsed s.context = true := by
    have hname : s.context.request.form.contains s.context.elementId.text = true := hnamed
    have hin' : s.context.inForm = true := hin
    simp [Control.wasUsed, hname, hin']
  simp only [Visit.run, Element.visit, Element.visitWith, Control.visit, Control.visitSubmitButton, Pass.on_bind,
    Pass.on_get, hused, if_true]

/-- A form that is the sender performs its own action where nothing comes of its content. -/
theorem Visit.form_acts {v : Visit σ} {action : Option Binding} {content : Option Element} {p t : Scene σ} {o : Found σ}
    (he : v.element = .control (.form action) content) (hs : v.scene.context.isSender = true)
    (hcontent : v.formContent r content = (.ok none, p)) (hrun : v.run r .invoke = (.ok o, t)) :
    (∀ a, action = some a → ∃ event out, p.Yields r a event out ∧ o = some out ∧
      t.performed = v.scene.performed ++ [event]) ∧
    (action = none → o = some .stay ∧ t.performed = v.scene.performed) := by
  obtain ⟨depth, element, s⟩ := v
  cases he
  have hpassed : Quiet s p ∧ p.context.isSender = true := by
    cases content with
    | none =>
      cases hcontent
      exact ⟨rfl, hs⟩
    | some e =>
      have hcomes := invoke_comes (r := r) ⟨depth, e, s.mapContext (·.withInForm true)⟩
      have hreturns := returns r .invoke (depth + 1) e (s.mapContext (·.withInForm true))
      rw [show Visit.run r .invoke ⟨depth, e, s.mapContext (·.withInForm true)⟩ = _ from hcontent] at hcomes
      rw [show (e.visit r .invoke (depth + 1)).on _ = _ from hcontent] at hreturns
      refine ⟨hcomes.passed, ?_⟩
      rw [Context.isSender, hreturns.sender, hreturns.elementId]
      exact hs
  have hon : Visit.run r .invoke ⟨depth, .control (.form action) content, s⟩ =
      (((Control.submitForm r action).on p).1, ((Control.submitForm r action).on p).2.mapContext (·.withInForm false)) := by
    refine (Pass.on_visitForm_invoke s r action _).trans ?_
    rw [show Pass.on _ (s.mapContext (·.withInForm true)) = _ from hcontent]
  rw [hon] at hrun
  cases action with
  | none =>
    simp only [Control.submitForm, Pass.on_bind, Pass.on_get, hpassed.2, if_true] at hrun
    cases hrun
    refine ⟨fun _ ha => ?_, fun _ => ⟨rfl, hpassed.1⟩⟩
    cases ha
  | some a =>
    have hsubmit : (Control.submitForm r (some a)).on p =
        (do return some (← Pass.perform r a) : Pass σ (Found σ)).on p := by
      simp only [Control.submitForm, Pass.on_bind, Pass.on_get, hpassed.2, if_true]
    rcases hact : (Control.submitForm r (some a)).on p with ⟨x, u⟩
    rw [hact] at hrun
    cases hrun
    obtain ⟨event, out, hyields, ho, hperf⟩ := perform_yields (hsubmit.symm.trans hact)
    have hperf' : (u.mapContext (·.withInForm false)).performed = p.performed ++ [event] := hperf
    refine ⟨fun _ ha => ⟨event, out, Option.some.inj ha ▸ hyields, ho, ?_⟩, fun hnone => ?_⟩
    · rw [hperf']
      exact congrArg (· ++ [event]) hpassed.1
    · cases hnone

/-- A form that is the sender, with no other form in its content, is asked for its action. What is
    performed is the action of the first submitted button that has one, or else its own; without
    either the page stays. -/
theorem first_submitted_button_acts (hw : r.WidgetsHeedSender) (v : Visit σ) {action : Option Binding}
    {name : Option String} {children : List Element} {o : Found σ} {t : Scene σ}
    (he : v.element = .control (.form action) (some (.group name children)))
    (hs : v.scene.context.isSender = true)
    (hnest : ∀ π x, v.unsubmitted.at? r .invoke (.inside :: π) = some x → x.element.isForm = false)
    (hrun : v.run r .invoke = (.ok o, t)) :
    (∃ π x a event out, v.FirstSubmitted r π x a ∧ x.scene.Yields r a event out ∧ o = some out ∧
      t.performed = v.scene.performed ++ [event]) ∨
    (∀ π x a, v.unsubmitted.at? r .invoke (.inside :: π) = some x →
      ¬ x.Submitted v.scene.context.request.form a) ∧
    ∃ p, v.formContent r (some (.group name children)) = (.ok none, p) ∧
      (∀ a, action = some a → ∃ event out, p.Yields r a event out ∧ o = some out ∧
        t.performed = v.scene.performed ++ [event]) ∧
      (action = none → o = some .stay ∧ t.performed = v.scene.performed) := by
  obtain ⟨depth, element, s⟩ := v
  cases he
  -- The content, with the form values and without.
  let c : Visit σ := ⟨depth, .group name children, s.mapContext (·.withInForm true)⟩
  let g : Visit σ := ⟨depth, .group name children, (s.submitting {}).mapContext (·.withInForm true)⟩
  have hc : Part r .invoke ⟨depth, .control (.form action) (some (.group name children)), s⟩ .inside c := .inside rfl
  have hg : Part r .invoke (Visit.unsubmitted ⟨depth, .control (.form action) (some (.group name children)), s⟩)
    .inside g := .inside rfl
  have hgs : g.scene.context.isSender = true := hs
  have hgc : g.submitting s.context.request.form = c := rfl
  have hlisted : ∀ {π x}, (Visit.unsubmitted ⟨depth, .control (.form action) (some (.group name children)), s⟩).at? r
      .invoke (.inside :: π) = some x ↔ g.at? r .invoke π = some x := by
    intro π x
    rw [Visit.at?, part?_eq_some.mpr hg, Option.bind_some]
  have hidle : ∀ π x, g.at? r .invoke π = some x → (∀ a, ¬ x.Submitted s.context.request.form a) →
      x.Idle s.context.request.form := fun π x hx hx' =>
    ⟨fun d content hd => Visit.at?_group_notSender rfl hgs hx hd, hnest π x (hlisted.mpr hx), hx'⟩
  by_cases hsub : ∃ π x, g.at? r .invoke π = some x ∧ ∃ a, x.Submitted s.context.request.form a
  · obtain ⟨π, x, hx, ⟨a, ha⟩, hfirst⟩ := Visit.exists_first _ g hsub
    obtain ⟨hat, hin⟩ := Visit.at?_submitting s.context.request.form hw rfl hx fun ρ y hlt hy =>
      hidle ρ y hy fun b hb => hfirst ρ y hlt hy ⟨b, hb⟩
    rw [hgc] at hat
    have hvisited := Visit.at?_cons.mpr ⟨c, hc, hat⟩
    have hbutton : (x.submitting s.context.request.form).Submitted s.context.request.form a := ⟨ha.button, ha.named⟩
    have hacts := hbutton.run (r := r) rfl hin
    have hne : ((x.submitting s.context.request.form).run r .invoke).1 ≠ .ok none :=
      hacts ▸ perform_ne_none a _
    rcases hout : (x.submitting s.context.request.form).run r .invoke with ⟨z, t'⟩
    have hz : z = .ok o := by
      rcases Visit.at?_run_outcome hvisited hne with hsame | ⟨e, hfails⟩
      · rw [hrun, hout] at hsame
        exact hsame.symm
      · rw [hrun] at hfails
        cases hfails
    cases hz
    obtain ⟨event, out, hyields, ho, hperf⟩ := perform_yields (hacts.symm.trans hout)
    have hone : (Visit.run r .invoke ⟨depth, .control (.form action) (some (.group name children)), s⟩).2.performed =
        s.performed ++ [event] := Visit.at?_performed hvisited (by rw [hout]; exact hperf)
    rw [hrun] at hone
    have hempty : x.scene.context.request.form = {} := congrArg Http.Request.form (Visit.at?_request hx)
    refine .inl ⟨π, _, a, event, out, ⟨hvisited, ?_, hbutton, fun ρ y b hy hb => ?_⟩, hyields, ho, hone⟩
    · rw [Visit.unsubmitted_submitting hempty]
      exact hlisted.mpr hx
    · rcases Visit.before_or (hlisted.mp hy) hx with heq | hlt | hlt
      · exact .inl heq
      · exact absurd ⟨b, hb⟩ (hfirst ρ y hlt (hlisted.mp hy))
      · exact .inr hlt
  · have hgo := g.goes_on s.context.request.form hw rfl fun π x hx =>
      hidle π x hx fun a ha => hsub ⟨π, x, hx, a, ha⟩
    refine .inr ⟨fun π x a hx ha => hsub ⟨π, x, hlisted.mp hx, a, ha⟩, ?_⟩
    have hon : Visit.run r .invoke ⟨depth, .control (.form action) (some (.group name children)), s⟩ = _ :=
      Pass.on_visitForm_invoke s r action (c.element.visit r .invoke (depth + 1))
    rcases hcontent : c.run r .invoke with ⟨e | _ | o', p⟩
    · have hfails : (c.element.visit r .invoke (depth + 1)).on (s.mapContext (·.withInForm true)) = _ := hcontent
      rw [hon, hfails] at hrun
      cases hrun
    · have hpassed : Visit.formContent r ⟨depth, .control (.form action) (some (.group name children)), s⟩
          (some (.group name children)) = (.ok none, p) := hcontent
      exact ⟨p, hpassed, Visit.form_acts rfl hs hpassed hrun⟩
    · have hsame : c.run r .invoke = _ := hgo.same
      exact absurd (congrArg Prod.fst (hsame.symm.trans hcontent)) (hgo.nothing o')

end Forms

/-! ## Content without forms -/

mutual

/-- There is no form in the element, and no way from it into another template. -/
def Element.isFormless : Element → Bool
  | .text _ => true
  | .group _ children => Element.areFormless children
  | .component .. => false
  | .control .componentContent _ => false
  | .control c content => !c.isForm && Element.isFormlessContent content

def Element.areFormless : List Element → Bool
  | [] => true
  | e :: rest => e.isFormless && Element.areFormless rest

def Element.isFormlessContent : Option Element → Bool
  | none => true
  | some e => e.isFormless

end

theorem Element.isFormless_of_mem {es : List Element} {e : Element} (h : Element.areFormless es = true) (he : e ∈ es) :
    e.isFormless = true := by
  induction es with
  | nil => cases he
  | cons x rest ih =>
    rw [Element.areFormless, Bool.and_eq_true] at h
    rcases List.mem_cons.mp he with rfl | he
    · exact h.1
    · exact ih h.2 he

theorem Element.isFormless_content {c : Control} {e : Element} (h : (Element.control c (some e)).isFormless = true) :
    c.isForm = false ∧ e.isFormless = true := by
  cases c with
  | componentContent => cases h
  | _ => simpa [Element.isFormless, Element.isFormlessContent] using h

variable [Component σ] {r : Registry σ} {phase : Phase}

theorem Part.isFormless {v u : Visit σ} {w : Way} (h : Part r phase v w u) (hv : v.element.isFormless = true) :
    u.element.isFormless = true := by
  cases h with
  | child hk => exact Element.isFormless_of_mem hv (List.mem_of_getElem? hk)
  | round => exact (Element.isFormless_content hv).2
  | inside => exact (Element.isFormless_content hv).2
  | template => cases hv
  | content => cases hv

/-- What has no form in it is not visited with one. -/
theorem Visit.at?_notForm {v x : Visit σ} {π : Path} (h : v.at? r phase π = some x)
    (hv : v.element.isFormless = true) : x.element.isForm = false := by
  induction π generalizing v with
  | nil =>
    cases h
    cases hx : x.element with
    | control c content =>
      rw [hx] at hv
      cases c with
      | form action => cases hv
      | _ => rfl
    | _ => rfl
  | cons w π ih =>
    obtain ⟨u, hu, hx⟩ := at?_cons.mp h
    exact ih hx (hu.isFormless hv)

namespace Scripted

/-- Three buttons, the first of them without an action. -/
def buttons : Element :=
  .group (some "Form") [.control (.submitButton none none) none,
    .control (.submitButton (some (.keyPath ⟨"save", []⟩)) none) none,
    .control (.submitButton (some (.keyPath ⟨"drop", []⟩)) none) none]

def editor : Definition Scripted :=
  ⟨"Page", "", "", { name := "Page", state := [], actions := [("save", []), ("drop", [])] }⟩

/-- A form that is the sender, where the names of all its buttons were submitted. -/
def submittedForm : Visit Scripted :=
  let request := { context.request with form := ⟨[("0.0", ""), ("0.1", ""), ("0.2", "")]⟩ }
  ⟨1, .control (.form none) (some buttons),
    .start { context with request, sender := some ⟨[0]⟩, elementId := ⟨[0]⟩ } [] (.ofDefinition editor)⟩

end Scripted

theorem first_button_with_an_action_acts :
    let r := Scripted.registry ""
    let v := Scripted.submittedForm
    r.WidgetsHeedSender ∧ v.scene.context.isSender = true ∧
      (∀ π x, v.unsubmitted.at? r .invoke (.inside :: π) = some x → x.element.isForm = false) ∧
      ∃ π x a event out, v.FirstSubmitted r π x a ∧ x.scene.Yields r a event out ∧
        (v.run r .invoke).2.performed = v.scene.performed ++ [event] := by
  intro r v
  have hw : r.WidgetsHeedSender := Registry.heedSender_of_builtin (by decide +kernel)
  have hnest : ∀ π x, v.unsubmitted.at? r .invoke (.inside :: π) = some x → x.element.isForm = false := by
    intro π x hx
    obtain ⟨u, hu, hx⟩ := Visit.at?_cons.mp hx
    cases hu with
    | inside => exact Visit.at?_notForm hx rfl
  have hperf : (v.run r .invoke).2.performed.length = 1 := by decide +kernel
  have hok : (v.run r .invoke).1.toOption.isSome = true := by decide +kernel
  rcases hrun : v.run r .invoke with ⟨e | o, t⟩ <;> rw [hrun] at hperf hok
  · cases hok
  rcases first_submitted_button_acts hw v rfl rfl hnest hrun with ⟨π, x, a, event, out, hx, hyields, -, hone⟩ |
    ⟨-, p, -, -, hstay⟩
  · exact ⟨hw, rfl, hnest, π, x, a, event, out, hx, hyields, hone⟩
  · rw [(hstay rfl).2] at hperf
    cases hperf

end PageServer
