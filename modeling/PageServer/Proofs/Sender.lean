/-
  PageServer.Proofs.Sender — which action a request runs.

  The traversal that invokes an action leaves out what is off the path to the sender and ends
  with the first outcome. `Comes` says what may come of a part of it: no action is performed, or
  one is, by the control of a visit that can be reached, and the traversal does not go on.
  By induction over visits this holds of whole traversals (`invoke_comes`), whatever elements,
  rounds and components are nested in each other.

  The control that performs the action is the sender, or a submit button in a form whose name was
  submitted and that is on the path to the sender. A form runs its own action only as the sender,
  and only if nothing came of its content (`invoke_performs_at_most_once`).
-/

import PageServer.Proofs.Visits

namespace PageServer

variable {σ : Type}

/-- What components have been asked to perform. -/
def Scene.performed (s : Scene σ) : List Event := s.events.filter Event.isPerform

abbrev Quiet : Scene σ → Scene σ → Prop := Logged fun l m => m.filter Event.isPerform = l.filter Event.isPerform

theorem quiet_log : Log fun l m : List Event => m.filter Event.isPerform = l.filter Event.isPerform where
  refl _ := rfl
  trans h h' := h'.trans h
  sets l es h := by
    have hes : es.filter Event.isPerform = [] := List.filter_eq_nil_iff.mpr fun e he => by simp [h e he]
    simp [hes]

variable [Component σ]

/-- The action of an element that takes one. -/
def Element.action? (r : Registry σ) (place : Place) : Element → Option Binding
  | .control (.hyperlink (.action a) _) _ => some a
  | .control (.form action) _ => action
  | .control (.submitButton action _) _ => action
  | .control (.widget typeName _ bindings) _ => (r.widget? typeName).bind (·.action place bindings)
  | _ => none

/-- The walk over the content of a form. -/
def Visit.formContent (r : Registry σ) (v : Visit σ) (content : Option Element) :
    Except Failure (Found σ) × Scene σ :=
  ((Element.visitContent r (Element.visit r .invoke v.depth) .invoke content).getD Walk.nothing).on
    (v.scene.mapContext (·.withInForm true))

/-- The control of a visit performs an action in the scene `p`. -/
inductive Performs (r : Registry σ) (v : Visit σ) : Binding → Scene σ → Prop
  | link {a : Binding} {label : Option Binding} {content : Option Element} :
      v.element = .control (.hyperlink (.action a) label) content →
      v.scene.context.isSender = true → Performs r v a v.scene
  | form {a : Binding} {content : Option Element} {p : Scene σ} :
      v.element = .control (.form (some a)) content →
      v.formContent r content = (.ok none, p) → p.context.isSender = true → Performs r v a p
  | button {a : Binding} {value : Option Binding} {content : Option Element} :
      v.element = .control (.submitButton (some a) value) content →
      Control.wasUsed v.scene.context = true → Performs r v a v.scene
  | widget {a : Binding} {typeName tag : String} {bindings : Bindings} {content : Option Element} {w : Widget} :
      v.element = .control (.widget typeName tag bindings) content →
      r.widget? typeName = some w → w.action v.scene.place bindings = some a → Performs r v a v.scene

/-- What may come of a part of the walk at `v` that begins in `s`. -/
inductive Comes (r : Registry σ) (v : Visit σ) (s : Scene σ) : Except Failure (Found σ) × Scene σ → Prop
  | quiet {x : Except Failure (Found σ)} {t : Scene σ} : Quiet s t → Comes r v s (x, t)
  | acted {x : Except Failure (Found σ)} {t p : Scene σ} {π : Path} {y : Visit σ} {a : Binding} {name : String} :
      v.at? r .invoke π = some y → Performs r y a p → ((Pass.actionName r.helpers a).on p).1 = .ok name →
      Extends (p.acted name) t → t.performed = s.performed ++ [.perform p.current.name name] →
      x ≠ .ok none → Comes r v s (x, t)

variable {r : Registry σ}

namespace Comes

variable {v u : Visit σ} {s t : Scene σ} {x : Except Failure (Found σ)}

/-- What was done before performs nothing. -/
theorem before {o : Except Failure (Found σ) × Scene σ} (h : Comes r v t o) (hs : Quiet s t) : Comes r v s o := by
  cases h with
  | quiet ht => exact .quiet (quiet_log.trans hs ht)
  | acted hy hp hn he ht hx => exact .acted hy hp hn he (ht.trans (by rw [Scene.performed, hs]; rfl)) hx

/-- What is done afterwards performs nothing, and takes no outcome back. -/
theorem after {t' : Scene σ} {x' : Except Failure (Found σ)} (h : Comes r v s (x, t)) (ht' : Quiet t t')
    (he' : Extends t t') (hx' : x ≠ .ok none → x' ≠ .ok none) : Comes r v s (x', t') := by
  cases h with
  | quiet ht => exact .quiet (quiet_log.trans ht ht')
  | acted hy hp hn he ht hx => exact .acted hy hp hn (he.trans he') (ht'.trans ht) (hx' hx)

theorem up {w : Way} {o : Except Failure (Found σ) × Scene σ} (hu : Part r .invoke v w u)
    (h : Comes r u s o) : Comes r v s o := by
  cases h with
  | quiet ht => exact .quiet ht
  | acted hy hp hn he ht hx => exact .acted (Visit.at?_cons.mpr ⟨u, hu, hy⟩) hp hn he ht hx

/-- A part that the traversal goes on from has performed nothing. -/
theorem passed (h : Comes r v s (.ok none, t)) : Quiet s t := by
  cases h with
  | quiet ht => exact ht
  | acted _ _ _ _ _ hx => exact absurd rfl hx

end Comes

theorem Scene.acted_performed (s : Scene σ) (name : String) :
    (s.acted name).performed = s.performed ++ [.perform s.current.name name] := by
  simp [Scene.performed, Scene.acted, Scene.withState, Event.isPerform]

/-- A control that performs its action ends the traversal. -/
theorem Performs.comes {v : Visit σ} {a : Binding} {p : Scene σ} (h : Performs r v a p) :
    Comes r v p ((do return some (← Pass.perform r a) : Pass σ (Found σ)).on p) := by
  rw [Pass.on_bind, Pass.on_perform]
  rcases hn : ((Pass.actionName r.helpers a).on p).1 with e | name
  · exact .quiet rfl
  have hacted := p.acted_performed name
  dsimp only
  rcases (Component.perform p.current.state name).1 with e | reply
  · exact .acted (Visit.at?_nil v) h hn List.prefix_rfl hacted (by simp)
  · dsimp only
    have hq : Quiet (p.acted name) ((p.acted name).addEvents (Outcome.ofReply r reply).2) :=
      quiet_log.plain.sets _ _ (Pass.ofReply_sets r reply)
    have he : Extends (p.acted name) ((p.acted name).addEvents (Outcome.ofReply r reply).2) :=
      prefix_log.plain.sets _ _ (Pass.ofReply_sets r reply)
    rcases (Outcome.ofReply r reply).1 with e | o
    · exact .acted (Visit.at?_nil v) h hn he (hq.trans hacted) (by simp)
    · exact .acted (Visit.at?_nil v) h hn he (hq.trans hacted) (by simp)

/-! ## Walks over the parts of an element -/

/-- The children that follow those that were passed. -/
theorem children_come {depth : Nat} {s : Scene σ} {name : Option String} {children : List Element}
    (ih : ∀ w u, Part r .invoke ⟨depth, .group name children, s⟩ w u → Comes r u u.scene (u.run r .invoke))
    (xs ys : List Element) (t : Scene σ) (hsplit : children = xs ++ ys)
    (hs : (Element.visitAll r (Element.visit r .invoke depth) .invoke xs).on (s.mapContext Context.down) =
      (.ok none, t)) :
    Comes r ⟨depth, .group name children, s⟩ t
      ((Element.visitAll r (Element.visit r .invoke depth) .invoke ys).on t) := by
  induction ys generalizing xs t with
  | nil => exact .quiet rfl
  | cons e ys hrest =>
    have hgo : ∀ t', (Walk.part .invoke (e.visitWith r (Element.visit r .invoke depth) .invoke)).on t =
        (.ok none, t') →
        Comes r ⟨depth, .group name children, s⟩ (t'.mapContext Context.next)
          ((Element.visitAll r (Element.visit r .invoke depth) .invoke ys).on (t'.mapContext Context.next)) := by
      intro t' ht'
      refine hrest (xs ++ [e]) _ (by simp [hsplit]) ?_
      rw [visitAll_snoc hs, ht']
    rw [Pass.on_visitAll_cons]
    rw [Pass.on_part] at hgo ⊢
    by_cases hv : Phase.invoke.visits t = true
    · have hpart : Part r .invoke ⟨depth, .group name children, s⟩ (.child xs.length) ⟨depth, e, t⟩ :=
        .child (by simp [hsplit]) (by simpa [hsplit] using hs) hv
      have hu : Comes r _ t ((e.visitWith r (Element.visit r .invoke depth) .invoke).on t) :=
        (ih _ _ hpart).up hpart
      rw [if_pos hv] at hgo ⊢
      rcases ho : (e.visitWith r (Element.visit r .invoke depth) .invoke).on t with ⟨_ | _ | o, t'⟩ <;>
        rw [ho] at hu
      · exact hu
      · exact (hgo t' ho).before hu.passed
      · exact hu
    · rw [if_neg hv] at hgo ⊢
      exact (hgo t rfl).before rfl

/-- The rounds that follow those that were passed. -/
theorem rounds_come {depth : Nat} {s : Scene σ} {list : Binding} {item index : Option KeyPath} {e : Element}
    (ih : ∀ w u, Part r .invoke ⟨depth, .control (.repetition list item index) (some e), s⟩ w u →
      Comes r u u.scene (u.run r .invoke))
    {items : List Value} (hl : (Control.listItems r.helpers list).on s = (.ok items, s))
    (xs ys : List Value) (t : Scene σ) (hsplit : items = xs ++ ys)
    (hs : (Control.rounds item index
        (Walk.part .invoke (e.visitWith r (Element.visit r .invoke depth) .invoke)) 0 xs).on
      (s.mapContext Context.down) = (.ok none, t)) :
    Comes r ⟨depth, .control (.repetition list item index) (some e), s⟩ t
      ((Control.rounds item index
        (Walk.part .invoke (e.visitWith r (Element.visit r .invoke depth) .invoke)) xs.length ys).on t) := by
  induction ys generalizing xs t with
  | nil => exact .quiet rfl
  | cons y ys hrest =>
    have hgo : ∀ t' t'', (Control.setRound item index xs.length y).on t = (.ok (), t') →
        (Walk.part .invoke (e.visitWith r (Element.visit r .invoke depth) .invoke)).on t' = (.ok none, t'') →
        Comes r ⟨depth, .control (.repetition list item index) (some e), s⟩ (t''.mapContext Context.next)
          ((Control.rounds item index
            (Walk.part .invoke (e.visitWith r (Element.visit r .invoke depth) .invoke)) (xs.length + 1) ys).on
            (t''.mapContext Context.next)) := by
      intro t' t'' ht' ht''
      have hlen : xs.length + 1 = (xs ++ [y]).length := by simp
      rw [hlen]
      refine hrest (xs ++ [y]) _ (by simp [hsplit]) ?_
      rw [rounds_snoc hs ht', ht'']
    rw [Pass.on_rounds_cons]
    have hset := Pass.Within.setRound quiet_log.plain item index xs.length y t
    rcases hto : (Control.setRound item index xs.length y).on t with ⟨_ | _, t'⟩ <;> rw [hto] at hset
    · exact .quiet hset
    · dsimp only
      have hgo' := fun t'' => hgo t' t'' hto
      rw [Pass.on_part] at hgo' ⊢
      by_cases hv : Phase.invoke.visits t' = true
      · have hpart : Part r .invoke ⟨depth, .control (.repetition list item index) (some e), s⟩
            (.round xs.length) ⟨depth, e, t'⟩ :=
          .round hl (by simp [hsplit]) (by simpa [hsplit] using hs) hto hv
        have hu : Comes r _ t ((e.visitWith r (Element.visit r .invoke depth) .invoke).on t') :=
          ((ih _ _ hpart).up hpart).before hset
        rw [if_pos hv] at hgo' ⊢
        rcases ho : (e.visitWith r (Element.visit r .invoke depth) .invoke).on t' with ⟨_ | _ | o, t''⟩ <;>
          rw [ho] at hu
        · exact hu
        · exact (hgo' t'' ho).before hu.passed
        · exact hu
      · rw [if_neg hv] at hgo' ⊢
        exact (hgo' t' rfl).before hset

/-- What comes of a component comes of its template; taking its values back performs nothing. -/
theorem component_comes {depth : Nat} {s : Scene σ} {tag name : String} {bs : Bindings} {content : Option Element}
    (ih : ∀ w u, Part r .invoke ⟨depth, .component tag name bs content, s⟩ w u →
      Comes r u u.scene (u.run r .invoke)) :
    Comes r ⟨depth, .component tag name bs content, s⟩ s
      ((Pass.enter r name bs content (Element.visit r .invoke depth)).on s) := by
  rw [Pass.on_enter]
  have ha := quiet_log.arrive r name bs content s
  rcases hs : (Pass.arrive r name bs content).on s with ⟨_ | e, t⟩ <;> rw [hs] at ha
  · exact .quiet ha
  have hu : Comes r ⟨depth, .component tag name bs content, s⟩ s ((Element.visit r .invoke depth e).on t) := by
    cases depth with
    | zero => exact .quiet ha
    | succ depth =>
      have hpart : Part r .invoke ⟨depth + 1, .component tag name bs content, s⟩ .template ⟨depth, e, t⟩ :=
        .template hs
      exact ((ih _ _ hpart).up hpart).before ha
  dsimp only
  generalize (Element.visit r .invoke depth e).on t = o at hu ⊢
  obtain ⟨x, y⟩ := o
  have hq := quiet_log.depart bs y
  have he := prefix_log.depart bs y
  dsimp only
  rcases hd : (Pass.depart bs).on y with ⟨_ | pulled, z⟩ <;> rw [hd] at hq he
  · exact hu.after hq he fun _ => nofun
  · refine hu.after hq he fun hx => ?_
    rcases x with _ | _ | o
    · exact nofun
    · exact absurd rfl hx
    · cases pulled <;> exact nofun

/-- What comes of the content of a control. -/
theorem content_comes {depth : Nat} {s t : Scene σ} {c : Control} {content : Option Element}
    (ih : ∀ w u, Part r .invoke ⟨depth, .control c content, s⟩ w u → Comes r u u.scene (u.run r .invoke))
    (ht : (c.approach r .invoke).on s = (.ok true, t)) (hq : Quiet s t) :
    Comes r ⟨depth, .control c content, s⟩ s
      (((Element.visitContent r (Element.visit r .invoke depth) .invoke content).getD Walk.nothing).on t) := by
  cases content with
  | none => exact .quiet hq
  | some e =>
    have hpart : Part r .invoke ⟨depth, .control c (some e), s⟩ .inside ⟨depth, e, t⟩ := .inside ht
    have hu : Comes r _ t (Visit.run r .invoke ⟨depth, e, t⟩) := (ih _ _ hpart).up hpart
    exact hu.before hq

/-- A form performs its own action where nothing came of its content. -/
theorem form_comes {depth : Nat} {s : Scene σ} {action : Option Binding} {content : Option Element}
    (ih : ∀ w u, Part r .invoke ⟨depth, .control (.form action) content, s⟩ w u →
      Comes r u u.scene (u.run r .invoke)) :
    Comes r ⟨depth, .control (.form action) content, s⟩ s
      ((Control.visitForm r action
        ((Element.visitContent r (Element.visit r .invoke depth) .invoke content).getD Walk.nothing) .invoke).on s) := by
  rw [Pass.on_visitForm_invoke]
  have hu := content_comes ih (t := s.mapContext (·.withInForm true)) rfl rfl
  rcases ho : ((Element.visitContent r (Element.visit r .invoke depth) .invoke content).getD Walk.nothing).on
      (s.mapContext (·.withInForm true)) with ⟨_ | _ | o, p⟩ <;> rw [ho] at hu
  · exact hu.after rfl List.prefix_rfl fun _ => nofun
  · have hp : Comes r ⟨depth, .control (.form action) content, s⟩ p ((Control.submitForm r action).on p) := by
      simp only [Control.submitForm, Pass.on_bind, Pass.on_get]
      split
      · cases action with
        | none => exact .quiet rfl
        | some a =>
          rename_i hsender
          exact Performs.comes (.form rfl ho hsender)
      · exact .quiet rfl
    exact (hp.before hu.passed).after rfl List.prefix_rfl id
  · exact hu.after rfl List.prefix_rfl fun _ => nofun

/-- What comes of a control, whatever comes of its parts. -/
theorem control_comes {depth : Nat} {s : Scene σ} {c : Control} {content : Option Element}
    (ih : ∀ w u, Part r .invoke ⟨depth, .control c content, s⟩ w u → Comes r u u.scene (u.run r .invoke)) :
    Comes r ⟨depth, .control c content, s⟩ s
      ((c.visit r (Element.visit r .invoke depth) .invoke
        (Element.visitContent r (Element.visit r .invoke depth) .invoke content)).on s) := by
  cases c with
  | string value escape whenEmpty => exact .quiet rfl
  | textField value name => exact .quiet rfl
  | hyperlink target label =>
    cases target with
    | action a =>
      simp only [Control.visit, Control.visitHyperlink, Pass.on_bind, Pass.on_get]
      split
      · rename_i hsender
        exact Performs.comes (.link rfl hsender)
      · exact .quiet rfl
    | href b => exact .quiet rfl
    | directAction b => exact .quiet rfl
  | form action => exact form_comes ih
  | submitButton action value =>
    cases action with
    | none => exact .quiet rfl
    | some a =>
      simp only [Control.visit, Control.visitSubmitButton, Pass.on_bind, Pass.on_get]
      split
      · rename_i hused
        exact Performs.comes (.button rfl hused)
      · exact .quiet rfl
  | repetition list item index =>
    cases content with
    | none => exact .quiet rfl
    | some e =>
      simp only [Control.visit, Element.visitContent, Control.visitRepetition, Pass.on_bind]
      have hk := Pass.listItems_keeps s r.helpers list
      rcases hl : (Control.listItems r.helpers list).on s with ⟨_ | items, t⟩ <;> rw [hl] at hk <;> cases hk
      · exact .quiet rfl
      · dsimp only
        rw [Pass.on_below]
        have h := rounds_come ih hl [] items (t.mapContext Context.down) rfl rfl
        rcases ho : (Control.rounds item index
          (Walk.part .invoke (e.visitWith r (Element.visit r .invoke depth) .invoke)) 0 items).on
          (t.mapContext Context.down) with ⟨x, u⟩
        rw [List.length_nil, ho] at h
        have hs : Comes r _ t (x, u) := h.before rfl
        exact hs.after rfl List.prefix_rfl id
  | conditional condition negate =>
    simp only [Control.visit, Control.visitConditional, Pass.on_bind]
    have hk := Pass.isShown_keeps s r.helpers condition negate
    rcases hc : (Control.isShown r.helpers condition negate).on s with ⟨_ | b, t⟩ <;> rw [hc] at hk <;> cases hk
    · exact .quiet rfl
    · cases b with
      | false => exact .quiet rfl
      | true => exact content_comes ih hc rfl
  | componentContent =>
    simp only [Control.visit, Pass.on_inParent]
    rcases hf : s.frames with _ | ⟨f, rest⟩
    · exact .quiet rfl
    dsimp only
    rcases hc : f.content with _ | e
    · exact .quiet rfl
    dsimp only
    have hu : Comes r ⟨depth, .control .componentContent content, s⟩ s
        ((Element.visit r .invoke depth e).on { s with frames := rest }) := by
      cases depth with
      | zero => exact .quiet rfl
      | succ depth =>
        have hpart : Part r .invoke ⟨depth + 1, .control .componentContent content, s⟩ .content
            ⟨depth, e, { s with frames := rest }⟩ := .content hf hc
        have h := (ih _ _ hpart).up hpart
        exact h.before rfl
    exact hu.after rfl List.prefix_rfl id
  | updateContainer id name => exact content_comes ih rfl rfl
  | widget typeName tag bindings =>
    simp only [Control.visit]
    split
    · rename_i w hw
      simp only [Control.visitWidget, Pass.on_bind, Pass.on_get]
      split
      · rename_i a ha
        exact Performs.comes (.widget rfl hw ha)
      · exact .quiet rfl
    · exact .quiet rfl

/-- Whatever is visited, nothing or one action comes of it. -/
theorem invoke_comes (v : Visit σ) : Comes r v v.scene (v.run r .invoke) := by
  induction v using Visit.induction r .invoke with
  | step v ih =>
  obtain ⟨depth, element, s⟩ := v
  show Comes r _ s ((element.visitWith r (Element.visit r .invoke depth) .invoke).on s)
  cases element with
  | text text => exact .quiet rfl
  | group name children =>
    rw [Element.visitWith, Pass.on_below]
    have h := children_come ih [] children (s.mapContext Context.down) rfl rfl
    rcases ho : (Element.visitAll r (Element.visit r .invoke depth) .invoke children).on
      (s.mapContext Context.down) with ⟨x, t⟩
    rw [ho] at h
    have hs : Comes r _ s (x, t) := h.before rfl
    exact hs.after rfl List.prefix_rfl id
  | component tag name bs content =>
    rw [Element.visitWith]
    exact component_comes ih
  | control c content =>
    rw [Element.visitWith]
    exact control_comes ih

/-! ## What comes of the visits around -/

/-- What comes of the end of a way comes of its start, unless that fails. -/
theorem Part.run_outcome {v u : Visit σ} {w : Way} (h : Part r .invoke v w u)
    (hu : (u.run r .invoke).1 ≠ .ok none) :
    (v.run r .invoke).1 = (u.run r .invoke).1 ∨ ∃ e, (v.run r .invoke).1 = .error e := by
  cases h with
  | @child depth n s t name children e hn hs hv =>
    have hu' : ((e.visitWith r (Element.visit r .invoke depth) .invoke).on t).1 ≠ .ok none := hu
    refine .inl ?_
    simp only [Visit.run, Element.visit, Element.visitWith, Pass.on_below]
    rw [split_getElem? hn, visitAll_append, hs]
    dsimp only
    rw [Pass.on_visitAll_cons, Pass.on_part, if_pos hv]
    rcases hrun : (e.visitWith r (Element.visit r .invoke depth) .invoke).on t with ⟨_ | _ | o, x⟩
    · rfl
    · exact absurd (by rw [hrun]) hu'
    · rfl
  | @round depth i s t u list item index items x e hl hi hr hset hv =>
    have hu' : ((e.visitWith r (Element.visit r .invoke depth) .invoke).on u).1 ≠ .ok none := hu
    have hlen : 0 + (items.take i).length = i := by
      have hlt := (List.getElem?_eq_some_iff.mp hi).1
      simp; omega
    refine .inl ?_
    simp only [Visit.run, Element.visit, Element.visitWith, Control.visit, Element.visitContent,
      Control.visitRepetition, Pass.on_bind, hl, Pass.on_below]
    rw [split_getElem? hi, rounds_append, hr]
    dsimp only
    rw [Pass.on_rounds_cons, hlen, hset]
    dsimp only
    rw [Pass.on_part, if_pos hv]
    rcases hrun : (e.visitWith r (Element.visit r .invoke depth) .invoke).on u with ⟨_ | _ | o, y⟩
    · rfl
    · exact absurd (by rw [hrun]) hu'
    · rfl
  | @inside depth s t c e hs =>
    refine .inl ?_
    simp only [Visit.run, Element.visit, Element.visitWith, Element.visitContent] at hu ⊢
    cases approached hs with
    | form =>
      rw [Control.visit, Pass.on_visitForm_invoke, Option.getD_some]
      rcases hrun : (e.visitWith r (Element.visit r .invoke depth) .invoke).on
        (s.mapContext (·.withInForm true)) with ⟨_ | _ | o, x⟩
      · rfl
      · exact absurd (by rw [hrun]) hu
      · rfl
    | conditional ho =>
      simp only [Control.visit, Control.visitConditional, Pass.on_bind, ho, Option.getD_some, if_true]
    | container => rfl
  | @template depth s t tag name bindings content e hs =>
    show ((Pass.enter r name bindings content (Element.visit r .invoke (depth + 1))).on s).1 =
      ((e.visit r .invoke (depth + 1)).on t).1 ∨
        ∃ x, ((Pass.enter r name bindings content (Element.visit r .invoke (depth + 1))).on s).1 = .error x
    rw [Pass.on_enter, hs]
    dsimp only
    rcases hrun : (e.visit r .invoke (depth + 1)).on t with ⟨x, y⟩
    dsimp only
    rcases (Pass.depart bindings).on y with ⟨e' | pulled, z⟩
    · exact .inr ⟨e', rfl⟩
    · rcases x with e' | o
      · exact .inl rfl
      · rcases pulled with e' | _
        · exact .inr ⟨e', rfl⟩
        · exact .inl rfl
  | @content depth s c f rest e hf hc =>
    refine .inl ?_
    simp only [Visit.run]
    simp only [Element.visit, Element.visitWith, Control.visit, Pass.on_inParent, hf, hc]

theorem Visit.at?_run_outcome {v x : Visit σ} {π : Path} (h : v.at? r .invoke π = some x)
    (hx : (x.run r .invoke).1 ≠ .ok none) :
    (v.run r .invoke).1 = (x.run r .invoke).1 ∨ ∃ e, (v.run r .invoke).1 = .error e := by
  induction π generalizing v with
  | nil =>
    cases h
    exact .inl rfl
  | cons w π ih =>
    obtain ⟨u, hu, h⟩ := at?_cons.mp h
    rcases ih h with hsame | ⟨e, he⟩
    · rcases hu.run_outcome (hsame ▸ hx) with hv | hv
      · exact .inl (hv.trans hsame)
      · exact .inr hv
    · rcases hu.run_outcome (by rw [he]; exact nofun) with hv | hv
      · exact .inr ⟨e, hv.trans he⟩
      · exact .inr hv

/-- One action at most comes of a visit. -/
theorem Visit.performs_one (v : Visit σ) : (v.run r .invoke).2.performed = v.scene.performed ∨
    ∃ event, (v.run r .invoke).2.performed = v.scene.performed ++ [event] := by
  have hcomes := invoke_comes (r := r) v
  rcases hrun : v.run r .invoke with ⟨x, t⟩
  rw [hrun] at hcomes
  cases hcomes with
  | quiet hq => exact .inl hq
  | acted _ _ _ _ ht _ => exact .inr ⟨_, ht⟩

/-- What is performed at a visit is all that is performed around it. -/
theorem Visit.at?_performed {v x : Visit σ} {π : Path} (h : v.at? r .invoke π = some x) {event : Event}
    (hx : (x.run r .invoke).2.performed = x.scene.performed ++ [event]) :
    (v.run r .invoke).2.performed = v.scene.performed ++ [event] := by
  have hbefore : v.scene.performed <+: x.scene.performed := (at?_extends h).filter _
  have hafter : (x.run r .invoke).2.performed <+: (v.run r .invoke).2.performed := (at?_run_extends h).filter _
  rw [hx] at hafter
  have hlt := hbefore.length_le
  have hle := hafter.length_le
  rw [List.length_append, List.length_singleton] at hle
  rcases v.performs_one (r := r) with hnone | ⟨event', hone⟩
  · rw [hnone] at hle
    omega
  · rw [hone, List.length_append, List.length_singleton] at hle
    have hscene := hbefore.eq_of_length (by omega)
    rw [hone, ← hscene] at hafter
    rw [hone, hafter.eq_of_length (by simp)]

/-- The action `a` is performed in a scene: `event` is what the component is asked to do, and `out`
    comes of it. -/
def Scene.Yields (r : Registry σ) (s : Scene σ) (a : Binding) (event : Event) (out : Outcome σ) : Prop :=
  (∃ name, ((Pass.actionName r.helpers a).on s).1 = .ok name ∧ event = .perform s.current.name name) ∧
    ((Pass.perform r a).on s).1 = .ok out

/-- What comes of an action is its outcome, or a failure. -/
theorem perform_ne_none (a : Binding) (s : Scene σ) :
    ((do return some (← Pass.perform r a) : Pass σ (Found σ)).on s).1 ≠ .ok none := by
  rw [Pass.on_bind]
  rcases (Pass.perform r a).on s with ⟨e | out, t⟩ <;> exact nofun

theorem perform_yields {a : Binding} {s t : Scene σ} {o : Found σ}
    (h : (do return some (← Pass.perform r a) : Pass σ (Found σ)).on s = (.ok o, t)) :
    ∃ event out, s.Yields r a event out ∧ o = some out ∧ t.performed = s.performed ++ [event] := by
  obtain ⟨out, u, hout, hret⟩ := Pass.on_bind_eq_ok.mp h
  cases hret
  have hfst : ((Pass.perform r a).on s).1 = .ok out := by rw [hout]
  rw [Pass.on_perform] at hout
  rcases hn : ((Pass.actionName r.helpers a).on s).1 with e | name
  · simp [hn] at hout
  rcases hr : (Component.perform s.current.state name).1 with e | reply
  · simp [hn, hr] at hout
  refine ⟨.perform s.current.name name, out, ⟨⟨name, hn, rfl⟩, hfst⟩, rfl, ?_⟩
  simp only [hn, hr, Prod.mk.injEq] at hout
  have hreply : Quiet (s.acted name) ((s.acted name).addEvents (Outcome.ofReply r reply).2) :=
    quiet_log.plain.sets _ _ (Pass.ofReply_sets r reply)
  rw [← hout.2]
  exact hreply.trans (s.acted_performed name)

/-! ## Who performs -/

/-- A form that performs its action is where it was before its content was visited. -/
theorem Performs.place {v : Visit σ} {a : Binding} {p : Scene σ} (h : Performs r v a p) :
    p.context.elementId = v.scene.context.elementId ∧ p.context.sender = v.scene.context.sender := by
  cases h with
  | link => exact ⟨rfl, rfl⟩
  | button => exact ⟨rfl, rfl⟩
  | widget => exact ⟨rfl, rfl⟩
  | @form content _ _ hc _ =>
    cases content with
    | none =>
      cases hc
      exact ⟨rfl, rfl⟩
    | some e =>
      have hr : Returns (v.scene.mapContext (·.withInForm true)) (v.formContent r (some e)).2 :=
        (returns_kept r).visitWith (fun e => (returns_kept r).visit .invoke v.depth e) .invoke e _
      rw [hc] at hr
      exact ⟨hr.elementId, hr.sender⟩

theorem Performs.action {v : Visit σ} {a : Binding} {p : Scene σ} (h : Performs r v a p) :
    v.element.action? r v.scene.place = some a := by
  cases h with
  | link he => simp [he, Element.action?]
  | form he => simp [he, Element.action?]
  | button he => simp [he, Element.action?]
  | widget he hw ha => simp [he, Element.action?, hw, ha]

/-- The widgets of the application take an action only where they are the sender. -/
def Registry.WidgetsHeedSender (r : Registry σ) : Prop :=
  ∀ typeName w, r.widget? typeName = some w → ∀ place bindings a,
    w.action place bindings = some a → place.isSender = true

omit [Component σ] in
theorem Registry.heedSender_of_builtin (h : r.types.all (fun t => t.2 matches .builtin _ | .component _) = true) :
    r.WidgetsHeedSender := by
  intro typeName w hw
  simp only [Registry.widget?] at hw
  split at hw
  · rename_i w' hget
    have hmem := List.all_eq_true.mp h _ (Assoc.mem_of_get? hget)
    cases hmem
  · cases hw

/-- The control of the visit `x`, at the end of a path from `v`, performs in the scene `p` what a
    request from `sender` with these form values asks for. -/
structure AskedFor (r : Registry σ) (sender : ElementId) (form : Http.Fields) (v : Visit σ) (π : Path)
    (x : Visit σ) (p : Scene σ) : Prop where
  visited : v.at? r .invoke π = some x
  place : p.context.elementId = x.scene.context.elementId
  /-- It is the sender, or a submit button that was used in a form on the path to the sender. -/
  addressed : x.scene.context.elementId = sender ∨
    (∃ a value content, x.element = .control (.submitButton a value) content) ∧
    (∃ ρ τ f, π = ρ ++ .inside :: τ ∧ v.at? r .invoke ρ = some f ∧ f.element.isForm = true) ∧
    form.contains x.scene.context.elementId.text = true ∧
    (sender.startsWith x.scene.context.elementId || x.scene.context.elementId.startsWith sender) = true
  /-- A form is the sender itself, and nothing came of its content. -/
  form : x.element.isForm = true → x.scene.context.elementId = sender ∧
    ∀ u, x.part? r .invoke .inside = some u → u.run r .invoke = (.ok none, p)

/-- The content of a form is visited first, and nothing else is in its way. -/
theorem Performs.of_form {v : Visit σ} {a : Binding} {p : Scene σ} (h : Performs r v a p)
    (hf : v.element.isForm = true) : p.context.isSender = true ∧
      ∀ u, v.part? r .invoke .inside = some u → u.run r .invoke = (.ok none, p) := by
  obtain ⟨depth, element, s⟩ := v
  cases h with
  | link he =>
    cases he
    cases hf
  | button he =>
    cases he
    cases hf
  | widget he =>
    cases he
    cases hf
  | form he hc hs =>
    cases he
    refine ⟨hs, fun u hu => ?_⟩
    cases part?_sound hu with
    | inside ht =>
      cases ht
      exact hc

theorem onSenderPath_iff {c : Context} {sender : ElementId} (h : c.sender = some sender) :
    c.onSenderPath = (sender.startsWith c.elementId || c.elementId.startsWith sender) := by
  simp [Context.onSenderPath, h]

theorem isSender_iff {c : Context} {sender : ElementId} (h : c.sender = some sender) :
    c.isSender = true ↔ c.elementId = sender := by
  rw [Context.isSender, h, beq_iff_eq, Option.some_inj, eq_comm]

theorem Performs.askedFor {sender : ElementId} {v x : Visit σ} {π : Path} {a : Binding} {p : Scene σ}
    (hw : r.WidgetsHeedSender) (hsender : v.scene.context.sender = some sender)
    (hform : v.scene.context.inForm = false) (hroot : v.scene.context.elementId = .root)
    (hx : v.at? r .invoke π = some x) (h : Performs r x a p) :
    AskedFor r sender v.scene.context.request.form v π x p := by
  have hxs : x.scene.context.sender = some sender := (Visit.at?_sender hx).trans hsender
  have hps : p.context.sender = some sender := h.place.2.trans hxs
  have hvisits : Phase.invoke.visits v.scene = true := by
    simp [Phase.visits, onSenderPath_iff hsender, hroot, ElementId.startsWith, ElementId.root]
  have hpath : x.scene.context.onSenderPath = true := by
    simpa [Phase.visits] using Visit.at?_visits hx hvisits
  refine ⟨hx, h.place.1, ?_, fun hf => ?_⟩
  · cases h with
    | link _ hs => exact .inl ((isSender_iff hxs).mp hs)
    | form he hc hs => exact .inl (((Performs.form he hc hs).place.1).symm.trans ((isSender_iff hps).mp hs))
    | widget _ hwid ha => exact .inl ((isSender_iff hxs).mp (hw _ _ hwid _ _ _ ha))
    | button he hused =>
      simp only [Control.wasUsed, Bool.or_eq_true, Bool.and_eq_true] at hused
      rcases hused with hs | ⟨hin, hname⟩
      · exact .inl ((isSender_iff hxs).mp hs)
      · refine .inr ⟨⟨_, _, _, he⟩, ?_, by rwa [Visit.at?_request hx] at hname,
          by rwa [onSenderPath_iff hxs] at hpath⟩
        rcases Visit.at?_inForm hx hin with hv | hfound
        · rw [hform] at hv
          cases hv
        · exact hfound
  · obtain ⟨hs, hinside⟩ := h.of_form hf
    exact ⟨h.place.1.symm.trans ((isSender_iff hps).mp hs), hinside⟩

/-- Invoking the action of a request performs one action at most, and only the one that is asked
    for. -/
theorem invoke_performs_only_what_is_asked_for (hw : r.WidgetsHeedSender) (c : Context) (a : Address)
    (templates : Templates) (page : Instance σ) :
    let s := Scene.start ((c.begin a).withInForm false) templates page
    let t := ((Pass.walkPage r .invoke).on s).2
    t.performed = [] ∨ ∃ v π x p b name,
      pageVisit? r s = some v ∧ AskedFor r a.sender c.request.form v π x p ∧
      x.element.action? r x.scene.place = some b ∧
      ((Pass.actionName r.helpers b).on p).1 = .ok name ∧
      t.performed = [.perform p.current.name name] ∧
      p.events ++ [.perform p.current.name name] <+: t.events := by
  intro s t
  rcases walkPage_cases r .invoke s with ⟨-, he⟩ | ⟨v, hv, hrun⟩
  · exact .inl (by simp only [t, Scene.performed, he]; rfl)
  obtain ⟨d, -, -, -, hscene⟩ := pageVisit?_eq_some.mp hv
  have hc : v.scene.context = ((c.begin a).withInForm false).atRoot := by rw [hscene]; rfl
  have hevents : v.scene.performed = [] := by rw [hscene]; rfl
  have hcomes := invoke_comes (r := r) v
  rw [← hrun] at hcomes
  rcases ht : (Pass.walkPage r .invoke).on s with ⟨x, t'⟩
  obtain rfl : t = t' := congrArg Prod.snd ht
  rw [ht] at hcomes
  cases hcomes with
  | quiet hq => exact .inl (hq.trans hevents)
  | @acted _ _ p π y b name hy hp hn he hperf hx =>
    have hasked : AskedFor r a.sender v.scene.context.request.form v π y p :=
      hp.askedFor hw (by rw [hc]; rfl) (by rw [hc]; rfl) (by rw [hc]; rfl) hy
    refine .inr ⟨v, π, y, p, b, name, hv, ?_, hp.action, hn, by rw [hperf, hevents]; rfl, ?_⟩
    · rw [hc] at hasked
      exact hasked
    · simpa [Logged, Scene.acted, Scene.withState] using he

namespace Scripted

/-- The button is in a form that has other children, too. -/
def buttonInForm : String := "<wo:Form>Name <wo:SubmitButton action=\"$go\"/></wo:Form>"

/-- The form is the sender, and the name of its button was submitted. -/
def submission : Context :=
  { context with request := { context.request with form := ⟨[("0.1", "Submit")]⟩ } }

end Scripted

theorem submitted_button_is_asked_for :
    let r := Scripted.registry Scripted.buttonInForm
    let s := Scene.start ((Scripted.submission.begin ⟨"3", ⟨[0]⟩⟩).withInForm false) []
      (.ofDefinition (Scripted.page Scripted.buttonInForm))
    r.WidgetsHeedSender ∧ ∃ v π x p name, AskedFor r ⟨[0]⟩ Scripted.submission.request.form v π x p ∧
      ((Pass.walkPage r .invoke).on s).2.performed = [.perform p.current.name name] := by
  intro r s
  have hw : r.WidgetsHeedSender := Registry.heedSender_of_builtin (by decide +kernel)
  have hperf : ((Pass.walkPage r .invoke).on s).2.performed.isEmpty = false := by decide +kernel
  rcases invoke_performs_only_what_is_asked_for hw Scripted.submission ⟨"3", ⟨[0]⟩⟩ []
    (.ofDefinition (Scripted.page Scripted.buttonInForm)) with hnone | ⟨v, π, x, p, b, name, -, hx, -, -, hone, -⟩
  · rw [hnone] at hperf
    cases hperf
  · exact ⟨hw, v, π, x, p, name, hx, hone⟩

end PageServer
