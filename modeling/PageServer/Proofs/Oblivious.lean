/-
  PageServer.Proofs.Oblivious — steps that look neither at the request nor at the response.

  `Scene.answering` is a scene with another request and another response in it. An oblivious step
  does the same there, and leaves both of them alone, as well as what encloses the element
  (`Pass.Oblivious`). Such are all steps that evaluate bindings, set values or take a component on
  the stack and off it. What a traversal does differently for two requests it does in the others.
-/

import PageServer.Proofs.Pass

namespace PageServer

variable {σ : Type}

/-- The scene for the request `q`, which has got the response `x`. -/
def Scene.answering (q : Http.Request) (x : Http.Response) (s : Scene σ) : Scene σ :=
  { s with context := { s.context with request := q }, response := x }

section Answering

variable (q : Http.Request) (x : Http.Response) (s : Scene σ)

@[simp] theorem Scene.answering_current : (s.answering q x).current = s.current := rfl
@[simp] theorem Scene.answering_templates : (s.answering q x).templates = s.templates := rfl
@[simp] theorem Scene.answering_frames : (s.answering q x).frames = s.frames := rfl
@[simp] theorem Scene.answering_page : (s.answering q x).page = s.page := rfl
@[simp] theorem Scene.answering_elementId : (s.answering q x).context.elementId = s.context.elementId := rfl

theorem Scene.withCurrent_answering (i : Instance σ) :
    (s.answering q x).withCurrent i = (s.withCurrent i).answering q x := by
  obtain ⟨c, templates, page, frames, response, events⟩ := s
  cases frames <;> rfl

end Answering

theorem Scene.withCurrent_response (s : Scene σ) (i : Instance σ) : (s.withCurrent i).response = s.response := by
  unfold Scene.withCurrent
  split <;> rfl

/-- Neither the request nor the response has changed, nor what encloses the element. -/
structure Untouched (s t : Scene σ) : Prop where
  request : t.context.request = s.context.request
  response : t.response = s.response
  containers : t.context.containers = s.context.containers
  inForm : t.context.inForm = s.context.inForm

namespace Untouched

theorem refl (s : Scene σ) : Untouched s s := ⟨rfl, rfl, rfl, rfl⟩

theorem trans {s t u : Scene σ} (h : Untouched s t) (h' : Untouched t u) : Untouched s u :=
  ⟨h'.request.trans h.request, h'.response.trans h.response, h'.containers.trans h.containers,
    h'.inForm.trans h.inForm⟩

theorem withCurrent (s : Scene σ) (i : Instance σ) : Untouched s (s.withCurrent i) :=
  ⟨by rw [s.withCurrent_context], s.withCurrent_response i, by rw [s.withCurrent_context],
    by rw [s.withCurrent_context]⟩

theorem url (s : Scene σ) : Untouched s { s with context := s.context.url.2 } := by
  have h : ∀ c : Context, c.url.2.request = c.request ∧ c.url.2.containers = c.containers ∧
      c.url.2.inForm = c.inForm := by
    intro c
    simp only [Context.url, Context.takeContextId, Context.nextContextId]
    rcases c.contextId with _ | id <;> exact ⟨rfl, rfl, rfl⟩
  exact ⟨(h s.context).1, rfl, (h s.context).2.1, (h s.context).2.2⟩

end Untouched

/-- The step does the same for every request, and leaves it and the response alone. -/
def Pass.Oblivious {α : Type} (p : Pass σ α) : Prop :=
  ∀ s q x, p.on (s.answering q x) = ((p.on s).1, (p.on s).2.answering q x) ∧ Untouched s (p.on s).2

namespace Pass.Oblivious

variable {α β : Type}

theorem toNext : Oblivious (toNext : Pass σ Unit) := fun _ _ _ => ⟨rfl, ⟨rfl, rfl, rfl, rfl⟩⟩

/-! ## Steps that only look -/

theorem pure (a : α) : Oblivious (pure a : Pass σ α) := fun s _ _ => ⟨rfl, .refl s⟩

theorem throw (e : Failure) : Oblivious (throw e : Pass σ α) := fun s _ _ => ⟨rfl, .refl s⟩

theorem bind {p : Pass σ α} {f : α → Pass σ β} (hp : Oblivious p) (hf : ∀ a, Oblivious (f a)) :
    Oblivious (p >>= f) := by
  intro s q x
  obtain ⟨h, hu⟩ := hp s q x
  rw [on_bind, on_bind, h]
  rcases hs : p.on s with ⟨e | a, t⟩ <;> rw [hs] at hu
  · exact ⟨rfl, hu⟩
  · exact ⟨(hf a t q x).1, hu.trans (hf a t q x).2⟩

theorem url : Oblivious (url : Pass σ String) := by
  intro s q x
  refine ⟨?_, .url s⟩
  obtain ⟨⟨request, sessionId, contextIdCount, errorId, contextId⟩, templates, page, frames, response⟩ := s
  cases contextId <;> rfl

variable [Component σ]

theorem evaluate (hs : Helpers) (b : Binding) : Oblivious (evaluate hs b : Pass σ Value) := by
  intro s q x
  rw [on_evaluate, on_evaluate]
  exact ⟨rfl, .refl s⟩

theorem evaluateText (hs : Helpers) (b : Binding) : Oblivious (evaluateText hs b : Pass σ String) :=
  bind (evaluate hs b) fun _ => pure _

theorem evaluateFlag (hs : Helpers) (b : Option Binding) (d : Bool) :
    Oblivious (evaluateFlag hs b d : Pass σ Bool) := by
  cases b with
  | none => exact pure d
  | some b => exact bind (evaluate hs b) fun _ => pure _

open Control

theorem isShown (hs : Helpers) (condition : Binding) (negate : Option Binding) :
    Oblivious (isShown hs condition negate : Pass σ Bool) :=
  bind (evaluateFlag hs _ _) fun _ => bind (evaluateFlag hs _ _) fun _ => pure _

theorem listItems (hs : Helpers) (list : Binding) : Oblivious (listItems hs list : Pass σ (List Value)) := by
  refine bind (evaluate hs list) fun v => ?_
  cases v with
  | null => exact pure _
  | list items => exact pure _
  | _ => exact throw _

theorem targetUrl (hs : Helpers) (target : Target) : Oblivious (targetUrl hs target : Pass σ String) := by
  cases target with
  | action a => exact url
  | href b => exact evaluateText hs b
  | directAction b => exact bind (evaluateText hs b) fun _ => pure _

theorem fieldName (hs : Helpers) (name : Option Binding) : Oblivious (fieldName hs name : Pass σ String) := by
  cases name with
  | none => exact fun s _ _ => ⟨rfl, .refl s⟩
  | some b => exact evaluateText hs b

/-! ## Steps that set values -/

theorem setKey (key : String) (v : Value) : Oblivious (setKey key v : Pass σ Unit) := by
  intro s q x
  rw [on_setKey, on_setKey]
  simp only [Scene.answering_current]
  rcases Component.take s.current.state key v with e | y
  · exact ⟨rfl, ⟨rfl, rfl, rfl, rfl⟩⟩
  · have hu := Untouched.withCurrent (s.addEvents [.set s.current.name key v]) { s.current with state := y }
    refine ⟨?_, ⟨hu.request, hu.response, hu.containers, hu.inForm⟩⟩
    exact congrArg (Prod.mk (Except.ok ())) (Scene.withCurrent_answering q x (s.addEvents _) _)

theorem setPath (p : KeyPath) (v : Value) : Oblivious (setPath p v : Pass σ Unit) := by
  intro s q x
  rw [on_setPath, on_setPath]
  simp only [Scene.answering_current]
  rcases p.rootFor v s.current.state with e | root
  · exact ⟨rfl, .refl s⟩
  · exact setKey p.first root s q x

theorem pullBindings (child : σ) (bs : Bindings) : Oblivious (pullBindings child bs) := by
  induction bs with
  | nil => exact pure ()
  | cons b rest ih =>
    obtain ⟨key, b⟩ := b
    intro s q x
    rw [on_pullBindings_cons, on_pullBindings_cons]
    simp only [Scene.answering_current]
    rcases owed child s.current.state key b with _ | ⟨p, v⟩
    · exact ih s q x
    · exact bind (setPath p v) (fun _ => ih) s q x

theorem setRound (item index : Option KeyPath) (i : Nat) (v : Value) :
    Oblivious (setRound item index i v : Pass σ Unit) := by
  cases item with
  | none =>
    cases index with
    | none => exact pure ()
    | some q => exact setPath q _
  | some p =>
    refine bind (setPath p v) fun _ => ?_
    cases index with
    | none => exact pure ()
    | some q => exact setPath q _

/-! ## Steps into components and out of them -/

omit [Component σ] in
/-- A component is out of its place for both requests alike. -/
theorem without_answering (q : Http.Request) (x : Http.Response) (s : Scene σ) (key : String) :
    (s.answering q x).without key = (s.without key).answering q x := Scene.withCurrent_answering q x s _

theorem arrive (r : Registry σ) (name : String) (bs : Bindings) (content : Option Element) :
    Oblivious (arrive r name bs content) := by
  intro s q x
  rw [on_arrive, on_arrive]
  have hchild : ∀ d, childAt d (s.answering q x) = childAt d s := fun _ => rfl
  simp only [Scene.answering_current, Scene.answering_templates, Scene.answering_elementId, hchild]
  rcases r.resolveComponent name with e | d
  · exact ⟨rfl, .refl s⟩
  dsimp only
  rcases (Templates.get r d s.templates).1 with e | template
  · exact ⟨rfl, ⟨rfl, rfl, rfl, rfl⟩⟩
  dsimp only
  have hcome : ∀ es, ((s.answering q x).compiled r d).addEvents es =
      ((s.compiled r d).addEvents es).answering q x := fun _ => rfl
  have hout : ∀ es key, Untouched s (((s.compiled r d).addEvents es).without key) :=
    fun es key => ⟨by simp, Scene.withCurrent_response _ _, by simp, by simp⟩
  rcases Instance.receive r.helpers s.current.state bs (childAt d s) with ⟨⟨e | _, child⟩, es⟩
  · dsimp only
    refine ⟨?_, (hout es s.context.elementId.text).trans (.withCurrent _ _)⟩
    rw [hcome, without_answering]
    exact congrArg (Prod.mk _) (Scene.withCurrent_answering q x _ _)
  · dsimp only
    have hu := hout es s.context.elementId.text
    refine ⟨?_, ⟨hu.request, hu.response, hu.containers, hu.inForm⟩⟩
    rw [hcome, Scene.pushed, without_answering]
    rfl

theorem depart (bs : Bindings) : Oblivious (depart bs : Pass σ _) := by
  intro s q x
  rw [on_depart, on_depart]
  simp only [Scene.answering_frames]
  rcases hf : s.frames with _ | ⟨f, rest⟩
  · exact ⟨rfl, .refl s⟩
  · have hpull : Oblivious (Pass.pullBindings f.inner.state bs) := .pullBindings f.inner.state bs
    obtain ⟨h, hu⟩ := hpull { s with frames := rest } q x
    have h' : (Pass.pullBindings f.inner.state bs).on { s.answering q x with frames := rest } = _ := h
    dsimp only
    rw [h']
    have hu' : Untouched s ((Pass.pullBindings f.inner.state bs).on { s with frames := rest }).2 :=
      ⟨hu.request, hu.response, hu.containers, hu.inForm⟩
    refine ⟨?_, hu'.trans (.withCurrent _ _)⟩
    exact congrArg (Prod.mk _) (Scene.withCurrent_answering q x _ _)

omit [Component σ] in
theorem pageTemplate (r : Registry σ) : Oblivious (pageTemplate r : Pass σ Element) := by
  intro s q x
  rw [on_pageTemplate, on_pageTemplate]
  simp only [Scene.answering_page, Scene.answering_templates]
  rcases r.resolveComponent s.page.name with e | d
  · exact ⟨rfl, .refl s⟩
  dsimp only
  rcases (Templates.get r d s.templates).1 with e | e
  · exact ⟨rfl, ⟨rfl, rfl, rfl, rfl⟩⟩
  · exact ⟨rfl, ⟨rfl, rfl, rfl, rfl⟩⟩

end Pass.Oblivious

end PageServer
