/-
  PageServer.Proofs.Mirrored — a page shown whole, and the same page shown to a request for one
  update container alone.

  `Scene.asked` is the scene of the second request: other headers and another response, and all
  else as in the first. No step looks at what differs, but for the muting of the response. So the
  two traversals do the same and end the same way (`Mirrored.visit`); the responses get the same
  text inside of the container, and outside of it the second gets none that a step itself writes
  (`Gains`).
-/

import PageServer.Proofs.Oblivious
import PageServer.Proofs.Visits

namespace PageServer

variable {σ : Type}

/-! ## Two scenes of one traversal -/

def Context.asked (hs : Http.Headers) (c : Context) : Context :=
  { c with request := { c.request with headers := hs } }

/-- The scene for a request with the headers `hs`, which has got the response `x`. -/
def Scene.asked (hs : Http.Headers) (x : Http.Response) (s : Scene σ) : Scene σ :=
  { s with context := s.context.asked hs, response := x }

section Asked

variable (hs : Http.Headers) (x : Http.Response) (s : Scene σ)

@[simp] theorem Scene.asked_current : (s.asked hs x).current = s.current := rfl
@[simp] theorem Scene.asked_frames : (s.asked hs x).frames = s.frames := rfl

theorem Scene.asked_mapContext (f : Context → Context) (hf : ∀ c : Context, f (c.asked hs) = (f c).asked hs) :
    (s.asked hs x).mapContext f = (s.mapContext f).asked hs x := by
  rw [Scene.mapContext, show (s.asked hs x).context = s.context.asked hs from rfl, hf]
  rfl

end Asked

/-- Nothing of what decides about the output has changed, nor the output. -/
structure Unheard (s t : Scene σ) : Prop where
  response : t.response = s.response
  containers : t.context.containers = s.context.containers
  request : t.context.request = s.context.request

namespace Unheard

theorem refl (s : Scene σ) : Unheard s s := ⟨rfl, rfl, rfl⟩

theorem trans {s t u : Scene σ} (h : Unheard s t) (h' : Unheard t u) : Unheard s u :=
  ⟨h'.response.trans h.response, h'.containers.trans h.containers, h'.request.trans h.request⟩

end Unheard

/-! ## Steps that show nothing -/

/-- The step does the same in both scenes, and shows nothing. -/
def Pass.Silent {α : Type} (hs : Http.Headers) (p : Pass σ α) : Prop :=
  ∀ s x, p.on (s.asked hs x) = ((p.on s).1, (p.on s).2.asked hs x) ∧ Unheard s (p.on s).2

theorem Pass.Oblivious.silent {α : Type} {p : Pass σ α} (h : p.Oblivious) (hs : Http.Headers) : p.Silent hs := by
  intro s x
  obtain ⟨hon, hu⟩ := h s { s.context.request with headers := hs } x
  refine ⟨hon.trans ?_, hu.response, hu.containers, hu.request⟩
  rw [← hu.request]
  rfl

/-! ## What the two responses get -/

/-- The first request asks for the whole page. The second asks for `X` alone, so its response `x` is
    muted outside of it. -/
structure Twin (X : String) (s : Scene σ) (x : Http.Response) : Prop where
  whole : s.context.requestedContainer = none
  loud : s.response.muted = false
  muted : x.muted = !s.context.containers.contains X

/-- What the responses have got between `s` and `t`: in `X` the same text, outside of it none for the
    second if the steps in between are `own` steps of an element, which open no container. -/
structure Gains (own : Prop) (X : String) (s : Scene σ) (x : Http.Response) (t : Scene σ) (y : Http.Response) :
    Prop where
  twin : Twin X t y
  containers : t.context.containers = s.context.containers
  grown : ∃ w w', t.response.content = s.response.content ++ w ∧ y.content = x.content ++ w' ∧
    (X ∈ s.context.containers → w' = w) ∧ (own → X ∉ s.context.containers → w' = .empty)

namespace Gains

variable {own : Prop} {X : String} {s t u : Scene σ} {x y z : Http.Response}

theorem refl (h : Twin X s x) : Gains own X s x s x :=
  ⟨h, rfl, .empty, .empty, by simp, by simp, fun _ => rfl, fun _ _ => rfl⟩

theorem trans (h : Gains own X s x t y) (h' : Gains own X t y u z) : Gains own X s x u z := by
  obtain ⟨w₁, w₁', ht, hy, hin, hout⟩ := h.grown
  obtain ⟨w₂, w₂', hu, hz, hin', hout'⟩ := h'.grown
  rw [h.containers] at hin' hout'
  refine ⟨h'.twin, h'.containers.trans h.containers, w₁ ++ w₂, w₁' ++ w₂', ?_, ?_, fun hX => ?_, fun ho hX => ?_⟩
  · rw [hu, ht, ByteArray.append_assoc]
  · rw [hz, hy, ByteArray.append_assoc]
  · rw [hin hX, hin' hX]
  · rw [hout ho hX, hout' ho hX, ByteArray.append_empty]

theorem unheard (h : Twin X s x) (hu : Unheard s t) : Gains own X s x t x := by
  refine ⟨⟨?_, ?_, ?_⟩, hu.containers, .empty, .empty, ?_, ?_, fun _ => rfl, fun _ _ => rfl⟩
  · rw [Context.requestedContainer, hu.request]
    exact h.whole
  · rw [hu.response]
    exact h.loud
  · rw [hu.containers]
    exact h.muted
  · rw [hu.response, ByteArray.append_empty]
  · rw [ByteArray.append_empty]

/-- A text is written in both, or the second is muted. -/
theorem write (h : Twin X s x) (text : String) :
    Gains own X s x { s with response := s.response.write text } (x.write text) := by
  have hs : (s.response.write text).content = s.response.content ++ text.toUTF8 := by
    simp [Http.Response.write, h.loud]
  by_cases hX : X ∈ s.context.containers
  · have hm : x.muted = false := by simp [h.muted, hX]
    refine ⟨⟨h.whole, ?_, ?_⟩, rfl, text.toUTF8, text.toUTF8, hs, ?_, fun _ => rfl, fun _ hout => absurd hX hout⟩
    · simp [Http.Response.write, h.loud]
    · simp [Http.Response.write, hm, hX]
    · simp [Http.Response.write, hm]
  · have hm : x.muted = true := by simp [h.muted, hX]
    have hx : x.write text = x := by simp [Http.Response.write, hm]
    rw [hx]
    refine ⟨⟨h.whole, ?_, h.muted⟩, rfl, text.toUTF8, .empty, hs, ?_, fun hin => absurd hin hX, fun _ _ => rfl⟩
    · simp [Http.Response.write, h.loud]
    · rw [ByteArray.append_empty]

/-- What holds between the scenes holds between those that differ in nothing that is looked at. -/
theorem congr {s' t' : Scene σ} (h : Gains own X s x t y) (hs : Unheard s' s) (ht : Unheard t t') :
    Gains own X s' x t' y := by
  obtain ⟨w, w', htw, hy, hin, hout⟩ := h.grown
  refine ⟨⟨?_, ?_, ?_⟩, ht.containers.trans (h.containers.trans hs.containers), w, w', ?_, hy, ?_, ?_⟩
  · rw [Context.requestedContainer, ht.request]
    exact h.twin.whole
  · rw [ht.response]
    exact h.twin.loud
  · rw [ht.containers]
    exact h.twin.muted
  · rw [ht.response, htw, hs.response]
  · rw [← hs.containers]
    exact hin
  · rw [← hs.containers]
    exact hout

end Gains

theorem Twin.unheard {X : String} {s t : Scene σ} {x : Http.Response} (h : Twin X s x) (hu : Unheard s t) :
    Twin X t x := by
  have hgain : Gains True X s x t x := .unheard h hu
  exact hgain.twin

/-! ## Steps and traversals -/

/-- The step does the same in both scenes, and the responses get what they should. -/
def Pass.Mirrored {α : Type} (own : Prop) (hs : Http.Headers) (X : String) (p : Pass σ α) : Prop :=
  ∀ s x, Twin X s x → ∃ y, p.on (s.asked hs x) = ((p.on s).1, (p.on s).2.asked hs y) ∧ Gains own X s x (p.on s).2 y

namespace Pass.Mirrored

open Walk

variable {own : Prop} {hs : Http.Headers} {X : String} {α β : Type}

theorem of_silent {p : Pass σ α} (h : Silent hs p) : Mirrored own hs X p :=
  fun s x ht => ⟨x, (h s x).1, .unheard ht (h s x).2⟩

theorem of_oblivious {p : Pass σ α} (h : p.Oblivious) : Mirrored own hs X p := of_silent (h.silent hs)

theorem pure (a : α) : Mirrored own hs X (pure a : Pass σ α) := of_oblivious (.pure a)

theorem throw (e : Failure) : Mirrored own hs X (throw e : Pass σ α) := of_oblivious (.throw e)

theorem bind {p : Pass σ α} {f : α → Pass σ β} (hp : Mirrored own hs X p) (hf : ∀ a, Mirrored own hs X (f a)) :
    Mirrored own hs X (p >>= f) := by
  intro s x ht
  obtain ⟨y, hy, hg⟩ := hp s x ht
  rw [on_bind, on_bind, hy]
  rcases hs' : p.on s with ⟨e | a, t⟩ <;> rw [hs'] at hg
  · exact ⟨y, rfl, hg⟩
  · obtain ⟨z, hz, hg'⟩ := hf a t y hg.twin
    exact ⟨z, hz, hg.trans hg'⟩

theorem write (text : String) : Mirrored own hs X (write text : Pass σ Unit) :=
  fun _ _ ht => ⟨_, rfl, .write ht text⟩

theorem ofPass {p : Pass σ Unit} (h : Mirrored own hs X p) : Mirrored own hs X (ofPass p) :=
  bind h fun _ => pure _

/-- A step that looks at the scene first, but not at what differs. -/
theorem get {f : Scene σ → Pass σ β} (h : ∀ s, Mirrored own hs X (f s)) (hf : ∀ s x, f (s.asked hs x) = f s) :
    Mirrored own hs X (do f (← get)) := by
  intro s x ht
  rw [on_bind, on_bind, on_get, on_get]
  dsimp only
  rw [hf s x]
  exact h s s x ht

/-- A bracket of the context around a step. -/
theorem bracket {p : Pass σ α} (f g : Context → Context) (h : Mirrored own hs X p)
    (hf : ∀ c : Context, f (c.asked hs) = (f c).asked hs ∧ (f c).containers = c.containers ∧ (f c).request = c.request)
    (hg : ∀ c : Context, g (c.asked hs) = (g c).asked hs ∧ (g c).containers = c.containers ∧ (g c).request = c.request) :
    Mirrored own hs X (do modify (·.mapContext f); ensuring p (·.mapContext g)) := by
  intro s x ht
  have hin : Unheard s (s.mapContext f) := ⟨rfl, (hf s.context).2.1, (hf s.context).2.2⟩
  obtain ⟨y, hy, hgain⟩ := h (s.mapContext f) x (ht.unheard hin)
  have hout : Unheard (p.on (s.mapContext f)).2 ((p.on (s.mapContext f)).2.mapContext g) :=
    ⟨rfl, (hg _).2.1, (hg _).2.2⟩
  refine ⟨y, ?_, hgain.congr hin hout⟩
  rw [on_bind, on_bind, on_modify, on_modify]
  dsimp only
  rw [on_ensuring, on_ensuring, Scene.asked_mapContext hs x s f fun c => (hf c).1, hy]
  exact congrArg (Prod.mk _) (Scene.asked_mapContext hs y _ g fun c => (hg c).1)

theorem below {p : Pass σ α} (h : Mirrored own hs X p) : Mirrored own hs X (below p) :=
  bracket Context.down Context.up h (fun _ => ⟨rfl, rfl, rfl⟩) fun _ => ⟨rfl, rfl, rfl⟩

theorem inForm {p : Pass σ α} (h : Mirrored own hs X p) : Mirrored own hs X (inForm p) :=
  bracket (·.withInForm true) (·.withInForm false) h (fun _ => ⟨rfl, rfl, rfl⟩) fun _ => ⟨rfl, rfl, rfl⟩

theorem toNext : Mirrored own hs X (toNext : Pass σ Unit) := of_oblivious .toNext

theorem inParent {run : Element → Pass σ α} (default : α) (h : ∀ e, Mirrored own hs X (run e)) :
    Mirrored own hs X (inParent default run) := by
  intro s x ht
  rw [on_inParent, on_inParent]
  simp only [Scene.asked_frames]
  rcases hf : s.frames with _ | ⟨f, rest⟩
  · exact ⟨x, rfl, .refl ht⟩
  dsimp only
  rcases f.content with _ | e
  · exact ⟨x, rfl, .refl ht⟩
  · have hin : Unheard s { s with frames := rest } := ⟨rfl, rfl, rfl⟩
    obtain ⟨y, hy, hg⟩ := h e { s with frames := rest } x (ht.unheard hin)
    have hy' : (run e).on { s.asked hs x with frames := rest } = _ := hy
    refine ⟨y, ?_, hg.congr hin ⟨rfl, rfl, rfl⟩⟩
    dsimp only
    rw [hy']
    rfl

variable [Component σ] {r : Registry σ}

theorem enter {run : Element → Pass σ α} (name : String) (bs : Bindings) (content : Option Element)
    (h : ∀ e, Mirrored own hs X (run e)) : Mirrored own hs X (enter r name bs content run) := by
  refine bind (of_oblivious (.arrive r name bs content)) fun template => ?_
  have hattempt : Mirrored own hs X (attempt (run template)) := by
    intro s x ht
    obtain ⟨y, hy, hg⟩ := h template s x ht
    refine ⟨y, ?_, hg⟩
    rw [on_attempt, on_attempt, hy]
  refine bind hattempt fun result => bind (of_oblivious (.depart bs)) fun pulled => ?_
  refine bind (of_silent fun s x => ⟨rfl, .refl s⟩) fun a => ?_
  exact bind (of_silent fun s x => ⟨rfl, .refl s⟩) fun _ => pure a

open Control

theorem openLink (target : Target) : Mirrored own hs X (openLink r.helpers target : Pass σ Unit) :=
  bind (of_oblivious (.targetUrl r.helpers target)) fun _ => write _

omit [Component σ] in
theorem openForm : Mirrored own hs X (openForm : Pass σ Unit) := bind (of_oblivious .url) fun _ => write _

theorem visitString (value : Binding) (escape whenEmpty : Option Binding) :
    Mirrored own hs X (visitString r.helpers value escape whenEmpty .render : Pass σ (Found σ)) := by
  have hw : ∀ text, Mirrored own hs X (do
      if ← Pass.evaluateFlag r.helpers escape true then Pass.write (Text.htmlEscape text)
      else Pass.write text : Pass σ Unit) := fun text =>
    bind (of_oblivious (.evaluateFlag r.helpers _ _)) fun b => by cases b <;> exact write _
  refine ofPass (bind (of_oblivious (.evaluateText r.helpers _)) fun text => ?_)
  dsimp only
  split
  · split
    · exact bind (of_oblivious (.evaluateText r.helpers _)) fun text => hw text
    · exact hw text
  · exact hw text

theorem visitTextField (value : Binding) (name : Option Binding) :
    Mirrored own hs X (visitTextField r.helpers value name .render : Pass σ (Found σ)) :=
  ofPass (bind (of_oblivious (.fieldName r.helpers name)) fun _ =>
    bind (of_oblivious (.evaluateText r.helpers value)) fun _ => write _)

theorem visitSubmitButton (action value : Option Binding) :
    Mirrored own hs X (visitSubmitButton r action value .render) := by
  refine ofPass (get (fun s => ?_) fun _ _ => rfl)
  cases value with
  | none => exact bind (pure _) fun _ => write _
  | some b => exact bind (of_oblivious (.evaluateText r.helpers b)) fun _ => write _

theorem visitWidget (w : Widget) (bs : Bindings) : Mirrored own hs X (visitWidget r w bs .render) :=
  ofPass (get (fun _ => write _) fun _ _ => rfl)

theorem visitHyperlink (target : Target) (label : Option Binding) {content : Pass σ (Found σ)}
    (h : Mirrored own hs X content) : Mirrored own hs X (visitHyperlink r target label content .render) := by
  refine ofPass (bind (openLink target) fun _ => ?_)
  cases label with
  | some b => exact bind (of_oblivious (.evaluateText r.helpers b)) fun _ => bind (write _) fun _ => write _
  | none => exact bind h fun _ => write _

theorem visitForm (action : Option Binding) {content : Pass σ (Found σ)} (h : Mirrored own hs X content) :
    Mirrored own hs X (visitForm r action content .render) :=
  ofPass (bind openForm fun _ => bind (inForm h) fun _ => write _)

theorem rounds (item index : Option KeyPath) {body : Pass σ (Found σ)} (h : Mirrored own hs X body)
    (items : List Value) (i : Nat) : Mirrored own hs X (rounds item index body i items) := by
  induction items generalizing i with
  | nil => exact pure none
  | cons v rest ih =>
    refine bind (of_oblivious (.setRound item index i v)) fun _ => bind h fun found => ?_
    cases found with
    | some o => exact pure _
    | none => exact bind toNext fun _ => ih (i + 1)

theorem visitRepetition (list : Binding) (item index : Option KeyPath) {content : Option (Pass σ (Found σ))}
    (h : ∀ p ∈ content, Mirrored own hs X p) :
    Mirrored own hs X (visitRepetition r.helpers list item index content .render) := by
  cases content with
  | none => exact pure none
  | some body =>
    exact bind (of_oblivious (.listItems r.helpers list)) fun items => below (rounds item index (h body rfl) items 0)

theorem visitConditional (condition : Binding) (negate : Option Binding) {content : Pass σ (Found σ)}
    (h : Mirrored own hs X content) : Mirrored own hs X (visitConditional r.helpers condition negate content) := by
  refine bind (of_oblivious (.isShown r.helpers condition negate)) fun b => ?_
  cases b with
  | false => exact pure none
  | true => exact h

end Pass.Mirrored

/-! ## Update containers -/

section Containers

open Control

variable {hs : Http.Headers} {X : String} {s t : Scene σ} {x : Http.Response}

/-- The whole page is shown wherever it goes on. -/
theorem Twin.mute_whole (hwhole : s.context.requestedContainer = none) (hloud : s.response.muted = false) :
    s.mute = s := by
  obtain ⟨c, templates, page, frames, ⟨status, headers, content, cookies, muted⟩, events⟩ := s
  obtain rfl : muted = false := hloud
  have hshow : c.shouldRender = true := by
    simp only [Context.shouldRender, hwhole]
  simp [Scene.mute, hshow, Http.Response.setMuted]

theorem Scene.mute_asked (hX : hs.get? Context.updateHeader = some X) (s : Scene σ) (x : Http.Response) :
    (s.asked hs x).mute = s.asked hs (x.setMuted !s.context.containers.contains X) := by
  have hasked : (s.asked hs x).context.requestedContainer = some X := hX
  have hshow : (s.asked hs x).context.shouldRender = s.context.containers.contains X := by
    simp only [Context.shouldRender, hasked]
    rfl
  rw [Scene.mute, hshow]
  rfl

/-- Another container comes around the element, or the innermost one ends. -/
theorem Twin.around (h : Twin X s x) {f : Context → Context} (hf : ∀ c : Context, (f c).request = c.request) :
    Twin X (s.mapContext f) (x.setMuted !(f s.context).containers.contains X) := by
  refine ⟨?_, h.loud, rfl⟩
  rw [Context.requestedContainer, Scene.mapContext_context, hf]
  exact h.whole

/-- A tag that is written by the container whose output it is. -/
theorem Gains.tag (h : Twin X s x) (text : String) :
    ∃ w, (s.response.write text).content = s.response.content ++ w ∧
      (x.write text).content = x.content ++ (if X ∈ s.context.containers then w else .empty) := by
  have hgain : Gains True X s x _ _ := .write h text
  obtain ⟨w, w', hw, hw', hin, hout⟩ := hgain.grown
  refine ⟨w, hw, ?_⟩
  rw [hw']
  split
  · rename_i hX
    rw [hin hX]
  · rename_i hX
    rw [hout trivial hX]

variable [Component σ]

/-- What the element of a container is called. -/
def elementName? (h : Helpers) (elementName : Option Binding) (state : σ) : Except Failure String :=
  match elementName with
  | some b => ((b.valueIn h state).mapError Failure.helper).map Value.text
  | none => .ok "div"

/-- The scene in which the start tag of a container has been written. -/
def Scene.opened (s : Scene σ) (id name : String) : Scene σ :=
  let t := (s.mapContext (·.enterContainer id)).mute
  { t with response := t.response.write (Text.tag name [("id", some id)] false) }

theorem on_openContainer_eq (h : Helpers) (id : Binding) (elementName : Option Binding) (s : Scene σ) :
    (openContainer h id elementName).on s = match id.valueIn h s.current.state with
      | .error e => (.error (.helper e), s)
      | .ok v => match elementName? h elementName s.current.state with
        | .error e => (.error e, s)
        | .ok name => (.ok name, s.opened v.text name) := by
  rw [openContainer, Pass.on_bind, Pass.on_evaluateText]
  rcases id.valueIn h s.current.state with e | v
  · rfl
  cases elementName with
  | none => rfl
  | some b =>
    simp only [mapError_ok, Except.map, elementName?, Pass.on_bind, Pass.on_evaluateText]
    rcases b.valueIn h s.current.state with e | n <;> rfl

omit [Component σ] in
theorem opened_mirrored (hX : hs.get? Context.updateHeader = some X) (ht : Twin X s x) (id name : String) :
    ∃ y, (s.asked hs x).opened id name = (s.opened id name).asked hs y ∧ Twin X (s.opened id name) y ∧
      (s.opened id name).context.containers = id :: s.context.containers ∧
      ∃ w, (s.opened id name).response.content = s.response.content ++ w ∧
        y.content = x.content ++ (if X ∈ id :: s.context.containers then w else .empty) := by
  have henter := ht.around (f := (·.enterContainer id)) fun _ => rfl
  have hmute := Twin.mute_whole henter.whole henter.loud
  have hasked : (s.asked hs x).opened id name = ({ s.mapContext (·.enterContainer id) with
      response := (s.mapContext (·.enterContainer id)).response.write (Text.tag name [("id", some id)] false) } :
      Scene σ).asked hs
        ((x.setMuted !(id :: s.context.containers).contains X).write (Text.tag name [("id", some id)] false)) := by
    rw [Scene.opened, Scene.asked_mapContext hs x s (·.enterContainer id) fun _ => rfl, Scene.mute_asked hX]
    rfl
  have hgain : Gains True X _ _ _ _ := .write henter (Text.tag name [("id", some id)] false)
  rw [hasked, Scene.opened, hmute]
  exact ⟨_, rfl, hgain.twin, rfl, Gains.tag henter _⟩

omit [Component σ] in
theorem closeContainer_mirrored (hX : hs.get? Context.updateHeader = some X) (ht : Twin X s x) (name : String) :
    ∃ y, closeContainer name (s.asked hs x) = (closeContainer name s).asked hs y ∧
      Twin X (closeContainer name s) y ∧
      (closeContainer name s).context.containers = s.context.containers.tail ∧
      ∃ w, (closeContainer name s).response.content = s.response.content ++ w ∧
        y.content = x.content ++ (if X ∈ s.context.containers then w else .empty) := by
  have hgain : Gains True X s x _ _ := .write ht ("</" ++ name ++ ">")
  have hwritten := hgain.twin
  have hleft := hwritten.around (f := Context.leaveContainer) fun _ => rfl
  have hmute : closeContainer name s =
      ({ s with response := s.response.write ("</" ++ name ++ ">") } : Scene σ).mapContext Context.leaveContainer :=
    Twin.mute_whole hleft.whole hleft.loud
  refine ⟨_, ?_, hmute ▸ hleft, by rw [hmute]; rfl, ?_⟩
  · rw [hmute, closeContainer]
    exact Scene.mute_asked hX (({ s with response := s.response.write ("</" ++ name ++ ">") } : Scene σ).mapContext
      Context.leaveContainer) (x.write ("</" ++ name ++ ">"))
  · rw [hmute]
    exact Gains.tag ht _

/-- A container and its content: where the second request asks for this container, or for one around
    it, it gets the same text. -/
theorem container_gains (hX : hs.get? Context.updateHeader = some X) (h : Helpers) (id : Binding)
    (elementName : Option Binding) {content : Pass σ (Found σ)} (hc : content.Mirrored False hs X) (ht : Twin X s x) :
    let p := visitUpdateContainer h id elementName content .render
    ∃ y, p.on (s.asked hs x) = ((p.on s).1, (p.on s).2.asked hs y) ∧ Gains False X s x (p.on s).2 y ∧
      ((∃ v, id.valueIn h s.current.state = .ok v ∧ v.text = X) →
        ∃ w, (p.on s).2.response.content = s.response.content ++ w ∧ y.content = x.content ++ w) := by
  intro p
  have hrefl : ∃ w, s.response.content = s.response.content ++ w ∧ x.content = x.content ++ w :=
    ⟨.empty, by simp, by simp⟩
  simp only [p, Control.visitUpdateContainer, Pass.on_bind, on_openContainer_eq, Scene.asked_current]
  rcases id.valueIn h s.current.state with e | v
  · exact ⟨x, rfl, .refl ht, fun _ => hrefl⟩
  dsimp only
  rcases elementName? h elementName s.current.state with e | name
  · exact ⟨x, rfl, .refl ht, fun _ => hrefl⟩
  obtain ⟨y, hy, hty, hin, w₁, hw₁, hw₁'⟩ := opened_mirrored hX ht v.text name
  obtain ⟨z, hz, hgain⟩ := hc (s.opened v.text name) y hty
  obtain ⟨a, ha, hta, hout, w₃, hw₃, hw₃'⟩ := closeContainer_mirrored hX hgain.twin name
  obtain ⟨w₂, w₂', hw₂, hw₂', hsame, -⟩ := hgain.grown
  dsimp only
  rw [hy, Pass.on_ensuring, Pass.on_ensuring, hz]
  dsimp only
  rw [ha]
  rw [hgain.containers, hin] at hw₃'
  rw [hin] at hsame
  have hwhole : (closeContainer name (content.on (s.opened v.text name)).2).response.content =
      s.response.content ++ (w₁ ++ (w₂ ++ w₃)) := by
    rw [hw₃, hw₂, hw₁, ByteArray.append_assoc, ByteArray.append_assoc]
  have hinside : X ∈ v.text :: s.context.containers → a.content = x.content ++ (w₁ ++ (w₂ ++ w₃)) := by
    intro hX'
    rw [hw₃', hw₂', hw₁', if_pos hX', if_pos hX', hsame hX', ByteArray.append_assoc, ByteArray.append_assoc]
  refine ⟨a, rfl, ⟨hta, ?_, ?_⟩, fun hv => ⟨_, hwhole, hinside ?_⟩⟩
  · rw [hout, hgain.containers, hin]
    rfl
  · by_cases hX' : X ∈ v.text :: s.context.containers
    · exact ⟨_, _, hwhole, hinside hX', fun _ => rfl, fun h => h.elim⟩
    · refine ⟨_, w₂', hwhole, ?_, fun hin' => absurd (List.mem_cons_of_mem _ hin') hX', fun h => h.elim⟩
      rw [hw₃', hw₂', hw₁', if_neg hX', if_neg hX', ByteArray.append_empty, ByteArray.append_empty]
  · obtain ⟨v', hv', rfl⟩ := hv
    cases hv'
    exact List.mem_cons_self

end Containers

/-! ## Traversals -/

namespace Pass.Mirrored

variable [Component σ] {r : Registry σ} {hs : Http.Headers} {X : String}

theorem visitControl (hX : hs.get? Context.updateHeader = some X) (c : Control)
    {run : Element → Pass σ (Found σ)} (hrun : ∀ e, Mirrored False hs X (run e))
    {content : Option (Pass σ (Found σ))} (h : ∀ p ∈ content, Mirrored False hs X p) :
    Mirrored False hs X (c.visit r run .render content) := by
  have hi : Mirrored False hs X (content.getD Walk.nothing) := by
    cases content with
    | none => exact pure none
    | some p => exact h p rfl
  cases c with
  | string value escape whenEmpty => exact visitString value escape whenEmpty
  | textField value name => exact visitTextField value name
  | hyperlink target label => exact visitHyperlink target label hi
  | form action => exact visitForm (r := r) action hi
  | submitButton action value => exact visitSubmitButton action value
  | repetition list item index => exact visitRepetition list item index h
  | conditional condition negate => exact visitConditional condition negate hi
  | componentContent => exact inParent none hrun
  | updateContainer id name =>
    intro s x ht
    obtain ⟨y, hy, hgain, -⟩ := container_gains hX r.helpers id name hi ht
    exact ⟨y, hy, hgain⟩
  | widget typeName tag bindings =>
    simp only [Control.visit]
    split
    · exact visitWidget _ bindings
    · exact pure none

mutual

theorem visitWith (hX : hs.get? Context.updateHeader = some X) {run : Element → Pass σ (Found σ)}
    (hrun : ∀ e, Mirrored False hs X (run e)) :
    ∀ e : Element, Mirrored False hs X (e.visitWith r run .render)
  | .text s => ofPass (write s)
  | .group _ children => below (visitAll hX hrun children)
  | .component _ name bs content => enter name bs content hrun
  | .control c content => visitControl hX c hrun (visitContent hX hrun content)

theorem visitAll (hX : hs.get? Context.updateHeader = some X) {run : Element → Pass σ (Found σ)}
    (hrun : ∀ e, Mirrored False hs X (run e)) :
    ∀ es : List Element, Mirrored False hs X (Element.visitAll r run .render es)
  | [] => pure none
  | e :: rest => by
    refine bind (visitWith hX hrun e) fun found => ?_
    cases found with
    | some o => exact pure _
    | none => exact bind toNext fun _ => visitAll hX hrun rest

theorem visitContent (hX : hs.get? Context.updateHeader = some X) {run : Element → Pass σ (Found σ)}
    (hrun : ∀ e, Mirrored False hs X (run e)) :
    ∀ content : Option Element, ∀ p ∈ Element.visitContent r run .render content, Mirrored False hs X p
  | none, _, h => by cases h
  | some e, _, h => by
    cases h
    exact visitWith hX hrun e

end

/-- To show an element does the same for both requests. -/
theorem visit (hX : hs.get? Context.updateHeader = some X) (depth : Nat) (e : Element) :
    Mirrored False hs X (e.visit r .render depth) := by
  induction depth generalizing e with
  | zero => exact throw _
  | succ n ih => exact visitWith hX (fun e => ih e) e

end Pass.Mirrored

end PageServer
