/-
  PageServer.Proofs.Balance — every traversal ends where it began.

  `Returns s t` says that the cursor, the stack of components and what encloses the element are in
  `t` as they were in `s`. It holds between the ends of every traversal (`returns`), so a walk
  comes to the elements of one level at ids that differ in the last index alone
  (`visitAll_passed`, `rounds_passed`).
-/

import PageServer.Proofs.Kept

namespace PageServer

variable {σ : Type}

/-- What a frame says of its place, whatever has become of the component. -/
def Frame.place (f : Frame σ) : String × Option Element := (f.key, f.content)

/-- The places of the components on the stack, innermost first. -/
def Scene.places (s : Scene σ) : List (String × Option Element) := s.frames.map Frame.place

/-- The context id that the response goes by, taken yet or not. -/
def Context.pageId (c : Context) : String := c.contextId.getD (toString c.contextIdCount)

theorem Context.takeContextId_fst (c : Context) : c.takeContextId.1 = c.pageId := by
  unfold takeContextId pageId
  cases c.contextId <;> rfl

theorem Context.url_eq (c : Context) : c.url.1 = Address.url ⟨c.pageId, c.elementId⟩ := by
  unfold Context.url Context.takeContextId Context.pageId
  cases c.contextId <;> rfl

structure Returns (s t : Scene σ) : Prop where
  elementId : t.context.elementId = s.context.elementId
  sender : t.context.sender = s.context.sender
  request : t.context.request = s.context.request
  containers : t.context.containers = s.context.containers
  /-- A form that is left leaves no mark, and one that is nested takes away that of the outer one. -/
  inForm : t.context.inForm = true → s.context.inForm = true
  places : t.places = s.places
  pageId : t.context.pageId = s.context.pageId

namespace Returns

theorem refl (s : Scene σ) : Returns s s := ⟨rfl, rfl, rfl, rfl, id, rfl, rfl⟩

theorem trans {s t u : Scene σ} (h : Returns s t) (h' : Returns t u) : Returns s u :=
  ⟨h'.elementId.trans h.elementId, h'.sender.trans h.sender, h'.request.trans h.request,
    h'.containers.trans h.containers, fun hu => h.inForm (h'.inForm hu), h'.places.trans h.places,
    h'.pageId.trans h.pageId⟩

end Returns

@[simp] theorem Scene.places_withCurrent (s : Scene σ) (i : Instance σ) : (s.withCurrent i).places = s.places := by
  unfold Scene.withCurrent Scene.places
  rcases s.frames with _ | ⟨f, rest⟩
  · rfl
  · simp [Frame.place]

@[simp] theorem Scene.places_pushed (s : Scene σ) (key : String) (child : Instance σ)
    (content : Option Element) : (s.pushed key child content).places = (key, content) :: s.places := by
  have h : (s.without key).places = s.places := s.places_withCurrent _
  rw [← h]
  rfl

theorem Returns.withCurrent (s : Scene σ) (i : Instance σ) : Returns s (s.withCurrent i) := by
  refine ⟨?_, ?_, ?_, ?_, ?_, s.places_withCurrent i, ?_⟩ <;> simp

/-- `t` is `n` positions further on the same level than `s`. -/
structure Beside (n : Nat) (s t : Scene σ) : Prop where
  elementId : ∀ base k, s.context.elementId.indices = base ++ [k] →
    t.context.elementId.indices = base ++ [k + n]
  sender : t.context.sender = s.context.sender
  request : t.context.request = s.context.request
  containers : t.context.containers = s.context.containers
  inForm : t.context.inForm = true → s.context.inForm = true
  places : t.places = s.places
  pageId : t.context.pageId = s.context.pageId

namespace Beside

theorem refl (s : Scene σ) : Beside 0 s s := ⟨fun _ _ h => h, rfl, rfl, rfl, id, rfl, rfl⟩

theorem returns {n : Nat} {s t u : Scene σ} (h : Beside n s t) (h' : Returns t u) : Beside n s u :=
  ⟨fun base k hs => h'.elementId ▸ h.elementId base k hs, h'.sender.trans h.sender,
    h'.request.trans h.request, h'.containers.trans h.containers, fun hu => h.inForm (h'.inForm hu),
    h'.places.trans h.places, h'.pageId.trans h.pageId⟩

theorem next {n : Nat} {s t : Scene σ} (h : Beside n s t) : Beside (n + 1) s (t.mapContext Context.next) := by
  refine ⟨fun base k hs => ?_, h.sender, h.request, h.containers, h.inForm, h.places, h.pageId⟩
  simp [Context.next, ElementId.next, h.elementId base k hs, Nat.add_assoc]

theorem trans {m n : Nat} {s t u : Scene σ} (h : Beside m s t) (h' : Beside n t u) : Beside (m + n) s u := by
  refine ⟨fun base k hs => ?_, h'.sender.trans h.sender, h'.request.trans h.request,
    h'.containers.trans h.containers, fun hu => h.inForm (h'.inForm hu), h'.places.trans h.places,
    h'.pageId.trans h.pageId⟩
  rw [h'.elementId base _ (h.elementId base k hs), Nat.add_assoc]

end Beside

theorem Along.beside {s t : Scene σ} (h : Along Returns s t) : ∃ n, Beside n s t := by
  induction h with
  | refl => exact ⟨0, .refl s⟩
  | visit _ hr ih =>
    obtain ⟨n, hn⟩ := ih
    exact ⟨n, hn.returns hr⟩
  | next _ ih =>
    obtain ⟨n, hn⟩ := ih
    exact ⟨n + 1, hn.next⟩

theorem returns_plain [Component σ] : Plain (@Returns σ) where
  refl := .refl
  trans := .trans
  sets s es _ := ⟨rfl, rfl, rfl, rfl, id, rfl, rfl⟩
  takes s _ _ _ _ := .withCurrent s _
  response s x := ⟨rfl, rfl, rfl, rfl, id, rfl, rfl⟩
  url s := by
    have h : ∀ c : Context, c.url.2.elementId = c.elementId ∧ c.url.2.sender = c.sender ∧
        c.url.2.request = c.request ∧ c.url.2.containers = c.containers ∧ c.url.2.inForm = c.inForm ∧
        c.url.2.pageId = c.pageId := by
      intro c
      simp only [Context.url, Context.pageId, Context.takeContextId]
      rcases hc : c.contextId <;> simp [hc, Context.nextContextId]
    obtain ⟨h1, h2, h3, h4, h5, h6⟩ := h s.context
    exact ⟨h1, h2, h3, h4, fun hf => h5 ▸ hf, rfl, h6⟩

theorem returns_kept [Component σ] (r : Registry σ) : Kept r (@Returns σ) where
  toPlain := returns_plain
  performs s _ := .trans (.withCurrent s _) ⟨rfl, rfl, rfl, rfl, id, rfl, rfl⟩
  templates _ _ _ _ := ⟨rfl, rfl, rfl, rfl, id, rfl, rfl⟩
  level s t h := by
    obtain ⟨n, hn⟩ := h.beside
    refine ⟨?_, hn.sender, hn.request, hn.containers, hn.inForm, hn.places, hn.pageId⟩
    simp [Context.up, ElementId.up, hn.elementId s.context.elementId.indices 0 rfl]
  form s t h := ⟨h.elementId, h.sender, h.request, h.containers, nofun, h.places, h.pageId⟩
  container s id t h := by
    refine ⟨h.elementId, h.sender, h.request, ?_, h.inForm, h.places, h.pageId⟩
    simpa [Context.leaveContainer, Context.enterContainer] using congrArg List.tail h.containers
  refused s key child := (Returns.withCurrent s _).trans (.withCurrent _ _)
  left s key child content t h := by
    have hp : t.places = (key, content) :: s.places := h.places.trans (s.places_pushed key child content)
    have hc : (s.pushed key child content).context = s.context := s.without_context key
    constructor
    · intro hnil
      simp [Scene.places, hnil] at hp
    · intro f rest hf u hu
      have hrest : rest.map Frame.place = s.places := by
        simp only [Scene.places, hf, List.map_cons, List.cons.injEq] at hp
        exact hp.2
      refine Returns.trans ⟨?_, ?_, ?_, ?_, ?_, ?_, ?_⟩ (.withCurrent _ _)
      · rw [hu.elementId, h.elementId, hc]
      · rw [hu.sender, h.sender, hc]
      · rw [hu.request, h.request, hc]
      · rw [hu.containers, h.containers, hc]
      · exact fun hform => hc ▸ h.inForm (hu.inForm hform)
      · exact hu.places.trans hrest
      · rw [hu.pageId, h.pageId, hc]
  aside s f rest t hf h := by
    refine ⟨h.elementId, h.sender, h.request, h.containers, h.inForm, ?_, h.pageId⟩
    have := h.places
    simp only [Scene.places, List.map_cons] at this ⊢
    rw [this, hf, List.map_cons]

variable [Component σ] {r : Registry σ}

/-- Every traversal ends where it began. -/
theorem returns (r : Registry σ) (phase : Phase) (depth : Nat) (e : Element) (s : Scene σ) :
    Returns s ((e.visit r phase depth).on s).2 := (returns_kept r).visit phase depth e s

/-! ## Past the elements of a level -/

/-- A walk over children goes on after the first ones if it passes them. -/
theorem visitAll_append (run : Element → Pass σ (Found σ)) (phase : Phase) (xs ys : List Element)
    (s : Scene σ) :
    (Element.visitAll r run phase (xs ++ ys)).on s = match (Element.visitAll r run phase xs).on s with
      | (.ok none, t) => (Element.visitAll r run phase ys).on t
      | o => o := by
  induction xs generalizing s with
  | nil => rfl
  | cons e rest ih =>
    simp only [List.cons_append, Pass.on_visitAll_cons]
    rcases (Walk.part phase (e.visitWith r run phase)).on s with ⟨_ | _ | o, t⟩
    · rfl
    · exact ih _
    · rfl

theorem rounds_append (item index : Option KeyPath) (body : Pass σ (Found σ)) (i : Nat)
    (xs ys : List Value) (s : Scene σ) :
    (Control.rounds item index body i (xs ++ ys)).on s =
      match (Control.rounds item index body i xs).on s with
      | (.ok none, t) => (Control.rounds item index body (i + xs.length) ys).on t
      | o => o := by
  induction xs generalizing i s with
  | nil => rfl
  | cons v rest ih =>
    simp only [List.cons_append, Pass.on_rounds_cons]
    rcases (Control.setRound item index i v).on s with ⟨_ | _, t⟩
    · rfl
    · dsimp only
      rcases body.on t with ⟨_ | _ | o, u⟩
      · rfl
      · simp only [ih, List.length_cons, Nat.add_right_comm, Nat.add_assoc]
      · rfl

/-- One more child after those that were passed. -/
theorem visitAll_snoc {run : Element → Pass σ (Found σ)} {phase : Phase} {xs : List Element} {s t : Scene σ}
    (h : (Element.visitAll r run phase xs).on s = (.ok none, t)) (e : Element) :
    (Element.visitAll r run phase (xs ++ [e])).on s =
      match (Walk.part phase (e.visitWith r run phase)).on t with
      | (.ok none, u) => (.ok none, u.mapContext Context.next)
      | o => o := by
  rw [visitAll_append, h]
  dsimp only
  rw [Pass.on_visitAll_cons]
  rcases (Walk.part phase (e.visitWith r run phase)).on t with ⟨_ | _ | o, u⟩ <;> rfl

/-- One more round after those that were passed. -/
theorem rounds_snoc {item index : Option KeyPath} {body : Pass σ (Found σ)} {xs : List Value} {s t u : Scene σ}
    (h : (Control.rounds item index body 0 xs).on s = (.ok none, t)) {y : Value}
    (hset : (Control.setRound item index xs.length y).on t = (.ok (), u)) :
    (Control.rounds item index body 0 (xs ++ [y])).on s =
      match body.on u with
      | (.ok none, x) => (.ok none, x.mapContext Context.next)
      | o => o := by
  rw [rounds_append, h]
  dsimp only
  rw [Nat.zero_add, Pass.on_rounds_cons, hset]
  dsimp only
  rcases body.on u with ⟨_ | _ | o, x⟩ <;> rfl

theorem visitAll_passed {run : Element → Pass σ (Found σ)} (hrun : ∀ e, Pass.Within Returns (run e))
    {phase : Phase} {xs : List Element} {s t : Scene σ}
    (h : (Element.visitAll r run phase xs).on s = (.ok none, t)) : Beside xs.length s t := by
  induction xs generalizing s with
  | nil =>
    cases h
    exact .refl t
  | cons e rest ih =>
    rw [Pass.on_visitAll_cons] at h
    have hp := Pass.Within.part returns_plain ((returns_kept r).visitWith hrun phase e) phase s
    rcases hu : (Walk.part phase (e.visitWith r run phase)).on s with ⟨_ | _ | o, u⟩ <;> rw [hu] at h hp
    · cases h
    · have hnext := ((Beside.refl s).returns hp).next.trans (ih h)
      rwa [Nat.zero_add, Nat.add_comm] at hnext
    · cases h

theorem rounds_passed {item index : Option KeyPath} {body : Pass σ (Found σ)}
    (hbody : Pass.Within Returns body) {i : Nat} {xs : List Value} {s t : Scene σ}
    (h : (Control.rounds item index body i xs).on s = (.ok none, t)) : Beside xs.length s t := by
  induction xs generalizing i s with
  | nil =>
    cases h
    exact .refl t
  | cons v rest ih =>
    rw [Pass.on_rounds_cons] at h
    have hset := Pass.Within.setRound returns_plain item index i v s
    rcases hu : (Control.setRound item index i v).on s with ⟨_ | _, u⟩ <;> rw [hu] at h hset
    · cases h
    · have hb := hbody u
      rcases hw : body.on u with ⟨_ | _ | o, w⟩ <;> simp only [hw] at h hb
      · cases h
      · have hnext := (((Beside.refl s).returns hset).returns hb).next.trans (ih h)
        rwa [Nat.zero_add, Nat.add_comm] at hnext
      · cases h

end PageServer
