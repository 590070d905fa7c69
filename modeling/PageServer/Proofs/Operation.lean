/-
  PageServer.Proofs.Operation — how an application comes about, and what it comes to.

  An application begins with what is built in. Then types, helpers, direct actions and routes are
  registered, templates are compiled ahead of their use and requests are handled, in any order
  (`Application.Grown`). Whatever the order, every template that is kept is the one its definition
  has now, and the components on the pages of all sessions are in states that they can get into
  (`Grown.consistent`).

  Once all templates could be compiled ahead, none is left to be compiled (`Consistent.warmUp`).
  Requests cannot change that, as they register nothing (`Handles.warm`).
-/

import PageServer.Proofs.Assured
import PageServer.Proofs.Runs

namespace PageServer

/-! ## Pages of all sessions -/

namespace Sessions

variable {α : Type} {P : α → Prop} {ss : Sessions α} {s : Session α}

/-- The pages of every session are as `P` says. -/
def All (P : α → Prop) (ss : Sessions α) : Prop := ∀ e ∈ ss.sessions, e.2.pages.All P

namespace All

variable (h : ss.All P)
include h

theorem imp {P' : α → Prop} (himp : ∀ p, P p → P' p) : ss.All P' := fun e he => (h e he).imp himp

theorem put (hs : s.pages.All P) : (ss.put s).All P := by
  intro e he
  rcases Assoc.mem_put he with rfl | he
  · exact hs
  · exact h e he

theorem expireIdle (now : Nat) : (ss.expireIdle now).2.All P := fun e he => h e (List.mem_filter.mp he).1

theorem opened (now : Nat) (id : String) : (ss.opened now id).pages.All P := by
  rcases hs : ss.get? id with _ | s
  · rw [opened_of_none hs]
    exact PageCache.all_ofCapacity _
  · rw [opened_of_get? hs]
    exact h _ (Assoc.mem_of_get? hs)

theorem getOrCreate (now : Nat) (id : String) : (ss.getOrCreate now id).2.All P := h.put (h.opened now id)

end All

end Sessions

variable {σ : Type}

/-! ## Applications -/

namespace Application

theorem compileAll_preserves {r : Registry σ} {P : Templates → Prop} (hP : r.Preserves P) {ds : List (Definition σ)}
    (hds : ∀ d ∈ ds, r.resolveComponent d.name = .ok d) {ts : Templates} (hts : P ts) : P (compileAll r ds ts).2 := by
  induction ds generalizing ts with
  | nil => exact hts
  | cons d ds ih =>
    have hnext := hP d.name d ts (hds d List.mem_cons_self) hts
    rw [compileAll]
    rcases hget : Templates.get r d ts with ⟨e | e, ts'⟩ <;> rw [hget] at hnext
    · exact hnext
    · exact ih (fun d hd => hds d (List.mem_cons_of_mem _ hd)) hnext

theorem compileAll_ok {r : Registry σ} {ds : List (Definition σ)}
    (hds : ∀ d ∈ ds, r.resolveComponent d.name = .ok d) {ts ts' : Templates} (h : compileAll r ds ts = (.ok (), ts')) :
    ∀ d ∈ ds, ∃ e, Assoc.get? d.name ts' = some e := by
  induction ds generalizing ts with
  | nil => exact List.forall_mem_nil _
  | cons d ds ih =>
    have hrest : ∀ d ∈ ds, r.resolveComponent d.name = .ok d := fun d hd => hds d (List.mem_cons_of_mem _ hd)
    rw [compileAll] at h
    rcases hget : Templates.get r d ts with ⟨e | e, next⟩ <;> rw [hget] at h
    · cases h
    · have hkept : Assoc.get? d.name next = some e := by
        rcases Templates.get_cases r d ts with ⟨e', he', hget'⟩ | ⟨e', -, -, hget'⟩ | ⟨e', hget'⟩ <;>
          rw [hget] at hget' <;> cases hget'
        · exact he'
        · exact Assoc.get?_put_self _ _ _
      refine List.forall_mem_cons.mpr ⟨⟨e, ?_⟩, ih hrest h⟩
      have hlater := compileAll_preserves (Templates.preserves_kept (r := r)) hrest hkept
      dsimp only at h
      rwa [h] at hlater

/-- The exchange that a request begins with if it is given to an element at once. -/
def dispatching (app : Application σ) (a : Arrival) : Exchange σ :=
  app.exchange (app.sessions.opened a.now a.session) a.errorId a.request

variable [Component σ] {app app' : Application σ}

/-- What is registered, what is kept and what is shown go together. -/
structure Consistent (app : Application σ) : Prop where
  sorted : Assoc.Sorted app.registry.types
  keyed : app.registry.Keyed
  templates : Templates.OfDefinitions app.registry app.templates
  pages : app.sessions.All (Instance.Made app.registry)

namespace Consistent

variable (h : app.Consistent)
include h

theorem register {name : String} {t : ElementType σ} {r : Registry σ} (ht : t.goesBy name = true)
    (hr : app.registry.register name t = .ok r) : ({ app with registry := r } : Application σ).Consistent := by
  have hpart : app.registry.PartOf r := Registry.partOf_register hr
  refine ⟨?_, h.keyed.register ht hr, h.templates.partOf hpart, h.pages.imp fun _ hp => hp.partOf hpart⟩
  obtain ⟨-, rfl⟩ := Registry.register_eq_ok hr
  exact h.sorted.put name t

theorem registerHelper {name : String} {f : Helper} {r : Registry σ} (hr : app.registry.registerHelper name f = .ok r) :
    ({ app with registry := r } : Application σ).Consistent := by
  obtain ⟨hpart, htypes⟩ := Registry.partOf_registerHelper hr
  refine ⟨show Assoc.Sorted r.types from htypes ▸ h.sorted, fun name d hd => h.keyed name d ?_, h.templates.partOf hpart,
    h.pages.imp fun _ hp => hp.partOf hpart⟩
  rw [Registry.resolveComponent_eq_ok] at hd ⊢
  rwa [htypes] at hd

theorem definition_of_mem : ∀ d ∈ app.registry.definitions, app.registry.resolveComponent d.name = .ok d := fun _ hd =>
  Registry.resolveComponent_of_mem h.keyed h.sorted hd

variable (a : Arrival)

theorem remaining : (app.remaining a).All (Instance.Made app.registry) := by
  rcases app.remaining_cases a with he | he <;> rw [he]
  · exact h.pages
  · exact h.pages.expireIdle a.now

variable {warm : Prop} (hwarm : warm → Templates.Complete app.registry app.templates)
include hwarm

theorem dispatching : (app.dispatching a).Ready app.registry warm := ⟨hwarm, h.pages.opened a.now a.session⟩

theorem incoming : (app.incoming a).Ready app.registry warm := ⟨hwarm, (h.remaining a).opened a.now a.session⟩

end Consistent

/-- What happens to an application between registrations. -/
inductive Handles : Application σ → Application σ → Prop
  | serve (app : Application σ) (a : Arrival) : Handles app (app.serve a)
  | dispatch (app : Application σ) (a : Arrival) : Handles app (app.dispatch a.now a.session a.errorId a.request).2
  | warmUp (app : Application σ) : Handles app app.warmUp.2

/-- Nothing is registered in it. -/
theorem Handles.same (h : app.Handles app') : app'.registry = app.registry := by
  cases h <;> rfl

theorem Handles.templates (h : app.Handles app') (hc : app.Consistent) {P : Templates → Prop}
    (hP : app.registry.Preserves P) (hts : P app.templates) : P app'.templates := by
  cases h with
  | serve a => exact respond_templates hP hts
  | dispatch a => exact (preserving hP).dispatch _ hts
  | warmUp => exact compileAll_preserves hP hc.definition_of_mem hts

/-- The pages of all sessions stay as they can be. -/
theorem Handles.pages (h : app.Handles app') (hc : app.Consistent) :
    app'.sessions.All (Instance.Made app.registry) := by
  cases h with
  | serve a =>
    have hresponded := (hc.incoming a False.elim).respond hc.keyed
    exact ((hc.remaining a).getOrCreate a.now a.session).put hresponded.pages
  | dispatch a =>
    have hdispatched := (Dispatch.respond_assured hc.keyed _ (hc.dispatching a False.elim)).1
    exact (hc.pages.getOrCreate a.now a.session).put hdispatched.pages
  | warmUp => exact hc.pages

theorem Handles.consistent (h : app.Handles app') (hc : app.Consistent) : app'.Consistent := by
  have hregistry := h.same
  refine ⟨hregistry ▸ hc.sorted, hregistry ▸ hc.keyed, ?_, ?_⟩ <;> rw [hregistry]
  · exact h.templates hc (Templates.preserves_ofDefinitions hc.keyed) hc.templates
  · exact h.pages hc

/-- The applications that there can be. -/
inductive Grown : Application σ → Prop
  | new (settings : Settings) : Grown (.new settings)
  | registerWidget {app app' : Application σ} {name : String} {w : Widget} (h : Grown app)
      (hnext : app.registerWidget name w = .ok app') : Grown app'
  | registerComponent {app app' : Application σ} {d : Definition σ} (h : Grown app)
      (hnext : app.registerComponent d = .ok app') : Grown app'
  | registerHelper {app app' : Application σ} {name : String} {f : Helper} (h : Grown app)
      (hnext : app.registerHelper name f = .ok app') : Grown app'
  | registerDirectAction {app app' : Application σ} {name : String} {action : DirectAction} (h : Grown app)
      (hnext : app.registerDirectAction name action = .ok app') : Grown app'
  | addRoute {app app' : Application σ} {path : String} {route : Route} (h : Grown app)
      (hnext : app.addRoute path route = .ok app') : Grown app'
  | addKey {app app' : Application σ} {key : String} {route : Route} (h : Grown app)
      (hnext : app.addKey key route = .ok app') : Grown app'
  | handles {app app' : Application σ} (h : Grown app) (hnext : app.Handles app') : Grown app'

theorem Grown.consistent (h : app.Grown) : app.Consistent := by
  induction h with
  | new settings =>
    exact ⟨Registry.sorted_builtin, Registry.keyed_builtin, fun _ _ he => (by cases he), List.forall_mem_nil _⟩
  | @registerWidget app _ name w _ hnext ih =>
    rw [Application.registerWidget] at hnext
    rcases hr : app.registry.register name (.widget w) with e | r <;> rw [hr] at hnext <;> cases hnext
    exact ih.register rfl hr
  | @registerComponent app _ d _ hnext ih =>
    rw [Application.registerComponent] at hnext
    rcases hr : app.registry.registerComponent d with e | r <;> rw [hr] at hnext <;> cases hnext
    have hgoes : (ElementType.component d).goesBy d.name = true := beq_self_eq_true d.name
    exact ih.register hgoes hr
  | @registerHelper app _ name f _ hnext ih =>
    rw [Application.registerHelper] at hnext
    rcases hr : app.registry.registerHelper name f with e | r <;> rw [hr] at hnext <;> cases hnext
    exact ih.registerHelper hr
  | @registerDirectAction app _ name action _ hnext ih =>
    rw [Application.registerDirectAction] at hnext
    rcases hr : app.directActions.insert name action with e | actions <;> rw [hr] at hnext <;> cases hnext
    exact ⟨ih.sorted, ih.keyed, ih.templates, ih.pages⟩
  | @addRoute app _ path route _ hnext ih =>
    rw [Application.addRoute] at hnext
    rcases hr : app.router.add path route with e | router <;> rw [hr] at hnext <;> cases hnext
    exact ⟨ih.sorted, ih.keyed, ih.templates, ih.pages⟩
  | @addKey app _ key route _ hnext ih =>
    unfold Application.addKey at hnext
    split at hnext
    · cases hnext
    · rcases hr : app.router.addKey key route with e | router <;> rw [hr] at hnext <;> cases hnext
      exact ⟨ih.sorted, ih.keyed, ih.templates, ih.pages⟩
  | handles _ hnext ih => exact hnext.consistent ih

/-- All templates are kept, under the names that there are. -/
structure Warm (app : Application σ) : Prop extends Consistent app where
  complete : Templates.Complete app.registry app.templates

theorem Handles.warm (h : app.Handles app') (hw : app.Warm) : app'.Warm := by
  refine ⟨h.consistent hw.toConsistent, ?_⟩
  rw [h.same]
  exact h.templates hw.toConsistent (Templates.preserves_complete hw.keyed) hw.complete

/-- If compiling all templates ahead ends well, then they are kept. -/
theorem Consistent.warmUp (hc : app.Consistent) {n : Nat} (hwarm : app.warmUp = (.ok n, app')) : app'.Warm := by
  have hafter := (Handles.warmUp app).consistent hc
  rw [hwarm] at hafter
  refine ⟨hafter, fun name d hd => ?_⟩
  rw [Application.warmUp] at hwarm
  rcases hall : compileAll app.registry app.registry.definitions app.templates with ⟨e | _, ts⟩ <;> rw [hall] at hwarm <;>
    cases hwarm
  obtain ⟨e, he⟩ := compileAll_ok hc.definition_of_mem hall d (Registry.mem_definitions hd)
  rw [hc.keyed name d hd] at he
  obtain ⟨d', hd', hcompile⟩ := hafter.templates name e he
  have hsame : d' = d := Except.ok.inj (hd'.symm.trans hd)
  exact ⟨e, he, hsame ▸ hcompile⟩

end Application

end PageServer
