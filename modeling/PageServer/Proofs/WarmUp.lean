/-
  PageServer.Proofs.WarmUp — what holds once all templates could be compiled ahead.

  `Application.warmUp` compiles the templates of all components. If that ends well, then no later
  request of any kind fails at a template (`warm_up_is_conclusive`): every template that a page can
  enter is kept (`Registry.Enters`), whatever is used in what, and every helper that a binding in it
  calls is registered. If a request ends in such a failure all the same (`Application.failure?`), then
  the code of the application gave it (`Application.Gives`), from a state that a component can get into:
  a component may refuse a value with any failure that there is, or a widget may ask for an action by a
  binding that was in no template.
-/

import Mathlib.Logic.Relation
import PageServer.Proofs.Operation

namespace PageServer

variable {σ : Type}

/-! ## Components that a page can enter -/

/-- The element, or one in it, is a use of the component `name`. -/
inductive Element.Uses (name : String) : Element → Prop
  | here {tag : String} {bs : Bindings} {content : Option Element} : Uses name (.component tag name bs content)
  | around {tag definition : String} {bs : Bindings} {e : Element} (h : Uses name e) :
      Uses name (.component tag definition bs (some e))
  | child {group : Option String} {children : List Element} {e : Element} (he : e ∈ children) (h : Uses name e) :
      Uses name (.group group children)
  | inside {c : Control} {e : Element} (h : Uses name e) : Uses name (.control c (some e))

/-- A page of the component `page` leads to the component `name`, through the templates of others. -/
inductive Registry.Enters (r : Registry σ) (page : String) : String → Prop
  | page : Enters r page page
  | uses {outer inner : String} {d : Definition σ} {e : Element} (h : Enters r page outer)
      (hd : r.resolveComponent outer = .ok d) (he : Template.compile r d.template d.declarations = .ok e)
      (huses : e.Uses inner) : Enters r page inner

theorem Element.Checked.resolves {r : Registry σ} {name : String} {e : Element} (huses : e.Uses name) (h : e.Checked r) :
    ∃ d, r.resolveComponent name = .ok d := by
  induction huses with
  | here => exact h.of_component.1
  | around _ ih => exact ih (h.of_component.2.2 _ rfl)
  | child he _ ih => exact ih (h.of_group _ he)
  | inside _ ih => exact ih (h.of_control.2 _ rfl)

/-- Whatever uses a component, there is one. -/
theorem Registry.Enters.resolves {r : Registry σ} (hk : r.Keyed) {page name : String} (h : r.Enters page name)
    {d : Definition σ} (hd : r.resolveComponent page = .ok d) : ∃ d, r.resolveComponent name = .ok d := by
  cases h with
  | page => exact ⟨d, hd⟩
  | uses _ _ he huses => exact (Template.checked_of_compile hk he).1.resolves huses

/-! ## The warm-up -/

section WarmUp

variable [Component σ]

/-- The template compiles, and a binding of a tag in it, nested however deep, calls registered helpers
    only: with any component, it is one of these that fails if evaluating the binding does. -/
def Definition.Clear (r : Registry σ) (d : Definition σ) : Prop :=
  (∃ e, Template.compile r d.template d.declarations = .ok e) ∧
    ∃ ds ts, Declarations.parse d.declarations = .ok ds ∧ Template.lex d.template.toList = .ok ts ∧
      ∀ tag ∈ Template.tagsOf ts, ∀ name declaration, Template.Opens ds tag name declaration →
        ∀ b ∈ declaration.bindings, b.2.Known r.helpers ∧ ∀ (x : σ) e, b.2.valueIn r.helpers x = .error e →
          ∃ called ∈ b.2.helperNames, ∃ helper arguments,
            Assoc.get? called r.helpers = some helper ∧ helper arguments = .error e

theorem Definition.clear_of_compile {r : Registry σ} (hk : r.Keyed) {d : Definition σ} {e : Element}
    (h : Template.compile r d.template d.declarations = .ok e) : d.Clear r := by
  obtain ⟨-, ds, ts, hds, hts, hsound⟩ := Template.checked_of_compile hk h
  refine ⟨⟨e, h⟩, ds, ts, hds, hts, fun tag htag name declaration hopens b hb => ?_⟩
  have hknown : b.2.Known r.helpers := Bindings.known_iff.mpr ((hsound tag htag).makes hopens).helpers b hb
  exact ⟨hknown, fun x e he => hknown.valueIn_error he⟩

/-- Nothing is left to be found wrong with a template. -/
structure Application.Conclusive (app : Application σ) : Prop where
  /-- Every template that a page can enter is kept and clear. -/
  entered : ∀ page d name, app.registry.resolveComponent page = .ok d → app.registry.Enters page name →
    app.isCompiled name = true ∧ ∃ d, app.registry.resolveComponent name = .ok d ∧ d.Clear app.registry
  /-- No request ends in a fault of a template. -/
  requests : ∀ (a : Arrival) f, app.failure? (app.incoming a) = some f → f.isFault = true → app.Gives f
  /-- Nor does a request that is given to an element at once. -/
  elements : ∀ (a : Arrival) phase f,
    (app.dispatch a.now a.session a.errorId a.request).1.1 = .error (.failed phase f) → f.isFault = true → app.Gives f

theorem Application.Warm.conclusive {app : Application σ} (h : app.Warm) : app.Conclusive where
  entered page d name hd henters := by
    obtain ⟨d', hd'⟩ := henters.resolves h.keyed hd
    obtain ⟨e, hget, hcompile⟩ := h.complete name d' hd'
    exact ⟨by rw [isCompiled, Assoc.contains, hget]; rfl, d', hd', Definition.clear_of_compile h.keyed hcompile⟩
  requests a f hf := (h.incoming a fun _ => h.complete).failure_harmless h.keyed hf trivial
  elements a phase f hf := by
    have hready : (app.dispatching a).Ready app.registry True := h.dispatching a fun _ => h.complete
    have hends := (Dispatch.respond_assured h.keyed _ hready).2
    have hrun : ((Dispatch.respond app.registry).run.run (app.dispatching a)).1 = .error (.failed phase f) := hf
    rw [hrun] at hends
    exact harmless_of_registry hends trivial

/-- Once all templates could be compiled ahead, there is nothing wrong with any of them that a later
    request could find, as long as nothing more is registered. -/
theorem warm_up_is_conclusive {app app' now : Application σ} {n : Nat} (h : app.Grown)
    (hwarm : app.warmUp = (.ok n, app')) (hlater : Relation.ReflTransGen Application.Handles app' now) :
    now.Conclusive := by
  have hnow : now.Warm := by
    induction hlater with
    | refl => exact h.consistent.warmUp hwarm
    | tail _ hnext ih => exact hnext.warm ih
  exact hnow.conclusive

/-- A component under a name that is free. -/
theorem Application.Grown.withComponent {app : Application σ} (h : app.Grown) {d : Definition σ}
    (hfree : Assoc.get? d.name app.registry.types = none) :
    ({ app with registry := { app.registry with types := Assoc.put d.name (.component d) app.registry.types } } :
      Application σ).Grown := by
  refine h.registerComponent (d := d) ?_
  rw [Application.registerComponent, Registry.registerComponent, Registry.register, hfree]
  rfl

end WarmUp

/-! ## Scripted components -/

/-- The built-in helpers call no others. -/
theorem Helper.isFault_of_builtin {name : String} {helper : Helper} {arguments : List Value} {e : HelperError}
    (hname : Assoc.get? name Helpers.builtin = some helper) (h : helper arguments = .error e) :
    (Failure.helper e).isFault = false := by
  have hunary : ∀ {n : String} {g : Value → Except HelperError Value}, helper = unary n g →
      (∀ v e, g v = .error e → (Failure.helper e).isFault = false) → (Failure.helper e).isFault = false := by
    rintro n g rfl hg
    unfold unary at h
    split at h
    · exact hg _ _ h
    · cases h
      rfl
  have hlength : ∀ v e, length v = .error e → (Failure.helper e).isFault = false := by
    intro v e he
    cases v <;> cases he <;> rfl
  have hnever : ∀ {g : Value → Value} (v e), (Except.ok (g v) : Except HelperError Value) = .error e →
      (Failure.helper e).isFault = false := by
    intro g v e he
    cases he
  have hmem : (name, helper) ∈ builtins := Assoc.mem_ofList (Assoc.mem_of_get? hname)
  simp only [builtins, List.mem_cons, Prod.mk.injEq, List.not_mem_nil, or_false] at hmem
  rcases hmem with ⟨-, hu⟩ | ⟨-, hu⟩ | ⟨-, hu⟩ | ⟨-, hu⟩ | ⟨-, hu⟩ | ⟨-, rfl⟩ | ⟨-, rfl⟩ | ⟨-, rfl⟩
  · exact hunary hu hnever
  · exact hunary hu hnever
  · exact hunary hu hnever
  · exact hunary hu hlength
  · exact hunary hu hnever
  · unfold binary at h
    split at h <;> cases h
    rfl
  · cases h
  · cases h

namespace Scripted

/-- No action of the component replies with a fault. -/
def Faultless (c : Scripted) : Prop :=
  ∀ a ∈ c.actions, ∀ f, Effect.reply (.error f) ∈ a.2 ∨ Effect.reply (.ok (.respond (.error f))) ∈ a.2 → f.isFault = false

theorem run_cases (effects : List Effect) (c : Scripted) :
    (run effects c).2.actions = c.actions ∧ ((run effects c).1 = .ok .stay ∨ .reply (run effects c).1 ∈ effects) := by
  induction effects generalizing c with
  | nil => exact ⟨rfl, .inl rfl⟩
  | cons e rest ih =>
    cases e with
    | reply r => exact ⟨rfl, .inr List.mem_cons_self⟩
    | add | set | push => exact (ih _).imp_right fun h => h.imp_right (List.mem_cons_of_mem _)

theorem Faultless.perform {c : Scripted} (h : c.Faultless) (action : String) :
    (c.perform action).2.Faultless ∧ ∀ f, (c.perform action).1 = .error f ∨
      (c.perform action).1 = .ok (.respond (.error f)) → f.isFault = false := by
  unfold Scripted.perform
  rcases hlookup : c.actions.lookup action with _ | effects
  · refine ⟨h, fun f hf => ?_⟩
    rcases hf with hf | hf <;> cases hf
    rfl
  · obtain ⟨before, after, hactions, -⟩ := List.lookup_eq_some_iff.mp hlookup
    have hmem : (action, effects) ∈ c.actions := hactions ▸ List.mem_append_right before List.mem_cons_self
    obtain ⟨hsame, hends⟩ := run_cases effects c
    refine ⟨fun a ha => h a (hsame ▸ ha), fun f hf => h _ hmem f ?_⟩
    rcases hends with hstay | hreply
    · rw [hstay] at hf
      rcases hf with hf | hf <;> cases hf
    · rcases hf with hf | hf
      · exact .inl (hf ▸ hreply)
      · exact .inr (hf ▸ hreply)

section Registered

variable {r : Registry Scripted} (hinitial : ∀ name d, r.resolveComponent name = .ok d → d.initial.Faultless)
include hinitial

theorem faultless_of_reaches {x : Scripted} (hx : r.Reaches x) : x.Faultless := by
  induction hx with
  | initial hd => exact hinitial _ _ hd
  | @take x y key v _ ht ih =>
    have htake : Scripted.take x key v = .ok y := ht
    unfold Scripted.take at htake
    split at htake <;> cases htake
    exact ih
  | perform _ action ih => exact (ih.perform action).1
  | @awake x _ ih =>
    show (Scripted.awake x).Faultless
    unfold Scripted.awake
    split <;> exact ih

/-- Without widgets and with no other helpers than the built-in ones, it is scripts that give a fault. -/
theorem isFault_of_registry (hhelpers : r.helpers = Helpers.builtin)
    (hwidgets : ∀ name w, Assoc.get? name r.types ≠ some (.widget w)) {f : Failure} (h : r.Gives f) :
    f.isFault = false := by
  cases h with
  | @take x key v _ hx ht =>
    have htake : Scripted.take x key v = .error f := ht
    unfold Scripted.take at htake
    split at htake <;> cases htake
    rfl
  | perform hx hp => exact ((faultless_of_reaches hinitial hx).perform _).2 f (.inl hp)
  | reply hx hp => exact ((faultless_of_reaches hinitial hx).perform _).2 f (.inr hp)
  | helper hname he => exact Helper.isFault_of_builtin (hhelpers ▸ hname) he
  | widget hw => exact (hwidgets _ _ hw).elim

end Registered

/-! ## A page to welcome somebody -/

/-- A component whose one tag calls a helper in the argument of a helper. -/
def greeting : Definition Scripted :=
  ⟨"Greeting", "<wo:String value=\"~uppercase(concat(hello, guest))\"/>", "", { name := "Greeting", state := [] }⟩

/-- A page that uses it. -/
def welcome : Application Scripted :=
  let types := Assoc.put "Greeting" (.component greeting) (@Registry.builtin Scripted).types
  { Application.new {} with
    registry := { types := Assoc.put "Page" (.component (page "<wo:Greeting guest=\"$name\"/>")) types } }

theorem types_of_welcome {name : String} {t : ElementType Scripted}
    (h : Assoc.get? name welcome.registry.types = some t) :
    t = .component (page "<wo:Greeting guest=\"$name\"/>") ∨ t = .component greeting ∨ ∃ b, t = .builtin b := by
  rcases Assoc.mem_put (Assoc.mem_of_get? h) with hpage | h
  · cases hpage
    exact .inl rfl
  rcases Assoc.mem_put h with hgreeting | h
  · cases hgreeting
    exact .inr (.inl rfl)
  obtain ⟨b, -, hnames⟩ := List.mem_flatMap.mp (Assoc.mem_ofList h)
  obtain ⟨_, -, hbuiltin⟩ := List.mem_map.mp hnames
  cases hbuiltin
  exact .inr (.inr ⟨b, rfl⟩)

/-- Nothing that is registered gives a fault. -/
theorem isFault_of_welcome {app : Application Scripted} {f : Failure} (h : app.Gives f)
    (hregistry : app.registry = welcome.registry) (hrouter : app.router = {}) (hactions : app.directActions = []) :
    f.isFault = false := by
  induction h with
  | registered h =>
    rw [hregistry] at h
    refine isFault_of_registry (fun name d hd => ?_) rfl (fun name w hw => ?_) h
    · rcases types_of_welcome (Registry.resolveComponent_eq_ok.mp hd) with hd | hd | ⟨b, hd⟩ <;> cases hd <;>
        exact List.forall_mem_nil _
    · rcases types_of_welcome hw with hw | hw | ⟨b, hw⟩ <;> cases hw
  | @route segments _ _ _ hroute _ =>
    rw [hrouter] at hroute
    cases segments <;> cases hroute
  | directAction haction _ | reply haction _ =>
    rw [hactions] at haction
    cases haction
  | named name _ ih => exact ih

end Scripted

/-- The page and the greeting in it are compiled ahead; then somebody comes. Since no code of this
    application gives a fault, no request fails with one after that. -/
theorem welcome_is_conclusive : Scripted.welcome.Grown ∧ ∃ n app', Scripted.welcome.warmUp = (.ok n, app') ∧
    (app'.serve Scripted.comesIn).Conclusive ∧
    ∀ a f, (app'.serve Scripted.comesIn).failure? ((app'.serve Scripted.comesIn).incoming a) = some f →
      f.isFault = false := by
  have hnew : (Application.new {} : Application Scripted).Grown := .new {}
  have hgreeting := hnew.withComponent (d := Scripted.greeting) (by decide +kernel)
  have hgrown : Scripted.welcome.Grown := hgreeting.withComponent (d := Scripted.page _) (by decide +kernel)
  have hok : Scripted.welcome.warmUp.1.isOk = true := by decide +kernel
  rcases hwarm : Scripted.welcome.warmUp with ⟨e | n, app'⟩ <;> rw [hwarm] at hok
  · cases hok
  · have hconclusive := warm_up_is_conclusive hgrown hwarm (.single (.serve app' Scripted.comesIn))
    refine ⟨hgrown, n, app', rfl, hconclusive, fun a f hf => Bool.eq_false_iff.mpr fun hfault => ?_⟩
    obtain rfl : Scripted.welcome.warmUp.2 = app' := congrArg Prod.snd hwarm
    have hgives := hconclusive.requests a f hf hfault
    rw [Scripted.isFault_of_welcome hgives rfl rfl rfl] at hfault
    cases hfault

end PageServer
