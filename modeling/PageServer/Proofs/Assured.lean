/-
  PageServer.Proofs.Assured — requests that find no fault in a template.

  What holds of a traversal (`Pass.Sure`) holds of the work on a request: it keeps the exchange
  `Exchange.Ready`, where besides the templates the pages of the session are as they can be, and if it
  fails at a template that is kept then the code of the application gave the failure
  (`Application.Gives`). A step that does so is `Assured`; the steps of an answer are put together
  from there.

  The client sees no more of a failure than an error page (`respond_of_failure`), so the results are
  about what a request fails with (`Application.failure?`, `Ready.failure_harmless`).
-/

import PageServer.Proofs.Answers
import PageServer.Proofs.Sure

namespace PageServer

/-! ## Pages that are kept -/

namespace PageCache

variable {α : Type} {P : α → Prop} {c : PageCache α} {p : α}

/-- Every page that is kept is as `P` says. -/
def All (P : α → Prop) (c : PageCache α) : Prop := ∀ e ∈ c.entries, P e.2.2

theorem mem_of_mem_evict {capacity : Nat} {recency : List (Nat × String)} {entries : List (String × Nat × α)}
    {e : String × Nat × α} (he : e ∈ (evict capacity recency entries).2.2) : e ∈ entries := by
  induction recency generalizing entries with
  | nil => exact he
  | cons r rest ih =>
    obtain ⟨stamp, id⟩ := r
    rw [evict] at he
    split at he
    · exact (List.mem_filter.mp (ih he)).1
    · exact he

theorem all_ofCapacity (n : Nat) : (ofCapacity n : PageCache α).All P := List.forall_mem_nil _

namespace All

variable (h : c.All P)
include h

theorem imp {P' : α → Prop} (himp : ∀ p, P p → P' p) : c.All P' := fun e he => himp _ (h e he)

theorem put (id : String) (stamp : Nat) (hp : P p) : ∀ e ∈ Assoc.put id (stamp, p) c.entries, P e.2.2 := by
  intro e he
  rcases Assoc.mem_put he with rfl | he
  · exact hp
  · exact h e he

theorem save (id : String) (hp : P p) : (c.save id p).2.All P := fun e he =>
  h.put id (c.clock + 1) hp e (mem_of_mem_evict he)

theorem update (id : String) (hp : P p) : (c.update id p).All P := by
  unfold PageCache.update
  split
  · exact h.put id _ hp
  · exact h

/-- What is looked up is a page that is kept. -/
theorem reuse (id : String) : (c.reuse id).2.All P ∧ ∀ p, (c.reuse id).1 = .ok p → P p := by
  rw [PageCache.reuse, restore, page?, retain]
  rcases hget : Assoc.get? id c.entries with _ | ⟨stamp, page⟩
  · exact ⟨h, fun _ hp => by cases hp⟩
  · have hpage : P page := h _ (Assoc.mem_of_get? hget)
    exact ⟨h.put id _ hpage, fun p hp => by cases hp; exact hpage⟩

end All

end PageCache

variable {σ : Type} [Component σ]

/-! ## Exchanges -/

/-- All templates are kept, if they are to be, and the pages of the session are as they can be. -/
structure Exchange.Ready (r : Registry σ) (warm : Prop) (x : Exchange σ) : Prop where
  templates : warm → Templates.Complete r x.templates
  pages : x.pages.All (Instance.Made r)

namespace Exchange.Ready

variable {r : Registry σ} {warm : Prop} {x y : Exchange σ}

/-- What else an exchange holds does not matter. -/
theorem same (h : x.Ready r warm) (htemplates : y.templates = x.templates) (hpages : y.pages = x.pages) :
    y.Ready r warm := ⟨htemplates ▸ h.templates, hpages ▸ h.pages⟩

theorem traverse {α : Type} {Q : α → Prop} (h : x.Ready r warm) {pass : Pass σ α} (hpass : Pass.Sure r warm Q pass)
    {page : Instance σ} (hpage : page.Made r) :
    (x.traverse page pass).2.Ready r warm ∧ (x.traverse page pass).1.2.Made r ∧
      r.Grants warm Q (x.traverse page pass).1.1 := by
  obtain ⟨hready, hgrants⟩ := hpass _ (Scene.Ready.start h.templates hpage)
  exact ⟨⟨hready.templates, h.pages⟩, hready.page, hgrants⟩

end Exchange.Ready

/-! ## Steps of an answer -/

/-- From an exchange that is ready the steps end as `Q` says or fail as `E` says, and the exchange stays
    ready in any case. -/
def Assured {ε α : Type} (r : Registry σ) (warm : Prop) (E : ε → Prop) (Q : α → Prop)
    (m : ExceptT ε (StateM (Exchange σ)) α) : Prop :=
  ∀ x, x.Ready r warm → (m.run.run x).2.Ready r warm ∧
    match (m.run.run x).1 with
    | .ok a => Q a
    | .error e => E e

namespace Assured

variable {ε α β : Type} {r : Registry σ} {warm : Prop} {E : ε → Prop} {P : α → Prop} {Q : β → Prop}

theorem pure {a : α} (h : P a) : Assured r warm E P (Pure.pure a : ExceptT ε (StateM (Exchange σ)) α) := fun _ hx =>
  ⟨hx, h⟩

theorem bind {m : ExceptT ε (StateM (Exchange σ)) α} {f : α → ExceptT ε (StateM (Exchange σ)) β}
    (hm : Assured r warm E P m) (hf : ∀ a, P a → Assured r warm E Q (f a)) : Assured r warm E Q (m >>= f) := by
  intro x hx
  obtain ⟨hy, hends⟩ := hm x hx
  rw [run_bind]
  rcases hrun : m.run.run x with ⟨e | a, y⟩ <;> rw [hrun] at hy hends
  · exact ⟨hy, hends⟩
  · exact hf a hends y hy

theorem map {m : ExceptT ε (StateM (Exchange σ)) α} {f : α → β} (hm : Assured r warm E P m) (hf : ∀ a, P a → Q (f a)) :
    Assured r warm E Q (f <$> m) := by
  rw [map_eq_pure_bind]
  exact bind hm fun a ha => pure (hf a ha)

theorem get {f : Exchange σ → ExceptT ε (StateM (Exchange σ)) β} (h : ∀ x, Assured r warm E Q (f x)) :
    Assured r warm E Q (do f (← MonadState.get)) := fun x hx => h x x hx

end Assured

/-! ## Failures of requests -/

namespace Application

/-- What a request fails with. The client gets no more than an error page. -/
def failure? (app : Application σ) (x : Exchange σ) : Option Failure :=
  match (app.router.respond app.registry.helpers).run.run x with
  | (.error f, _) => some f
  | (.ok (some _), _) => none
  | (.ok none, y) => match y.recipient with
    | .element => match ((Dispatch.respond app.registry).run.run y).1 with
      | .error (.failed _ f) => some f
      | _ => none
    | .directAction => match ((DirectActions.respond app.directActions app.registry).run.run y).1 with
      | .error f => some f
      | .ok _ => none
    | .nobody => none

/-- The failure is one that the code of the application gives: of what is registered with it. -/
inductive Gives (app : Application σ) : Failure → Prop
  | registered {f : Failure} (h : app.registry.Gives f) : Gives app f
  | route {segments : List String} {route : Route} {c : Context} {f : Failure}
      (hroute : app.router.get? segments = some route) (h : (route.handler app.registry.helpers c).1 = .error f) : Gives app f
  | directAction {name : String} {action : DirectAction} {c : Context} {f : Failure}
      (haction : Assoc.get? name app.directActions = some action) (h : (action app.registry.helpers c).1 = .error f) :
      Gives app f
  | reply {name : String} {action : DirectAction} {c : Context} {f : Failure}
      (haction : Assoc.get? name app.directActions = some action)
      (h : (action app.registry.helpers c).1 = .ok (.respond (.error f))) : Gives app f
  | named (name : String) {f : Failure} (h : Gives app f) : Gives app (.directAction name f)

/-- The failure is no fault of a template, unless the application gave it. -/
def Harmless (app : Application σ) (warm : Prop) (f : Failure) : Prop := warm → f.isFault = true → app.Gives f

variable {app : Application σ} {warm : Prop} {x : Exchange σ} {f : Failure}

theorem harmless_of_registry (h : app.registry.Harmless warm f) : app.Harmless warm f := fun hwarm hf =>
  .registered (h hwarm hf)

theorem Harmless.named (h : app.Harmless warm f) (name : String) : app.Harmless warm (.directAction name f) :=
  fun hwarm hf => .named name (h hwarm hf)

/-- A failure is answered with an error page under the id that it is reported with. -/
theorem respond_of_failure (h : app.failure? x = some f) :
    (app.respond x).1 = Http.Notice.internalError (app.respond x).2.context.errorId := by
  rcases hroute : (app.router.respond app.registry.helpers).run.run x with ⟨f' | _ | response, y⟩
  · rw [respond, answer?, run_bind, hroute]
  · have hy : app.unrouted? x = some y := by rw [unrouted?, hroute]
    rw [respond_of_unrouted hy]
    simp only [failure?, hroute] at h
    rcases hr : y.recipient <;> simp only [hr] at h ⊢
    · rcases hrun : (Dispatch.respond app.registry).run.run y with ⟨⟨_ | _ | _⟩ | _, z⟩ <;> simp only [hrun] at h <;>
        cases h
      rfl
    · rcases hrun : (DirectActions.respond app.directActions app.registry).run.run y with ⟨f' | _, z⟩ <;>
        simp only [hrun] at h <;> cases h
      rfl
    · cases h
  · simp only [failure?, hroute] at h
    cases h

end Application

/-! ## Requests to elements -/

/-- The error is no fault of a template, unless what is registered gave it. -/
def DispatchError.Harmless (r : Registry σ) (warm : Prop) : DispatchError → Prop
  | .failed _ f => r.Harmless warm f
  | _ => True

namespace Dispatch

variable {r : Registry σ} {warm : Prop}

theorem onCached_assured {α : Type} {Q : α → Prop} (phase : DispatchPhase) (id : String) {page : Instance σ}
    (hpage : page.Made r) {pass : Pass σ α} (h : Pass.Sure r warm Q pass) :
    Assured r warm (DispatchError.Harmless r warm) (fun o => Q o.1 ∧ o.2.Made r) (onCached phase id page pass) := by
  intro x hx
  obtain ⟨hy, hmade, hgrants⟩ := hx.traverse h hpage
  rw [run_onCached]
  dsimp only
  rcases hrun : x.traverse page pass with ⟨⟨f | a, page'⟩, y⟩ <;> rw [hrun] at hy hmade hgrants
  · exact ⟨⟨hy.templates, hy.pages.update id hmade⟩, hgrants⟩
  · exact ⟨⟨hy.templates, hy.pages.update id hmade⟩, hgrants, hmade⟩

theorem restore_assured (a : Address) :
    Assured r warm (DispatchError.Harmless r warm) (Instance.Made r) (restore a : Dispatch σ _) := by
  intro x hx
  obtain ⟨hpages, hfound⟩ := hx.pages.reuse a.contextId
  rw [run_restore]
  rcases hreuse : (x.pages.reuse a.contextId).1 with e | page
  · exact ⟨⟨hx.templates, hpages⟩, trivial⟩
  · exact ⟨⟨hx.templates, hpages⟩, (hfound page hreuse).awake⟩

theorem work_assured (hk : r.Keyed) (a : Address) {page : Instance σ} (hpage : page.Made r) :
    Assured r warm (DispatchError.Harmless r warm) (fun o => Found.Good r warm o.1 ∧ o.2.Made r) (work r a page) := by
  have hinvoke : ∀ page : Instance σ, page.Made r →
      Assured r warm (DispatchError.Harmless r warm) (fun o => Found.Good r warm o.1 ∧ o.2.Made r)
        (onCached .invokeAction a.contextId page (Pass.walkPage r .invoke)) := fun page hpage =>
    onCached_assured .invokeAction a.contextId hpage (Pass.Sure.walkPage hk .invoke)
  have hwalk : Pass.Sure r warm (Found.Good r warm) (Pass.walkPage r .take) := .walkPage hk .take
  have htake := onCached_assured .takeValues a.contextId hpage hwalk
  refine .get fun x => ?_
  split
  · exact .bind (.map htake fun o ho => ho.2) hinvoke
  · exact hinvoke page hpage

theorem invoked_assured (hk : r.Keyed) :
    Assured r warm (DispatchError.Harmless r warm) (fun o => Found.Good r warm o.2.1 ∧ o.2.2.Made r) (invoked r) := by
  have haddress : Assured r warm (DispatchError.Harmless r warm) (fun _ => True) (address : Dispatch σ Address) := by
    intro x hx
    rw [run_address]
    rcases Address.ofSegments x.context.request.rawSegments with e | a <;> exact ⟨hx, trivial⟩
  have hbegin : ∀ a, Assured r warm (DispatchError.Harmless r warm) (fun _ => True)
      (modify (·.mapContext (·.begin a)) : Dispatch σ PUnit) := fun a x hx => ⟨hx.same rfl rfl, trivial⟩
  exact .bind haddress fun a _ => .bind (hbegin a) fun _ _ => .bind (restore_assured a) fun page hpage =>
    .bind (work_assured hk a hpage) fun _ ho => .pure ho

theorem conclude_assured (hk : r.Keyed) {o : Address × Found σ × Instance σ}
    (ho : Found.Good r warm o.2.1 ∧ o.2.2.Made r) :
    Assured r warm (DispatchError.Harmless r warm) (fun _ => True) (conclude r o) := by
  obtain ⟨a, found, page⟩ := o
  obtain ⟨hfound, hpage⟩ := ho
  have hshow : Assured r warm (DispatchError.Harmless r warm) (fun _ => True)
      (Prod.fst <$> onCached .generateResponse a.contextId page (Pass.renderPage r)) :=
    .map (onCached_assured .generateResponse a.contextId hpage (Pass.Sure.renderPage hk)) fun _ _ => trivial
  rcases found with _ | _ | new | result
  · exact hshow
  · exact hshow
  · have hnew : new.awake.Made r := (hfound _ rfl : new.Made r).awake
    intro x hx
    obtain ⟨hy, hmade, hgrants⟩ := hx.traverse (Pass.Sure.renderPage hk) hnew
    rw [conclude, run_replace]
    rcases hrun : x.traverse new.awake (Pass.renderPage r) with ⟨⟨f | response, shown⟩, y⟩ <;>
      rw [hrun] at hy hmade hgrants
    · exact ⟨hy, hgrants⟩
    · exact ⟨⟨hy.templates, hy.pages.save a.contextId hmade⟩, trivial⟩
  · intro x hx
    rcases result with f | response
    · exact ⟨hx, hfound _ rfl⟩
    · exact ⟨hx, trivial⟩

theorem respond_assured (hk : r.Keyed) :
    Assured r warm (DispatchError.Harmless r warm) (fun _ => True) (respond r : Dispatch σ _) := by
  rw [respond_eq]
  exact .bind (invoked_assured hk) fun _ ho => conclude_assured hk ho

end Dispatch

/-! ## Direct actions and routes -/

namespace Application

variable {app : Application σ} {warm : Prop}

theorem showOutcome_assured (hk : app.registry.Keyed) (name : String) {o : Outcome σ}
    (ho : o.Good app.registry (app.Harmless warm)) :
    Assured app.registry warm (app.Harmless warm) (fun _ => True)
      ((DirectActions.showOutcome app.registry o).adapt (Failure.directAction name)) := by
  intro x hx
  have hadapt : ((DirectActions.showOutcome app.registry o).adapt (Failure.directAction name)).run.run x =
      (((DirectActions.showOutcome app.registry o).run.run x).1.mapError (Failure.directAction name),
        ((DirectActions.showOutcome app.registry o).run.run x).2) := rfl
  rw [hadapt]
  rcases o with _ | new | f | response
  · exact ⟨hx, harmless_of_registry (Registry.harmless_of_not rfl)⟩
  · have hnew : new.awake.Made app.registry := (show new.Made app.registry from ho).awake
    have hx' : ({ x with context := x.context.takeContextId.2 } : Exchange σ).Ready app.registry warm := hx.same rfl rfl
    obtain ⟨hy, hmade, hgrants⟩ := hx'.traverse (Pass.Sure.renderPage hk) hnew
    rw [DirectActions.showOutcome, DirectActions.run_showPage]
    rcases hrun : ({ x with context := x.context.takeContextId.2 } : Exchange σ).traverse new.awake
      (Pass.renderPage app.registry) with ⟨⟨f | response, shown⟩, y⟩ <;> rw [hrun] at hy hmade hgrants
    · exact ⟨hy, (harmless_of_registry hgrants).named name⟩
    · exact ⟨⟨hy.templates, hy.pages.save x.context.pageId hmade⟩, trivial⟩
  · exact ⟨hx, Harmless.named ho name⟩
  · exact ⟨hx, trivial⟩

theorem directAction_assured (hk : app.registry.Keyed) {name : String} {action : DirectAction}
    (haction : Assoc.get? name app.directActions = some action) :
    Assured app.registry warm (app.Harmless warm) (fun _ => True) (DirectActions.run app.registry name action) := by
  have houtcome : Assured app.registry warm (app.Harmless warm) (Outcome.Good app.registry (app.Harmless warm))
      (DirectActions.outcome app.registry action) := by
    intro x hx
    rw [DirectActions.run_outcome]
    rcases hrun : action app.registry.helpers x.context with ⟨f | reply, c⟩
    · exact ⟨hx.same rfl rfl, fun _ _ => .directAction haction (congrArg Prod.fst hrun)⟩
    · have hreply : app.registry.Grants warm (Outcome.Good app.registry (app.Harmless warm))
          (Outcome.ofReply app.registry reply).1 :=
        .ofReply fun f hf _ _ => .reply haction (by rw [hrun, hf])
      dsimp only
      rcases ho : (Outcome.ofReply app.registry reply).1 with f | o <;> rw [ho] at hreply
      · exact ⟨hx.same rfl rfl, harmless_of_registry hreply⟩
      · exact ⟨hx.same rfl rfl, hreply⟩
  rw [DirectActions.run_eq]
  exact .bind houtcome fun o ho => showOutcome_assured hk name ho

theorem directActions_assured (hk : app.registry.Keyed) :
    Assured app.registry warm (app.Harmless warm) (fun _ => True)
      (DirectActions.respond app.directActions app.registry) := by
  refine .get fun x => ?_
  rcases DirectActions.nameIn? x.context.request.segments with _ | name
  · exact .pure trivial
  dsimp only
  rcases haction : Assoc.get? name app.directActions with _ | action
  · exact .pure trivial
  · exact .bind (directAction_assured hk haction) fun _ _ => .pure trivial

theorem routed_assured :
    Assured app.registry warm (app.Harmless warm) (fun _ => True)
      (app.router.respond app.registry.helpers : Answer σ _) := by
  intro x hx
  rw [Router.run_respond]
  rcases hget : app.router.get? x.context.request.segments with _ | route
  · exact ⟨hx, trivial⟩
  rcases hrun : (route.handler app.registry.helpers x.context).1 with f | response
  · exact ⟨hx.same rfl rfl, fun _ _ => .route hget hrun⟩
  · exact ⟨hx.same rfl rfl, trivial⟩

end Application

/-! ## All requests -/

namespace Exchange.Ready

variable {app : Application σ} {warm : Prop} {x : Exchange σ}

/-- An exchange stays ready as a request is answered. -/
theorem respond (hk : app.registry.Keyed) (hx : x.Ready app.registry warm) :
    (app.respond x).2.Ready app.registry warm := by
  rw [Application.respond_eq]
  rcases hy : app.unrouted? x with _ | y
  · exact (Application.routed_assured x hx).1
  obtain ⟨c, rfl⟩ := app.unrouted?_eq hy
  have hy : ({ x with context := c } : Exchange σ).Ready app.registry warm := hx.same rfl rfl
  dsimp only
  split
  · exact (Dispatch.respond_assured hk _ hy).1
  · exact (Application.directActions_assured hk _ hy).1
  · exact hy

/-- With all templates kept, a request ends in no fault of a template, unless the application gives one. -/
theorem failure_harmless (hk : app.registry.Keyed) (hx : x.Ready app.registry warm) {f : Failure}
    (hf : app.failure? x = some f) : app.Harmless warm f := by
  have hrouted := Application.routed_assured x hx
  unfold Application.failure? at hf
  rcases hroute : (app.router.respond app.registry.helpers).run.run x with ⟨f' | _ | response, y⟩ <;>
    rw [hroute] at hrouted <;> simp only [hroute] at hf
  · cases hf
    exact hrouted.2
  · rcases hr : y.recipient <;> simp only [hr] at hf
    · have hends := (Dispatch.respond_assured hk y hrouted.1).2
      rcases hrun : ((Dispatch.respond app.registry).run.run y).1 with ⟨_ | _ | ⟨phase, f'⟩⟩ | response <;>
        simp only [hrun] at hf hends <;> cases hf
      exact Application.harmless_of_registry hends
    · have hends := (Application.directActions_assured hk y hrouted.1).2
      rcases hrun : ((DirectActions.respond app.directActions app.registry).run.run y).1 with f' | response <;>
        simp only [hrun] at hf hends <;> cases hf
      exact hends
    · cases hf
  · cases hf

end Exchange.Ready

end PageServer
