/-
  PageServer.Proofs.Answers — what the steps of an answer do to the exchange.

  The equations for each step of the work on a request, as `Pass` has them for the steps of a
  traversal. Later proofs say with `Ends` how steps end, well or not, and never open the monad.
-/

import PageServer.Application
import PageServer.Proofs.Balance

namespace PageServer

/-! ## Steps of an answer -/

section Steps

variable {ε S α β : Type}

theorem run_bind (m : ExceptT ε (StateM S) α) (f : α → ExceptT ε (StateM S) β) (x : S) :
    (m >>= f).run.run x = match m.run.run x with
      | (.ok a, y) => (f a).run.run y
      | (.error e, y) => (.error e, y) := by
  simp only [ExceptT.run_bind, StateT.run_bind]
  rcases m.run.run x with ⟨e | a, y⟩ <;> rfl

theorem run_get (x : S) : (get : ExceptT ε (StateM S) S).run.run x = (.ok x, x) := rfl

theorem run_modify (f : S → S) (x : S) : (modify f : ExceptT ε (StateM S) PUnit).run.run x = (.ok (), f x) := rfl

/-- The steps end well with `Q`, or fail with `E`. -/
def Ends (m : ExceptT ε (StateM S) α) (x : S) (Q : α → S → Prop) (E : S → Prop) : Prop :=
  match m.run.run x with
  | (.ok a, y) => Q a y
  | (.error _, y) => E y

namespace Ends

variable {m : ExceptT ε (StateM S) α} {x : S} {E : S → Prop}

theorem cases {Q : α → S → Prop} (hm : Ends m x Q E) :
    (∃ a y, m.run.run x = (.ok a, y) ∧ Q a y) ∨ ∃ e y, m.run.run x = (.error e, y) ∧ E y := by
  unfold Ends at hm
  rcases h : m.run.run x with ⟨e | a, y⟩ <;> rw [h] at hm
  · exact .inr ⟨e, y, rfl, hm⟩
  · exact .inl ⟨a, y, rfl, hm⟩

theorem bind_ok {f : α → ExceptT ε (StateM S) β} {Q : β → S → Prop} {a : α} {y : S} (h : m.run.run x = (.ok a, y))
    (hf : Ends (f a) y Q E) : Ends (m >>= f) x Q E := by
  unfold Ends
  rw [run_bind, h]
  exact hf

theorem bind_error {f : α → ExceptT ε (StateM S) β} {Q : β → S → Prop} {e : ε} {y : S}
    (h : m.run.run x = (.error e, y)) (he : E y) : Ends (m >>= f) x Q E := by
  unfold Ends
  rw [run_bind, h]
  exact he

theorem bind {f : α → ExceptT ε (StateM S) β} {Q : α → S → Prop} {Q' : β → S → Prop} (hm : Ends m x Q E)
    (hf : ∀ a y, Q a y → Ends (f a) y Q' E) : Ends (m >>= f) x Q' E := by
  rcases hm.cases with ⟨a, y, h, hq⟩ | ⟨e, y, h, he⟩
  · exact bind_ok h (hf a y hq)
  · exact bind_error h he

theorem map {f : α → β} {Q : β → S → Prop} (hm : Ends m x (fun a y => Q (f a) y) E) : Ends (f <$> m) x Q E := by
  rw [map_eq_pure_bind]
  exact hm.bind fun a y h => h

theorem imp {Q Q' : α → S → Prop} (hm : Ends m x Q E) (h : ∀ a y, Q a y → Q' a y) : Ends m x Q' E := by
  unfold Ends
  rcases hm.cases with ⟨a, y, hrun, hq⟩ | ⟨e, y, hrun, he⟩ <;> rw [hrun]
  · exact h a y hq
  · exact he

/-- What holds however the steps end. -/
theorem after {Q : α → S → Prop} (hm : Ends m x Q E) (h : ∀ a y, Q a y → E y) : E (m.run.run x).2 := by
  rcases hm.cases with ⟨a, y, hrun, hq⟩ | ⟨e, y, hrun, he⟩ <;> rw [hrun]
  · exact h a y hq
  · exact he

theorem pure {a : α} {Q : α → S → Prop} (h : Q a x) : Ends (pure a : ExceptT ε (StateM S) α) x Q E := h

theorem get {f : S → ExceptT ε (StateM S) β} {Q : β → S → Prop} (h : Ends (f x) x Q E) :
    Ends (do f (← MonadState.get)) x Q E := h

end Ends

end Steps

variable {σ : Type} [Component σ]

/-! ## Requests to elements -/

namespace Dispatch

omit [Component σ] in
theorem run_address (x : Exchange σ) : (address : Dispatch σ Address).run.run x =
    ((Address.ofSegments x.context.request.rawSegments).mapError .malformedAddress, x) := rfl

theorem run_restore (a : Address) (x : Exchange σ) : (restore a : Dispatch σ (Instance σ)).run.run x =
    (((x.pages.reuse a.contextId).1.mapError DispatchError.pageExpired).map Instance.awake,
      { x with pages := (x.pages.reuse a.contextId).2 }) := by
  unfold restore
  rw [run_bind, run_get]
  dsimp only
  rcases x.pages.reuse a.contextId with ⟨e | p, pages⟩ <;> rfl

omit [Component σ] in
theorem run_onCached {α : Type} (phase : DispatchPhase) (id : String) (page : Instance σ) (pass : Pass σ α)
    (x : Exchange σ) :
    (onCached phase id page pass).run.run x =
      let o := x.traverse page pass
      ((o.1.1.mapError (DispatchError.failed phase)).map fun a => (a, o.1.2),
        { o.2 with pages := o.2.pages.update id o.1.2 }) := by
  unfold onCached
  rw [run_bind, run_get]
  dsimp only
  rcases x.traverse page pass with ⟨⟨e | p, page⟩, y⟩ <;> rfl

theorem run_replace (r : Registry σ) (id : String) (new : Instance σ) (x : Exchange σ) :
    (replace r id new).run.run x =
      match x.traverse new.awake (Pass.renderPage r) with
      | ((.error e, _), y) => (.error (.failed .generateResponse e), y)
      | ((.ok response, shown), y) => (.ok response, { y with pages := (y.pages.save id shown).2 }) := by
  unfold replace
  rw [run_bind, run_get]
  dsimp only
  rcases x.traverse new.awake (Pass.renderPage r) with ⟨⟨e | p, page⟩, y⟩ <;> rfl

/-- The work on a page that was found, up to and with the action. -/
def work (r : Registry σ) (a : Address) (page : Instance σ) : Dispatch σ (Found σ × Instance σ) := do
  let page ←
    if (← get).context.request.hasFormValues then
      Prod.snd <$> onCached .takeValues a.contextId page (Pass.walkPage r .take)
    else pure page
  onCached .invokeAction a.contextId page (Pass.walkPage r .invoke)

/-- The work on a request up to and with its action: what came of the action and of the page. -/
def invoked (r : Registry σ) : Dispatch σ (Address × Found σ × Instance σ) := do
  let a ← address
  modify (·.mapContext (·.begin a))
  let page ← restore a
  let o ← work r a page
  return (a, o)

theorem run_invoked (r : Registry σ) {x : Exchange σ} {a : Address}
    (ha : Address.ofSegments x.context.request.rawSegments = .ok a) :
    (invoked r).run.run x = match x.pages.reuse a.contextId with
      | (.error e, pages) => (.error (.pageExpired e), { x.mapContext (·.begin a) with pages := pages })
      | (.ok p, pages) =>
        let o := (work r a p.awake).run.run { x.mapContext (·.begin a) with pages := pages }
        (o.1.map fun o => (a, o), o.2) := by
  have haddress : (address : Dispatch σ Address).run.run x = (.ok a, x) := by
    rw [run_address, ha]
    rfl
  unfold invoked
  simp only [run_bind, haddress, run_modify, run_restore]
  rw [show (x.mapContext (·.begin a)).pages = x.pages from rfl]
  rcases x.pages.reuse a.contextId with ⟨e | p, pages⟩
  · rfl
  · simp only [mapError_ok, Except.map]
    rcases (work r a p.awake).run.run { x.mapContext (·.begin a) with pages := pages } with ⟨e | o, y⟩ <;> rfl

/-- The response once the action is done. -/
def conclude (r : Registry σ) : Address × Found σ × Instance σ → Dispatch σ Http.Response
  | (a, none, page) | (a, some .stay, page) =>
    Prod.fst <$> onCached .generateResponse a.contextId page (Pass.renderPage r)
  | (a, some (.page new), _) => replace r a.contextId new
  | (_, some (.respond result), _) => lift (result.mapError (.failed .generateResponse))

theorem respond_eq (r : Registry σ) : (respond r : Dispatch σ _) = invoked r >>= conclude r := by
  unfold respond invoked work
  simp only [bind_assoc, pure_bind]
  refine bind_congr fun a => bind_congr fun _ => bind_congr fun page => bind_congr fun x => ?_
  split
  · rw [bind_assoc]
    refine bind_congr fun taken => bind_congr fun o => ?_
    rcases o with ⟨_ | _ | new | result, page⟩ <;> rfl
  · refine bind_congr fun o => ?_
    rcases o with ⟨_ | _ | new | result, page⟩ <;> rfl

theorem run_answer (r : Registry σ) (x : Exchange σ) :
    (answer r).run.run x = match (respond r).run.run x with
      | (.ok response, y) => (.ok response, y)
      | (.error e, y) => (.ok (e.response y.context.errorId), y) := rfl

end Dispatch

/-! ## Direct actions -/

namespace DirectActions

/-- What comes of an action. -/
def outcome (r : Registry σ) (action : DirectAction) : Answer σ (Outcome σ) := do
  let reply ← Answer.withContext r.helpers action
  let (outcome, events) := Outcome.ofReply r reply
  modify fun x => { x with events := x.events ++ events }
  Answer.lift outcome

theorem run_eq (r : Registry σ) (name : String) (action : DirectAction) :
    run r name action = outcome r action >>= fun o => (showOutcome r o).adapt (Failure.directAction name) := by
  unfold run outcome
  simp only [bind_assoc]

theorem run_outcome (r : Registry σ) (action : DirectAction) (x : Exchange σ) :
    (outcome r action).run.run x =
      match action r.helpers x.context with
      | (.error e, c) => (.error e, { x with context := c })
      | (.ok reply, c) =>
        ((Outcome.ofReply r reply).1, { x with context := c, events := x.events ++ (Outcome.ofReply r reply).2 }) := by
  unfold outcome Answer.withContext
  simp only [run_bind, run_get]
  rcases action r.helpers x.context with ⟨e | reply, c⟩
  · rfl
  · rcases Outcome.ofReply r reply with ⟨o, es⟩
    rcases o with e | o <;> rfl

theorem run_showPage (r : Registry σ) (new : Instance σ) (x : Exchange σ) :
    (showPage r new).run.run x =
      match ({ x with context := x.context.takeContextId.2 } : Exchange σ).traverse new.awake (Pass.renderPage r) with
      | ((.error e, _), y) => (.error e, y)
      | ((.ok response, shown), y) => (.ok response, { y with pages := (y.pages.save x.context.pageId shown).2 }) := by
  unfold showPage
  rw [run_bind, run_get, ← x.context.takeContextId_fst]
  dsimp only
  rw [run_bind, run_modify]
  dsimp only
  rw [run_bind, run_get]
  dsimp only
  rcases ({ x with context := x.context.takeContextId.2 } : Exchange σ).traverse new.awake (Pass.renderPage r) with
    ⟨⟨e | response, shown⟩, y⟩ <;> rfl

/-- The direct action that a request is for. -/
def action? (actions : DirectActions) (x : Exchange σ) : Option DirectAction :=
  (nameIn? x.context.request.segments).bind fun name => Assoc.get? name actions

theorem respond_state (actions : DirectActions) (r : Registry σ) (x : Exchange σ) :
    ((respond actions r).run.run x).2 = match action? actions x with
      | none => x
      | some action => match (outcome r action).run.run x with
        | (.ok o, y) => ((showOutcome r o).run.run y).2
        | (.error _, y) => y := by
  unfold respond action?
  rw [run_bind, run_get]
  dsimp only
  rcases nameIn? x.context.request.segments with _ | name
  · rfl
  dsimp only [Option.bind]
  rcases Assoc.get? name actions with _ | action
  · rfl
  dsimp only
  rw [run_bind, run_eq, run_bind]
  rcases (outcome r action).run.run x with ⟨e | o, y⟩
  · rfl
  -- The name is put before the text of a failure, which changes nothing else.
  have hadapt : ((showOutcome r o).adapt (Failure.directAction name)).run.run y =
      (((showOutcome r o).run.run y).1.mapError (Failure.directAction name), ((showOutcome r o).run.run y).2) := rfl
  dsimp only
  rw [hadapt]
  rcases (showOutcome r o).run.run y with ⟨e | response, z⟩ <;> rfl

end DirectActions

/-! ## All requests -/

/-- Who gets a request that no route has answered. -/
inductive Recipient where
  | element
  | directAction
  | nobody

def Recipient.ofSegments (segments : List String) : Recipient :=
  match segments.head? with
  | none => .directAction
  | some key =>
    if key = Address.handlerKey then .element
    else if key = DirectActions.handlerKey then .directAction
    else .nobody

def Exchange.recipient (x : Exchange σ) : Recipient := .ofSegments x.context.request.segments

omit [Component σ] in
theorem Router.run_respond (t : Router) (hs : Helpers) (x : Exchange σ) :
    (t.respond hs).run.run x = match t.get? x.context.request.segments with
      | none => (.ok none, x)
      | some route => ((route.handler hs x.context).1, { x with context := (route.handler hs x.context).2 }) := by
  unfold respond
  rw [run_bind, run_get]
  dsimp only
  rcases t.get? x.context.request.segments with _ | route
  · rfl
  · unfold Answer.withContext
    rw [run_bind, run_get]
    rfl

namespace Application

/-- What the routes have left to the others. -/
def unrouted? (app : Application σ) (x : Exchange σ) : Option (Exchange σ) :=
  match (app.router.respond app.registry.helpers).run.run x with
  | (.ok none, y) => some y
  | _ => none

omit [Component σ] in
/-- A route sees no more of an exchange than the context. -/
theorem routed_eq (app : Application σ) (x : Exchange σ) :
    ∃ c, ((app.router.respond app.registry.helpers).run.run x).2 = { x with context := c } := by
  rw [Router.run_respond]
  rcases app.router.get? x.context.request.segments with _ | route <;> exact ⟨_, rfl⟩

omit [Component σ] in
theorem routed_pages (app : Application σ) (x : Exchange σ) :
    ((app.router.respond app.registry.helpers).run.run x).2.pages = x.pages := by
  obtain ⟨c, hc⟩ := app.routed_eq x
  rw [hc]

omit [Component σ] in
theorem unrouted?_eq (app : Application σ) {x y : Exchange σ} (h : app.unrouted? x = some y) :
    ∃ c, y = { x with context := c } := by
  have hrouted := app.routed_eq x
  unfold unrouted? at h
  rcases hrun : (app.router.respond app.registry.helpers).run.run x with ⟨e | _ | response, z⟩ <;>
    rw [hrun] at h hrouted <;> cases h
  exact hrouted

omit [Component σ] in
theorem unrouted?_pages (app : Application σ) {x y : Exchange σ} (h : app.unrouted? x = some y) : y.pages = x.pages := by
  obtain ⟨c, rfl⟩ := app.unrouted?_eq h
  rfl

theorem respond_eq (app : Application σ) (x : Exchange σ) :
    (app.respond x).2 = match app.unrouted? x with
      | none => ((app.router.respond app.registry.helpers).run.run x).2
      | some y => match y.recipient with
        | .element => ((Dispatch.respond app.registry).run.run y).2
        | .directAction => ((DirectActions.respond app.directActions app.registry).run.run y).2
        | .nobody => y := by
  have hstate : (app.respond x).2 = (app.answer?.run.run x).2 := by
    unfold respond
    rcases app.answer?.run.run x with ⟨e | _ | response, y⟩ <;> rfl
  rw [hstate]
  unfold answer? unrouted? Exchange.recipient Recipient.ofSegments
  rw [run_bind]
  rcases (app.router.respond app.registry.helpers).run.run x with ⟨e | _ | response, y⟩
  · rfl
  · dsimp only
    rw [run_bind, run_get]
    dsimp only
    rcases y.context.request.segments.head? with _ | key
    · rfl
    · dsimp only
      split
      · rw [map_eq_pure_bind, run_bind, Dispatch.run_answer]
        rcases (Dispatch.respond app.registry).run.run y with ⟨e | response, z⟩ <;> rfl
      · split
        · rfl
        · rfl
  · rfl

/-- What the routes have left to the others is answered by them. -/
theorem respond_of_unrouted {app : Application σ} {x y : Exchange σ} (hy : app.unrouted? x = some y) :
    app.respond x = match y.recipient with
      | .element => match (Dispatch.respond app.registry).run.run y with
        | (.ok response, z) => (response, z)
        | (.error e, z) => (e.response z.context.errorId, z)
      | .directAction => match (DirectActions.respond app.directActions app.registry).run.run y with
        | (.ok (some response), z) => (response, z)
        | (.ok none, z) => (Http.Notice.ofStatus .notFound, z)
        | (.error _, z) => (Http.Notice.internalError z.context.errorId, z)
      | .nobody => (Http.Notice.ofStatus .notFound, y) := by
  unfold unrouted? at hy
  unfold respond answer? Exchange.recipient Recipient.ofSegments
  rw [run_bind]
  rcases hrun : (app.router.respond app.registry.helpers).run.run x with ⟨e | _ | response, z⟩ <;> rw [hrun] at hy <;> cases hy
  dsimp only
  rw [run_bind, run_get]
  dsimp only
  rcases y.context.request.segments.head? with _ | key
  · rfl
  · dsimp only
    by_cases helement : key = Address.handlerKey
    · rewrite [if_pos helement, if_pos helement]
      rw [map_eq_pure_bind, run_bind, Dispatch.run_answer]
      rcases (Dispatch.respond app.registry).run.run y with ⟨e | response, z⟩ <;> rfl
    rewrite [if_neg helement, if_neg helement]
    by_cases hdirect : key = DirectActions.handlerKey
    · rewrite [if_pos hdirect, if_pos hdirect]
      rfl
    · rewrite [if_neg hdirect, if_neg hdirect]
      rfl

end Application

/-! ## What every step keeps to -/

/-- A relation between exchanges that no work on a page breaks. -/
structure Working (r : Registry σ) (R : Exchange σ → Exchange σ → Prop) : Prop where
  refl (x : Exchange σ) : R x x
  trans {x y z : Exchange σ} : R x y → R y z → R x z
  pages (x : Exchange σ) (pages : PageCache (Instance σ)) : R x { x with pages := pages }
  walks (x : Exchange σ) (page : Instance σ) (phase : Phase) : R x (x.traverse page (Pass.walkPage r phase)).2
  renders (x : Exchange σ) (page : Instance σ) : R x (x.traverse page (Pass.renderPage r)).2

/-- A relation between exchanges that no step of an answer breaks. -/
structure Lasting (r : Registry σ) (R : Exchange σ → Exchange σ → Prop) : Prop extends Working r R where
  begins (x : Exchange σ) (a : Address) : R x (x.mapContext (·.begin a))
  takes (x : Exchange σ) : R x { x with context := x.context.takeContextId.2 }

namespace Working

variable {r : Registry σ} {R : Exchange σ → Exchange σ → Prop}

/-- The steps keep to the relation, however they end. -/
def Keeps {ε α : Type} (R : Exchange σ → Exchange σ → Prop) (m : ExceptT ε (StateM (Exchange σ)) α) : Prop :=
  ∀ x, R x (m.run.run x).2

omit [Component σ] in
theorem Keeps.get {ε α : Type} {f : Exchange σ → ExceptT ε (StateM (Exchange σ)) α} (hf : ∀ x, Keeps R (f x)) :
    Keeps R (do f (← MonadState.get)) := fun x => hf x x

variable (k : Working r R) {ε α β : Type}
include k

theorem bind {m : ExceptT ε (StateM (Exchange σ)) α} {f : α → ExceptT ε (StateM (Exchange σ)) β} (hm : Keeps R m)
    (hf : ∀ a, Keeps R (f a)) : Keeps R (m >>= f) := by
  intro x
  have h := hm x
  rw [run_bind]
  rcases hrun : m.run.run x with ⟨e | a, y⟩ <;> rw [hrun] at h
  · exact h
  · exact k.trans h (hf a y)

theorem map {m : ExceptT ε (StateM (Exchange σ)) α} {f : α → β} (hm : Keeps R m) : Keeps R (f <$> m) := by
  rw [map_eq_pure_bind]
  exact k.bind hm fun _ x => k.refl x

theorem onCached (phase : DispatchPhase) (id : String) (page : Instance σ) {pass : Pass σ α}
    (hpass : ∀ x : Exchange σ, R x (x.traverse page pass).2) : Keeps R (Dispatch.onCached phase id page pass) := by
  intro x
  rw [Dispatch.run_onCached]
  exact k.trans (hpass x) (k.pages _ _)

theorem replace (id : String) (new : Instance σ) : Keeps R (Dispatch.replace r id new) := by
  intro x
  have h := k.renders x new.awake
  rw [Dispatch.run_replace]
  rcases hrun : x.traverse new.awake (Pass.renderPage r) with ⟨⟨e | response, shown⟩, y⟩ <;> rw [hrun] at h
  · exact h
  · exact k.trans h (k.pages _ _)

theorem work (a : Address) (page : Instance σ) : Keeps R (Dispatch.work r a page) := by
  have htake : Keeps R (Prod.snd <$> Dispatch.onCached .takeValues a.contextId page (Pass.walkPage r .take)) :=
    k.map (k.onCached .takeValues a.contextId page fun x => k.walks x page .take)
  have hinvoke : ∀ page, Keeps R (Dispatch.onCached .invokeAction a.contextId page (Pass.walkPage r .invoke)) :=
    fun page => k.onCached .invokeAction a.contextId page fun x => k.walks x page .invoke
  refine .get fun x => ?_
  split
  · exact k.bind htake hinvoke
  · exact hinvoke page

theorem conclude (o : Address × Found σ × Instance σ) : Keeps R (Dispatch.conclude r o) := by
  obtain ⟨a, found, page⟩ := o
  have hshow : Keeps R (Prod.fst <$> Dispatch.onCached .generateResponse a.contextId page (Pass.renderPage r)) :=
    k.map (k.onCached .generateResponse a.contextId page fun x => k.renders x page)
  rcases found with _ | _ | new | result
  · exact hshow
  · exact hshow
  · exact k.replace a.contextId new
  · exact fun x => k.refl x

end Working

namespace Lasting

open Working

variable {r : Registry σ} {R : Exchange σ → Exchange σ → Prop} (k : Lasting r R)
include k

theorem invoked : Keeps R (Dispatch.invoked r) := by
  have hrestore : ∀ a, Keeps R (Dispatch.restore a) := by
    intro a x
    rw [Dispatch.run_restore]
    exact k.pages _ _
  refine k.bind (fun x => k.refl x) fun a => k.bind (fun x => k.begins x a) fun _ => ?_
  exact k.bind (hrestore a) fun page => k.bind (k.work a page) fun _ x => k.refl x

theorem dispatch : Keeps R (Dispatch.respond r) := by
  rw [Dispatch.respond_eq]
  exact k.bind k.invoked fun o => k.conclude o

theorem showOutcome (o : Outcome σ) : Keeps R (DirectActions.showOutcome r o) := by
  intro x
  cases o with
  | stay => exact k.refl x
  | respond result => exact k.refl x
  | page new =>
    have h := k.renders { x with context := x.context.takeContextId.2 } new.awake
    rw [DirectActions.showOutcome, DirectActions.run_showPage]
    rcases hrun : ({ x with context := x.context.takeContextId.2 } : Exchange σ).traverse new.awake (Pass.renderPage r) with
      ⟨⟨e | response, shown⟩, y⟩ <;> rw [hrun] at h
    · exact k.trans (k.takes x) h
    · exact k.trans (k.trans (k.takes x) h) (k.pages _ _)

theorem directAction {actions : DirectActions} {x : Exchange σ}
    (h : ∀ action, DirectActions.action? actions x = some action → R x ((DirectActions.outcome r action).run.run x).2) :
    R x ((DirectActions.respond actions r).run.run x).2 := by
  rw [DirectActions.respond_state]
  rcases ha : DirectActions.action? actions x with _ | action
  · exact k.refl x
  have hd := h action ha
  dsimp only
  rcases hrun : (DirectActions.outcome r action).run.run x with ⟨e | o, y⟩ <;> rw [hrun] at hd
  · exact hd
  · exact k.trans hd (k.showOutcome o y)

omit k in
/-- The code of the application has to keep to the relation, too. -/
theorem respond {app : Application σ} (k : Lasting app.registry R) {x : Exchange σ}
    (hroute : R x ((app.router.respond app.registry.helpers).run.run x).2)
    (haction : ∀ y action, app.unrouted? x = some y → DirectActions.action? app.directActions y = some action →
      R y ((DirectActions.outcome app.registry action).run.run y).2) : R x (app.respond x).2 := by
  rw [Application.respond_eq]
  rcases hy : app.unrouted? x with _ | y
  · exact hroute
  have hxy : R x y := by
    unfold Application.unrouted? at hy
    rcases hrun : (app.router.respond app.registry.helpers).run.run x with ⟨e | _ | response, z⟩ <;>
      rw [hrun] at hy hroute <;> cases hy
    exact hroute
  dsimp only
  split
  · exact k.trans hxy (k.dispatch y)
  · exact k.trans hxy (k.directAction fun action ha => haction y action hy ha)
  · exact hxy

end Lasting

end PageServer
