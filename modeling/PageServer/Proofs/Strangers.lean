/-
  PageServer.Proofs.Strangers — what goes on in one session is nothing to another.

  The sessions share the templates that are compiled on the way, and the counter that says when idle
  sessions are looked for. What is compiled already makes no difference to the answer of a request
  (`Exchange.Blind`, `Application.respond_given`), so an answer depends on nothing but the request and
  its own session. Of a run of requests for any number of sessions, a session therefore gets the
  answers, and comes to the pages and the counter, that it would get by its own requests alone
  (`sessions_are_strangers`).

  The counter of requests does reach a session that is idle for too long: whether it is dropped in
  time depends on how many requests the others send. So the session must not be dropped, neither
  among the others nor alone (`Application.lasts`).
-/

import PageServer.Proofs.Expiry

namespace PageServer

variable {σ : Type}

/-! ## Whatever is compiled -/

namespace Exchange

/-- The exchange with these templates compiled. -/
def given (ts : Templates) (x : Exchange σ) : Exchange σ := { x with templates := ts }

/-- The steps do the same whatever is compiled already, and keep what is compiled good. -/
def Blind (r : Registry σ) {ε α : Type} (m : ExceptT ε (StateM (Exchange σ)) α) : Prop :=
  ∀ x ts, Templates.Compiled r x.templates → Templates.Compiled r ts →
    ∃ ts', m.run.run (x.given ts) = ((m.run.run x).1, (m.run.run x).2.given ts') ∧
      Templates.Compiled r (m.run.run x).2.templates ∧ Templates.Compiled r ts'

/-- A traversal does the same whatever is compiled already. -/
theorem traverse_given {r : Registry σ} {α : Type} {pass : Pass σ α} (h : pass.Blind r) (page : Instance σ)
    {x : Exchange σ} {ts : Templates} (hx : Templates.Compiled r x.templates) (hts : Templates.Compiled r ts) :
    ∃ ts', (x.given ts).traverse page pass = ((x.traverse page pass).1, (x.traverse page pass).2.given ts') ∧
      Templates.Compiled r (x.traverse page pass).2.templates ∧ Templates.Compiled r ts' := by
  obtain ⟨ts', hrun, hx', hts'⟩ := h (.start x.context x.templates page) ts hx hts
  refine ⟨ts', ?_, hx', hts'⟩
  have hstart : (Scene.start x.context x.templates page).given ts = .start x.context ts page := rfl
  rw [hstart] at hrun
  simp only [traverse, given, hrun]
  rfl

namespace Blind

variable {r : Registry σ} {ε ε' α β : Type}

/-- Steps that neither look at the templates nor change them. -/
theorem of_unseen {m : ExceptT ε (StateM (Exchange σ)) α}
    (h : ∀ x ts, m.run.run (x.given ts) = ((m.run.run x).1, (m.run.run x).2.given ts))
    (hsame : ∀ x, (m.run.run x).2.templates = x.templates) : Blind r m :=
  fun x ts hx hts => ⟨ts, h x ts, by rwa [hsame x], hts⟩

theorem lift (result : Except ε α) : Blind r (ExceptT.mk (pure result) : ExceptT ε (StateM (Exchange σ)) α) :=
  of_unseen (fun _ _ => rfl) fun _ => rfl

theorem pure (a : α) : Blind r (pure a : ExceptT ε (StateM (Exchange σ)) α) := lift (.ok a)

theorem bind {m : ExceptT ε (StateM (Exchange σ)) α} {f : α → ExceptT ε (StateM (Exchange σ)) β} (hm : Blind r m)
    (hf : ∀ a, Blind r (f a)) : Blind r (m >>= f) := by
  intro x ts hx hts
  obtain ⟨ts', h, hx', hts'⟩ := hm x ts hx hts
  rw [run_bind, run_bind, h]
  rcases hrun : m.run.run x with ⟨e | a, y⟩ <;> rw [hrun] at hx'
  · exact ⟨ts', rfl, hx', hts'⟩
  · exact hf a y ts' hx' hts'

theorem map {m : ExceptT ε (StateM (Exchange σ)) α} (hm : Blind r m) (f : α → β) : Blind r (f <$> m) := by
  rw [map_eq_pure_bind]
  exact bind hm fun _ => pure _

/-- Steps that look at the exchange first, but not at its templates. -/
theorem get {f : Exchange σ → ExceptT ε (StateM (Exchange σ)) β} (h : ∀ x, Blind r (f x))
    (hf : ∀ x ts, f (x.given ts) = f x) : Blind r (do f (← MonadState.get)) := by
  intro x ts hx hts
  rw [run_bind, run_bind, run_get, run_get]
  dsimp only
  rw [hf x ts]
  exact h x x ts hx hts

/-! ### Requests to elements -/

theorem onCached {pass : Pass σ α} (h : pass.Blind r) (phase : DispatchPhase) (id : String) (page : Instance σ) :
    Blind r (Dispatch.onCached phase id page pass) := by
  intro x ts hx hts
  obtain ⟨ts', hrun, hx', hts'⟩ := traverse_given h page hx hts
  refine ⟨ts', ?_, ?_, hts'⟩
  · rw [Dispatch.run_onCached, Dispatch.run_onCached, hrun]
    rfl
  · rw [Dispatch.run_onCached]
    exact hx'

variable [Component σ]

theorem replace (hk : r.Keyed) (id : String) (new : Instance σ) : Blind r (Dispatch.replace r id new) := by
  intro x ts hx hts
  obtain ⟨ts', hrun, hx', hts'⟩ := traverse_given (.renderPage hk) new.awake hx hts
  refine ⟨ts', ?_, ?_, hts'⟩
  · rw [Dispatch.run_replace, Dispatch.run_replace, hrun]
    rcases x.traverse new.awake (Pass.renderPage r) with ⟨⟨e | response, shown⟩, y⟩ <;> rfl
  · rw [Dispatch.run_replace]
    rcases hrun' : x.traverse new.awake (Pass.renderPage r) with ⟨⟨e | response, shown⟩, y⟩ <;> rw [hrun'] at hx' <;>
      exact hx'

theorem work (hk : r.Keyed) (a : Address) (page : Instance σ) : Blind r (Dispatch.work r a page) := by
  have hinvoke : ∀ page, Blind r (Dispatch.onCached .invokeAction a.contextId page (Pass.walkPage r .invoke)) :=
    fun page => onCached (.walkPage hk .invoke) _ _ page
  refine get (fun x => ?_) fun _ _ => rfl
  split
  · exact bind (map (onCached (.walkPage hk .take) _ _ page) _) hinvoke
  · exact hinvoke page

theorem conclude (hk : r.Keyed) (o : Address × Found σ × Instance σ) : Blind r (Dispatch.conclude r o) := by
  obtain ⟨a, found, page⟩ := o
  have hshow : Blind r (Prod.fst <$> Dispatch.onCached .generateResponse a.contextId page (Pass.renderPage r)) :=
    map (onCached (.renderPage hk) _ _ page) _
  rcases found with _ | _ | new | result
  · exact hshow
  · exact hshow
  · exact replace hk a.contextId new
  · exact lift _

theorem dispatch (hk : r.Keyed) : Blind r (Dispatch.respond r) := by
  have haddress : Blind r (Dispatch.address : Dispatch σ Address) := of_unseen (fun _ _ => rfl) fun _ => rfl
  have hbegin : ∀ a, Blind r (modify (·.mapContext (·.begin a)) : Dispatch σ PUnit) := by
    intro a
    exact of_unseen (fun _ _ => rfl) fun _ => rfl
  have hrestore : ∀ a, Blind r (Dispatch.restore a : Dispatch σ (Instance σ)) := by
    intro a
    apply of_unseen
    · intro x ts
      rw [Dispatch.run_restore, Dispatch.run_restore]
      rfl
    · intro x
      rw [Dispatch.run_restore]
  rw [Dispatch.respond_eq]
  refine bind ?_ fun o => conclude hk o
  exact bind haddress fun a => bind (hbegin a) fun _ => bind (hrestore a) fun page =>
    bind (work hk a page) fun _ => pure _

theorem answer (hk : r.Keyed) : Blind r (Dispatch.answer r) := by
  intro x ts hx hts
  obtain ⟨ts', hrun, hx', hts'⟩ := dispatch hk x ts hx hts
  refine ⟨ts', ?_, ?_, hts'⟩
  · rw [Dispatch.run_answer, Dispatch.run_answer, hrun]
    rcases (Dispatch.respond r).run.run x with ⟨e | response, y⟩ <;> rfl
  · rw [Dispatch.run_answer]
    rcases hrun' : (Dispatch.respond r).run.run x with ⟨e | response, y⟩ <;> rw [hrun'] at hx' <;> exact hx'

/-! ### Direct actions -/

theorem showOutcome (hk : r.Keyed) (o : Outcome σ) : Blind r (DirectActions.showOutcome r o) := by
  rcases o with _ | new | result
  · exact lift (.error Failure.noResult)
  · intro x ts hx hts
    obtain ⟨ts', hrun, hx', hts'⟩ :=
      traverse_given (x := { x with context := x.context.takeContextId.2 }) (.renderPage hk) new.awake hx hts
    simp only [DirectActions.showOutcome, DirectActions.run_showPage]
    refine ⟨ts', ?_, ?_, hts'⟩
    · rw [show ({ x.given ts with context := (x.given ts).context.takeContextId.2 } : Exchange σ) =
        ({ x with context := x.context.takeContextId.2 } : Exchange σ).given ts from rfl, hrun]
      rcases ({ x with context := x.context.takeContextId.2 } : Exchange σ).traverse new.awake (Pass.renderPage r) with
        ⟨⟨e | response, shown⟩, y⟩ <;> rfl
    · rcases hrun' : ({ x with context := x.context.takeContextId.2 } : Exchange σ).traverse new.awake
        (Pass.renderPage r) with ⟨⟨e | response, shown⟩, y⟩ <;> rw [hrun'] at hx' <;> exact hx'
  · exact lift result

theorem run (hk : r.Keyed) (name : String) (action : DirectAction) : Blind r (DirectActions.run r name action) := by
  have houtcome : Blind r (DirectActions.outcome r action) := by
    apply of_unseen
    · intro x ts
      rw [DirectActions.run_outcome, DirectActions.run_outcome]
      rw [show (x.given ts).context = x.context from rfl]
      rcases action r.helpers x.context with ⟨e | reply, c⟩ <;> rfl
    · intro x
      rw [DirectActions.run_outcome]
      rcases action r.helpers x.context with ⟨e | reply, c⟩ <;> rfl
  rw [DirectActions.run_eq]
  refine bind houtcome fun o => ?_
  -- The name that is put before the text of a failure changes nothing of the exchange.
  intro x ts hx hts
  obtain ⟨ts', hrun, hx', hts'⟩ := showOutcome hk o x ts hx hts
  have hadapt : ∀ y, ((DirectActions.showOutcome r o).adapt (Failure.directAction name)).run.run y =
      (((DirectActions.showOutcome r o).run.run y).1.mapError (Failure.directAction name),
        ((DirectActions.showOutcome r o).run.run y).2) := fun _ => rfl
  exact ⟨ts', by rw [hadapt, hadapt, hrun], by rwa [hadapt], hts'⟩

theorem directActions (hk : r.Keyed) (actions : DirectActions) : Blind r (DirectActions.respond actions r) := by
  unfold DirectActions.respond
  refine get (fun x => ?_) fun _ _ => rfl
  rcases DirectActions.nameIn? x.context.request.segments with _ | name
  · exact pure none
  dsimp only
  rcases Assoc.get? name actions with _ | action
  · exact pure none
  · exact bind (run hk name action) fun _ => pure _

/-! ### All requests -/

omit [Component σ] in
theorem router (t : Router) (hs : Helpers) : Blind r (t.respond hs : Answer σ (Option Http.Response)) := by
  apply of_unseen
  · intro x ts
    rw [Router.run_respond, Router.run_respond]
    rw [show (x.given ts).context = x.context from rfl]
    rcases t.get? x.context.request.segments with _ | route <;> rfl
  · intro x
    rw [Router.run_respond]
    rcases t.get? x.context.request.segments with _ | route <;> rfl

theorem application {app : Application σ} (hk : app.registry.Keyed) : Blind app.registry app.answer? := by
  unfold Application.answer?
  refine bind (router _ _) fun routed => ?_
  rcases routed with _ | response
  · refine get (fun x => ?_) fun _ _ => rfl
    rcases x.context.request.segments.head? with _ | key
    · exact directActions hk _
    dsimp only
    split
    · exact map (answer hk) _
    · split
      · exact directActions hk _
      · exact pure none
  · exact pure _

end Blind

end Exchange

variable [Component σ]

/-- What is compiled already makes no difference to the answer of a request. -/
theorem Application.respond_given {app : Application σ} (hk : app.registry.Keyed) {x : Exchange σ} {ts : Templates}
    (hx : Templates.Compiled app.registry x.templates) (hts : Templates.Compiled app.registry ts) :
    ∃ ts', app.respond (x.given ts) = ((app.respond x).1, (app.respond x).2.given ts') := by
  obtain ⟨ts', hrun, -, -⟩ := Exchange.Blind.application hk x ts hx hts
  refine ⟨ts', ?_⟩
  unfold respond
  rw [hrun]
  rcases app.answer?.run.run x with ⟨e | _ | response, y⟩ <;> rfl

/-! ## Two runs -/

/-- What a session has come to: how many context ids it has given out, and its pages with the order
    in which they are dropped. -/
def Session.kept {α : Type} (s : Session α) : Nat × PageCache α := (s.contextIdCount, s.pages)

/-- What somebody asks for, whenever it is. -/
def Arrival.asked (a : Arrival) : String × String × Http.Request := (a.session, a.errorId, a.request)

namespace Application

/-- The answer to a request, and what components were asked to do for it. -/
def answered (app : Application σ) (a : Arrival) : Http.Response × List Event :=
  (app.handle a.now a.session a.errorId a.request).1

/-- The answers to the requests of the session `id`. -/
def answersIn (id : String) : Application σ → List Arrival → List (Http.Response × List Event)
  | _, [] => []
  | app, a :: rest =>
    if a.session = id then app.answered a :: answersIn id (app.serve a) rest else answersIn id (app.serve a) rest

omit [Component σ] in
/-- The session `id` is not dropped for being idle when this request is counted. -/
def stays (id : String) (app : Application σ) (a : Arrival) : Bool :=
  !(app.sessions.get? id).isSome || ((app.remaining a).get? id).isSome

/-- The session `id` is not dropped before any of these requests. -/
def lasts (id : String) : Application σ → List Arrival → Bool
  | _, [] => true
  | app, a :: rest => stays id app a && lasts id (app.serve a) rest

/-- To the session `id` the two applications are the same: they may differ in the other sessions, in
    what is compiled and in how many requests they have handled. -/
structure Same (id : String) (app app' : Application σ) : Prop where
  registered : ∃ sessions templates n, app' = { app with sessions, templates, requestCount := n } ∧
    sessions.pageCacheSize = app.sessions.pageCacheSize
  session : (app'.sessions.get? id).map Session.kept = (app.sessions.get? id).map Session.kept
  keyed : app.registry.Keyed
  compiled : Templates.Compiled app.registry app.templates
  compiled' : Templates.Compiled app.registry app'.templates
  sound : app.sessions.Sound
  sound' : app'.sessions.Sound

namespace Same

variable {id : String} {app app' : Application σ}

omit [Component σ] in
theorem refl (hk : app.registry.Keyed) (hc : Templates.Compiled app.registry app.templates) (hs : app.sessions.Sound) :
    Same id app app :=
  ⟨⟨app.sessions, app.templates, app.requestCount, rfl, rfl⟩, rfl, hk, hc, hc, hs, hs⟩

omit [Component σ] in
/-- A session that is not dropped is there for the request as it was. -/
theorem get?_remaining {app : Application σ} (hs : app.sessions.Sound) {a : Arrival} (h : stays id app a = true) :
    (app.remaining a).get? id = app.sessions.get? id := by
  unfold stays at h
  rcases hr : (app.remaining a).get? id with _ | s
  · rcases hg : app.sessions.get? id with _ | s
    · rfl
    · rw [hr, hg] at h
      cases h
  · exact (hs.get?_remaining a hr).symm

/-- What is done for another session is nothing to this one. -/
theorem serve_other (h : Same id app app') {a : Arrival} (hid : a.session ≠ id) (hstays : stays id app a = true) :
    Same id (app.serve a) app' := by
  obtain ⟨⟨sessions, templates, n, heq, hsize⟩, hsession, hk, hc, hc', hs, hs'⟩ := h
  refine ⟨⟨sessions, templates, n, heq, ?_⟩, ?_, hk, app.respond_compiled hk hc, hc', hs.serve a, hs'⟩
  · rw [hsize, serve_pageCacheSize]
  · rw [hsession, hs.get?_serve_of_ne a (Ne.symm hid), get?_remaining hs hstays]

omit [Component σ] in
/-- The session is the same to a request that comes in. -/
theorem opened_kept (h : Same id app app') {a a' : Arrival} (hstays : stays id app a = true)
    (hstays' : stays id app' a' = true) :
    ((app'.remaining a').opened a'.now id).kept = ((app.remaining a).opened a.now id).kept := by
  have hget := get?_remaining h.sound hstays
  have hget' := get?_remaining h.sound' hstays'
  have hsession := h.session
  have hsize : (app'.remaining a').pageCacheSize = (app.remaining a).pageCacheSize := by
    obtain ⟨sessions, templates, n, rfl, hsize⟩ := h.registered
    rw [remaining_pageCacheSize, remaining_pageCacheSize]
    exact hsize
  rcases hs : app.sessions.get? id with _ | s <;> rcases hs' : app'.sessions.get? id with _ | s' <;>
    rw [hs, hs'] at hsession
  · rw [Sessions.opened_of_none (hget.trans hs), Sessions.opened_of_none (hget'.trans hs')]
    show (0, PageCache.ofCapacity _) = (0, PageCache.ofCapacity _)
    rw [hsize]
  · cases hsession
  · cases hsession
  · rw [Sessions.opened_of_get? (hget.trans hs), Sessions.opened_of_get? (hget'.trans hs')]
    exact Option.some.inj hsession

omit [Component σ] in
/-- What the session asks for begins the same, but for what is compiled. -/
theorem incoming_given (h : Same id app app') {a a' : Arrival} (ha : a.session = id) (hasked : a'.asked = a.asked)
    (hstays : stays id app a = true) (hstays' : stays id app' a' = true) :
    app'.incoming a' = (app.incoming a).given app'.templates := by
  obtain ⟨now, session, errorId, request⟩ := a
  obtain ⟨now', session', errorId', request'⟩ := a'
  cases hasked
  subst ha
  have hopened := h.opened_kept hstays hstays'
  have hcount := congrArg Prod.fst hopened
  have hpages := congrArg Prod.snd hopened
  have hname := (h.sound.remaining ⟨now, session, errorId, request⟩).opened_id now session
  have hname' := (h.sound'.remaining ⟨now', session, errorId, request⟩).opened_id now' session
  dsimp only [Session.kept] at hcount hpages
  simp only [incoming, exchange, Exchange.given, hname, hname']
  rw [hcount, hpages]

/-- The same is answered to the same request, and comes of it. -/
theorem serve_own (h : Same id app app') {a a' : Arrival} (ha : a.session = id) (hasked : a'.asked = a.asked)
    (hstays : stays id app a = true) (hstays' : stays id app' a' = true) :
    app'.answered a' = app.answered a ∧ Same id (app.serve a) (app'.serve a') := by
  have hincoming := h.incoming_given ha hasked hstays hstays'
  have ha' : a'.session = id := (congrArg Prod.fst hasked).trans ha
  obtain ⟨⟨sessions, templates, n, rfl, hsize⟩, -, hk, hc, hc', hs, hs'⟩ := h
  obtain ⟨app', happ⟩ : ∃ app' : Application σ, app' = { app with sessions, templates, requestCount := n } := ⟨_, rfl⟩
  obtain ⟨ts', hgiven⟩ := app.respond_given hk (x := app.incoming a) hc hc'
  have hrespond : app'.respond (app'.incoming a') =
      ((app.respond (app.incoming a)).1, (app.respond (app.incoming a)).2.given ts') := by
    rw [happ, hincoming]
    exact hgiven
  rw [← happ] at hs' ⊢
  refine ⟨?_, ?_, ?_, hk, app.respond_compiled hk hc, ?_, hs.serve a, hs'.serve a'⟩
  · exact congrArg (fun o => (o.1, o.2.events)) hrespond
  · rw [happ]
    exact ⟨_, _, _, rfl, (serve_pageCacheSize _ a').trans (hsize.trans (app.serve_pageCacheSize a).symm)⟩
  · rw [← ha, hs.get?_serve_self a, ha, ← ha', hs'.get?_serve_self a']
    exact congrArg (fun o => some (o.2.context.contextIdCount, o.2.pages)) hrespond
  · have hkept : Templates.Compiled app'.registry app'.templates := by
      rw [happ]
      exact hc'
    have hserved := app'.respond_compiled (x := app'.incoming a') (by rw [happ]; exact hk) hkept
    rw [happ] at hserved ⊢
    exact hserved

end Same

theorem answersIn_of_same {id : String} {arrivals own : List Arrival} {app app' : Application σ} (h : Same id app app')
    (hown : own.map Arrival.asked = (arrivals.filter (·.session = id)).map Arrival.asked)
    (hlasts : app.lasts id arrivals = true) (hlasts' : app'.lasts id own = true) :
    app'.answersIn id own = app.answersIn id arrivals ∧ Same id (app.serveAll arrivals) (app'.serveAll own) := by
  induction arrivals generalizing app app' own with
  | nil =>
    have hnil : own = [] := List.map_eq_nil_iff.mp hown
    subst hnil
    exact ⟨rfl, h⟩
  | cons a rest ih =>
    obtain ⟨hstays, hlasts⟩ := (Bool.and_eq_true _ _).mp hlasts
    by_cases ha : a.session = id
    · rw [List.filter_cons_of_pos (by simpa using ha), List.map_cons] at hown
      rcases own with _ | ⟨a', own⟩
      · cases hown
      obtain ⟨hasked, hown⟩ := List.cons.inj hown
      obtain ⟨hstays', hlasts'⟩ := (Bool.and_eq_true _ _).mp hlasts'
      have ha' : a'.session = id := (congrArg Prod.fst hasked).trans ha
      obtain ⟨hanswered, hsame⟩ := h.serve_own ha hasked hstays hstays'
      obtain ⟨hanswers, hend⟩ := ih hsame hown hlasts hlasts'
      refine ⟨?_, hend⟩
      rw [answersIn, answersIn, if_pos ha, if_pos ha', hanswered, hanswers]
    · rw [List.filter_cons_of_neg (by simpa using ha)] at hown
      obtain ⟨hanswers, hend⟩ := ih (h.serve_other ha hstays) hown hlasts hlasts'
      refine ⟨?_, hend⟩
      rw [answersIn, if_neg ha, hanswers]

end Application

/-- A session gets the same answers to its requests, and comes to the same pages in the same order and
    to the same counter, among any requests of other sessions as it does alone. -/
theorem sessions_are_strangers (app : Application σ) (hk : app.registry.Keyed)
    (htemplates : Templates.Compiled app.registry app.templates) (hs : app.sessions.Sound) (id : String)
    {arrivals own : List Arrival} (hown : own.map Arrival.asked = (arrivals.filter (·.session = id)).map Arrival.asked)
    (hlasts : app.lasts id arrivals = true) (hlasts' : app.lasts id own = true) :
    app.answersIn id arrivals = app.answersIn id own ∧
      ((app.serveAll arrivals).sessions.get? id).map Session.kept =
        ((app.serveAll own).sessions.get? id).map Session.kept := by
  have hsame : app.Same id app := .refl hk htemplates hs
  obtain ⟨hanswers, hend⟩ := Application.answersIn_of_same hsame hown hlasts hlasts'
  exact ⟨hanswers.symm, hend.session.symm⟩

/-- Two visitors, each with a link of their own: what the first one sees does not tell of the second. -/
theorem visitor_sees_the_same_alone :
    let app := Scripted.site "<wo:Hyperlink action=\"$go\" string=\"go\"/>" 1
    let among : List Arrival :=
      [⟨0, "s", "e0", Scripted.request "/" []⟩, ⟨1, "t", "e1", Scripted.request "/" []⟩,
       ⟨2, "s", "e2", Scripted.clickOn "0"⟩, ⟨3, "t", "e3", Scripted.clickOn "1"⟩, ⟨4, "s", "e4", Scripted.clickOn "1"⟩]
    let alone : List Arrival :=
      [⟨7, "s", "e0", Scripted.request "/" []⟩, ⟨8, "s", "e2", Scripted.clickOn "0"⟩, ⟨9, "s", "e4", Scripted.clickOn "1"⟩]
    app.lasts "s" among = true ∧ app.lasts "s" alone = true ∧ (app.answersIn "s" among).length = 3 ∧
      app.answersIn "s" among = app.answersIn "s" alone ∧
      ((app.serveAll among).sessions.get? "s").map Session.kept =
        ((app.serveAll alone).sessions.get? "s").map Session.kept := by
  intro app among alone
  have hamong : app.lasts "s" among = true := by decide +kernel
  have halone : app.lasts "s" alone = true := by decide +kernel
  have hown : alone.map Arrival.asked = (among.filter (·.session = "s")).map Arrival.asked := rfl
  have hk : app.registry.Keyed := Registry.keyed_of_goesBy (by decide +kernel)
  obtain ⟨hanswers, hkept⟩ := sessions_are_strangers app hk .nil (.of_empty rfl) "s" hown hamong halone
  exact ⟨hamong, halone, by decide +kernel, hanswers, hkept⟩

end PageServer
