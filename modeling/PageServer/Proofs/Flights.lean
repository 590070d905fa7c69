/-
  PageServer.Proofs.Flights — requests of one session that are worked on at the same time.

  What a request does to its session it does in single steps: it is given a context id, it looks a
  page up, it saves one. In between come the steps of others. A page that was looked up is worked on
  under its lock, from when it wakes up to when it is shown again; if its action gave another page,
  the lock is gone before that one is shown and saved. So a page may be worked on that is not the
  cached one any more, and here pages have places: the cache holds the place of a page, and so does a
  request that has looked it up.

  What is done under the lock does the same to a page as the work in an exchange (`work_at_desk`), and a
  direct action that has the session for itself is answered as `DirectActions.run` answers it
  (`Entry.alone`). `Click.alone` is the same for requests to elements.
-/

import PageServer.Proofs.Places

namespace PageServer

variable {σ : Type}

/-! ## What is shared -/

/-- The session as those see it that work in it, and the templates. -/
structure Shared (σ : Type) where
  contextIdCount : Nat
  /-- The context ids that were given out, one after the other. -/
  given : List String
  templates : Templates
  /-- The places of the cached pages. -/
  pages : PageCache Nat
  /-- The pages by place. No place is used twice. -/
  instances : List (Instance σ)

/-- A page that is worked on, with the context of the request. -/
structure Desk (σ : Type) where
  context : Context
  templates : Templates
  page : Instance σ

namespace Shared

def ofSession (templates : Templates) (s : Session (Instance σ)) : Shared σ where
  contextIdCount := s.contextIdCount
  given := (List.range s.contextIdCount).map toString
  templates := templates
  pages := s.pages.places
  instances := s.pages.entries.map (·.2.2)

/-- The context as it is now. -/
def seen (s : Shared σ) (c : Context) : Context := { c with contextIdCount := s.contextIdCount }

/-- The ids that were taken in the context are given out. -/
def counted (s : Shared σ) (c : Context) : Shared σ :=
  { s with
    contextIdCount := c.contextIdCount
    given := s.given ++ (List.range' s.contextIdCount (c.contextIdCount - s.contextIdCount)).map toString }

def desk (s : Shared σ) (c : Context) (page : Instance σ) : Desk σ := ⟨s.seen c, s.templates, page⟩

/-- What others notice of the work on a page. -/
def noticed (s : Shared σ) (d : Desk σ) : Shared σ := { s.counted d.context with templates := d.templates }

def page? (s : Shared σ) (id : String) : Option (Instance σ) := (s.pages.page? id).bind (s.instances[·]?)

/-- The page gets a place of its own. -/
def save (s : Shared σ) (id : String) (page : Instance σ) : Shared σ :=
  { s with pages := (s.pages.save id s.instances.length).2, instances := s.instances ++ [page] }

/-- The cached pages, least recently used first. -/
def pageList (s : Shared σ) : PageList (Instance σ) :=
  s.pages.contextIds.filterMap fun id => (s.page? id).map (id, ·)

end Shared

/-! ## Work on a page -/

namespace Desk

def walk {α : Type} (pass : Pass σ α) (d : Desk σ) : Except Failure α × Desk σ :=
  let (result, s) := pass.on (.start d.context d.templates d.page)
  (result, ⟨s.context, s.templates, s.page⟩)

def phase {α : Type} (p : DispatchPhase) (pass : Pass σ α) : ExceptT DispatchError (StateM (Desk σ)) α :=
  ExceptT.mk fun d =>
    let (result, d) := d.walk pass
    (result.mapError (.failed p), d)

variable [Component σ]

def woken (d : Desk σ) : Desk σ := ⟨d.context, d.templates, d.page.awake⟩

/-- The work on a page that was looked up, up to and with the action. -/
def work (r : Registry σ) : ExceptT DispatchError (StateM (Desk σ)) (Found σ) := do
  modify woken
  if (← get).context.request.hasFormValues then
    let _ ← phase .takeValues (Pass.walkPage r .take)
  phase .invokeAction (Pass.walkPage r .invoke)

/-- The response, or the page to show in place of this one. -/
def conclude (r : Registry σ) : Found σ → ExceptT DispatchError (StateM (Desk σ)) (Http.Response ⊕ Instance σ)
  | none | some .stay => .inl <$> phase .generateResponse (Pass.renderPage r)
  | some (.page new) => return .inr new
  | some (.respond result) => .inl <$> ExceptT.mk (pure (result.mapError (.failed .generateResponse)))

/-- What is done under the lock of a page. -/
def locked (r : Registry σ) : ExceptT DispatchError (StateM (Desk σ)) (Http.Response ⊕ Instance σ) := do
  conclude r (← work r)

end Desk

/-! ## Requests to elements -/

/-- How far the work on a request to an element is. -/
inductive Click.Stage (σ : Type) where
  | comes
  | holds (id : String) (place : Nat)
  /-- The action gave a page that is to be shown in place of the cached one. -/
  | leaves (id : String) (new : Instance σ)
  | shows (id : String) (page : Instance σ) (response : Http.Response)
  | answered (result : Except DispatchError Http.Response)

structure Click (σ : Type) where
  context : Context
  stage : Click.Stage σ

namespace Click

namespace Stage

def found (id : String) : Except PageCacheMiss Nat → Stage σ
  | .ok place => .holds id place
  | .error e => .answered (.error (.pageExpired e))

def acted (id : String) : Except DispatchError (Http.Response ⊕ Instance σ) → Stage σ
  | .ok (.inl response) => .answered (.ok response)
  | .ok (.inr new) => .leaves id new
  | .error e => .answered (.error e)

def drawn (id : String) (page : Instance σ) : Except Failure Http.Response → Stage σ
  | .ok response => .shows id page response
  | .error e => .answered (.error (.failed .generateResponse e))

end Stage

/-- The context id of the page that the request is about, from when it is looked up. -/
def revisits (k : Click σ) : Option String :=
  match k.stage with
  | .holds id _ | .leaves id _ | .shows id _ _ => some id
  | _ => none

def answer? (k : Click σ) : Option (Except DispatchError Http.Response) :=
  match k.stage with
  | .answered result => some result
  | _ => none

/-- The steps that may be ahead of the request. -/
def ahead (k : Click σ) : Nat :=
  match k.stage with
  | .comes => 4
  | .holds .. => 3
  | .leaves .. => 2
  | .shows .. => 1
  | .answered _ => 0

variable [Component σ]

def step (r : Registry σ) (s : Shared σ) (k : Click σ) : Shared σ × Click σ :=
  match k.stage with
  | .comes =>
    match Address.ofSegments k.context.request.rawSegments with
    | .error e => (s, { k with stage := .answered (.error (.malformedAddress e)) })
    | .ok a =>
      let (found, pages) := s.pages.reuse a.contextId
      ({ s with pages := pages }, ⟨k.context.begin a, .found a.contextId found⟩)
  | .holds id place =>
    match s.instances[place]? with
    | none => (s, k)
    | some page =>
      let (result, d) := (Desk.locked r).run.run (s.desk k.context page)
      ({ s.noticed d with instances := s.instances.set place d.page }, ⟨d.context, .acted id result⟩)
  | .leaves id new =>
    let (result, d) := (s.desk k.context new.awake).walk (Pass.renderPage r)
    (s.noticed d, ⟨d.context, .drawn id d.page result⟩)
  | .shows id page response => (s.save id page, { k with stage := .answered (.ok response) })
  | .answered _ => (s, k)

end Click

/-! ## Direct actions -/

/-- Code of a direct action, that may ask for context ids: for that of the response, or for more. -/
inductive Asking (α : Type) where
  | done (a : α)
  | own (next : String → Asking α)
  | another (next : String → Asking α)

/-- What comes of the code if nobody else is given an id meanwhile. -/
def Asking.run {α : Type} : Asking α → Context → α × Context
  | done a, c => (a, c)
  | own next, c => (next c.takeContextId.1).run c.takeContextId.2
  | another next, c => (next c.nextContextId.1).run c.nextContextId.2

/-- How far the work on a direct action is. -/
inductive Entry.Stage (σ : Type) where
  | asks (code : Asking (Except Failure Reply))
  | opens (new : Instance σ)
  | draws (id : String) (new : Instance σ)
  | shows (id : String) (page : Instance σ) (response : Http.Response)
  | answered (result : Except Failure Http.Response)

structure Entry (σ : Type) where
  name : String
  context : Context
  stage : Entry.Stage σ

namespace Entry

/-- Once the code is done; a page that it asks for is made in the action. -/
def Stage.replied [Component σ] (r : Registry σ) (name : String) : Except Failure Reply → Stage σ
  | .error e => .answered (.error e)
  | .ok reply =>
    match (Outcome.ofReply r reply).1 with
    | .error e => .answered (.error e)
    | .ok .stay => .answered (.error (.directAction name .noResult))
    | .ok (.page new) => .opens new
    | .ok (.respond result) => .answered (result.mapError (.directAction name))

def Stage.drawn (name id : String) (page : Instance σ) : Except Failure Http.Response → Stage σ
  | .ok response => .shows id page response
  | .error e => .answered (.error (.directAction name e))

variable [Component σ]

def step (r : Registry σ) (s : Shared σ) (e : Entry σ) : Shared σ × Entry σ :=
  match e.stage with
  | .asks (.done result) => (s, { e with stage := .replied r e.name result })
  | .asks (.own next) =>
    let (id, c) := (s.seen e.context).takeContextId
    (s.counted c, { e with context := c, stage := .asks (next id) })
  | .asks (.another next) =>
    let (id, c) := (s.seen e.context).nextContextId
    (s.counted c, { e with context := c, stage := .asks (next id) })
  | .opens new =>
    let (id, c) := (s.seen e.context).takeContextId
    (s.counted c, { e with context := c, stage := .draws id new })
  | .draws id new =>
    let (result, d) := (s.desk e.context new.awake).walk (Pass.renderPage r)
    (s.noticed d, { e with context := d.context, stage := .drawn e.name id d.page result })
  | .shows id page response => (s.save id page, { e with stage := .answered (.ok response) })
  | .answered _ => (s, e)

end Entry

/-! ## All together -/

inductive Flight (σ : Type) where
  | click (k : Click σ)
  | entry (e : Entry σ)

def Flight.step [Component σ] (r : Registry σ) (s : Shared σ) : Flight σ → Shared σ × Flight σ
  | .click k => ((k.step r s).1, .click (k.step r s).2)
  | .entry e => ((e.step r s).1, .entry (e.step r s).2)

/-- The context id of the page that a request to an element is about. -/
def Flight.revisits : Flight σ → Option String
  | .click k => k.revisits
  | .entry _ => none

/-- A request that nobody has begun to work on. -/
inductive Incoming where
  | element (errorId : String) (request : Http.Request)
  | directAction (errorId : String) (request : Http.Request) (name : String)
      (code : Helpers → Context → Asking (Except Failure Reply))

/-- The session and the requests that are worked on in it. -/
structure Traffic (ι σ : Type) where
  shared : Shared σ
  flights : ι → Flight σ

namespace Traffic

variable {ι : Type}

def start (app : Application σ) (s : Session (Instance σ)) (incoming : ι → Incoming) : Traffic ι σ where
  shared := .ofSession app.templates s
  flights i :=
    match incoming i with
    | .element errorId request => .click ⟨(app.exchange s errorId request).context, .comes⟩
    | .directAction errorId request name code =>
      let c := (app.exchange s errorId request).context
      .entry ⟨name, c, .asks (code app.registry.helpers c)⟩

variable [Component σ] [DecidableEq ι]

def step (r : Registry σ) (t : Traffic ι σ) (i : ι) : Traffic ι σ :=
  let (s, f) := (t.flights i).step r t.shared
  ⟨s, Function.update t.flights i f⟩

/-- The requests go on as the schedule says. -/
def run (r : Registry σ) (t : Traffic ι σ) (schedule : List ι) : Traffic ι σ := schedule.foldl (step r) t

end Traffic

/-! ## Work on a page and work in an exchange -/

theorem Desk.run_work [Component σ] (r : Registry σ) (d : Desk σ) : (work r).run.run d =
    if d.context.request.hasFormValues then
      match (phase .takeValues (Pass.walkPage r .take)).run.run d.woken with
      | (.ok _, d) => (phase .invokeAction (Pass.walkPage r .invoke)).run.run d
      | (.error e, d) => (.error e, d)
    else (phase .invokeAction (Pass.walkPage r .invoke)).run.run d.woken := by
  unfold work
  simp only [run_bind, run_get, run_modify]
  rw [show d.woken.context = d.context from rfl]
  split
  · rw [run_bind]
    rcases (phase .takeValues (Pass.walkPage r .take)).run.run d.woken with ⟨e | found, d⟩ <;> rfl
  · rfl

/-- A page of an exchange that is worked on. -/
def Exchange.desk (x : Exchange σ) (page : Instance σ) : Desk σ := ⟨x.context, x.templates, page⟩

theorem Exchange.traverse_at_desk {α : Type} (x : Exchange σ) (page : Instance σ) (pass : Pass σ α) :
    let o := (x.desk page).walk pass
    ∃ events, x.traverse page pass =
      ((o.1, o.2.page), { x with context := o.2.context, templates := o.2.templates, events := events }) := ⟨_, rfl⟩

namespace Dispatch

variable {x : Exchange σ} {c : PageCache (Instance σ)} {id : String} {page p : Instance σ} {a : Address}

theorem run_work [Component σ] (r : Registry σ) (a : Address) (page : Instance σ) (x : Exchange σ) :
    (work r a page).run.run x =
      if x.context.request.hasFormValues then
        match (onCached .takeValues a.contextId page (Pass.walkPage r .take)).run.run x with
        | (.ok taken, x) => (onCached .invokeAction a.contextId taken.2 (Pass.walkPage r .invoke)).run.run x
        | (.error e, x) => (.error e, x)
      else (onCached .invokeAction a.contextId page (Pass.walkPage r .invoke)).run.run x := by
  unfold work
  rw [run_bind, run_get]
  dsimp only
  split
  · rw [map_eq_pure_bind, run_bind, run_bind]
    rcases (onCached .takeValues a.contextId page (Pass.walkPage r .take)).run.run x with ⟨e | taken, y⟩ <;> rfl
  · rfl

/-- What a phase of the work does to a cached page, it does to the page alone. -/
theorem onCached_at_desk {α : Type} (phase : DispatchPhase) (page : Instance σ) (pass : Pass σ α)
    (hc : c.Held id p x.pages) :
    let o := (Desk.phase phase pass).run.run (x.desk page)
    ∃ y, (onCached phase id page pass).run.run x = (o.1.map fun a => (a, o.2.page), y) ∧ y.desk o.2.page = o.2 ∧
      c.Held id o.2.page y.pages :=
  ⟨_, run_onCached phase id page pass x, rfl, hc.update _⟩

theorem work_at_desk [Component σ] (r : Registry σ) (hc : c.Held a.contextId p x.pages) :
    let o := (Desk.work r).run.run (x.desk p)
    ∃ y, (work r a p.awake).run.run x = (o.1.map fun found => (found, o.2.page), y) ∧ y.desk o.2.page = o.2 ∧
      c.Held a.contextId o.2.page y.pages := by
  have hinvoke : ∀ {y : Exchange σ} {p} (page : Instance σ), c.Held a.contextId p y.pages → _ := fun page hheld =>
    onCached_at_desk .invokeAction page (Pass.walkPage r .invoke) hheld
  rw [Desk.run_work, run_work, show (x.desk p).woken = x.desk p.awake from rfl,
    show (x.desk p).context = x.context from rfl]
  split
  · obtain ⟨y, hrun, hy, hheld⟩ := onCached_at_desk .takeValues p.awake (Pass.walkPage r .take) hc
    rw [hrun]
    rcases hphase : (Desk.phase .takeValues (Pass.walkPage r .take)).run.run (x.desk p.awake) with ⟨e | found, d⟩ <;>
      rw [hphase] at hy hheld
    · exact ⟨y, rfl, hy, hheld⟩
    · have hdone := hinvoke d.page hheld
      rw [hy] at hdone
      exact hdone
  · exact hinvoke p.awake hc

end Dispatch

/-! ## A request that has the session for itself -/

/-- Where no other request comes in between, these steps lead to an answer. -/
inductive Finishes {κ β : Type} (step : Shared σ → κ → Shared σ × κ) (answer? : κ → Option β) :
    Shared σ → κ → β → Shared σ → Prop
  | answered {s : Shared σ} {k : κ} {result : β} : answer? k = some result → Finishes step answer? s k result s
  | step {s s' : Shared σ} {k : κ} {result : β} :
      Finishes step answer? (step s k).1 (step s k).2 result s' → Finishes step answer? s k result s'

namespace Entry

variable [Component σ]

def answer? (e : Entry σ) : Option (Except Failure Http.Response) :=
  match e.stage with
  | .answered result => some result
  | _ => none

theorem shows_alone (r : Registry σ) (name : String) (new : Instance σ) (s : Shared σ) (c : Context)
    (events : List Event) {pages : PageCache (Instance σ)} (h : s.pages.Placed s.instances pages) :
    let o := (DirectActions.showPage r new).run.run ⟨s.seen c, s.templates, pages, events⟩
    ∃ s', Finishes (step r) answer? s ⟨name, c, .opens new⟩ (o.1.mapError (.directAction name)) s' ∧
      s'.pages.Placed s'.instances o.2.pages ∧ s'.templates = o.2.templates ∧
      s'.contextIdCount = o.2.context.contextIdCount := by
  obtain ⟨events', htr⟩ := Exchange.traverse_at_desk
    (⟨(s.seen c).takeContextId.2, s.templates, pages, events⟩ : Exchange σ) new.awake (Pass.renderPage r)
  have hopens : ((⟨name, c, .opens new⟩ : Entry σ).step r s) = (s.counted (s.seen c).takeContextId.2,
      ⟨name, (s.seen c).takeContextId.2, .draws (s.seen c).pageId new⟩) := by
    rw [← Context.takeContextId_fst]
    rfl
  rw [DirectActions.run_showPage, htr]
  rcases hw : ((⟨(s.seen c).takeContextId.2, s.templates, pages, events⟩ : Exchange σ).desk new.awake).walk (Pass.renderPage r)
    with ⟨result, d⟩
  have hdraws : (⟨name, (s.seen c).takeContextId.2, .draws (s.seen c).pageId new⟩ : Entry σ).step r
      (s.counted (s.seen c).takeContextId.2) = ((s.counted (s.seen c).takeContextId.2).noticed d,
        ⟨name, d.context, .drawn name (s.seen c).pageId d.page result⟩) := by
    have hdesk : (s.counted (s.seen c).takeContextId.2).desk (s.seen c).takeContextId.2 new.awake =
      (⟨(s.seen c).takeContextId.2, s.templates, pages, events⟩ : Exchange σ).desk new.awake := rfl
    simp only [step]
    rw [hdesk, hw]
  rcases result with e | response
  · refine ⟨(s.counted (s.seen c).takeContextId.2).noticed d, ?_, h, rfl, rfl⟩
    exact .step (by rw [hopens]; exact .step (by rw [hdraws]; exact .answered rfl))
  · refine ⟨((s.counted (s.seen c).takeContextId.2).noticed d).save (s.seen c).pageId d.page, ?_, h.save _ _, rfl, rfl⟩
    exact .step (by rw [hopens]; exact .step (by rw [hdraws]; exact .step (.answered rfl)))

/-- A direct action is answered as if it were done in one go, and so is the session left. -/
theorem alone (r : Registry σ) (name : String) (code : Asking (Except Failure Reply)) (s : Shared σ) (c : Context)
    {pages : PageCache (Instance σ)} (h : s.pages.Placed s.instances pages) :
    let o := (DirectActions.run r name fun _ c => code.run c).run.run ⟨s.seen c, s.templates, pages, []⟩
    ∃ s', Finishes (step r) answer? s ⟨name, c, .asks code⟩ o.1 s' ∧ s'.pages.Placed s'.instances o.2.pages ∧
      s'.templates = o.2.templates ∧ s'.contextIdCount = o.2.context.contextIdCount := by
  induction code generalizing s c with
  | own next ih =>
    obtain ⟨s', hfinishes, h'⟩ :=
      ih (s.seen c).takeContextId.1 (s.counted (s.seen c).takeContextId.2) (s.seen c).takeContextId.2 h
    exact ⟨s', .step hfinishes, h'⟩
  | another next ih =>
    obtain ⟨s', hfinishes, h'⟩ :=
      ih (s.seen c).nextContextId.1 (s.counted (s.seen c).nextContextId.2) (s.seen c).nextContextId.2 h
    exact ⟨s', .step hfinishes, h'⟩
  | done result =>
    rw [DirectActions.run_eq, run_bind, DirectActions.run_outcome]
    simp only [Asking.run]
    rcases result with e | reply
    · exact ⟨s, .step (.answered rfl), h, rfl, rfl⟩
    dsimp only
    have hreplied : (⟨name, c, .asks (.done (.ok reply))⟩ : Entry σ).step r s =
      (s, ⟨name, c, .replied r name (.ok reply)⟩) := rfl
    rcases ho : (Outcome.ofReply r reply).1 with e | _ | new | result <;>
      simp only [Stage.replied, ho] at hreplied
    · exact ⟨s, .step (.answered (by rw [hreplied]; rfl)), h, rfl, rfl⟩
    · exact ⟨s, .step (.answered (by rw [hreplied]; rfl)), h, rfl, rfl⟩
    · obtain ⟨s', hfinishes, h'⟩ := shows_alone r name new s c (Outcome.ofReply r reply).2 h
      exact ⟨s', .step (by rw [hreplied]; exact hfinishes), h'⟩
    · exact ⟨s, .step (.answered (by rw [hreplied]; rfl)), h, rfl, rfl⟩

end Entry

/-! ## Ids that are taken at work -/

theorem Shared.counted_of_eq {s : Shared σ} {c : Context} (h : c.contextIdCount = s.contextIdCount) :
    s.counted c = s := by
  simp [counted, h]

theorem Shared.counted_of_succ {s : Shared σ} {c : Context} (h : c.contextIdCount = s.contextIdCount + 1) :
    (s.counted c).given = s.given ++ [toString s.contextIdCount] := by
  simp [counted, h]

/-- The work on a page that has an id takes none from the session. -/
theorem Shared.noticed_of_id {s : Shared σ} {c : Context} {id : String} (hid : c.contextId = some id) {d : Desk σ}
    (h : (s.seen c).TakesOwn d.context) :
    d.context.contextId = some id ∧ d.context.contextIdCount = s.contextIdCount ∧
      s.noticed d = { s with templates := d.templates } := by
  obtain ⟨hid', hcount⟩ := h.of_some hid
  refine ⟨hid', hcount, ?_⟩
  rw [noticed, counted_of_eq hcount]

theorem Context.contextId_takeContextId (c : Context) : c.takeContextId.2.contextId = some c.takeContextId.1 := by
  unfold takeContextId nextContextId
  rcases hid : c.contextId with _ | id
  · rfl
  · exact hid

section Takes

variable [Component σ]

namespace Desk

/-- The work takes no id but that of the response. -/
def Takes {β : Type} (m : ExceptT DispatchError (StateM (Desk σ)) β) : Prop :=
  ∀ d : Desk σ, d.context.TakesOwn (m.run.run d).2.context

omit [Component σ] in
theorem Takes.bind {α β : Type} {m : ExceptT DispatchError (StateM (Desk σ)) α}
    {f : α → ExceptT DispatchError (StateM (Desk σ)) β} (hm : Takes m) (hf : ∀ a, Takes (f a)) : Takes (m >>= f) := by
  intro d
  have h := hm d
  rw [run_bind]
  rcases hrun : m.run.run d with ⟨e | a, d'⟩ <;> rw [hrun] at h
  · exact h
  · exact h.trans (hf a d')

omit [Component σ] in
theorem Takes.get {β : Type} {f : Desk σ → ExceptT DispatchError (StateM (Desk σ)) β} (hf : ∀ d, Takes (f d)) :
    Takes (do f (← MonadState.get)) := fun d => hf d d

theorem walk_takes (r : Registry σ) (p : DispatchPhase) (phase : Phase) : Takes (Desk.phase p (Pass.walkPage r phase)) :=
  fun d => walkPage_takesOwn r phase (.start d.context d.templates d.page)

theorem render_takes (r : Registry σ) (d : Desk σ) : d.context.TakesOwn (d.walk (Pass.renderPage r)).2.context :=
  renderPage_takesOwn r (.start d.context d.templates d.page)

theorem locked_takes (r : Registry σ) : Takes (locked r) := by
  have hshow : Takes (.inl <$> phase .generateResponse (Pass.renderPage r) :
      ExceptT DispatchError (StateM (Desk σ)) (Http.Response ⊕ Instance σ)) := by
    rw [map_eq_pure_bind]
    exact Takes.bind (render_takes r) fun _ d => .refl _
  refine Takes.bind (Takes.bind (fun d => .refl _) fun _ => .get fun d => ?_) fun found => ?_
  · split
    · exact (walk_takes r _ _).bind fun _ => walk_takes r _ _
    · exact walk_takes r _ _
  · rcases found with _ | _ | new | result
    · exact hshow
    · exact hshow
    · exact fun d => .refl _
    · rcases result with e | response <;> exact fun d => .refl _

end Desk

end Takes

end PageServer
