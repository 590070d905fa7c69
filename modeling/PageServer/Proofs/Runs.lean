/-
  PageServer.Proofs.Runs — requests that are handled one after the other.

  A request leaves what is registered as it is (`Application.serve_eq`), and of the sessions it
  changes only its own, but for those that were idle for too long (`get?_serve_of_ne`). So whatever a
  run of requests began with, every session is kept under its id with a page cache as large as the
  settings say (`Sessions.Sound`), and every template that is kept is that of its definition.
-/

import PageServer.Proofs.CachedPages
import PageServer.Proofs.Precompiled

namespace PageServer

variable {σ : Type}

/-- A request as it comes in, in a session. -/
structure Arrival where
  now : Nat
  session : String
  /-- The id to report an internal error under. -/
  errorId : String
  request : Http.Request

/-! ## Sessions -/

/-- Every session is found under its id, and keeps as many pages as the settings say. -/
structure Sessions.Sound {α : Type} (ss : Sessions α) : Prop where
  sorted : Assoc.Sorted ss.sessions
  id : ∀ id s, ss.get? id = some s → s.id = id
  tied : ∀ id s, ss.get? id = some s → s.pages.Tied
  capacity : ∀ id s, ss.get? id = some s → s.pages.capacity = max ss.pageCacheSize 1

namespace Sessions

variable {α : Type} {ss : Sessions α} {now : Nat} {id : String} {s : Session α}

/-- The session with this id as a request finds it. -/
def opened (ss : Sessions α) (now : Nat) (id : String) : Session α := (ss.getOrCreate now id).1

theorem opened_of_get? (h : ss.get? id = some s) : ss.opened now id = { s with lastAccess := now } := by
  simp only [opened, getOrCreate, h, Option.getD_some]

theorem opened_of_none (h : ss.get? id = none) : ss.opened now id = ss.fresh now id := by
  simp only [opened, getOrCreate, h, Option.getD_none]
  rfl

theorem get?_expireIdle (h : Assoc.Sorted ss.sessions) (hs : (ss.expireIdle now).2.get? id = some s) :
    ss.get? id = some s := by
  have hmem := Assoc.mem_of_get? (show Assoc.get? id _ = some s from hs)
  exact (Assoc.get?_eq_some_iff h.nodup).mpr (List.mem_filter.mp hmem).1

namespace Sound

theorem of_empty (h : ss.sessions = []) : ss.Sound := by
  have hnone : ∀ id s, ss.get? id ≠ some s := by
    intro id s hs
    rw [get?, h] at hs
    cases hs
  refine ⟨?_, fun id s hs => (hnone id s hs).elim, fun id s hs => (hnone id s hs).elim,
    fun id s hs => (hnone id s hs).elim⟩
  rw [h]
  exact .nil

theorem expireIdle (h : ss.Sound) (now : Nat) : (ss.expireIdle now).2.Sound where
  sorted := h.sorted.filter _
  id id s hs := h.id id s (get?_expireIdle h.sorted hs)
  tied id s hs := h.tied id s (get?_expireIdle h.sorted hs)
  capacity id s hs := h.capacity id s (get?_expireIdle h.sorted hs)

theorem put (h : ss.Sound) (ht : s.pages.Tied) (hc : s.pages.capacity = max ss.pageCacheSize 1) : (ss.put s).Sound := by
  have hget : ∀ id s', (ss.put s).get? id = some s' → (s' = s ∧ id = s.id) ∨ ss.get? id = some s' := by
    intro id s' hs'
    by_cases hid : id = s.id
    · subst hid
      rw [get?, Sessions.put, Assoc.get?_put_self] at hs'
      exact .inl ⟨(Option.some.inj hs').symm, rfl⟩
    · rw [get?, Sessions.put, Assoc.get?_put_of_ne hid] at hs'
      exact .inr hs'
  refine ⟨h.sorted.put _ _, fun id s' hs' => ?_, fun id s' hs' => ?_, fun id s' hs' => ?_⟩ <;>
    rcases hget id s' hs' with ⟨rfl, rfl⟩ | hs'
  · rfl
  · exact h.id id s' hs'
  · exact ht
  · exact h.tied id s' hs'
  · exact hc
  · exact h.capacity id s' hs'

variable (h : ss.Sound) (now : Nat) (id : String)
include h

theorem opened_id : (ss.opened now id).id = id := by
  rcases hs : ss.get? id with _ | s
  · rw [opened_of_none hs]
    rfl
  · rw [opened_of_get? hs]
    exact h.id id s hs

theorem opened_tied : (ss.opened now id).pages.Tied := by
  rcases hs : ss.get? id with _ | s
  · rw [opened_of_none hs]
    exact PageCache.tied_ofCapacity _
  · rw [opened_of_get? hs]
    exact h.tied id s hs

theorem opened_capacity : (ss.opened now id).pages.capacity = max ss.pageCacheSize 1 := by
  rcases hs : ss.get? id with _ | s
  · rw [opened_of_none hs]
    rfl
  · rw [opened_of_get? hs]
    exact h.capacity id s hs

theorem opened : ((ss.getOrCreate now id).2).Sound := h.put (h.opened_tied now id) (h.opened_capacity now id)

end Sound

end Sessions

/-! ## One request -/

section Templates

variable [Component σ] {r : Registry σ}

/-- Requests keep what holds of the templates. -/
theorem preserving {P : Templates → Prop} (hP : r.Preserves P) :
    Lasting r fun x y : Exchange σ => P x.templates → P y.templates where
  refl _ := id
  trans h h' hx := h' (h hx)
  pages _ _ := id
  begins _ _ := id
  takes _ := id
  walks x page phase := Stays.walkPage hP phase (.start x.context x.templates page)
  renders x page := Stays.renderPage hP (.start x.context x.templates page)

theorem compiling (hk : r.Keyed) :
    Lasting r fun x y : Exchange σ => Templates.Compiled r x.templates → Templates.Compiled r y.templates :=
  preserving hk.preserves_compiled

theorem Application.respond_templates {app : Application σ} {P : Templates → Prop} (hP : app.registry.Preserves P)
    {x : Exchange σ} (hx : P x.templates) : P (app.respond x).2.templates := by
  refine (preserving hP).respond ?_ (fun y action _ _ => ?_) hx
  · rw [Router.run_respond]
    rcases app.router.get? x.context.request.segments with _ | route <;> exact id
  · rw [DirectActions.run_outcome]
    rcases action app.registry.helpers y.context with ⟨e | reply, c⟩ <;> exact id

theorem Application.respond_compiled {app : Application σ} (hk : app.registry.Keyed) {x : Exchange σ}
    (hx : Templates.Compiled app.registry x.templates) : Templates.Compiled app.registry (app.respond x).2.templates :=
  respond_templates hk.preserves_compiled hx

end Templates

namespace Application

variable (app : Application σ) (a : Arrival)

/-- The sessions once a request is counted. -/
def remaining : Sessions (Instance σ) := (app.countRequest a.now).sessions

/-- The exchange that a request begins with. -/
def incoming : Exchange σ := app.exchange ((app.remaining a).opened a.now a.session) a.errorId a.request

theorem remaining_cases : app.remaining a = app.sessions ∨ app.remaining a = (app.sessions.expireIdle a.now).2 := by
  unfold remaining countRequest
  dsimp only
  split
  · exact .inr rfl
  · exact .inl rfl

@[simp] theorem remaining_pageCacheSize : (app.remaining a).pageCacheSize = app.sessions.pageCacheSize := by
  rcases app.remaining_cases a with h | h <;> rw [h]
  rfl

variable [Component σ]

/-- The application after a request has been handled. -/
def serve : Application σ := (app.handle a.now a.session a.errorId a.request).2

/-- What has become of the exchange of a request. -/
def outgoing : Exchange σ := (app.respond (app.incoming a)).2

/-- The session of a request afterwards. -/
def leftSession : Session (Instance σ) := sessionAfter ((app.remaining a).opened a.now a.session) (app.outgoing a)

theorem serve_eq : app.serve a =
    { app with
      requestCount := app.requestCount + 1
      templates := (app.outgoing a).templates
      sessions := (((app.remaining a).getOrCreate a.now a.session).2).put (app.leftSession a) } := rfl

@[simp] theorem serve_pageCacheSize : (app.serve a).sessions.pageCacheSize = app.sessions.pageCacheSize := by
  rw [serve_eq]
  exact app.remaining_pageCacheSize a

end Application

section Sound

variable [Component σ]

theorem Application.respond_tied (app : Application σ) {x : Exchange σ} (hx : x.pages.Tied) :
    (app.respond x).2.pages.Tied ∧ (app.respond x).2.pages.capacity = x.pages.capacity := by
  have hpages := app.respond_pages x hx
  rcases hhit : app.hit? x with _ | ⟨a, p⟩ <;> rcases hshown : app.shown? x with _ | ⟨id, shown⟩ <;>
    simp only [hhit, hshown] at hpages
  · rw [hpages]
    exact ⟨hx, rfl⟩
  · exact ⟨hpages.tied, hpages.capacity⟩
  · obtain ⟨q, -, hheld⟩ := hpages
    exact ⟨hheld.tied, hheld.capacity⟩
  · exact ⟨hpages.2.tied, hpages.2.capacity⟩

namespace Sessions.Sound

variable {app : Application σ} (h : app.sessions.Sound) (a : Arrival)
include h

omit [Component σ] in
theorem remaining : (app.remaining a).Sound := by
  rcases app.remaining_cases a with he | he <;> rw [he]
  · exact h
  · exact h.expireIdle a.now

omit [Component σ] in
/-- A session that is still there is as it was. -/
theorem get?_remaining {id : String} {s : Session (Instance σ)} (hs : (app.remaining a).get? id = some s) :
    app.sessions.get? id = some s := by
  rcases app.remaining_cases a with he | he <;> rw [he] at hs
  · exact hs
  · exact get?_expireIdle h.sorted hs

omit [Component σ] in
theorem incoming_tied : (app.incoming a).pages.Tied := (h.remaining a).opened_tied a.now a.session

theorem serve : (app.serve a).sessions.Sound := by
  obtain ⟨htied, hcap⟩ := app.respond_tied (h.incoming_tied a)
  refine ((h.remaining a).opened a.now a.session).put htied ?_
  exact hcap.trans ((h.remaining a).opened_capacity a.now a.session)

theorem get?_serve_self : (app.serve a).sessions.get? a.session = some (app.leftSession a) := by
  have hid : (app.leftSession a).id = a.session := (h.remaining a).opened_id a.now a.session
  rw [Application.serve_eq, get?, Sessions.put, ← hid, Assoc.get?_put_self]

theorem get?_serve_of_ne {id : String} (hid : id ≠ a.session) :
    (app.serve a).sessions.get? id = (app.remaining a).get? id := by
  have hleft : (app.leftSession a).id = a.session := (h.remaining a).opened_id a.now a.session
  have hopened : ((app.remaining a).opened a.now a.session).id = a.session := (h.remaining a).opened_id a.now a.session
  show Assoc.get? id (Assoc.put (app.leftSession a).id _ (Assoc.put ((app.remaining a).opened a.now a.session).id _
    (app.remaining a).sessions)) = _
  rw [hleft, hopened, Assoc.get?_put_of_ne hid, Assoc.get?_put_of_ne hid]
  rfl

end Sessions.Sound

/-! ## Any number of requests -/

namespace Application

/-- The application after these requests, the first one first. -/
def serveAll (app : Application σ) (arrivals : List Arrival) : Application σ :=
  arrivals.foldl (fun app a => app.serve a) app

/-- What is registered, and how many pages a session keeps, is the same after all requests. -/
theorem serveAll_eq (app : Application σ) (arrivals : List Arrival) :
    ∃ sessions templates n, app.serveAll arrivals = { app with sessions, templates, requestCount := n } ∧
      sessions.pageCacheSize = app.sessions.pageCacheSize := by
  induction arrivals generalizing app with
  | nil => exact ⟨app.sessions, app.templates, app.requestCount, rfl, rfl⟩
  | cons a rest ih =>
    obtain ⟨sessions, templates, n, heq, hsize⟩ := ih (app.serve a)
    exact ⟨sessions, templates, n, heq, hsize.trans (app.serve_pageCacheSize a)⟩

end Application

theorem Sessions.Sound.serveAll {app : Application σ} (h : app.sessions.Sound) (arrivals : List Arrival) :
    (app.serveAll arrivals).sessions.Sound := by
  induction arrivals generalizing app with
  | nil => exact h
  | cons a rest ih => exact ih (h.serve a)

end Sound

/-! ## An application to send requests to -/

namespace Scripted

/-- An application of one page, which its default action opens. -/
def site (template : String) (pageCacheSize : Nat) : Application Scripted :=
  { Application.new { pageCacheSize := pageCacheSize } with
    registry := registry template
    directActions := [("default", fun _ c => (.ok (.openPage "Page" []), c))] }

def request (path : String) (segments : List String) : Http.Request :=
  { method := .get, uri := path, path := path, segments := segments }

/-- Somebody comes to the site. -/
def comesIn : Arrival := { now := 0, session := "s", errorId := "-", request := request "/" [] }

end Scripted

end PageServer
