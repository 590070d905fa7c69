/-
  PageServer.Proofs.ContextIds — context ids are counted up.

  A page goes by the context id that was taken for it from the session's counter. A traversal takes
  that one at most (`Context.TakesOwn`), and no step of an answer counts back (`counting`). So where
  the code of the application takes ids in turn, too, the id of the response to a direct action is
  none that a page was kept under before.
-/

import PageServer.Proofs.Answers
import PageServer.Proofs.Visits

namespace PageServer

variable {σ : Type}

/-! ## Numbers as ids -/

theorem toString_injective {m n : Nat} (h : toString m = toString n) : m = n := by
  have hread : ∀ k : Nat, Nat.ofDigitChars 10 (toString k).toList 0 = k := by
    intro k
    simp [toString, Nat.repr]
  rw [← hread m, h, hread n]

namespace Context

/-- What code that sees the context may do to the ids: it gives out more of them, and one of those
    may become the id of the response. -/
structure Onward (c c' : Context) : Prop where
  counted : c.contextIdCount ≤ c'.contextIdCount
  taken : c'.contextId = c.contextId ∨
    ∃ n, c.contextIdCount ≤ n ∧ n < c'.contextIdCount ∧ c'.contextId = some (toString n)

theorem Onward.refl (c : Context) : Onward c c := ⟨Nat.le_refl _, .inl rfl⟩

theorem Onward.trans {c c' c'' : Context} (h : Onward c c') (h' : Onward c' c'') : Onward c c'' := by
  refine ⟨Nat.le_trans h.counted h'.counted, ?_⟩
  rcases h'.taken with hsame | ⟨n, hle, hlt, hid⟩
  · rw [hsame]
    rcases h.taken with hsame' | ⟨n, hle, hlt, hid⟩
    · exact .inl hsame'
    · exact .inr ⟨n, hle, Nat.lt_of_lt_of_le hlt h'.counted, hid⟩
  · exact .inr ⟨n, Nat.le_trans h.counted hle, hlt, hid⟩

theorem takeContextId_onward (c : Context) : Onward c c.takeContextId.2 := by
  unfold takeContextId nextContextId
  rcases hid : c.contextId with _ | id
  · exact ⟨Nat.le_succ _, .inr ⟨c.contextIdCount, Nat.le_refl _, Nat.lt_succ_self _, rfl⟩⟩
  · exact .refl c

/-- The id of a response is one that was given out for the request. -/
theorem Onward.pageId {c c' : Context} (h : Onward c c') (hnone : c.contextId = none) :
    ∃ n, c.contextIdCount ≤ n ∧ n < c'.takeContextId.2.contextIdCount ∧ c'.pageId = toString n := by
  have hall := h.trans c'.takeContextId_onward
  have hpage : c'.takeContextId.2.contextId = some c'.pageId := by
    unfold takeContextId nextContextId Context.pageId
    rcases hid : c'.contextId with _ | id
    · rfl
    · exact hid
  rcases hall.taken with hsame | ⟨n, hle, hlt, hid⟩
  · rw [hpage, hnone] at hsame
    cases hsame
  · rw [hpage] at hid
    exact ⟨n, hle, hlt, Option.some.inj hid⟩

end Context

/-! ## Traversals -/

/-- No context id was taken, or that of the response. -/
def Context.TakesOwn (c c' : Context) : Prop :=
  c'.contextId = c.contextId ∧ c'.contextIdCount = c.contextIdCount ∨
    c.contextId = none ∧ c'.contextId = some (toString c.contextIdCount) ∧ c'.contextIdCount = c.contextIdCount + 1

namespace Context

theorem takeContextId_takesOwn (c : Context) : TakesOwn c c.takeContextId.2 := by
  unfold takeContextId nextContextId
  rcases hid : c.contextId with _ | id
  · exact .inr ⟨hid, rfl, rfl⟩
  · exact .inl ⟨rfl, rfl⟩

namespace TakesOwn

variable {c c' c'' : Context}

theorem refl (c : Context) : TakesOwn c c := .inl ⟨rfl, rfl⟩

theorem of_some {id : String} (h : TakesOwn c c') (hid : c.contextId = some id) :
    c'.contextId = some id ∧ c'.contextIdCount = c.contextIdCount := by
  rcases h with ⟨hsame, hcount⟩ | ⟨hnone, -, -⟩
  · exact ⟨hsame.trans hid, hcount⟩
  · rw [hid] at hnone
    cases hnone

/-- The id of the response is taken only once. -/
theorem trans (h : TakesOwn c c') (h' : TakesOwn c' c'') : TakesOwn c c'' := by
  rcases h with ⟨hid, hcount⟩ | ⟨hnone, hid, hcount⟩
  · rw [TakesOwn, hid, hcount] at h'
    exact h'
  · obtain ⟨hid', hcount'⟩ := h'.of_some hid
    exact .inr ⟨hnone, hid', hcount'.trans hcount⟩

theorem counted (h : TakesOwn c c') : c.contextIdCount ≤ c'.contextIdCount := by
  rcases h with ⟨-, hcount⟩ | ⟨-, -, hcount⟩
  · exact Nat.le_of_eq hcount.symm
  · rw [hcount]
    exact Nat.le_succ _

theorem pageId (h : TakesOwn c c') : c'.pageId = c.pageId := by
  rcases h with ⟨hid, hcount⟩ | ⟨hnone, hid, -⟩
  · rw [Context.pageId, hid, hcount]
    rfl
  · rw [Context.pageId, Context.pageId, hid, hnone]
    rfl

end TakesOwn

end Context

/-- Elements, forms and containers around do not matter. -/
theorem Context.TakesOwn.along {s t : Scene σ} (h : Along (fun s t : Scene σ => s.context.TakesOwn t.context) s t) :
    s.context.TakesOwn t.context := by
  induction h with
  | refl => exact .refl _
  | visit _ hr ih => exact ih.trans hr
  | next _ ih => exact ih

variable [Component σ] {r : Registry σ}

theorem takesOwn_kept (r : Registry σ) : Kept r fun s t : Scene σ => s.context.TakesOwn t.context where
  refl _ := .refl _
  trans := .trans
  sets _ _ _ := .refl _
  takes s _ _ _ _ := s.withCurrent_context _ ▸ .refl _
  response _ _ := .refl _
  url s := s.context.takeContextId_takesOwn
  performs s name := s.withCurrent_context _ ▸ .refl _
  templates _ _ _ _ := .refl _
  level s _ h := by
    have hdown : (s.mapContext Context.down).context.TakesOwn _ := .along h
    exact hdown
  form _ _ h := h
  container _ _ _ h := h
  refused s key child := by
    have hsame : (Pass.putChild key child (s.without key)).context = s.context := by simp [Pass.putChild, Scene.without]
    exact hsame ▸ .refl _
  left s key child content t h := by
    have hs : (s.pushed key child content).context = s.context := s.without_context key
    have ht : s.context.TakesOwn t.context := hs ▸ h
    refine ⟨fun _ => ht, fun f rest _ u hu => ?_⟩
    have hput : (Pass.putChild f.key f.inner u).context = u.context := u.withCurrent_context _
    exact hput ▸ ht.trans hu
  aside _ _ _ _ _ h := h

theorem walkPage_takesOwn (r : Registry σ) (phase : Phase) (s : Scene σ) :
    s.context.TakesOwn ((Pass.walkPage r phase).on s).2.context := by
  rcases hv : pageVisit? r s with _ | v
  · obtain ⟨e, c, ts, hc, hrun⟩ := walkPage_of_no_pageVisit phase hv
    rw [hrun]
    rcases hc with rfl | rfl <;> exact .inl ⟨rfl, rfl⟩
  · rw [walkPage_of_pageVisit hv]
    obtain ⟨d, -, -, -, hscene⟩ := pageVisit?_eq_some.mp hv
    have h : v.scene.context.TakesOwn (v.run r phase).2.context :=
      (takesOwn_kept r).visit phase (v.depth + 1) v.element v.scene
    rw [hscene] at h
    exact h

theorem renderPage_takesOwn (r : Registry σ) (s : Scene σ) :
    s.context.TakesOwn ((Pass.renderPage r).on s).2.context := by
  have h : s.context.TakesOwn _ := walkPage_takesOwn r .render ({ s with response := Http.Response.page } : Scene σ).mute
  rw [Pass.on_renderPage]
  rcases hrun : (Pass.walkPage r .render).on ({ s with response := Http.Response.page } : Scene σ).mute with ⟨e | o, t⟩ <;>
    rw [hrun] at h <;> exact h

/-! ## Answers -/

/-- Code of the application that takes context ids as the session gives them out. -/
def TakesInTurn {α : Type} (f : Helpers → Context → α × Context) : Prop :=
  ∀ hs c, Context.Onward c (f hs c).2

/-- No step of an answer takes an id back. -/
theorem counting (r : Registry σ) :
    Lasting r fun x y : Exchange σ => x.context.contextIdCount ≤ y.context.contextIdCount where
  refl _ := Nat.le_refl _
  trans := Nat.le_trans
  pages _ _ := Nat.le_refl _
  begins _ _ := Nat.le_refl _
  takes x := x.context.takeContextId_onward.counted
  walks x page phase := (walkPage_takesOwn r phase (.start x.context x.templates page)).counted
  renders x page := (renderPage_takesOwn r (.start x.context x.templates page)).counted

/-- No work on a page takes an id but that of the response. -/
theorem takingOwn (r : Registry σ) : Working r fun x y : Exchange σ => x.context.TakesOwn y.context where
  refl _ := .refl _
  trans := .trans
  pages _ _ := .refl _
  walks x page phase := walkPage_takesOwn r phase (.start x.context x.templates page)
  renders x page := renderPage_takesOwn r (.start x.context x.templates page)

namespace Dispatch

variable {x : Exchange σ} {a : Address}

theorem invoked_takesOwn (r : Registry σ) (ha : Address.ofSegments x.context.request.rawSegments = .ok a) :
    (x.context.begin a).TakesOwn ((invoked r).run.run x).2.context := by
  rw [run_invoked r ha]
  rcases x.pages.reuse a.contextId with ⟨e | p, pages⟩
  · exact .refl _
  · exact (takingOwn r).work a p.awake { x.mapContext (·.begin a) with pages := pages }

theorem respond_takesOwn (r : Registry σ) (ha : Address.ofSegments x.context.request.rawSegments = .ok a) :
    (x.context.begin a).TakesOwn ((respond r).run.run x).2.context := by
  have h := invoked_takesOwn r ha
  rw [respond_eq, run_bind]
  rcases hrun : (invoked r).run.run x with ⟨e | o, y⟩ <;> rw [hrun] at h
  · exact h
  · exact h.trans ((takingOwn r).conclude o y)

end Dispatch

namespace DirectActions

theorem outcome_onward {action : DirectAction} (h : TakesInTurn action) (r : Registry σ) (x : Exchange σ) :
    x.context.Onward ((outcome r action).run.run x).2.context := by
  have hc := h r.helpers x.context
  rw [run_outcome]
  rcases hrun : action r.helpers x.context with ⟨e | reply, c⟩ <;> rw [hrun] at hc <;> exact hc

theorem showPage_counts (r : Registry σ) (new : Instance σ) (x : Exchange σ) :
    x.context.takeContextId.2.contextIdCount ≤ ((showPage r new).run.run x).2.context.contextIdCount := by
  have h : x.context.takeContextId.2.contextIdCount ≤
      (({ x with context := x.context.takeContextId.2 } : Exchange σ).traverse new.awake
        (Pass.renderPage r)).2.context.contextIdCount :=
    (renderPage_takesOwn r (.start x.context.takeContextId.2 x.templates new.awake)).counted
  rw [run_showPage]
  rcases hrun : ({ x with context := x.context.takeContextId.2 } : Exchange σ).traverse new.awake (Pass.renderPage r) with
    ⟨⟨e | response, shown⟩, y⟩ <;> rw [hrun] at h <;> exact h

end DirectActions

namespace Application

structure TakesIdsInTurn (app : Application σ) : Prop where
  directActions : ∀ name action, Assoc.get? name app.directActions = some action → TakesInTurn action
  routes : ∀ segments route, app.router.get? segments = some route → TakesInTurn route.handler

omit [Component σ] in
theorem TakesIdsInTurn.action {app : Application σ} (h : app.TakesIdsInTurn) {x : Exchange σ} {action : DirectAction}
    (ha : DirectActions.action? app.directActions x = some action) : TakesInTurn action := by
  obtain ⟨name, -, hname⟩ := Option.bind_eq_some_iff.mp ha
  exact h.directActions name action hname

omit [Component σ] in
theorem TakesIdsInTurn.routed {app : Application σ} (h : app.TakesIdsInTurn) (x : Exchange σ) :
    Context.Onward x.context ((app.router.respond app.registry.helpers).run.run x).2.context := by
  rw [Router.run_respond]
  rcases hr : app.router.get? x.context.request.segments with _ | route
  · exact .refl _
  · exact h.routes _ _ hr _ _

omit [Component σ] in
theorem TakesIdsInTurn.unrouted {app : Application σ} (h : app.TakesIdsInTurn) {x y : Exchange σ}
    (hy : app.unrouted? x = some y) : Context.Onward x.context y.context := by
  have hrouted := h.routed x
  unfold unrouted? at hy
  rcases hrun : (app.router.respond app.registry.helpers).run.run x with ⟨e | _ | response, z⟩ <;>
    rw [hrun] at hy hrouted <;> cases hy
  exact hrouted

theorem TakesIdsInTurn.counts {app : Application σ} (h : app.TakesIdsInTurn) (x : Exchange σ) :
    x.context.contextIdCount ≤ (app.respond x).2.context.contextIdCount :=
  (counting app.registry).respond (h.routed x).counted fun y _ _ ha =>
    (DirectActions.outcome_onward (h.action ha) app.registry y).counted

end Application

end PageServer
