/-
  PageServer.Proofs.Expiry — when a link expires.

  Whether a page is still there is a matter of what has been used since. A request uses a page if it
  finds it, and once more if a page is shown under its id (`Application.touches`); a request that
  fails before, or at the look-up, uses nothing. The cache is at every time the ids of all uses in
  the session, latest first and each of them once, cut off at its capacity (`Recalls`). This does not
  depend on what was dropped on the way, since an id that is used again comes to the front either
  way (`take_filter_take`). So a page expires exactly when as many others as the cache has room
  for were used after it (`page_expires_iff`).
-/

import Mathlib.Data.Finset.Card
import PageServer.Proofs.Runs

namespace PageServer

/-! ## Ids by their last use -/

/-- The ids in a list, each where it comes first. -/
def firstUses : List String → List String
  | [] => []
  | id :: rest => id :: (firstUses rest).filter (· ≠ id)

theorem nodup_firstUses (ids : List String) : (firstUses ids).Nodup := by
  induction ids with
  | nil => exact .nil
  | cons id rest ih =>
    refine List.nodup_cons.mpr ⟨fun hid => ?_, ih.filter _⟩
    simp at hid

theorem mem_firstUses {id : String} {ids : List String} : id ∈ firstUses ids ↔ id ∈ ids := by
  induction ids with
  | nil => rfl
  | cons id' rest ih =>
    by_cases h : id = id'
    · simp [firstUses, h]
    · simp [firstUses, h, ih]

theorem firstUses_cons_cons (id : String) (rest : List String) :
    firstUses (id :: id :: rest) = firstUses (id :: rest) := by
  simp [firstUses, List.filter_filter]

/-- What is taken out of the first `n + 1` is made up for by the last of them. -/
theorem take_filter_take {l : List String} (h : l.Nodup) (id : String) (n : Nat) :
    ((l.take (n + 1)).filter (· ≠ id)).take n = (l.filter (· ≠ id)).take n := by
  induction l generalizing n with
  | nil => rfl
  | cons x rest ih =>
    obtain ⟨hx, hrest⟩ := List.nodup_cons.mp h
    by_cases hid : x = id
    · subst hid
      have hkeep : ∀ l : List String, x ∉ l → l.filter (· ≠ x) = l := by
        intro l hl
        refine List.filter_eq_self.mpr fun y hy => decide_eq_true fun heq => hl ?_
        rwa [← heq]
      simp only [List.take_succ_cons, List.filter_cons, ne_eq, not_true, decide_false, Bool.false_eq_true, if_false]
      rw [hkeep rest hx, hkeep (rest.take n) fun hm => hx (List.mem_of_mem_take hm), List.take_take, Nat.min_self]
    · rcases n with _ | n
      · simp
      · have hih := ih hrest n
        simpa [hid] using hih

theorem filter_takeWhile {l : List String} {p : String → Bool} {id : String} (hid : p id = true) :
    (l.filter p).takeWhile (· ≠ id) = (l.takeWhile (· ≠ id)).filter p := by
  induction l with
  | nil => rfl
  | cons x rest ih =>
    by_cases hx : x = id
    · subst hx
      simp [hid]
    · by_cases hp : p x = true
      · simpa [hp, hx] using ih
      · simpa [hp, hx] using ih

/-- Those that were used later are the ones before it. -/
theorem mem_takeWhile_firstUses {ids : List String} {id id' : String} :
    id' ∈ (firstUses ids).takeWhile (· ≠ id) ↔ id' ∈ ids.takeWhile (· ≠ id) := by
  induction ids with
  | nil => rfl
  | cons x rest ih =>
    by_cases hx : x = id
    · simp [firstUses, hx]
    · have hkeep : decide (id ≠ x) = true := decide_eq_true (Ne.symm hx)
      rw [firstUses, List.takeWhile_cons_of_pos (by simpa using hx), List.takeWhile_cons_of_pos (by simpa using hx),
        filter_takeWhile hkeep, List.mem_cons, List.mem_cons, List.mem_filter, ih]
      by_cases hx' : id' = x <;> simp [hx']

theorem mem_take_iff {l : List String} (h : l.Nodup) {id : String} {n : Nat} :
    id ∈ l.take n ↔ id ∈ l ∧ (l.takeWhile (· ≠ id)).length < n := by
  induction l generalizing n with
  | nil => simp
  | cons x rest ih =>
    obtain ⟨-, hrest⟩ := List.nodup_cons.mp h
    rcases n with _ | n
    · simp
    · by_cases hx : x = id
      · simp [hx]
      · simp [hx, Ne.symm hx, ih hrest]

/-- An id is among the last `n` that were used if fewer than `n` others were used after it. -/
theorem mem_take_firstUses {ids : List String} {id : String} {n : Nat} :
    id ∈ (firstUses ids).take n ↔ id ∈ ids ∧ (ids.takeWhile (· ≠ id)).toFinset.card < n := by
  have hnodup := nodup_firstUses ids
  have hothers : ((firstUses ids).takeWhile (· ≠ id)).toFinset = (ids.takeWhile (· ≠ id)).toFinset := by
    ext id'
    rw [List.mem_toFinset, List.mem_toFinset, mem_takeWhile_firstUses]
  rw [mem_take_iff hnodup, mem_firstUses, ← hothers,
    List.toFinset_card_of_nodup (hnodup.sublist (List.takeWhile_sublist _))]

/-! ## The uses in a session -/

/-- A use of a context id: a page was found under it, or saved. -/
inductive Touch where
  | restored (id : String)
  | saved (id : String)
  deriving DecidableEq, Repr

def Touch.id : Touch → String
  | restored id => id
  | saved id => id

namespace Application

variable {σ : Type} [Component σ]

/-- What a request uses, latest first. -/
def touches (app : Application σ) (x : Exchange σ) : List Touch :=
  match app.hit? x, app.shown? x with
  | none, none => []
  | some (a, _), none => [.restored a.contextId]
  | some (a, _), some (id, _) => [.saved id, .restored a.contextId]
  | none, some (id, _) => [.saved id]

/-- The uses in the session `id` with those of a request that comes in, if it is for that session. A
    session that was dropped begins anew. -/
def told (app : Application σ) (id : String) (log : List Touch) (a : Arrival) : List Touch :=
  let log := if ((app.remaining a).get? id).isSome then log else []
  if a.session = id then app.touches (app.incoming a) ++ log else log

/-- The uses in the session `id`, latest first, after those in `log` and these requests. -/
def history (app : Application σ) (id : String) : List Touch → List Arrival → List Touch
  | log, [] => log
  | log, a :: rest => history (app.serve a) id (app.told id log a) rest

end Application

/-! ## What the cache makes of them -/

/-- The cache holds the ids that were used last, and each of them was saved. -/
structure Recalls {α : Type} (log : List Touch) (c : PageCache α) : Prop where
  tied : c.Tied
  order : c.contextIds.reverse = (firstUses (log.map Touch.id)).take c.capacity
  saved : ∀ t ∈ log, .saved t.id ∈ log

namespace Recalls

variable {α : Type} {c c' : PageCache α} {log : List Touch} {id : String} {p : α}

theorem new (n : Nat) : Recalls [] (PageCache.ofCapacity n : PageCache α) :=
  ⟨PageCache.tied_ofCapacity n, List.take_nil.symm, nofun⟩

theorem mem_iff (h : Recalls log c) : id ∈ c.contextIds ↔
    .saved id ∈ log ∧ ((log.map Touch.id).takeWhile (· ≠ id)).toFinset.card < c.capacity := by
  rw [← List.mem_reverse, h.order, mem_take_firstUses]
  refine and_congr_left fun _ => ⟨fun hid => ?_, fun hid => List.mem_map.mpr ⟨_, hid, rfl⟩⟩
  obtain ⟨t, ht, rfl⟩ := List.mem_map.mp hid
  exact h.saved t ht

/-- A use brings the id to the front, and keeps of the others as many as fit behind it. -/
theorem order_of_use (h : Recalls log c) (hcap : c'.capacity = c.capacity)
    (hids : ∃ n, c'.contextIds = (c.contextIds.erase id).drop n ++ [id] ∧
      (c.contextIds.erase id).length ≤ n + (c.capacity - 1) ∧
        (n = 0 ∨ (c.contextIds.erase id).length = n + (c.capacity - 1))) :
    c'.contextIds.reverse = (firstUses (id :: log.map Touch.id)).take c'.capacity := by
  obtain ⟨n, hids, hle, hfull⟩ := hids
  obtain ⟨m, hm⟩ : ∃ m, c.capacity = m + 1 := ⟨c.capacity - 1, by have := h.tied.capacity; omega⟩
  have hkept : ((c.contextIds.erase id).drop n).reverse = (c.contextIds.erase id).reverse.take m := by
    rw [List.reverse_drop]
    rcases hfull with rfl | hfull
    · rw [List.take_of_length_le (by simp), List.take_of_length_le (by simp; omega)]
    · congr 1
      omega
  have hothers : (c.contextIds.erase id).reverse = c.contextIds.reverse.filter (· ≠ id) := by
    rw [h.tied.nodup_contextIds.erase_eq_filter, List.filter_reverse]
    congr 1
    exact List.filter_congr fun x _ => by by_cases hx : x = id <;> simp [hx]
  rw [hids, List.reverse_append, hkept, hothers, h.order, hcap, hm,
    take_filter_take (nodup_firstUses _) id m]
  rfl

theorem held (h : Recalls log c) (hid : id ∈ c.contextIds) (hc : c.Held id p c') : Recalls (.restored id :: log) c' := by
  refine ⟨hc.tied, ?_, fun t ht => ?_⟩
  · show c'.contextIds.reverse = (firstUses (id :: log.map Touch.id)).take c'.capacity
    refine h.order_of_use hc.capacity ⟨0, by rw [hc.contextIds, List.drop_zero], ?_, .inl rfl⟩
    have hlength := h.tied.length_contextIds
    rw [List.length_erase_of_mem hid]
    omega
  · have hold := (h.mem_iff.mp hid).1
    rcases List.mem_cons.mp ht with rfl | ht
    · exact List.mem_cons_of_mem _ hold
    · exact List.mem_cons_of_mem _ (h.saved t ht)

theorem brought (h : Recalls log c) (hc : c.Saved id p c') : Recalls (.saved id :: log) c' := by
  refine ⟨hc.tied, ?_, fun t ht => ?_⟩
  · show c'.contextIds.reverse = (firstUses (id :: log.map Touch.id)).take c'.capacity
    obtain ⟨n, hn, hids, hfull⟩ := hc.contextIds
    have hroom := hc.tied.length_contextIds
    rw [hids, hc.capacity] at hroom
    simp only [List.length_append, List.length_drop, List.length_singleton] at hroom
    refine h.order_of_use hc.capacity ⟨n, hids, by omega, ?_⟩
    rcases Nat.le_one_iff_eq_zero_or_eq_one.mp hn with rfl | rfl
    · exact .inl rfl
    · have := hfull rfl
      have hpos := h.tied.capacity
      exact .inr (by omega)
  · rcases List.mem_cons.mp ht with rfl | ht
    · exact List.mem_cons_self
    · exact List.mem_cons_of_mem _ (h.saved t ht)

/-- Another page in the place of one that was found. -/
theorem replaced (h : Recalls (.restored id :: log) c) : Recalls (.saved id :: .restored id :: log) c := by
  refine ⟨h.tied, ?_, fun t ht => ?_⟩
  · rw [h.order, List.map_cons, List.map_cons, List.map_cons, Touch.id, Touch.id, firstUses_cons_cons]
  · rcases List.mem_cons.mp ht with rfl | ht
    · exact List.mem_cons_self
    · exact List.mem_cons_of_mem _ (h.saved t ht)

end Recalls

/-! ## Runs -/

section Runs

variable {σ : Type} [Component σ]

/-- A request uses what it says. -/
theorem Recalls.respond {app : Application σ} {log : List Touch} {x : Exchange σ} (h : Recalls log x.pages) :
    Recalls (app.touches x ++ log) (app.respond x).2.pages := by
  have hpages := app.respond_pages x h.tied
  have hfound : ∀ {a p}, app.hit? x = some (a, p) → a.contextId ∈ x.pages.contextIds :=
    fun hhit => h.tied.mem_contextIds.mpr ⟨_, Application.page?_of_hit? hhit⟩
  unfold Application.touches
  rcases hhit : app.hit? x with _ | ⟨a, p⟩ <;> rcases hshown : app.shown? x with _ | ⟨id, shown⟩ <;>
    simp only [hhit, hshown] at hpages ⊢
  · rw [hpages]
    exact h
  · exact h.brought hpages
  · obtain ⟨q, -, hheld⟩ := hpages
    exact h.held (hfound hhit) hheld
  · obtain ⟨rfl, hheld⟩ := hpages
    exact (h.held (hfound hhit) hheld).replaced

/-- The cache that a request of the session `id` would find. -/
def Sessions.pagesOf {α : Type} (ss : Sessions α) (id : String) : PageCache α := (ss.opened 0 id).pages

theorem Sessions.opened_pages {α : Type} (ss : Sessions α) (now : Nat) (id : String) :
    (ss.opened now id).pages = ss.pagesOf id := by
  unfold pagesOf
  rcases hs : ss.get? id with _ | s
  · rw [opened_of_none hs, opened_of_none hs]
    rfl
  · rw [opened_of_get? hs, opened_of_get? hs]

/-- What a session recalls is what has been used in it. -/
theorem Recalls.serve {app : Application σ} (hs : app.sessions.Sound) {id : String} {log : List Touch}
    (h : Recalls log (app.sessions.pagesOf id)) (a : Arrival) :
    Recalls (app.told id log a) ((app.serve a).sessions.pagesOf id) := by
  have hleft : Recalls (if ((app.remaining a).get? id).isSome then log else []) ((app.remaining a).pagesOf id) := by
    rcases hget : (app.remaining a).get? id with _ | s
    · have hnew := Recalls.new (α := Instance σ) (app.remaining a).pageCacheSize
      rwa [Sessions.pagesOf, Sessions.opened_of_none hget]
    · have hold := hs.get?_remaining a hget
      rw [Sessions.pagesOf, Sessions.opened_of_get? hold] at h
      rwa [Sessions.pagesOf, Sessions.opened_of_get? hget]
  unfold Application.told
  by_cases hid : a.session = id
  · subst hid
    have hin : (app.incoming a).pages = (app.remaining a).pagesOf a.session := Sessions.opened_pages _ _ _
    rw [← hin] at hleft
    rw [if_pos rfl, Sessions.pagesOf, Sessions.opened_of_get? (hs.get?_serve_self a)]
    exact hleft.respond
  · rw [if_neg hid]
    have hget := hs.get?_serve_of_ne a (Ne.symm hid)
    have hsame : (app.serve a).sessions.pagesOf id = (app.remaining a).pagesOf id := by
      rcases hr : (app.remaining a).get? id with _ | s <;> rw [hr] at hget
      · rw [Sessions.pagesOf, Sessions.opened_of_none hget, Sessions.pagesOf, Sessions.opened_of_none hr]
        show PageCache.ofCapacity _ = PageCache.ofCapacity _
        rw [app.serve_pageCacheSize, app.remaining_pageCacheSize]
      · rw [Sessions.pagesOf, Sessions.opened_of_get? hget, Sessions.pagesOf, Sessions.opened_of_get? hr]
    rw [hsame]
    exact hleft

theorem Recalls.serveAll {app : Application σ} (hs : app.sessions.Sound) {id : String} {log : List Touch}
    (h : Recalls log (app.sessions.pagesOf id)) (arrivals : List Arrival) :
    Recalls (app.history id log arrivals) ((app.serveAll arrivals).sessions.pagesOf id) := by
  induction arrivals generalizing app log with
  | nil => exact h
  | cons a rest ih => exact ih (hs.serve a) (h.serve hs a)

end Runs

/-! ## Requests to elements -/

namespace Dispatch

variable {σ : Type} {α β : Type}

/-- If the steps fail, then with the page at hand. -/
def FailsAtWork (m : Dispatch σ α) : Prop :=
  ∀ x e, (m.run.run x).1 = .error e → ∃ phase cause, e = .failed phase cause

theorem FailsAtWork.pure (a : α) : FailsAtWork (pure a : Dispatch σ α) := by
  intro x e he
  cases he

theorem FailsAtWork.bind {m : Dispatch σ α} {f : α → Dispatch σ β} (hm : FailsAtWork m) (hf : ∀ a, FailsAtWork (f a)) :
    FailsAtWork (m >>= f) := by
  intro x e he
  have h := hm x
  rw [run_bind] at he
  rcases hrun : m.run.run x with ⟨e' | a, y⟩ <;> rw [hrun] at h he
  · cases he
    exact h e rfl
  · exact hf a y e he

theorem FailsAtWork.get {f : Exchange σ → Dispatch σ α} (hf : ∀ x, FailsAtWork (f x)) :
    FailsAtWork (do f (← MonadState.get)) := fun x => hf x x

theorem FailsAtWork.map {m : Dispatch σ α} {f : α → β} (hm : FailsAtWork m) : FailsAtWork (f <$> m) := by
  rw [map_eq_pure_bind]
  exact .bind hm fun _ => .pure _

variable [Component σ] {r : Registry σ}

omit [Component σ] in
theorem onCached_failsAtWork (phase : DispatchPhase) (id : String) (page : Instance σ) (pass : Pass σ α) :
    FailsAtWork (onCached phase id page pass) := by
  intro x e he
  rw [run_onCached] at he
  rcases hrun : x.traverse page pass with ⟨⟨cause | b, page'⟩, y⟩ <;> rw [hrun] at he <;> cases he
  exact ⟨phase, cause, rfl⟩

theorem work_failsAtWork (a : Address) (page : Instance σ) : FailsAtWork (work r a page) := by
  have htake : FailsAtWork (Prod.snd <$> onCached .takeValues a.contextId page (Pass.walkPage r .take)) :=
    .map (onCached_failsAtWork _ _ page _)
  have hinvoke : ∀ page, FailsAtWork (onCached .invokeAction a.contextId page (Pass.walkPage r .invoke)) :=
    fun page => onCached_failsAtWork _ _ page _
  refine .get fun x => ?_
  split
  · exact .bind htake hinvoke
  · exact hinvoke page

theorem conclude_failsAtWork (o : Address × Found σ × Instance σ) : FailsAtWork (conclude r o) := by
  obtain ⟨a, found, page⟩ := o
  have hshow : FailsAtWork (Prod.fst <$> onCached .generateResponse a.contextId page (Pass.renderPage r)) :=
    .map (onCached_failsAtWork _ _ page _)
  rcases found with _ | _ | new | result
  · exact hshow
  · exact hshow
  · intro x e he
    dsimp only [conclude] at he
    rw [run_replace] at he
    rcases hrun : x.traverse new.awake (Pass.renderPage r) with ⟨⟨cause | response, shown⟩, y⟩ <;> rw [hrun] at he <;>
      cases he
    exact ⟨.generateResponse, cause, rfl⟩
  · intro x e he
    rcases result with cause | response <;> cases he
    exact ⟨.generateResponse, cause, rfl⟩

/-- A request fails for want of its page exactly if it is not in the cache. -/
theorem expired_iff {x : Exchange σ} (hx : x.pages.Tied) {a : Address}
    (ha : Address.ofSegments x.context.request.rawSegments = .ok a) :
    ((respond r).run.run x).1 = .error (.pageExpired ⟨a.contextId⟩) ↔ a.contextId ∉ x.pages.contextIds := by
  rw [respond_eq, run_bind, run_invoked r ha]
  rcases hp : x.pages.page? a.contextId with _ | p
  · rw [PageCache.reuse_of_miss hp]
    have hnot : a.contextId ∉ x.pages.contextIds := by
      rw [hx.mem_contextIds, hp]
      exact nofun
    exact ⟨fun _ => hnot, fun _ => rfl⟩
  · have hfound : x.pages.reuse a.contextId = (.ok p, (x.pages.reuse a.contextId).2) :=
      Prod.ext (PageCache.reuse_of_page? hx hp).1 rfl
    rw [hfound]
    dsimp only
    refine ⟨fun he => ?_, fun hnot => absurd (hx.mem_contextIds.mpr ⟨p, hp⟩) hnot⟩
    have hwork := work_failsAtWork (r := r) a p.awake
      { x.mapContext (·.begin a) with pages := (x.pages.reuse a.contextId).2 }
    rcases hrun : (work r a p.awake).run.run { x.mapContext (·.begin a) with pages := (x.pages.reuse a.contextId).2 } with
      ⟨e | o, y⟩ <;> rw [hrun] at he hwork
    · obtain ⟨phase, cause, rfl⟩ := hwork e rfl
      cases he
    · obtain ⟨phase, cause, hfailed⟩ := conclude_failsAtWork (r := r) (a, o) y _ he
      cases hfailed

end Dispatch

/-- A request to an element of a page expires exactly if no page was ever saved under the page's id
    in this session, or as many others as it keeps pages were saved or found since this id was. -/
theorem page_expires_iff {σ : Type} [Component σ] (app : Application σ) (hs : app.sessions.Sound) {id : String}
    (hnew : app.sessions.get? id = none) (arrivals : List Arrival) (now : Nat) (errorId : String)
    {request : Http.Request} {a : Address} (ha : Address.ofSegments request.rawSegments = .ok a) :
    let log := app.history id [] arrivals
    ((app.serveAll arrivals).dispatch now id errorId request).1.1 = .error (.pageExpired ⟨a.contextId⟩) ↔
      (.saved a.contextId ∉ log ∨
        max app.sessions.pageCacheSize 1 ≤ ((log.map Touch.id).takeWhile (· ≠ a.contextId)).toFinset.card) := by
  intro log
  have hbegin : Recalls [] (app.sessions.pagesOf id) := by
    rw [Sessions.pagesOf, Sessions.opened_of_none hnew]
    exact .new _
  have hrecalls := hbegin.serveAll hs arrivals
  obtain ⟨sessions, templates, n, heq, hsize⟩ := app.serveAll_eq arrivals
  have hcap : ((app.serveAll arrivals).sessions.pagesOf id).capacity = max app.sessions.pageCacheSize 1 := by
    rw [Sessions.pagesOf, (hs.serveAll arrivals).opened_capacity, heq]
    exact congrArg (max · 1) hsize
  obtain ⟨x, hpages, hrequest, hdispatch⟩ : ∃ x : Exchange σ, x.pages = (app.serveAll arrivals).sessions.pagesOf id ∧
      x.context.request = request ∧ ((app.serveAll arrivals).dispatch now id errorId request).1.1 =
        ((Dispatch.respond (app.serveAll arrivals).registry).run.run x).1 :=
    ⟨(app.serveAll arrivals).exchange ((app.serveAll arrivals).sessions.opened now id) errorId request,
      Sessions.opened_pages _ now id, rfl, rfl⟩
  rw [← hpages] at hrecalls hcap
  rw [hdispatch, Dispatch.expired_iff hrecalls.tied (hrequest ▸ ha), hrecalls.mem_iff, hcap]
  rw [not_and_or, Nat.not_lt]

namespace Scripted

/-- A click on the first link of the page `id`. -/
def clickOn (id : String) : Http.Request := request ("/wo/" ++ id ++ ".0") ["wo", id ++ ".0"]

end Scripted

/-- The second page that is shown leaves no room for the first one. -/
theorem page_expires_for_the_next_one :
    let app := Scripted.site "<wo:Hyperlink action=\"$go\" string=\"go\"/>" 1
    let visited := app.serveAll [Scripted.comesIn, Scripted.comesIn]
    app.history "s" [] [Scripted.comesIn, Scripted.comesIn] = [.saved "1", .saved "0"] ∧
      (visited.dispatch 0 "s" "-" (Scripted.clickOn "0")).1.1 = .error (.pageExpired ⟨"0"⟩) ∧
      (visited.dispatch 0 "s" "-" (Scripted.clickOn "1")).1.1 ≠ .error (.pageExpired ⟨"1"⟩) := by
  intro app visited
  have hlog : app.history "s" [] [Scripted.comesIn, Scripted.comesIn] = [.saved "1", .saved "0"] := by decide +kernel
  have hs : app.sessions.Sound := .of_empty rfl
  have hnew : app.sessions.get? "s" = none := rfl
  have hzero : Address.ofSegments (Scripted.clickOn "0").rawSegments = .ok ⟨"0", ⟨[0]⟩⟩ := by decide +kernel
  have hone : Address.ofSegments (Scripted.clickOn "1").rawSegments = .ok ⟨"1", ⟨[0]⟩⟩ := by decide +kernel
  have hfirst := page_expires_iff app hs hnew [Scripted.comesIn, Scripted.comesIn] 0 "-" hzero
  have hsecond := page_expires_iff app hs hnew [Scripted.comesIn, Scripted.comesIn] 0 "-" hone
  dsimp only at hfirst hsecond
  rw [hlog] at hfirst hsecond
  exact ⟨hlog, hfirst.mpr (by decide +kernel), fun h => absurd (hsecond.mp h) (by decide +kernel)⟩

end PageServer
