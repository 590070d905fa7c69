/-
  PageServer.Proofs.OnePage — two requests to one page.

  Whoever has the page first takes its course on the page that was cached. What the other one comes to
  depends on when it has looked the page up and on what was saved until then (`Pair.State`):
  - If it finds the page as the first one has left it in the end, it is as if the one had been
    answered before the other one came (`Pair.InTurn`).
  - If the first one is still about to show and save a new page, or the other one has looked up the
    page that this one replaces, the other one works on a page that is not to stay. It finds what the
    action of the first one has done to it, but its own work is lost with it, unless it also saves a
    new page, and saves it last (`Pair.Overtaken`).
  Both are always answered, and nothing else happens (`requests_to_one_page`). The second case comes
  about only where the two overlap (`Pair.Overlap`), and it is none of the two orders: of two clicks
  that are counted on a page, the second one may see the count of the first one although its page is
  gone in the end (`clicks_are_not_answered_in_turn`).
-/

import Mathlib.Data.Bool.Basic
import Mathlib.Data.List.Induction
import PageServer.Proofs.Course
import PageServer.Proofs.Runs

namespace PageServer

variable {σ : Type} [Component σ]

/-- Two requests to a page that is cached in their session. -/
structure Pair (σ : Type) [Component σ] where
  app : Application σ
  session : Session (Instance σ)
  errorId : Bool → String
  request : Bool → Http.Request
  address : Bool → Address
  id : String
  page : Instance σ
  keyed : app.registry.Keyed
  compiled : Templates.Compiled app.registry app.templates
  tied : session.pages.Tied
  addressed : ∀ i, Address.ofSegments (request i).rawSegments = .ok (address i)
  same : ∀ i, (address i).contextId = id
  cached : session.pages.page? id = some page

namespace Pair

variable (d : Pair σ)

/-- The request on its own. -/
def exchange (i : Bool) : Exchange σ := d.app.exchange d.session (d.errorId i) (d.request i)

/-- The request, where it comes after the work on `x`. -/
def next (x : Exchange σ) (i : Bool) : Exchange σ :=
  (d.app.after d.session x).exchange (Application.sessionAfter d.session x) (d.errorId i) (d.request i)

/-- Both requests after these steps of theirs. -/
def after (schedule : List Bool) : Traffic Bool σ :=
  (Traffic.start d.app d.session fun i => .element (d.errorId i) (d.request i)).run d.app.registry schedule

/-- The outcome is that of `i` being answered before the other one is looked at. -/
def InTurn (i : Bool) (result : Bool → Except DispatchError Http.Response) (pages : PageList (Instance σ)) : Prop :=
  let x := (Dispatch.respond d.app.registry).run.run (d.exchange i)
  let y := (Dispatch.respond d.app.registry).run.run (d.next x.2 !i)
  result i = x.1 ∧ result (!i) = y.1 ∧ pages = y.2.pages.pageList

/-- At one time both requests have looked the page up, and none of them is answered. -/
def Overlap (schedule : List Bool) : Prop :=
  ∃ earlier, earlier <+: schedule ∧ ∀ i, ((d.after earlier).flights i).revisits = some d.id

/-- The action of `i` has given a page that was shown, and the other one has come upon the page that
    was to be replaced. The last page that was saved stays. -/
def Overtaken (i : Bool) (result : Bool → Except DispatchError Http.Response) (pages : PageList (Instance σ)) : Prop :=
  let x := (Dispatch.respond d.app.registry).run.run (d.exchange i)
  let left := (Dispatch.invoked d.app.registry).run.run (d.exchange i)
  let y := (Dispatch.respond d.app.registry).run.run (d.next left.2 !i)
  (Dispatch.shown? d.app.registry (d.exchange i)).isSome ∧ result i = x.1 ∧ result (!i) = y.1 ∧
    (pages = x.2.pages.pageList ∨
      (Dispatch.shown? d.app.registry (d.next left.2 !i)).isSome ∧ pages = y.2.pages.pageList)

/-! ## States -/

/-- The context of the request once its address is known. -/
def context (i : Bool) : Context := (d.exchange i).context.begin (d.address i)

/-- What the request comes to on a page. -/
def course (i : Bool) (page : Instance σ) : Course σ := Desk.course d.app.registry ⟨d.context i, d.app.templates, page⟩

/-- The page is cached at this place. -/
def Cached (s : Shared σ) (place : Nat) (page : Instance σ) : Prop :=
  d.session.pages.Cached d.id s.pages s.instances place page

/-- The request has had a page, that it has taken this course on. -/
def Past (o : Course σ) : Click σ → Option (Instance σ) → Prop :=
  Click.Past d.app.registry d.session.contextIdCount d.id o

/-- The request is to be worked on, at the place it has found or finds. -/
inductive Waits (i : Bool) (place : Nat) : Click σ → Prop
  | comes : Waits i place ⟨(d.exchange i).context, .comes⟩
  | holds : Waits i place ⟨d.context i, .holds d.id place⟩

/-- How far the requests are: `i`, with the work `k` on it, was or will be the first to have the
    page, and then comes the other one, with `l`. -/
inductive State (overlap : Prop) (s : Shared σ) (i : Bool) (k l : Click σ) : Prop
  | waiting {place : Nat} : d.Cached s place d.page → d.Waits i place k → d.Waits (!i) place l → State overlap s i k l
  | acted {place : Nat} {saved : Option (Instance σ)} : d.Past (d.course i d.page) k saved →
      d.Cached s place (saved.getD (d.course i d.page).page) → d.Waits (!i) place l → State overlap s i k l
  /-- The page was replaced, but the other request holds it. -/
  | replaced {place old : Nat} {shown : Instance σ} : overlap → d.Past (d.course i d.page) k (some shown) →
      d.Cached s place shown → l = ⟨d.context !i, .holds d.id old⟩ →
      s.instances[old]? = some (d.course i d.page).page → (∀ id, s.pages.page? id ≠ some old) → State overlap s i k l
  | inTurn {place : Nat} {saved : Option (Instance σ)} : d.Past (d.course i d.page) k (d.course i d.page).new →
      d.Past (d.course (!i) (d.course i d.page).left) l saved →
      d.Cached s place (saved.getD (d.course (!i) (d.course i d.page).left).page) → State overlap s i k l
  | overtaken {place : Nat} {page : Instance σ} {saved saved' : Option (Instance σ)} : overlap →
      (d.course i d.page).new ≠ none → d.Past (d.course i d.page) k saved →
      d.Past (d.course (!i) (d.course i d.page).page) l saved' → d.Cached s place page →
      saved = none ∨ saved = some page ∨ saved' = some page → State overlap s i k l

/-- No id is given out to the requests, and what is compiled is good. -/
structure Steady (s : Shared σ) : Prop where
  count : s.contextIdCount = d.session.contextIdCount
  compiled : Templates.Compiled d.app.registry s.templates

variable {d} {overlap : Prop} {s : Shared σ} {i : Bool} {k l : Click σ} {place : Nat} {page : Instance σ} {o : Course σ}
  {saved : Option (Instance σ)}

theorem saved_or (h : d.Past o k saved) : saved = o.new ∨ saved = none ∧ o.new ≠ none ∧ k.revisits = some d.id := by
  cases h with
  | answered hnew => exact .inl hnew.symm
  | leaves hid hcount hts ho =>
    by_cases hnew : o.new = none
    · exact .inl hnew.symm
    · exact .inr ⟨rfl, hnew, rfl⟩
  | shows hnew hresult => exact .inr ⟨rfl, by simp [hnew], rfl⟩
  | saved hnew => exact .inl hnew.symm

/-- A request that has had the page goes on, and may save another one. -/
theorem step_past (hs : d.Steady s) (hc : d.Cached s place page) (h : d.Past o k saved) :
    ∃ s' k', k.step d.app.registry s = (s', k') ∧ d.Steady s' ∧
      (s'.pages = s.pages ∧ s'.instances = s.instances ∧ d.Past o k' saved ∨
        saved = none ∧ k.revisits = some d.id ∧ ∃ shown place', o.new = some shown ∧ d.Past o k' (some shown) ∧
          d.Cached s' place' shown ∧ s'.instances = s.instances ++ [shown] ∧ ∀ id, s'.pages.page? id ≠ some place) := by
  unfold Past at h
  rw [← hs.count] at h
  obtain ⟨ts, k', hts, ⟨hstep, hpast⟩ | ⟨hsaved, shown, hnew, hrevisits, hstep, hpast⟩⟩ :=
    Click.step_past d.keyed hs.compiled h
  · rw [hs.count] at hpast
    exact ⟨_, k', hstep, ⟨hs.count, hts⟩, .inl ⟨rfl, rfl, hpast⟩⟩
  · rw [hs.count] at hpast
    obtain ⟨hcached, hnobody⟩ := PageCache.Cached.save hc shown
    exact ⟨_, k', hstep, ⟨hs.count, hts⟩, .inr ⟨hsaved, hrevisits, shown, _, hnew, hpast, hcached, rfl, hnobody⟩⟩

/-- A request that holds a page takes its course on it. -/
theorem step_holds (hs : d.Steady s) (hp : s.instances[place]? = some page) :
    ∃ s' k', (⟨d.context i, .holds d.id place⟩ : Click σ).step d.app.registry s = (s', k') ∧ d.Steady s' ∧
      s'.pages = s.pages ∧ s'.instances = s.instances.set place (d.course i page).page ∧
      d.Past (d.course i page) k' none := by
  have hid : (d.context i).contextId = some d.id := by
    rw [← d.same i]
    rfl
  have hcourse : Desk.course d.app.registry ⟨d.context i, s.templates, page⟩ = d.course i page :=
    Desk.course_given d.keyed (d := ⟨d.context i, d.app.templates, page⟩) d.compiled hs.compiled
  obtain ⟨ts, k', hstep, hts, hpast⟩ := Click.step_holds d.keyed hid (hs.count.symm) hs.compiled hp
  rw [hcourse] at hstep hpast
  rw [hs.count] at hpast
  exact ⟨_, k', hstep, ⟨hs.count, hts⟩, rfl, rfl, hpast⟩

/-- A request that is to be worked on finds the page, or takes its course on it. -/
theorem step_waits (hs : d.Steady s) (hc : d.Cached s place page) (h : d.Waits i place k) :
    ∃ s' k', k.step d.app.registry s = (s', k') ∧ d.Steady s' ∧
      (d.Cached s' place page ∧ d.Waits i place k' ∨
        k.revisits = some d.id ∧ d.Cached s' place (d.course i page).page ∧ d.Past (d.course i page) k' none) := by
  cases h with
  | comes =>
    obtain ⟨hok, hcached⟩ := PageCache.Cached.reuse hc
    have hfound : s.pages.reuse (d.address i).contextId = (.ok place, (s.pages.reuse d.id).2) := by
      rw [d.same i]
      exact Prod.ext hok rfl
    have hstep := Click.step_comes (c := (d.exchange i).context) d.app.registry (d.addressed i) hfound
    rw [d.same i] at hstep
    exact ⟨_, _, hstep, ⟨hs.count, hs.compiled⟩, .inl ⟨hcached, .holds⟩⟩
  | holds =>
    obtain ⟨s', k', hstep, hs', hpages, hinstances, hpast⟩ := step_holds (i := i) hs (PageCache.Cached.getElem? hc)
    refine ⟨s', k', hstep, hs', .inr ⟨rfl, ?_, hpast⟩⟩
    have hcached := PageCache.Cached.update hc (d.course i page).page
    rw [Cached, hpages, hinstances]
    exact hcached

theorem cached_congr {s' : Shared σ} (hpages : s'.pages = s.pages) (hinstances : s'.instances = s.instances)
    (hc : d.Cached s place page) : d.Cached s' place page := by
  rw [Cached, hpages, hinstances]
  exact hc

/-- The first goes on. -/
theorem State.step_first (h : d.State overlap s i k l) (hs : d.Steady s) :
    ∃ s' k', k.step d.app.registry s = (s', k') ∧ d.Steady s' ∧
      d.State (overlap ∨ k.revisits = some d.id ∧ l.revisits = some d.id) s' i k' l := by
  cases h with
  | waiting hc hk hl =>
    obtain ⟨s', k', hstep, hs', ⟨hc', hk'⟩ | ⟨-, hc', hk'⟩⟩ := step_waits hs hc hk
    · exact ⟨s', k', hstep, hs', .waiting hc' hk' hl⟩
    · exact ⟨s', k', hstep, hs', .acted hk' hc' hl⟩
  | @acted place _ hk hc hl =>
    obtain ⟨s', k', hstep, hs', ⟨hpages, hinstances, hk'⟩ |
      ⟨rfl, hheld, shown, place', hnew, hk', hc', hinstances, hnobody⟩⟩ := step_past hs hc hk
    · exact ⟨s', k', hstep, hs', .acted hk' (cached_congr hpages hinstances hc) hl⟩
    · cases hl with
      | comes => exact ⟨s', k', hstep, hs', .acted hk' hc' .comes⟩
      | holds =>
        have hget : s.instances[place]? = some (d.course i d.page).page := PageCache.Cached.getElem? hc
        refine ⟨s', k', hstep, hs', .replaced (.inr ⟨hheld, rfl⟩) hk' hc' rfl ?_ hnobody⟩
        rw [hinstances, List.getElem?_append_left (List.getElem?_eq_some_iff.mp hget).1, hget]
  | replaced hov hk hc hl hget hnobody =>
    obtain ⟨s', k', hstep, hs', ⟨hpages, hinstances, hk'⟩ | ⟨hnone, -⟩⟩ := step_past hs hc hk
    · exact ⟨s', k', hstep, hs', .replaced (.inl hov) hk' (cached_congr hpages hinstances hc) hl (hinstances ▸ hget)
        (hpages ▸ hnobody)⟩
    · cases hnone
  | inTurn hk hl hc =>
    obtain ⟨s', k', hstep, hs', ⟨hpages, hinstances, hk'⟩ | ⟨hnone, -, shown, -, hnew, -⟩⟩ := step_past hs hc hk
    · exact ⟨s', k', hstep, hs', .inTurn hk' hl (cached_congr hpages hinstances hc)⟩
    · rw [hnone] at hnew
      cases hnew
  | overtaken hov hnew hk hl hc hlast =>
    obtain ⟨s', k', hstep, hs', ⟨hpages, hinstances, hk'⟩ | ⟨-, -, shown, place', -, hk', hc', -⟩⟩ := step_past hs hc hk
    · exact ⟨s', k', hstep, hs', .overtaken (.inl hov) hnew hk' hl (cached_congr hpages hinstances hc) hlast⟩
    · exact ⟨s', k', hstep, hs', .overtaken (.inl hov) hnew hk' hl hc' (.inr (.inl rfl))⟩

/-- The other one goes on; it may turn out to be the first to have the page. -/
theorem State.step_other (h : d.State overlap s i k l) (hs : d.Steady s) :
    ∃ s' l', l.step d.app.registry s = (s', l') ∧ d.Steady s' ∧
      (d.State (overlap ∨ k.revisits = some d.id ∧ l.revisits = some d.id) s' i k l' ∨
        d.State (overlap ∨ k.revisits = some d.id ∧ l.revisits = some d.id) s' (!i) l' k) := by
  cases h with
  | waiting hc hk hl =>
    obtain ⟨s', l', hstep, hs', ⟨hc', hl'⟩ | ⟨-, hc', hl'⟩⟩ := step_waits hs hc hl
    · exact ⟨s', l', hstep, hs', .inl (.waiting hc' hk hl')⟩
    · exact ⟨s', l', hstep, hs', .inr (.acted hl' hc' (by rwa [Bool.not_not]))⟩
  | acted hk hc hl =>
    obtain ⟨s', l', hstep, hs', ⟨hc', hl'⟩ | ⟨hheld, hc', hl'⟩⟩ := step_waits hs hc hl
    · exact ⟨s', l', hstep, hs', .inl (.acted hk hc' hl')⟩
    · rcases saved_or hk with rfl | ⟨rfl, hnew, hheld'⟩
      · exact ⟨s', l', hstep, hs', .inl (.inTurn hk hl' hc')⟩
      · exact ⟨s', l', hstep, hs', .inl (.overtaken (.inr ⟨hheld', hheld⟩) hnew hk hl' hc' (.inl rfl))⟩
  | @replaced place old shown hov hk hc hl hget hnobody =>
    subst hl
    obtain ⟨s', l', hstep, hs', hpages, hinstances, hl'⟩ := step_holds (i := !i) hs hget
    have hnew : (d.course i d.page).new ≠ none := by
      cases hk with
      | saved hnew => simp [hnew]
    have hc' : d.Cached s' place shown := by
      rw [Cached, hpages, hinstances]
      exact PageCache.Cached.set hc hnobody _
    exact ⟨s', l', hstep, hs', .inl (.overtaken (.inl hov) hnew hk hl' hc' (.inr (.inl rfl)))⟩
  | inTurn hk hl hc =>
    obtain ⟨s', l', hstep, hs', ⟨hpages, hinstances, hl'⟩ | ⟨rfl, -, shown, place', -, hl', hc', -⟩⟩ := step_past hs hc hl
    · exact ⟨s', l', hstep, hs', .inl (.inTurn hk hl' (cached_congr hpages hinstances hc))⟩
    · exact ⟨s', l', hstep, hs', .inl (.inTurn hk hl' hc')⟩
  | overtaken hov hnew hk hl hc hlast =>
    obtain ⟨s', l', hstep, hs', ⟨hpages, hinstances, hl'⟩ | ⟨-, -, shown, place', -, hl', hc', -⟩⟩ := step_past hs hc hl
    · exact ⟨s', l', hstep, hs', .inl (.overtaken (.inl hov) hnew hk hl' (cached_congr hpages hinstances hc) hlast)⟩
    · exact ⟨s', l', hstep, hs', .inl (.overtaken (.inl hov) hnew hk hl' hc' (.inr (.inr rfl)))⟩

theorem State.imp {overlap' : Prop} (h : d.State overlap s i k l) (himp : overlap → overlap') :
    d.State overlap' s i k l := by
  cases h with
  | waiting hc hk hl => exact .waiting hc hk hl
  | acted hk hc hl => exact .acted hk hc hl
  | replaced hov hk hc hl hget hnobody => exact .replaced (himp hov) hk hc hl hget hnobody
  | inTurn hk hl hc => exact .inTurn hk hl hc
  | overtaken hov hnew hk hl hc hlast => exact .overtaken (himp hov) hnew hk hl hc hlast

/-! ## Runs -/

theorem after_concat (schedule : List Bool) (j : Bool) :
    d.after (schedule ++ [j]) = (d.after schedule).step d.app.registry j := by
  rw [after, Traffic.run, List.foldl_append]
  rfl

theorem Overlap.concat {schedule : List Bool} (h : d.Overlap schedule) (j : Bool) : d.Overlap (schedule ++ [j]) := by
  obtain ⟨earlier, hprefix, hheld⟩ := h
  exact ⟨earlier, hprefix.trans (List.prefix_append _ _), hheld⟩

/-- How far the requests are after these steps. -/
def Reached (d : Pair σ) (schedule : List Bool) (t : Traffic Bool σ) : Prop :=
  ∃ i k l, t.flights i = .click k ∧ t.flights (!i) = .click l ∧ d.Steady t.shared ∧
    d.State (d.Overlap schedule) t.shared i k l

/-- What is done in a step of `j`, is done to its flight and to what is shared. -/
theorem step_flight (r : Registry σ) {t : Traffic Bool σ} {j : Bool} {k l : Click σ} (hk : t.flights j = .click k)
    (hl : t.flights (!j) = .click l) {s' : Shared σ} {k' : Click σ} (hstep : k.step r t.shared = (s', k')) :
    (t.step r j).shared = s' ∧ (t.step r j).flights j = .click k' ∧ (t.step r j).flights (!j) = .click l := by
  have hne : (!j) ≠ j := by cases j <;> simp
  simp only [Traffic.step, hk, Flight.step, hstep, Function.update_self, Function.update_of_ne hne, hl, and_self]

theorem reached_first (d : Pair σ) (j : Bool) : d.Reached [j] (d.after [j]) := by
  obtain ⟨place, hok, hcached⟩ := d.tied.placed.cached d.cached
  have hfound : d.session.pages.places.reuse (d.address j).contextId =
      (.ok place, (d.session.pages.places.reuse d.id).2) := by
    rw [d.same j]
    exact Prod.ext hok rfl
  have hstep := Click.step_comes (s := .ofSession d.app.templates d.session) (c := (d.exchange j).context) d.app.registry
    (d.addressed j) hfound
  rw [d.same j] at hstep
  obtain ⟨hshared, hj, hother⟩ := step_flight (t := d.after []) (k := ⟨(d.exchange j).context, .comes⟩)
    (l := ⟨(d.exchange !j).context, .comes⟩) d.app.registry rfl rfl hstep
  refine ⟨j, _, _, hj, hother, ?_⟩
  have hafter : (d.after [j]).shared = _ := hshared
  rw [hafter]
  exact ⟨⟨rfl, d.compiled⟩, .waiting hcached .holds .comes⟩

theorem reached (d : Pair σ) {schedule : List Bool} (h : schedule ≠ []) : d.Reached schedule (d.after schedule) := by
  induction schedule using List.reverseRecOn with
  | nil => exact absurd rfl h
  | append_singleton earlier j ih =>
    by_cases hfirst : earlier = []
    · rw [hfirst]
      exact d.reached_first j
    obtain ⟨i, k, l, hk, hl, hs, hstate⟩ := ih hfirst
    have himp : d.Overlap earlier ∨ k.revisits = some d.id ∧ l.revisits = some d.id → d.Overlap (earlier ++ [j]) := by
      rintro (hov | ⟨hheld, hheld'⟩)
      · exact hov.concat j
      · refine ⟨earlier, List.prefix_append _ _, fun j => ?_⟩
        rcases Bool.eq_or_eq_not j i with rfl | rfl
        · rw [hk]
          exact hheld
        · rw [hl]
          exact hheld'
    rw [after_concat]
    rcases Bool.eq_or_eq_not j i with rfl | rfl
    · obtain ⟨s', k', hstep, hs', hstate'⟩ := hstate.step_first hs
      obtain ⟨hshared, hj, hother⟩ := step_flight d.app.registry hk hl hstep
      exact ⟨j, k', l, hj, hother, hshared ▸ hs', hshared ▸ hstate'.imp himp⟩
    · obtain ⟨s', l', hstep, hs', hstate'⟩ := hstate.step_other hs
      obtain ⟨hshared, hj, hother⟩ := step_flight d.app.registry hl (by rwa [Bool.not_not]) hstep
      rw [Bool.not_not] at hother
      rcases hstate' with hstate' | hstate'
      · exact ⟨i, k, l', hother, hj, hshared ▸ hs', hshared ▸ hstate'.imp himp⟩
      · exact ⟨!i, l', k, hj, by rwa [Bool.not_not], hshared ▸ hs', hshared ▸ hstate'.imp himp⟩

/-! ## Every request is answered -/

theorem Waits.finds (h : d.Waits i place k) (hc : d.Cached s place page) : k.Finds s := by
  rintro id place' hstage
  cases h with
  | comes => cases hstage
  | holds =>
    cases hstage
    rw [PageCache.Cached.getElem? hc]
    rfl

theorem State.finds (h : d.State overlap s i k l) : k.Finds s ∧ l.Finds s := by
  cases h with
  | waiting hc hk hl => exact ⟨hk.finds hc, hl.finds hc⟩
  | acted hk hc hl => exact ⟨Click.Past.finds hk s, hl.finds hc⟩
  | replaced _ hk _ hl hget _ =>
    refine ⟨Click.Past.finds hk s, fun id place hstage => ?_⟩
    rw [hl] at hstage
    cases hstage
    rw [hget]
    rfl
  | inTurn hk hl _ => exact ⟨Click.Past.finds hk s, Click.Past.finds hl s⟩
  | overtaken _ _ hk hl _ _ => exact ⟨Click.Past.finds hk s, Click.Past.finds hl s⟩

theorem ahead_le (d : Pair σ) (schedule : List Bool) (i : Bool) :
    ∃ k, (d.after schedule).flights i = .click k ∧ k.ahead ≤ 4 - schedule.count i := by
  induction schedule using List.reverseRecOn generalizing i with
  | nil => exact ⟨_, rfl, Nat.le_refl _⟩
  | append_singleton earlier j ih =>
    rw [after_concat]
    obtain ⟨k, hk, hahead⟩ := ih j
    obtain ⟨l, hl, hahead'⟩ := ih !j
    have hfinds : k.Finds (d.after earlier).shared := by
      by_cases hfirst : earlier = []
      · subst hfirst
        cases hk
        exact nofun
      · obtain ⟨i, k', l', hk', hl', -, hstate⟩ := d.reached hfirst
        rcases Bool.eq_or_eq_not j i with rfl | rfl
        · rw [hk] at hk'
          cases hk'
          exact hstate.finds.1
        · rw [hk] at hl'
          cases hl'
          exact hstate.finds.2
    have hcloser := Click.step_ahead d.app.registry hfinds
    rcases hstep : k.step d.app.registry (d.after earlier).shared with ⟨s', k'⟩
    rw [hstep] at hcloser
    obtain ⟨-, hj, hother⟩ := step_flight d.app.registry hk hl hstep
    rcases Bool.eq_or_eq_not i j with rfl | rfl
    · refine ⟨k', hj, ?_⟩
      rw [List.count_append, List.count_singleton_self]
      dsimp only at hcloser
      omega
    · have hnot : List.count (!j) [j] = 0 := by cases j <;> rfl
      exact ⟨l, hother, by rwa [List.count_append, hnot]⟩

/-- After four steps of its own a request is answered. -/
theorem answered (d : Pair σ) {schedule : List Bool} {i : Bool} (h : 4 ≤ schedule.count i) :
    ∃ result c, (d.after schedule).flights i = .click ⟨c, .answered result⟩ := by
  obtain ⟨⟨c, stage⟩, hk, hahead⟩ := d.ahead_le schedule i
  have hzero : (⟨c, stage⟩ : Click σ).ahead = 0 := by omega
  cases stage with
  | answered result => exact ⟨result, c, hk⟩
  | _ => cases hzero

/-! ## One request after the other -/

theorem exchange_address (d : Pair σ) (i : Bool) :
    Address.ofSegments (d.exchange i).context.request.rawSegments = .ok (d.address i) := d.addressed i

/-- A request that comes first takes its course on the page. -/
theorem respond_first (d : Pair σ) (i : Bool) :
    let x := (Dispatch.respond d.app.registry).run.run (d.exchange i)
    let left := (Dispatch.invoked d.app.registry).run.run (d.exchange i)
    x.1 = (d.course i d.page).result ∧ d.session.pages.Held d.id (d.course i d.page).left x.2.pages ∧
      Dispatch.shown? d.app.registry (d.exchange i) = (d.course i d.page).new ∧
      ((d.course i d.page).new ≠ none → d.session.pages.Held d.id (d.course i d.page).page left.2.pages) := by
  have h := Dispatch.respond_course (x := d.exchange i) d.app.registry d.tied (d.exchange_address i)
    (by rw [d.same i]; exact d.cached)
  rw [d.same i] at h
  exact h

/-- A request that comes after the work on `x` takes its course on the page that was left. -/
theorem respond_next (d : Pair σ) (i : Bool) {x : Exchange σ}
    (hcount : x.context.contextIdCount = d.session.contextIdCount)
    (hx : Templates.Compiled d.app.registry x.templates) {p : Instance σ}
    (hheld : d.session.pages.Held d.id p x.pages) :
    let y := (Dispatch.respond d.app.registry).run.run (d.next x i)
    y.1 = (d.course i p).result ∧ d.session.pages.Held d.id (d.course i p).left y.2.pages ∧
      Dispatch.shown? d.app.registry (d.next x i) = (d.course i p).new := by
  have hcontext : (d.next x i).context = (d.exchange i).context := by
    show ({ (d.exchange i).context with contextIdCount := x.context.contextIdCount } : Context) = _
    rw [hcount]
    rfl
  have ha : Address.ofSegments (d.next x i).context.request.rawSegments = .ok (d.address i) := d.addressed i
  obtain ⟨hresult, hleft, hshown, -⟩ := Dispatch.respond_course (x := d.next x i) d.app.registry hheld.tied ha
    (by rw [d.same i]; exact hheld.page)
  have hcourse : Desk.course d.app.registry ⟨(d.next x i).context.begin (d.address i), (d.next x i).templates, p⟩ =
      d.course i p := by
    rw [hcontext]
    exact Desk.course_given d.keyed (d := ⟨d.context i, d.app.templates, p⟩) d.compiled hx
  rw [hcourse] at hresult hleft hshown
  rw [d.same i] at hleft
  exact ⟨hresult, hheld.again hleft, hshown⟩

theorem respond_count (d : Pair σ) (i : Bool) :
    ((Dispatch.respond d.app.registry).run.run (d.exchange i)).2.context.contextIdCount = d.session.contextIdCount :=
  ((Dispatch.respond_takesOwn d.app.registry (d.exchange_address i)).of_some rfl).2

theorem invoked_count (d : Pair σ) (i : Bool) :
    ((Dispatch.invoked d.app.registry).run.run (d.exchange i)).2.context.contextIdCount = d.session.contextIdCount :=
  ((Dispatch.invoked_takesOwn d.app.registry (d.exchange_address i)).of_some rfl).2

theorem respond_compiled (d : Pair σ) (i : Bool) :
    Templates.Compiled d.app.registry ((Dispatch.respond d.app.registry).run.run (d.exchange i)).2.templates :=
  (compiling d.keyed).dispatch (d.exchange i) d.compiled

theorem invoked_compiled (d : Pair σ) (i : Bool) :
    Templates.Compiled d.app.registry ((Dispatch.invoked d.app.registry).run.run (d.exchange i)).2.templates :=
  (compiling d.keyed).invoked (d.exchange i) d.compiled

/-! ## Outcomes -/

theorem Past.answered {o : Course σ} {c : Context} {result : Except DispatchError Http.Response}
    (h : d.Past o ⟨c, .answered result⟩ saved) : result = o.result ∧ saved = o.new := by
  cases h with
  | answered hnew => exact ⟨rfl, hnew.symm⟩
  | saved hnew => exact ⟨rfl, hnew.symm⟩

theorem outcome (d : Pair σ) {schedule : List Bool} {result : Bool → Except DispatchError Http.Response}
    (h : ∀ i, ∃ c, (d.after schedule).flights i = .click ⟨c, .answered (result i)⟩) :
    ∃ i, d.InTurn i result (d.after schedule).shared.pageList ∨
      d.Overlap schedule ∧ d.Overtaken i result (d.after schedule).shared.pageList := by
  have hbegun : schedule ≠ [] := by
    rintro rfl
    obtain ⟨c, hc⟩ := h true
    cases hc
  obtain ⟨i, k, l, hk, hl, -, hstate⟩ := d.reached hbegun
  obtain ⟨c, hc⟩ := h i
  obtain ⟨c', hc'⟩ := h !i
  rw [hc] at hk
  rw [hc'] at hl
  cases hk
  cases hl
  obtain ⟨hresult, hheld, hshown, hleft⟩ := d.respond_first i
  refine ⟨i, ?_⟩
  cases hstate with
  | waiting _ hk _ => cases hk
  | acted _ _ hl => cases hl
  | replaced _ _ _ hl _ _ => cases hl
  | inTurn hk hl hc =>
    obtain ⟨hresult', hheld', -⟩ := d.respond_next (!i) (d.respond_count i) (d.respond_compiled i) hheld
    obtain ⟨hfirst, -⟩ := hk.answered
    obtain ⟨hother, rfl⟩ := hl.answered
    exact .inl ⟨hfirst.trans hresult.symm, hother.trans hresult'.symm, (PageCache.Cached.placed hc hheld').pageList_eq⟩
  | overtaken hov hnew hk hl hc hlast =>
    obtain ⟨hresult', hheld', hshown'⟩ := d.respond_next (!i) (d.invoked_count i) (d.invoked_compiled i) (hleft hnew)
    obtain ⟨hfirst, rfl⟩ := hk.answered
    obtain ⟨hother, rfl⟩ := hl.answered
    refine .inr ⟨hov, ?_, hfirst.trans hresult.symm, hother.trans hresult'.symm, ?_⟩
    · rw [hshown]
      exact Option.isSome_iff_ne_none.mpr hnew
    · rcases hlast with hnone | hsome | hsome
      · exact absurd hnone hnew
      · rw [Course.left, hsome] at hheld
        exact .inl ((PageCache.Cached.placed hc hheld).pageList_eq)
      · rw [Course.left, hsome] at hheld'
        refine .inr ⟨?_, (PageCache.Cached.placed hc hheld').pageList_eq⟩
        rw [hshown', hsome]
        rfl

end Pair

/-- However the steps of two requests to a cached page come in between each other, both are answered,
    and as if one of them had been answered before the other one was looked at, unless they overlap
    and the first to have the page replaces it: then the other one may be about the page that is
    replaced. -/
theorem requests_to_one_page (d : Pair σ) {schedule : List Bool} (h : ∀ i, 4 ≤ schedule.count i) :
    let t := d.after schedule
    ∃ result : Bool → Except DispatchError Http.Response, (∀ i, ∃ c, t.flights i = .click ⟨c, .answered (result i)⟩) ∧
      ∃ i, d.InTurn i result t.shared.pageList ∨ d.Overlap schedule ∧ d.Overtaken i result t.shared.pageList := by
  choose result hresult using fun i => d.answered (h i)
  exact ⟨result, hresult, d.outcome hresult⟩

namespace Scripted

/-- A page that counts clicks. One of its links leads to a new page of its kind. -/
def counting : Definition Scripted :=
  ⟨"Page", "<wo:Hyperlink action=\"$leave\"/><wo:Hyperlink action=\"$stay\"/><wo:String value=\"$count\"/>", "",
    { name := "Page", state := [("count", .int 0)]
      actions := [("leave", [.add "count" 1, .reply (.ok (.openPage "Page" []))]), ("stay", [.add "count" 1])] }⟩

/-- Both links of one page are clicked on. -/
def clicks : Pair Scripted where
  app := { Application.new {} with
    registry := { types := Assoc.put "Page" (.component counting) (@Registry.builtin Scripted).types } }
  session :=
    { id := "s", contextIdCount := 4, lastAccess := 0
      pages := ((PageCache.ofCapacity 2).save "3" (.ofDefinition counting)).2 }
  errorId _ := "-"
  request i := if i then request "/wo/3.1" ["wo", "3.1"] else request "/wo/3.0" ["wo", "3.0"]
  address i := ⟨"3", ⟨[if i then 1 else 0]⟩⟩
  id := "3"
  page := .ofDefinition counting
  keyed := Registry.keyed_of_goesBy (by decide +kernel)
  compiled := .nil
  tied := ((PageCache.tied_ofCapacity 2).save "3" _).1
  addressed := by decide +kernel
  same _ := rfl
  cached := ((PageCache.tied_ofCapacity 2).saved "3" _).page

/-- The second click comes in between the action of the first one and its new page. -/
def between : List Bool := [false, true, false, true, false, false, true, true]

/-- The content of a response. -/
def content (result : Except DispatchError Http.Response) : List UInt8 :=
  match result with
  | .ok response => response.content.data.toList
  | .error _ => []

def contentOf : Flight Scripted → List UInt8
  | .click ⟨_, .answered result⟩ => content result
  | _ => []

end Scripted

/-- Two clicks on one page, the second one in between the action of the first one and its new page. -/
theorem click_on_the_page_that_is_left :
    let d := Scripted.clicks
    let t := d.after Scripted.between
    (∀ i, 4 ≤ Scripted.between.count i) ∧
      ∃ result : Bool → Except DispatchError Http.Response, (∀ i, ∃ c, t.flights i = .click ⟨c, .answered (result i)⟩) ∧
        ∃ i, d.InTurn i result t.shared.pageList ∨ d.Overlap Scripted.between ∧ d.Overtaken i result t.shared.pageList :=
  have h : ∀ i, 4 ≤ Scripted.between.count i := by decide
  ⟨h, requests_to_one_page Scripted.clicks h⟩

/-- The second click finds the first one counted, on a page that is gone if the first one comes first. -/
theorem clicks_are_not_answered_in_turn :
    ¬ ∀ (d : Pair Scripted) (schedule : List Bool) (result : Bool → Except DispatchError Http.Response),
      (∀ i, ∃ c, (d.after schedule).flights i = .click ⟨c, .answered (result i)⟩) →
        ∃ i, d.InTurn i result (d.after schedule).shared.pageList := by
  intro h
  have hsteps : ∀ i, 4 ≤ Scripted.between.count i := by decide
  choose result c hresult using fun i => Scripted.clicks.answered (hsteps i)
  have hcontent : Scripted.contentOf ((Scripted.clicks.after Scripted.between).flights true) =
      Scripted.content (result true) := by
    rw [hresult true]
    rfl
  -- The second click is counted after the first one, on a page that also shows the count.
  obtain ⟨i, hfirst, hother, -⟩ := h Scripted.clicks Scripted.between result fun i => ⟨c i, hresult i⟩
  cases i with
  | true =>
    rw [hfirst] at hcontent
    exact absurd hcontent (by decide +kernel)
  | false =>
    rw [show result true = _ from hother] at hcontent
    exact absurd hcontent (by decide +kernel)

end PageServer
