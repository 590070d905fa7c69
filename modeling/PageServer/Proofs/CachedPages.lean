/-
  PageServer.Proofs.CachedPages — what a request makes of the pages that are kept.

  A request to an element uses a page of the cache, and then this page is the one used last
  (`PageCache.Held`); a direct action may bring in a new one, for which at most the oldest goes
  (`PageCache.Saved`). In between a cached page wakes up and is traversed (`Instance.Worked`), so
  after any failure it is still the same page, with all components that were in it. Another page
  takes its place only if an action gave one (`shown?`) and it was shown. Every other request leaves
  the cache as it was (`Application.failing_request_leaves_the_pages`).
-/

import Mathlib.Data.List.Nodup
import PageServer.Proofs.ContextIds
import PageServer.Proofs.Instances
import PageServer.Proofs.PageList

namespace PageServer

/-! ## One page of the cache -/

namespace PageCache

variable {α : Type} {c c' c'' : PageCache α} {id : String} {p q : α}

/-- The page `id` is the one that was used last, and is `p`. The others are as they were. -/
structure Held (c : PageCache α) (id : String) (p : α) (c' : PageCache α) : Prop where
  tied : c'.Tied
  capacity : c'.capacity = c.capacity
  contextIds : c'.contextIds = c.contextIds.erase id ++ [id]
  page : c'.page? id = some p
  others : ∀ id', id' ≠ id → c'.page? id' = c.page? id'

/-- The page `p` has come in under `id`. At most the page that was not used for the longest time has
    gone for it, and only if the cache is full. -/
structure Saved (c : PageCache α) (id : String) (p : α) (c' : PageCache α) : Prop where
  tied : c'.Tied
  capacity : c'.capacity = c.capacity
  contextIds : ∃ n ≤ 1, c'.contextIds = (c.contextIds.erase id).drop n ++ [id] ∧
    (n = 1 → (c.contextIds.erase id).length = c.capacity)
  page : c'.page? id = some p
  others : ∀ id', id' ≠ id → c'.page? id' = if id' ∈ c'.contextIds then c.page? id' else none

namespace Tied

theorem page?_eq_some_iff (h : c.Tied) : c.page? id = some p ↔ (id, p) ∈ c.pageList := by
  rw [h.page?_eq, Assoc.get?_eq_some_iff h.nodup]

theorem mem_contextIds (h : c.Tied) : id ∈ c.contextIds ↔ ∃ p, c.page? id = some p := by
  rw [h.contextIds_eq, Assoc.keys, List.mem_map]
  constructor
  · rintro ⟨⟨_, p⟩, he, rfl⟩
    exact ⟨p, h.page?_eq_some_iff.mpr he⟩
  · rintro ⟨p, hp⟩
    exact ⟨(id, p), h.page?_eq_some_iff.mp hp, rfl⟩

theorem nodup_contextIds (h : c.Tied) : c.contextIds.Nodup := h.contextIds_eq ▸ h.nodup

theorem length_contextIds (h : c.Tied) : c.contextIds.length ≤ c.capacity := by
  have hsize := h.size
  rw [← h.length_pageList] at hsize
  rw [h.contextIds_eq, Assoc.keys, List.length_map]
  exact hsize

theorem keys_erase (h : c.Tied) (id : String) : Assoc.keys (Assoc.erase id c.pageList) = c.contextIds.erase id := by
  rw [h.nodup_contextIds.erase_eq_filter, h.contextIds_eq, Assoc.keys, Assoc.keys, List.filter_map]
  rfl

/-- A page that both caches list is the same in both. -/
theorem page?_congr (h : c.Tied) (h' : c'.Tied) (hsub : ∀ p, (id, p) ∈ c'.pageList → (id, p) ∈ c.pageList)
    (hid : id ∈ c'.contextIds) : c'.page? id = c.page? id := by
  obtain ⟨p, hp⟩ := h'.mem_contextIds.mp hid
  rw [hp, h.page?_eq_some_iff.mpr (hsub p (h'.page?_eq_some_iff.mp hp))]

theorem page?_eq_none (h : c.Tied) (hid : id ∉ c.contextIds) : c.page? id = none := by
  rcases hp : c.page? id with _ | p
  · rfl
  · exact absurd (h.mem_contextIds.mpr ⟨p, hp⟩) hid

theorem saved (h : c.Tied) (id : String) (p : α) : Saved c id p (c.save id p).2 := by
  obtain ⟨ht, -, hlist⟩ := h.save id p
  have hlength : (c.contextIds.erase id).length = (Assoc.erase id c.pageList).length := by
    rw [← h.keys_erase, Assoc.keys, List.length_map]
  have hsize : (c.contextIds.erase id).length ≤ c.capacity :=
    Nat.le_trans (List.length_erase_le ..) h.length_contextIds
  have hpos := h.capacity
  obtain ⟨n, hn⟩ : ∃ n, n = (Assoc.erase id c.pageList).length + 1 - c.capacity := ⟨_, rfl⟩
  have hlist' : (c.save id p).2.pageList = (Assoc.erase id c.pageList).drop n ++ [(id, p)] := by
    rw [hlist, PageList.save, List.length_append, List.length_singleton, ← hn, List.drop_append_of_le_length (by omega)]
  have hids : (c.save id p).2.contextIds = (c.contextIds.erase id).drop n ++ [id] := by
    rw [ht.contextIds_eq, hlist', ← h.keys_erase, Assoc.keys, Assoc.keys, List.map_append, List.map_drop]
    rfl
  refine ⟨ht, rfl, ⟨n, by omega, hids, fun hone => by omega⟩, ?_, fun id' hne => ?_⟩
  · rw [ht.page?_eq_some_iff, hlist']
    simp
  · split
    · rename_i hmem
      refine h.page?_congr ht (fun p' hp' => ?_) hmem
      rw [hlist'] at hp'
      rcases List.mem_append.mp hp' with hp' | hp'
      · exact (List.mem_filter.mp (List.mem_of_mem_drop hp')).1
      · exact absurd (congrArg Prod.fst (List.mem_singleton.mp hp')) hne
    · rename_i hmem
      exact ht.page?_eq_none hmem

end Tied

theorem Held.of_pageList (h : c.Tied) (ht : c'.Tied) (hcap : c'.capacity = c.capacity)
    (hlist : c'.pageList = Assoc.erase id c.pageList ++ [(id, p)]) : Held c id p c' := by
  have hids : c'.contextIds = c.contextIds.erase id ++ [id] := by
    rw [ht.contextIds_eq, hlist, ← h.keys_erase, Assoc.keys, Assoc.keys, List.map_append]
    rfl
  refine ⟨ht, hcap, hids, ?_, fun id' hne => ?_⟩
  · rw [ht.page?_eq_some_iff, hlist]
    simp
  · by_cases hmem : id' ∈ c'.contextIds
    · refine h.page?_congr ht (fun p' hp' => ?_) hmem
      rw [hlist] at hp'
      rcases PageList.mem_erase_append hp' with heq | ⟨hp', -⟩
      · exact absurd (congrArg Prod.fst heq) hne
      · exact hp'
    · have hmem' : id' ∉ c.contextIds := by
        rw [hids, List.mem_append, h.nodup_contextIds.mem_erase_iff] at hmem
        simp [hne] at hmem
        exact hmem
      rw [ht.page?_eq_none hmem, h.page?_eq_none hmem']

theorem reuse_of_page? (h : c.Tied) (hp : c.page? id = some p) :
    (c.reuse id).1 = .ok p ∧ Held c id p (c.reuse id).2 := by
  have hget : Assoc.get? id c.pageList = some p := by rw [← h.page?_eq, hp]
  have hreuse : c.reuse id = (.ok p, (c.retain id).2) := by simp only [reuse, restore, hp]
  obtain ⟨ht, -, hlist⟩ := h.retain_of_get? hget
  rw [hreuse]
  exact ⟨rfl, .of_pageList h ht (capacity_use c (.retain id)) hlist⟩

theorem reuse_of_miss (hp : c.page? id = none) : c.reuse id = (.error ⟨id⟩, c) := by
  simp only [reuse, restore, hp]

namespace Held

theorem update (h : Held c id p c') (q : α) : Held c id q (c'.update id q) := by
  obtain ⟨⟨stamp, _⟩, he, -⟩ := Option.map_eq_some_iff.mp h.page
  have hupdate : c'.update id q = { c' with entries := Assoc.put id (stamp, q) c'.entries } := by
    simp only [PageCache.update, he]
  have htied := h.tied.update id q
  rw [hupdate] at htied ⊢
  refine ⟨htied, h.capacity, h.contextIds, ?_, fun id' hne => ?_⟩
  · rw [page?, Assoc.get?_put_self]
    rfl
  · rw [page?, Assoc.get?_put_of_ne hne]
    exact h.others id' hne

theorem erase_contextIds (h : Held c id p c') : c'.contextIds.erase id = c.contextIds.erase id := by
  have hnot : id ∉ c.contextIds.erase id := by
    have hnodup := h.tied.nodup_contextIds
    rw [h.contextIds] at hnodup
    exact fun hmem => (List.nodup_append.mp hnodup).2.2 id hmem id (List.mem_singleton.mpr rfl) rfl
  rw [h.contextIds, List.erase_append_right _ hnot]
  simp

/-- The page was used again. -/
theorem again (h : Held c id p c') (h' : Held c' id q c'') : Held c id q c'' where
  tied := h'.tied
  capacity := h'.capacity.trans h.capacity
  contextIds := by rw [h'.contextIds, h.erase_contextIds]
  page := h'.page
  others id' hne := (h'.others id' hne).trans (h.others id' hne)

/-- Another page under the same id takes no other's place. -/
theorem save (h : Held c id p c') (q : α) : Held c id q (c'.save id q).2 := by
  have hsaved := h.tied.saved id q
  obtain ⟨n, hn, hids, hfull⟩ := hsaved.contextIds
  rw [h.erase_contextIds] at hids hfull
  have hroom := h.tied.length_contextIds
  rw [h.contextIds, List.length_append, List.length_singleton] at hroom
  obtain rfl : n = 0 := by omega
  have hsame : (c'.save id q).2.contextIds = c'.contextIds := by rw [hids, h.contextIds, List.drop_zero]
  refine ⟨hsaved.tied, hsaved.capacity.trans h.capacity, hsame.trans h.contextIds, hsaved.page, fun id' hne => ?_⟩
  rw [hsaved.others id' hne, hsame, ← h.others id' hne]
  split
  · rfl
  · rename_i hmem
    exact (h.tied.page?_eq_none hmem).symm

end Held

end PageCache

/-! ## A page at work -/

variable {σ : Type} [Component σ]

/-- What may become of a page that is kept, while a request is answered: it wakes up and is traversed. -/
inductive Instance.Worked (r : Registry σ) (p : Instance σ) : Instance σ → Prop
  | awake : Worked r p p.awake
  | walked (phase : Phase) {s : Scene σ} : s.frames = [] → Worked r p s.page →
      Worked r p ((Pass.walkPage r phase).on s).2.page

namespace Instance

mutual

theorem find?_awake : ∀ (i : Instance σ) (keys : List String),
    i.awake.find? keys = (i.find? keys).map fun e => (e.1, Component.awake e.2)
  | ⟨name, state, children⟩, [] => rfl
  | ⟨name, state, children⟩, key :: keys => by
    rw [awake, find?_cons, find?_cons, child?, child?]
    exact find?_awakeAll children key keys

theorem find?_awakeAll : ∀ (children : List (String × Instance σ)) (key : String) (keys : List String),
    ((awakeAll children).lookup key).bind (·.find? keys) =
      ((children.lookup key).bind (·.find? keys)).map fun e => (e.1, Component.awake e.2)
  | [], _, _ => rfl
  | (k, c) :: rest, key, keys => by
    rw [awakeAll, List.lookup_cons, List.lookup_cons]
    split
    · exact find?_awake c keys
    · exact find?_awakeAll rest key keys

end

/-- However it was worked on, it is the same page with the same components in it. -/
theorem Worked.find? {r : Registry σ} {p q : Instance σ} (h : Worked r p q) {keys : List String} {name : String}
    {x : σ} (hx : p.find? keys = some (name, x)) :
    ∃ y, q.find? keys = some (name, y) ∧ Becomes (Component.awake x) y := by
  induction h with
  | awake =>
    refine ⟨Component.awake x, ?_, .refl _⟩
    rw [find?_awake, hx]
    rfl
  | walked phase hs _ ih =>
    obtain ⟨y, hy, hxy⟩ := ih
    have hgrows := (walkPage_grows r phase hs).2 keys
    rw [hy] at hgrows
    obtain ⟨z, hz, hyz⟩ := hgrows.of_some
    exact ⟨z, hz, hxy.trans hyz⟩

end Instance

/-- What the pass makes of a page is what a traversal makes of it. -/
def Pass.Traverses {α : Type} (r : Registry σ) (pass : Pass σ α) : Prop :=
  ∀ s, s.frames = [] → ∃ phase u, u.frames = [] ∧ u.page = s.page ∧
    (pass.on s).2.page = ((walkPage r phase).on u).2.page

theorem Pass.walkPage_traverses (r : Registry σ) (phase : Phase) : (walkPage r phase).Traverses r :=
  fun s hs => ⟨phase, s, hs, rfl, rfl⟩

theorem Pass.renderPage_traverses (r : Registry σ) : (renderPage r).Traverses r := by
  intro s hs
  refine ⟨.render, ({ s with response := Http.Response.page } : Scene σ).mute, hs, rfl, ?_⟩
  rw [on_renderPage]
  rcases (walkPage r .render).on ({ s with response := Http.Response.page } : Scene σ).mute with ⟨e | o, t⟩ <;> rfl

theorem Instance.Worked.traversed {r : Registry σ} {p q : Instance σ} (h : Worked r p q) {α : Type} {pass : Pass σ α}
    (hpass : pass.Traverses r) (x : Exchange σ) : Worked r p (x.traverse q pass).1.2 := by
  obtain ⟨phase, u, hu, hpage, heq⟩ := hpass (.start x.context x.templates q) rfl
  have hq : Worked r p u.page := by
    rw [hpage]
    exact h
  have hworked := Worked.walked phase hu hq
  rw [← heq] at hworked
  exact hworked

/-! ## Requests to elements -/

namespace Dispatch

/-- The cached page that the request is about. -/
def hit? (x : Exchange σ) : Option (Address × Instance σ) :=
  match Address.ofSegments x.context.request.rawSegments with
  | .ok a => (x.pages.page? a.contextId).map fun p => (a, p)
  | .error _ => none

variable {r : Registry σ} {p page q : Instance σ} {x : Exchange σ} {a : Address} {c : PageCache (Instance σ)} {id : String}

/-- The page stays in the cache as the one used last, whatever has become of it. -/
def Stays (r : Registry σ) (c : PageCache (Instance σ)) (id : String) (p : Instance σ) (x : Exchange σ) : Prop :=
  ∃ q, Instance.Worked r p q ∧ c.Held id q x.pages

/-- A phase of the work leaves the page in the cache. -/
theorem onCached_held {α : Type} (phase : DispatchPhase) {pass : Pass σ α} (hpass : pass.Traverses r)
    (hc : c.Held id q x.pages) (hw : Instance.Worked r p page) :
    Ends (onCached phase id page pass) x (fun o y => Instance.Worked r p o.2 ∧ c.Held id o.2 y.pages) (Stays r c id p) := by
  have hw' := hw.traversed hpass x
  have hc' : c.Held id (x.traverse page pass).1.2 ((x.traverse page pass).2.pages.update id (x.traverse page pass).1.2) :=
    hc.update _
  unfold Ends
  rw [run_onCached]
  dsimp only
  rcases (x.traverse page pass).1.1 with e | b
  · exact ⟨_, hw', hc'⟩
  · exact ⟨hw', hc'⟩

/-- A page that was found stays in the cache. -/
theorem work_held (hc : c.Held a.contextId p x.pages) :
    Ends (work r a p.awake) x (fun o y => Instance.Worked r p o.2 ∧ c.Held a.contextId o.2 y.pages)
      (Stays r c a.contextId p) := by
  refine .get ?_
  split
  · have hwoken : Instance.Worked r p p.awake := .awake
    have htaken : Ends (Prod.snd <$> onCached .takeValues a.contextId p.awake (Pass.walkPage r .take)) x
        (fun page y => Instance.Worked r p page ∧ c.Held a.contextId page y.pages) (Stays r c a.contextId p) :=
      .map (onCached_held .takeValues (Pass.walkPage_traverses r .take) hc hwoken)
    refine .bind htaken fun page y h => ?_
    exact onCached_held .invokeAction (Pass.walkPage_traverses r .invoke) h.2 h.1
  · exact onCached_held .invokeAction (Pass.walkPage_traverses r .invoke) hc .awake

/-- A request that is about no cached page changes no page, nor the order of their last uses. -/
theorem invoked_of_miss (r : Registry σ) (h : hit? x = none) :
    Ends (invoked r) x (fun _ _ => False) (fun y => y.pages = x.pages) := by
  unfold hit? at h
  rcases ha : Address.ofSegments x.context.request.rawSegments with e | a
  · refine .bind_error (e := .malformedAddress e) (y := x) ?_ rfl
    rw [run_address, ha]
    rfl
  · rw [ha] at h
    have hmiss := PageCache.reuse_of_miss (Option.map_eq_none_iff.mp h)
    refine .bind_ok (a := a) (y := x) ?_ (.bind_ok (y := x.mapContext (·.begin a)) rfl ?_)
    · rw [run_address, ha]
      rfl
    · refine .bind_error (e := .pageExpired ⟨a.contextId⟩) (y := x.mapContext (·.begin a)) ?_ rfl
      rw [run_restore, show (x.mapContext (·.begin a)).pages = x.pages from rfl, hmiss]
      rfl

theorem invoked_of_hit (r : Registry σ) (hx : x.pages.Tied) (h : hit? x = some (a, p)) :
    Ends (invoked r) x
      (fun o y => o.1 = a ∧ Instance.Worked r p o.2.2 ∧ x.pages.Held a.contextId o.2.2 y.pages)
      (Stays r x.pages a.contextId p) := by
  unfold hit? at h
  rcases ha : Address.ofSegments x.context.request.rawSegments with e | a' <;> rw [ha] at h
  · cases h
  obtain ⟨p', hp, heq⟩ := Option.map_eq_some_iff.mp h
  cases heq
  obtain ⟨hreuse, hheld⟩ := PageCache.reuse_of_page? hx hp
  refine .bind_ok (a := a) (y := x) ?_ (.bind_ok (y := x.mapContext (·.begin a)) rfl (.bind_ok (a := p.awake)
    (y := { x.mapContext (·.begin a) with pages := (x.pages.reuse a.contextId).2 }) ?_ ?_))
  · rw [run_address, ha]
    rfl
  · rw [run_restore, show (x.mapContext (·.begin a)).pages = x.pages from rfl, hreuse]
    rfl
  · exact .bind (work_held hheld) fun o y ho => .pure ⟨rfl, ho.1, ho.2⟩

/-- The page that the action gave, as it was shown. -/
def shown? (r : Registry σ) (x : Exchange σ) : Option (Instance σ) :=
  match (invoked r).run.run x with
  | (.ok (_, some (.page new), _), y) =>
    match y.traverse new.awake (Pass.renderPage r) with
    | ((.ok _, shown), _) => some shown
    | _ => none
  | _ => none

theorem respond_of_miss (r : Registry σ) (h : hit? x = none) :
    ((respond r).run.run x).2.pages = x.pages ∧ shown? r x = none := by
  rw [respond_eq, run_bind]
  unfold shown?
  rcases (invoked_of_miss r h).cases with ⟨_, _, _, hfalse⟩ | ⟨e, y, hrun, hpages⟩
  · exact hfalse.elim
  · rw [hrun]
    exact ⟨hpages, rfl⟩

/-- A page takes the place of the cached one if it was shown. -/
theorem respond_of_hit (r : Registry σ) (hx : x.pages.Tied) (h : hit? x = some (a, p)) :
    match shown? r x with
    | some shown => x.pages.Held a.contextId shown ((respond r).run.run x).2.pages
    | none => Stays r x.pages a.contextId p ((respond r).run.run x).2 := by
  rw [respond_eq, run_bind]
  unfold shown?
  rcases (invoked_of_hit r hx h).cases with ⟨⟨a', found, page⟩, y, hrun, rfl, hw, hc⟩ | ⟨e, y, hrun, hstays⟩ <;> rw [hrun]
  · have hstays : Stays r x.pages a'.contextId p y := ⟨page, hw, hc⟩
    have hagain : Stays r x.pages a'.contextId p
        ((Prod.fst <$> onCached .generateResponse a'.contextId page (Pass.renderPage r) :
          Dispatch σ Http.Response).run.run y).2 := by
      have hheld : Ends (Prod.fst <$> onCached .generateResponse a'.contextId page (Pass.renderPage r)) y
          (fun _ z => Stays r x.pages a'.contextId p z) (Stays r x.pages a'.contextId p) := by
        refine .map (.imp (onCached_held .generateResponse (Pass.renderPage_traverses r) hc hw) ?_)
        exact fun o z ho => ⟨o.2, ho.1, ho.2⟩
      exact hheld.after fun _ _ => id
    rcases found with _ | _ | new | result
    · exact hagain
    · exact hagain
    · dsimp only [conclude]
      rw [run_replace]
      have hpages : (y.traverse new.awake (Pass.renderPage r)).2.pages = y.pages := rfl
      rcases htr : y.traverse new.awake (Pass.renderPage r) with ⟨⟨e | response, shown⟩, z⟩ <;> rw [htr] at hpages
      · exact ⟨page, hw, hpages ▸ hc⟩
      · rw [← hpages] at hc
        exact hc.save shown
    · exact hstays
  · exact hstays

end Dispatch

/-! ## Direct actions -/

namespace DirectActions

/-- The page that an action gave, as it was shown, and the context id it was shown under. -/
def shownAs? (r : Registry σ) (x : Exchange σ) : Outcome σ → Option (String × Instance σ)
  | .page new =>
    match ({ x with context := x.context.takeContextId.2 } : Exchange σ).traverse new.awake (Pass.renderPage r) with
    | ((.ok _, shown), _) => some (x.context.pageId, shown)
    | _ => none
  | _ => none

/-- The page that the action of a request gave. -/
def shown? (actions : DirectActions) (r : Registry σ) (x : Exchange σ) : Option (String × Instance σ) :=
  match (action? actions x).map fun action => (outcome r action).run.run x with
  | some (.ok o, y) => shownAs? r y o
  | _ => none

theorem outcome_pages (r : Registry σ) (action : DirectAction) (x : Exchange σ) :
    ((outcome r action).run.run x).2.pages = x.pages := by
  rw [run_outcome]
  rcases action r.helpers x.context with ⟨e | reply, c⟩ <;> rfl

/-- The page is kept if it was shown. -/
theorem showOutcome_pages (r : Registry σ) (o : Outcome σ) (x : Exchange σ) :
    ((showOutcome r o).run.run x).2.pages = match shownAs? r x o with
      | some (id, shown) => (x.pages.save id shown).2
      | none => x.pages := by
  cases o with
  | stay => rfl
  | respond result => rfl
  | page new =>
    have hpages : (({ x with context := x.context.takeContextId.2 } : Exchange σ).traverse new.awake
        (Pass.renderPage r)).2.pages = x.pages := rfl
    rw [showOutcome, run_showPage, shownAs?]
    rcases htr : ({ x with context := x.context.takeContextId.2 } : Exchange σ).traverse new.awake (Pass.renderPage r) with
      ⟨⟨e | response, shown⟩, y⟩ <;> rw [htr] at hpages
    · exact hpages
    · exact congrArg (fun c => (PageCache.save c x.context.pageId shown).2) hpages

theorem respond_pages (actions : DirectActions) (r : Registry σ) (x : Exchange σ) :
    ((respond actions r).run.run x).2.pages = match shown? actions r x with
      | some (id, shown) => (x.pages.save id shown).2
      | none => x.pages := by
  rw [respond_state, shown?]
  rcases action? actions x with _ | action
  · rfl
  dsimp only [Option.map]
  have hpages := outcome_pages r action x
  rcases ho : (outcome r action).run.run x with ⟨e | o, y⟩ <;> rw [ho] at hpages
  · exact hpages
  · dsimp only
    rw [showOutcome_pages, show y.pages = x.pages from hpages]

/-- A page that an action gave is shown under an id that was given out for its request. -/
theorem id_of_shown? {actions : DirectActions} {r : Registry σ} {x : Exchange σ} {id : String} {shown : Instance σ}
    (hactions : ∀ action, action? actions x = some action → TakesInTurn action)
    (hshown : shown? actions r x = some (id, shown)) {c : Context} (hc : Context.Onward c x.context)
    (hnone : c.contextId = none) :
    ∃ n, c.contextIdCount ≤ n ∧ n < ((respond actions r).run.run x).2.context.contextIdCount ∧ id = toString n := by
  rw [respond_state]
  unfold shown? at hshown
  rcases haction : action? actions x with _ | action <;> rw [haction] at hshown
  · cases hshown
  have honward := hc.trans (outcome_onward (hactions action haction) r x)
  dsimp only [Option.map] at hshown ⊢
  rcases hrun : (outcome r action).run.run x with ⟨e | _ | new | result, y⟩ <;> rw [hrun] at hshown honward
  · cases hshown
  · cases hshown
  · have hid : y.context.pageId = id := by
      simp only [shownAs?] at hshown
      split at hshown <;> cases hshown
      rfl
    obtain ⟨n, hle, hlt, hn⟩ := honward.pageId hnone
    exact ⟨n, hle, Nat.lt_of_lt_of_le hlt (showPage_counts r new y), hid ▸ hn⟩
  · cases hshown

end DirectActions

/-! ## All requests -/

namespace Application

/-- The cached page that a request to an element is about. -/
def hit? (app : Application σ) (x : Exchange σ) : Option (Address × Instance σ) :=
  (app.unrouted? x).bind fun y =>
    match y.recipient with
    | .element => Dispatch.hit? y
    | _ => none

/-- The page that an action gave, as it was shown, and the context id of the response. -/
def shown? (app : Application σ) (x : Exchange σ) : Option (String × Instance σ) :=
  (app.unrouted? x).bind fun y =>
    match y.recipient with
    | .element => (Dispatch.hit? y).bind fun hit => (Dispatch.shown? app.registry y).map fun page => (hit.1.contextId, page)
    | .directAction => DirectActions.shown? app.directActions app.registry y
    | .nobody => none

omit [Component σ] in
theorem page?_of_hit? {app : Application σ} {x : Exchange σ} {a : Address} {p : Instance σ}
    (h : app.hit? x = some (a, p)) : x.pages.page? a.contextId = some p := by
  unfold hit? at h
  obtain ⟨y, hy, h⟩ := Option.bind_eq_some_iff.mp h
  rw [← app.unrouted?_pages hy]
  split at h
  · unfold Dispatch.hit? at h
    split at h
    · obtain ⟨_, hp, heq⟩ := Option.map_eq_some_iff.mp h
      cases heq
      exact hp
    · cases h
  · cases h

/-- A request is about a cached page or not, and an action has given a page that was shown or not. -/
theorem respond_pages (app : Application σ) (x : Exchange σ) (hx : x.pages.Tied) :
    let y := (app.respond x).2
    match app.hit? x, app.shown? x with
    | none, none => y.pages = x.pages
    | some (a, p), none => ∃ q, Instance.Worked app.registry p q ∧ x.pages.Held a.contextId q y.pages
    | some (a, _), some (id, shown) => id = a.contextId ∧ x.pages.Held id shown y.pages
    | none, some (id, shown) => x.pages.Saved id shown y.pages := by
  intro y
  have hstate : y = _ := app.respond_eq x
  clear_value y
  unfold hit? shown?
  rcases hz : app.unrouted? x with _ | z <;> rw [hz] at hstate
  · exact hstate ▸ app.routed_pages x
  rw [← app.unrouted?_pages hz] at hx ⊢
  dsimp only at hstate
  rcases hrecipient : z.recipient with _ | _ | _ <;> simp only [hrecipient, Option.bind_some] at hstate ⊢
  · rcases hhit : Dispatch.hit? z with _ | ⟨a, p⟩
    · exact hstate ▸ (Dispatch.respond_of_miss app.registry hhit).1
    · have hrespond := Dispatch.respond_of_hit app.registry hx hhit
      rw [← hstate] at hrespond
      rcases hshown : Dispatch.shown? app.registry z with _ | shown <;> rw [hshown] at hrespond
      · exact hrespond
      · exact ⟨rfl, hrespond⟩
  · have hrespond := DirectActions.respond_pages app.directActions app.registry z
    rw [← hstate] at hrespond
    rcases hshown : DirectActions.shown? app.directActions app.registry z with _ | ⟨id, shown⟩ <;> rw [hshown] at hrespond
    · exact hrespond
    · exact hrespond ▸ hx.saved id shown
  · rw [hstate]

/-- The id of a page that a direct action gave is one that was given out for the request. -/
theorem TakesIdsInTurn.id_of_shown? {app : Application σ} (h : app.TakesIdsInTurn) {x : Exchange σ} {id : String}
    {shown : Instance σ} (hnone : x.context.contextId = none) (hhit : app.hit? x = none)
    (hshown : app.shown? x = some (id, shown)) :
    ∃ n, x.context.contextIdCount ≤ n ∧ n < (app.respond x).2.context.contextIdCount ∧ id = toString n := by
  rw [respond_eq]
  unfold hit? at hhit
  unfold shown? at hshown
  rcases hz : app.unrouted? x with _ | z <;> rw [hz] at hhit hshown
  · cases hshown
  dsimp only
  rcases hrecipient : z.recipient with _ | _ | _ <;> simp only [hrecipient, Option.bind_some] at hhit hshown ⊢
  · rw [hhit] at hshown
    cases hshown
  · exact DirectActions.id_of_shown? (fun action ha => h.action ha) hshown (h.unrouted hz) hnone
  · cases hshown

end Application

/-- The pages are kept under ids that the session has given out. -/
def Exchange.Counted (x : Exchange σ) : Prop :=
  ∀ id ∈ x.pages.contextIds, ∃ n < x.context.contextIdCount, id = toString n

/-- Answering a request keeps the pages under ids that the session has given out. -/
theorem Exchange.Counted.respond {app : Application σ} (h : app.TakesIdsInTurn) {x : Exchange σ} (hx : x.pages.Tied)
    (hnone : x.context.contextId = none) (hc : x.Counted) : (app.respond x).2.Counted := by
  have hpages := app.respond_pages x hx
  have hcounts := h.counts x
  have hold : ∀ id ∈ x.pages.contextIds, ∃ n < (app.respond x).2.context.contextIdCount, id = toString n := by
    intro id hid
    obtain ⟨n, hlt, hn⟩ := hc id hid
    exact ⟨n, Nat.lt_of_lt_of_le hlt hcounts, hn⟩
  have hheld : ∀ {a p q}, app.hit? x = some (a, p) → x.pages.Held a.contextId q (app.respond x).2.pages →
      (app.respond x).2.Counted := by
    intro a p q hhit hheld id hid
    rw [hheld.contextIds] at hid
    rcases List.mem_append.mp hid with hid | hid
    · exact hold id (List.mem_of_mem_erase hid)
    · rw [List.mem_singleton.mp hid]
      exact hold _ (hx.mem_contextIds.mpr ⟨p, Application.page?_of_hit? hhit⟩)
  rcases hhit : app.hit? x with _ | ⟨a, p⟩ <;> rcases hshown : app.shown? x with _ | ⟨id, shown⟩ <;>
    simp only [hhit, hshown] at hpages
  · unfold Counted
    rw [hpages]
    exact hold
  · obtain ⟨m, -, hids, -⟩ := hpages.contextIds
    intro id' hid
    rw [hids] at hid
    rcases List.mem_append.mp hid with hid | hid
    · exact hold id' (List.mem_of_mem_erase (List.mem_of_mem_drop hid))
    · obtain ⟨n, -, hlt, hn⟩ := h.id_of_shown? hnone hhit hshown
      exact ⟨n, hlt, (List.mem_singleton.mp hid).trans hn⟩
  · obtain ⟨q, -, hq⟩ := hpages
    exact hheld hhit hq
  · obtain ⟨rfl, hq⟩ := hpages
    exact hheld hhit hq

/-- The pages that are kept change only by a page that an action gave and that was shown. -/
theorem Application.failing_request_leaves_the_pages (app : Application σ) (x : Exchange σ) (hx : x.pages.Tied) :
    let y := (app.respond x).2
    y.pages.Tied ∧
    match app.hit? x, app.shown? x with
    | none, none => y.pages = x.pages
    | some (a, p), none => x.pages.page? a.contextId = some p ∧ ∃ q, x.pages.Held a.contextId q y.pages ∧
        Instance.Worked app.registry p q ∧ ∀ keys name s, p.find? keys = some (name, s) →
          ∃ s', q.find? keys = some (name, s') ∧ Becomes (Component.awake s) s'
    | some (a, p), some (id, shown) => x.pages.page? a.contextId = some p ∧ id = a.contextId ∧
        x.pages.Held id shown y.pages
    | none, some (id, shown) => x.pages.Saved id shown y.pages ∧
        (app.TakesIdsInTurn → x.context.contextId = none → x.Counted → id ∉ x.pages.contextIds) := by
  intro y
  have hpages := app.respond_pages x hx
  rcases hhit : app.hit? x with _ | ⟨a, p⟩ <;> rcases hshown : app.shown? x with _ | ⟨id, shown⟩ <;>
    simp only [hhit, hshown] at hpages ⊢
  · exact ⟨hpages ▸ hx, hpages⟩
  · refine ⟨hpages.tied, hpages, fun h hnone hc hid => ?_⟩
    obtain ⟨n, hle, -, hn⟩ := h.id_of_shown? hnone hhit hshown
    obtain ⟨m, hlt, hm⟩ := hc id hid
    have hmn : m = n := toString_injective (hm.symm.trans hn)
    omega
  · obtain ⟨q, hw, hheld⟩ := hpages
    exact ⟨hheld.tied, Application.page?_of_hit? hhit, q, hheld, hw, fun keys name s hs => hw.find? hs⟩
  · exact ⟨hpages.2.tied, Application.page?_of_hit? hhit, hpages⟩

namespace Scripted

/-- A page with a link to another page, which can't be shown: there is no such helper. -/
def leaving : Definition Scripted :=
  ⟨"Page", "<wo:Hyperlink action=\"$go\" string=\"go\"/>", "",
    { name := "Page", state := [], actions := [("go", [.reply (.ok (.openPage "Broken" []))])] }⟩

def broken : Definition Scripted :=
  ⟨"Broken", "<wo:String value=\"~missing(x)\"/>", "", { name := "Broken", state := [] }⟩

def leavingApp : Application Scripted :=
  { Application.new {} with
    registry :=
      { types := Assoc.put "Broken" (.component broken)
          (Assoc.put "Page" (.component leaving) (@Registry.builtin Scripted).types) } }

/-- The page was shown under the id `3`, and another one after it. -/
def shownPages : PageCache (Instance Scripted) :=
  (((PageCache.ofCapacity 2).save "3" (.ofDefinition leaving)).2.save "4" (.ofDefinition leaving)).2

/-- A click on the link. -/
def click : Exchange Scripted :=
  { context :=
      { request := { method := .get, uri := "/wo/3.0", path := "/wo/3.0", segments := ["wo", "3.0"] }
        sessionId := "1", contextIdCount := 5 }
    templates := []
    pages := shownPages }

end Scripted

theorem page_stays_when_the_next_one_fails :
    Scripted.click.pages.Tied ∧ ((Scripted.leavingApp.respond Scripted.click).2.events.length = 1) ∧
      Scripted.click.pages.contextIds = ["3", "4"] ∧
      (Scripted.leavingApp.respond Scripted.click).2.pages.contextIds = ["4", "3"] ∧
      (Scripted.leavingApp.respond Scripted.click).2.pages.page? "4" = Scripted.click.pages.page? "4" := by
  have hx : Scripted.click.pages.Tied := ((PageCache.tied_ofCapacity 2).save "3" _).1.save "4" _ |>.1
  have hids : Scripted.click.pages.contextIds = ["3", "4"] := by decide +kernel
  have hhit : (Scripted.leavingApp.hit? Scripted.click).map (fun e => e.1.contextId) = some "3" := by decide +kernel
  have hshown : (Scripted.leavingApp.shown? Scripted.click).isSome = false := by decide +kernel
  have hevents : (Scripted.leavingApp.respond Scripted.click).2.events.length = 1 := by decide +kernel
  have hpages := (Scripted.leavingApp.failing_request_leaves_the_pages Scripted.click hx).2
  rcases hnone : Scripted.leavingApp.shown? Scripted.click with _ | shown
  · obtain ⟨⟨a, p⟩, hhit, ha⟩ := Option.map_eq_some_iff.mp hhit
    simp only [hhit, hnone] at hpages
    obtain ⟨-, q, hheld, -⟩ := hpages
    rw [show a.contextId = "3" from ha] at hheld
    refine ⟨hx, hevents, hids, ?_, hheld.others "4" (by decide)⟩
    rw [hheld.contextIds, hids]
    rfl
  · rw [hnone] at hshown
    cases hshown

end PageServer
