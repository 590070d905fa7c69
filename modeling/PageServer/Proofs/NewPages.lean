/-
  PageServer.Proofs.NewPages — a new page never takes the place of a cached one.

  The ids that were given out are the numbers below the session's counter (`Apart.counted`), and a
  page is only kept under one of them. The id that a direct action has for its response is its own
  from when it is given out to when its page is saved: no page is kept under it, and no other
  request has it (`Apart.reserved`). A request to an element has the id of a page that it has found.
  Every step keeps to that (`Apart.step`), whoever goes on next.
-/

import PageServer.Proofs.Flights

namespace PageServer

variable {σ ι : Type}

/-! ## Ids of flights -/

/-- The id of the page that a direct action shows. -/
def Entry.Stage.shown : Entry.Stage σ → Option String
  | .draws id _ | .shows id _ _ => some id
  | _ => none

namespace Flight

/-- The id that a direct action has for its response. -/
def reserves : Flight σ → Option String
  | .entry ⟨_, _, .answered _⟩ => none
  | .entry e => e.context.contextId
  | .click _ => none

/-- A page is shown under the id that it is saved under. -/
def Named : Flight σ → Prop
  | .click k => ∀ id, k.revisits = some id → k.context.contextId = some id
  | .entry e => ∀ id, (∃ new, e.stage = .draws id new) ∨ (∃ page response, e.stage = .shows id page response) →
      e.context.contextId = some id

/-- What a step of a flight does to the ids. -/
inductive Moves (s : Shared σ) (f : Flight σ) (s' : Shared σ) (f' : Flight σ) : Prop
  /-- Nobody else notices. -/
  | alone : s'.contextIdCount = s.contextIdCount → s'.given = s.given → s'.pages = s.pages →
      (∀ id, f'.reserves = some id → f.reserves = some id) →
      (∀ id, f'.revisits = some id → f.revisits = some id) → Moves s f s' f'
  /-- The flight is given an id. -/
  | given : s'.contextIdCount = s.contextIdCount + 1 → s'.given = s.given ++ [toString s.contextIdCount] →
      s'.pages = s.pages →
      (∀ id, f'.reserves = some id → f.reserves = some id ∨ id = toString s.contextIdCount) →
      f'.revisits = none → Moves s f s' f'
  /-- A page is found. -/
  | finds (id : String) (place : Nat) : s'.contextIdCount = s.contextIdCount → s'.given = s.given →
      s'.pages = (s.pages.reuse id).2 → s.pages.page? id = some place → f'.reserves = none →
      f'.revisits = some id → Moves s f s' f'
  /-- A page is saved. -/
  | saves (id : String) (place : Nat) : s'.contextIdCount = s.contextIdCount → s'.given = s.given →
      s'.pages = (s.pages.save id place).2 → f.reserves = some id ∨ f.revisits = some id →
      f'.reserves = none → f'.revisits = none → Moves s f s' f'

/-- A flight without an id has none that is new. -/
theorem kept_of_none {held before : Option String} (h : held = none) : ∀ id, held = some id → before = some id := by
  intro id hid
  rw [h] at hid
  cases hid

end Flight

/-! ## Steps -/

variable [Component σ]

namespace Flight

theorem step_click (r : Registry σ) (s : Shared σ) (k : Click σ) (hn : (Flight.click k).Named) :
    Moves s (.click k) (k.step r s).1 (.click (k.step r s).2) ∧ (Flight.click (k.step r s).2).Named := by
  obtain ⟨c, stage⟩ := k
  rcases stage with _ | ⟨id, place⟩ | ⟨id, new⟩ | ⟨id, page, response⟩ | result
  · simp only [Click.step]
    rcases Address.ofSegments c.request.rawSegments with e | a
    · exact ⟨.alone rfl rfl rfl (kept_of_none rfl) (kept_of_none rfl), kept_of_none rfl⟩
    dsimp only
    rcases hp : s.pages.page? a.contextId with _ | place
    · rw [PageCache.reuse_of_miss hp]
      exact ⟨.alone rfl rfl rfl (kept_of_none rfl) (kept_of_none rfl), kept_of_none rfl⟩
    · have hok : (s.pages.reuse a.contextId).1 = .ok place := by simp only [PageCache.reuse, PageCache.restore, hp]
      rw [hok]
      refine ⟨.finds a.contextId place rfl rfl rfl hp rfl rfl, fun id hid => ?_⟩
      cases hid
      rfl
  · simp only [Click.step]
    rcases s.instances[place]? with _ | page
    · exact ⟨.alone rfl rfl rfl (fun _ h => h) fun _ h => h, hn⟩
    dsimp only
    have hwork := Shared.noticed_of_id (hn id rfl) (Desk.locked_takes r (s.desk c page))
    rcases hrun : (Desk.locked r).run.run (s.desk c page) with ⟨e | response | new, d⟩ <;> rw [hrun] at hwork <;>
      obtain ⟨hid, hcount, hsame⟩ := hwork <;> have hgiven := congrArg Shared.given hsame
    · exact ⟨.alone hcount hgiven rfl (kept_of_none rfl) (kept_of_none rfl), kept_of_none rfl⟩
    · exact ⟨.alone hcount hgiven rfl (kept_of_none rfl) (kept_of_none rfl), kept_of_none rfl⟩
    · refine ⟨.alone hcount hgiven rfl (kept_of_none rfl) fun _ h => h, fun id' hid' => ?_⟩
      cases hid'
      exact hid
  · simp only [Click.step]
    have hwork := Shared.noticed_of_id (hn id rfl) (Desk.render_takes r (s.desk c new.awake))
    rcases hrun : (s.desk c new.awake).walk (Pass.renderPage r) with ⟨e | response, d⟩ <;> rw [hrun] at hwork <;>
      obtain ⟨hid, hcount, hsame⟩ := hwork <;> have hgiven := congrArg Shared.given hsame
    · exact ⟨.alone hcount hgiven rfl (kept_of_none rfl) (kept_of_none rfl), kept_of_none rfl⟩
    · refine ⟨.alone hcount hgiven rfl (kept_of_none rfl) fun _ h => h, fun id' hid' => ?_⟩
      cases hid'
      exact hid
  · exact ⟨.saves id _ rfl rfl rfl (.inr rfl) rfl rfl, kept_of_none rfl⟩
  · exact ⟨.alone rfl rfl rfl (kept_of_none rfl) (kept_of_none rfl), kept_of_none rfl⟩

omit [Component σ] in
theorem reserves_entry {e : Entry σ} {id : String} (h : (Flight.entry e).reserves = some id) :
    e.context.contextId = some id := by
  obtain ⟨name, c, stage⟩ := e
  cases stage <;> first | exact h | cases h

omit [Component σ] in
theorem named_of_unshown {e : Entry σ} (h : e.stage.shown = none) : (Flight.entry e).Named := by
  rintro id (⟨new, hs⟩ | ⟨page, response, hs⟩)
  · rw [hs] at h
    cases h
  · rw [hs] at h
    cases h

omit [Component σ] in
/-- A direct action has the id of its response once it was asked for. -/
theorem moves_taken (s : Shared σ) {e f : Entry σ} (he : (Flight.entry e).reserves = e.context.contextId)
    (hf : f.context = (s.seen e.context).takeContextId.2) :
    Moves s (.entry e) (s.counted (s.seen e.context).takeContextId.2) (.entry f) := by
  rcases hc : e.context.contextId with _ | own
  · have htake : (s.seen e.context).takeContextId.2.contextId = some (toString s.contextIdCount) ∧
        (s.seen e.context).takeContextId.2.contextIdCount = s.contextIdCount + 1 := by
      simp [Context.takeContextId, Context.nextContextId, Shared.seen, hc]
    refine .given htake.2 (Shared.counted_of_succ htake.2) rfl (fun id hid => .inr ?_) rfl
    have hid' := reserves_entry hid
    rw [hf, htake.1] at hid'
    exact (Option.some.inj hid').symm
  · have htake : (s.seen e.context).takeContextId.2 = s.seen e.context := by
      simp [Context.takeContextId, Shared.seen, hc]
    rw [htake, Shared.counted_of_eq rfl]
    refine .alone rfl rfl rfl (fun id hid => ?_) (kept_of_none rfl)
    rw [he, ← reserves_entry hid, hf, htake]
    rfl

theorem step_entry (r : Registry σ) (s : Shared σ) (e : Entry σ) (hn : (Flight.entry e).Named) :
    Moves s (.entry e) (e.step r s).1 (.entry (e.step r s).2) ∧ (Flight.entry (e.step r s).2).Named := by
  obtain ⟨name, c, stage⟩ := e
  rcases stage with ⟨result | next | next⟩ | new | ⟨id, new⟩ | ⟨id, page, response⟩ | result
  · simp only [Entry.step]
    rcases result with e | reply
    · exact ⟨.alone rfl rfl rfl (kept_of_none rfl) (kept_of_none rfl), named_of_unshown rfl⟩
    simp only [Entry.Stage.replied]
    rcases (Outcome.ofReply r reply).1 with e | _ | new | result
    · exact ⟨.alone rfl rfl rfl (kept_of_none rfl) (kept_of_none rfl), named_of_unshown rfl⟩
    · exact ⟨.alone rfl rfl rfl (kept_of_none rfl) (kept_of_none rfl), named_of_unshown rfl⟩
    · exact ⟨.alone rfl rfl rfl (fun _ h => h) (kept_of_none rfl), named_of_unshown rfl⟩
    · exact ⟨.alone rfl rfl rfl (kept_of_none rfl) (kept_of_none rfl), named_of_unshown rfl⟩
  · exact ⟨moves_taken s rfl rfl, named_of_unshown rfl⟩
  · exact ⟨.given rfl (Shared.counted_of_succ rfl) rfl (fun _ h => .inl h) rfl, named_of_unshown rfl⟩
  · refine ⟨moves_taken s rfl rfl, ?_⟩
    rintro id (⟨new', h⟩ | ⟨page, response, h⟩) <;> cases h
    exact Context.contextId_takeContextId _
  · simp only [Entry.step]
    have hwork := Shared.noticed_of_id (hn id (.inl ⟨new, rfl⟩)) (Desk.render_takes r (s.desk c new.awake))
    rcases hrun : (s.desk c new.awake).walk (Pass.renderPage r) with ⟨e | response, d⟩ <;> rw [hrun] at hwork <;>
      obtain ⟨hid, hcount, hsame⟩ := hwork <;> have hgiven := congrArg Shared.given hsame
    · exact ⟨.alone hcount hgiven rfl (kept_of_none rfl) (kept_of_none rfl), named_of_unshown rfl⟩
    · refine ⟨.alone hcount hgiven rfl (fun id' hid' => ?_) (kept_of_none rfl), ?_⟩
      · have hown : (⟨name, c, .draws id new⟩ : Entry σ).context.contextId = some id := hn id (.inl ⟨new, rfl⟩)
        exact hown.trans (hid.symm.trans hid')
      · rintro id' (⟨new', h⟩ | ⟨page, response, h⟩) <;> cases h
        exact hid
  · exact ⟨.saves id _ rfl rfl rfl (.inl (hn id (.inr ⟨page, response, rfl⟩))) rfl rfl, named_of_unshown rfl⟩
  · exact ⟨.alone rfl rfl rfl (kept_of_none rfl) (kept_of_none rfl), named_of_unshown rfl⟩

end Flight

/-! ## The ids of a session -/

/-- Ids are given out once, and pages are kept under them. The id of a new page is nobody else's. -/
structure Apart (t : Traffic ι σ) : Prop where
  counted : t.shared.given = (List.range t.shared.contextIdCount).map toString
  tied : t.shared.pages.Tied
  cached : ∀ id ∈ t.shared.pages.contextIds, id ∈ t.shared.given
  named : ∀ i, (t.flights i).Named
  known : ∀ i id, (t.flights i).reserves = some id ∨ (t.flights i).revisits = some id → id ∈ t.shared.given
  free : ∀ i id, (t.flights i).reserves = some id → id ∉ t.shared.pages.contextIds
  unvisited : ∀ i j id, (t.flights i).reserves = some id → (t.flights j).revisits ≠ some id
  own : ∀ i j id, (t.flights i).reserves = some id → (t.flights j).reserves = some id → i = j

namespace Apart

variable {t t' : Traffic ι σ}

omit [Component σ] in
theorem new_id (h : Apart t) : toString t.shared.contextIdCount ∉ t.shared.given := by
  rw [h.counted]
  intro hmem
  obtain ⟨n, hn, heq⟩ := List.mem_map.mp hmem
  rw [toString_injective heq] at hn
  exact Nat.lt_irrefl _ (List.mem_range.mp hn)

omit [Component σ] in
theorem nodup (h : Apart t) : t.shared.given.Nodup := by
  rw [h.counted]
  exact List.nodup_range.map fun _ _ => toString_injective

variable [DecidableEq ι] {i : ι} {s' : Shared σ} {f' : Flight σ}

omit [Component σ] in
theorem moved (h : Apart t) (hn : f'.Named) (hm : (t.flights i).Moves t.shared s' f') :
    Apart ⟨s', Function.update t.flights i f'⟩ := by
  have hflight : ∀ j, Function.update t.flights i f' j = if j = i then f' else t.flights j :=
    fun j => Function.update_apply ..
  have hnamed : ∀ j, (Function.update t.flights i f' j).Named := by
    intro j
    rw [hflight]
    split
    · exact hn
    · exact h.named j
  have hcounted := h.counted
  have hnew := h.new_id
  obtain ⟨-, htied, hcached, -, hknown, hfree, hunvisited, hown⟩ := h
  cases hm with
  | alone hcount hgiven hpages hreserves hrevisits =>
    exact {
      counted := by rw [hgiven, hcount, hcounted]
      tied := hpages ▸ htied
      cached := by rwa [hpages, hgiven]
      named := hnamed
      known := by grind
      free := by grind
      unvisited := by grind
      own := by grind }
  | given hcount hgiven hpages hreserves hrevisits =>
    exact {
      counted := by rw [hgiven, hcount, hcounted, List.range_succ, List.map_append, List.map_singleton]
      tied := hpages ▸ htied
      cached := by grind
      named := hnamed
      known := by grind
      free := by grind
      unvisited := by grind
      own := by grind }
  | finds id place hcount hgiven hpages hfound hreserves hrevisits =>
    have hid : id ∈ t.shared.pages.contextIds := htied.mem_contextIds.mpr ⟨place, hfound⟩
    have hids : ∀ id' ∈ s'.pages.contextIds, id' ∈ t.shared.pages.contextIds := by
      intro id' hmem
      rw [hpages] at hmem
      exact PageCache.mem_contextIds_of_reuse htied hmem
    exact {
      counted := by rw [hgiven, hcount, hcounted]
      tied := hpages ▸ (PageCache.reuse_of_page? htied hfound).2.tied
      cached := by grind
      named := hnamed
      known := by grind
      free := by grind
      unvisited := by grind
      own := by grind }
  | saves id place hcount hgiven hpages hold hreserves hrevisits =>
    have hids : ∀ id' ∈ s'.pages.contextIds, id' ∈ t.shared.pages.contextIds ∨ id' = id := by
      intro id' hmem
      rw [hpages] at hmem
      exact PageCache.mem_contextIds_of_save htied hmem
    exact {
      counted := by rw [hgiven, hcount, hcounted]
      tied := hpages ▸ (htied.saved id place).tied
      cached := by grind
      named := hnamed
      known := by grind
      free := by grind
      unvisited := by grind
      own := by grind }

omit [Component σ] [DecidableEq ι] in
theorem start (app : Application σ) (now : Nat) (session : String) (incoming : ι → Incoming) :
    Apart (Traffic.start app (app.sessions.fresh now session) incoming) := by
  have hflight : ∀ i, ((Traffic.start app (app.sessions.fresh now session) incoming).flights i).reserves = none ∧
      ((Traffic.start app (app.sessions.fresh now session) incoming).flights i).revisits = none ∧
      ((Traffic.start app (app.sessions.fresh now session) incoming).flights i).Named := by
    intro i
    unfold Traffic.start
    dsimp only
    rcases incoming i with _ | _
    · exact ⟨rfl, rfl, nofun⟩
    · refine ⟨rfl, rfl, ?_⟩
      rintro id (⟨new, h⟩ | ⟨page, response, h⟩) <;> cases h
  have htied : (Traffic.start app (app.sessions.fresh now session) incoming).shared.pages.Tied :=
    (PageCache.tied_ofCapacity app.sessions.pageCacheSize).places
  refine ⟨rfl, htied, nofun, fun i => (hflight i).2.2, ?_, ?_, ?_, ?_⟩
  · grind
  · grind
  · grind
  · grind

theorem step (r : Registry σ) (h : Apart t) (i : ι) : Apart (t.step r i) := by
  have hn := h.named i
  unfold Traffic.step
  rcases hf : t.flights i with k | e <;> rw [hf] at hn
  · obtain ⟨hm, hn'⟩ := Flight.step_click r t.shared k hn
    exact h.moved hn' (hf ▸ hm)
  · obtain ⟨hm, hn'⟩ := Flight.step_entry r t.shared e hn
    exact h.moved hn' (hf ▸ hm)

theorem run (r : Registry σ) (h : Apart t) (schedule : List ι) : Apart (t.run r schedule) := by
  induction schedule generalizing t with
  | nil => exact h
  | cons i rest ih => exact ih (h.step r i)

end Apart

end PageServer
