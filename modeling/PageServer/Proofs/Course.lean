/-
  PageServer.Proofs.Course — what a request to an element comes to on the page it has found.

  That is its course: the page as it leaves it, the response, and the page that is saved in its place,
  if there is one (`Desk.course`). The request takes it whatever is compiled already
  (`Desk.course_given`), and `Dispatch.respond` is what becomes of the cache if it is the only one
  (`Dispatch.respond_course`). Of the steps of a request one takes the whole course as far as it is
  taken under the lock of the page (`Click.step_holds`); after it the page does not matter any more,
  and the rest is the same whoever comes in between (`Click.Past`, `Click.step_past`). If nobody does,
  the steps do what `Dispatch.respond` does in one go (`Click.alone`).
-/

import PageServer.Proofs.Flights
import PageServer.Proofs.Precompiled

namespace PageServer

variable {σ : Type} {r : Registry σ}

/-! ## The course of a request -/

/-- What a request comes to on the page it is about, if no other comes in between. -/
structure Course (σ : Type) where
  /-- The page that was looked up, afterwards. -/
  page : Instance σ
  result : Except DispatchError Http.Response
  /-- The page that has come in its place. -/
  new : Option (Instance σ)

/-- The page that is cached in the end. -/
def Course.left (k : Course σ) : Instance σ := k.new.getD k.page

variable [Component σ]

namespace Desk

/-- The page that the action gave, at the same desk. -/
def turnedTo (d : Desk σ) (new : Instance σ) : Desk σ := ⟨d.context, d.templates, new.awake⟩

/-- The course after what was done under the lock. -/
def released (r : Registry σ) : Except DispatchError (Http.Response ⊕ Instance σ) × Desk σ → Course σ
  | (.error e, d) => ⟨d.page, .error e, none⟩
  | (.ok (.inl response), d) => ⟨d.page, .ok response, none⟩
  | (.ok (.inr new), d) =>
    match (d.turnedTo new).walk (Pass.renderPage r) with
    | (.error e, _) => ⟨d.page, .error (.failed .generateResponse e), none⟩
    | (.ok response, shown) => ⟨d.page, .ok response, some shown.page⟩

def course (r : Registry σ) (d : Desk σ) : Course σ := released r ((locked r).run.run d)

theorem released_page (r : Registry σ) (o : Except DispatchError (Http.Response ⊕ Instance σ) × Desk σ) :
    (released r o).page = o.2.page := by
  obtain ⟨e | response | new, d⟩ := o
  · rfl
  · rfl
  · rw [released]
    rcases (d.turnedTo new).walk (Pass.renderPage r) with ⟨e | response, shown⟩ <;> rfl

theorem run_locked (r : Registry σ) (d : Desk σ) : (locked r).run.run d =
    match (work r).run.run d with
    | (.ok found, d) => (conclude r found).run.run d
    | (.error e, d) => (.error e, d) := by
  unfold locked
  rw [run_bind]
  rcases (work r).run.run d with ⟨e | found, d⟩ <;> rfl

theorem run_conclude_stay (r : Registry σ) (d : Desk σ) : (conclude r none).run.run d =
    (((phase .generateResponse (Pass.renderPage r)).run.run d).1.map .inl,
      ((phase .generateResponse (Pass.renderPage r)).run.run d).2) := by
  unfold conclude
  rw [map_eq_pure_bind, run_bind]
  rcases (phase .generateResponse (Pass.renderPage r)).run.run d with ⟨e | response, d⟩ <;> rfl

end Desk

namespace Dispatch

variable {r : Registry σ} {x y : Exchange σ} {a : Address} {p : Instance σ} {c : PageCache (Instance σ)} {d : Desk σ}

/-- The page that came of an action, as it was shown. -/
def shownAfter? (r : Registry σ) : Found σ → Exchange σ → Option (Instance σ)
  | some (.page new), y =>
    match y.traverse new.awake (Pass.renderPage r) with
    | ((.ok _, shown), _) => some shown
    | _ => none
  | _, _ => none

theorem conclude_stay_at_desk (r : Registry σ) (hc : c.Held a.contextId d.page y.pages) (hy : y.desk d.page = d) :
    let k := Desk.released r ((Desk.conclude r none).run.run d)
    ((conclude r (a, none, d.page)).run.run y).1 = k.result ∧
      c.Held a.contextId k.left ((conclude r (a, none, d.page)).run.run y).2.pages ∧ k.new = none := by
  obtain ⟨z, hrun, -, hz⟩ := onCached_at_desk .generateResponse d.page (Pass.renderPage r) hc
  rw [hy] at hrun hz
  rw [Desk.run_conclude_stay, conclude, map_eq_pure_bind, run_bind, hrun]
  rcases hshow : (Desk.phase .generateResponse (Pass.renderPage r)).run.run d with ⟨e | response, d'⟩ <;>
    rw [hshow] at hz <;> exact ⟨rfl, hz, rfl⟩

/-- What comes after the action goes on as it does for the page alone. -/
theorem conclude_at_desk (r : Registry σ) (found : Found σ) (hc : c.Held a.contextId d.page y.pages)
    (hy : y.desk d.page = d) :
    let k := Desk.released r ((Desk.conclude r found).run.run d)
    ((conclude r (a, found, d.page)).run.run y).1 = k.result ∧
      c.Held a.contextId k.left ((conclude r (a, found, d.page)).run.run y).2.pages ∧
      shownAfter? r found y = k.new ∧ (k.new ≠ none → k.page = d.page) := by
  have hstay := conclude_stay_at_desk (a := a) r hc hy
  rcases found with _ | _ | new | result
  · exact ⟨hstay.1, hstay.2.1, hstay.2.2.symm, fun hnew => absurd hstay.2.2 hnew⟩
  · exact ⟨hstay.1, hstay.2.1, hstay.2.2.symm, fun hnew => absurd hstay.2.2 hnew⟩
  · have hturned : Desk.mk y.context y.templates new.awake = d.turnedTo new := by
      rw [← hy]
      rfl
    have hwalk : (y.traverse new.awake (Pass.renderPage r)).1 =
        (((d.turnedTo new).walk (Pass.renderPage r)).1, ((d.turnedTo new).walk (Pass.renderPage r)).2.page) := by
      rw [← hturned]
      rfl
    have hpages : (y.traverse new.awake (Pass.renderPage r)).2.pages = y.pages := rfl
    have hrun : (Desk.conclude r (some (.page new))).run.run d = (.ok (.inr new), d) := rfl
    rw [hrun, conclude, run_replace, shownAfter?, Desk.released]
    rcases htr : y.traverse new.awake (Pass.renderPage r) with ⟨⟨result, shown⟩, z⟩
    rw [htr] at hwalk hpages
    obtain ⟨hresult, hshown⟩ := Prod.mk.inj hwalk
    rw [← hpages] at hc
    rcases hw : (d.turnedTo new).walk (Pass.renderPage r) with ⟨e | response, d'⟩ <;> rw [hw] at hresult hshown <;>
      cases hresult <;> cases hshown
    · exact ⟨rfl, hc, rfl, fun hnew => absurd rfl hnew⟩
    · exact ⟨rfl, hc.save d'.page, rfl, fun _ => rfl⟩
  · rcases result with e | response
    · exact ⟨rfl, hc, rfl, fun hnew => absurd rfl hnew⟩
    · exact ⟨rfl, hc, rfl, fun hnew => absurd rfl hnew⟩

/-- A request that has the session for itself takes its course. -/
theorem respond_course (r : Registry σ) (hx : x.pages.Tied) (ha : Address.ofSegments x.context.request.rawSegments = .ok a)
    (hp : x.pages.page? a.contextId = some p) :
    let k := Desk.course r ⟨x.context.begin a, x.templates, p⟩
    ((respond r).run.run x).1 = k.result ∧ x.pages.Held a.contextId k.left ((respond r).run.run x).2.pages ∧
      shown? r x = k.new ∧
      (k.new ≠ none → x.pages.Held a.contextId k.page ((invoked r).run.run x).2.pages) := by
  obtain ⟨hok, hfound⟩ := PageCache.reuse_of_page? hx hp
  obtain ⟨pages, hreuse⟩ : ∃ pages, x.pages.reuse a.contextId = (.ok p, pages) := ⟨_, Prod.ext hok rfl⟩
  have hheld : x.pages.Held a.contextId p ({ x.mapContext (·.begin a) with pages := pages } : Exchange σ).pages := by
    rw [hreuse] at hfound
    exact hfound
  have hinvoked : (invoked r).run.run x = _ := run_invoked r ha
  rw [hreuse] at hinvoked
  dsimp only at hinvoked
  have hdesk : Desk.mk (x.context.begin a) x.templates p =
    ({ x.mapContext (·.begin a) with pages := pages } : Exchange σ).desk p := rfl
  rw [respond_eq, run_bind, shown?, hinvoked, Desk.course, Desk.run_locked, hdesk]
  generalize ({ x.mapContext (·.begin a) with pages := pages } : Exchange σ) = x' at hheld
  obtain ⟨y, hwork, hy, hheld⟩ := work_at_desk r hheld
  rw [hwork]
  rcases hrun : (Desk.work r).run.run (x'.desk p) with ⟨e | found, d⟩ <;> rw [hrun] at hy hheld
  · exact ⟨rfl, hheld, rfl, fun hnew => absurd rfl hnew⟩
  obtain ⟨hresult, hleft, hshown, hpage⟩ := conclude_at_desk r found hheld hy
  refine ⟨hresult, hleft, ?_, fun hnew => ?_⟩
  · rw [← hshown]
    rcases found with _ | _ | new | result <;> rfl
  · exact hpage hnew ▸ hheld

end Dispatch

/-! ## Whatever is compiled -/

namespace Desk

/-- The desk with these templates compiled. -/
def given (d : Desk σ) (ts : Templates) : Desk σ := ⟨d.context, ts, d.page⟩

/-- The work is the same whatever is compiled already, and keeps what is compiled good. -/
def Blind (r : Registry σ) {β : Type} (m : ExceptT DispatchError (StateM (Desk σ)) β) : Prop :=
  ∀ d ts, Templates.Compiled r d.templates → Templates.Compiled r ts →
    ∃ ts', m.run.run (d.given ts) = ((m.run.run d).1, (m.run.run d).2.given ts') ∧
      Templates.Compiled r (m.run.run d).2.templates ∧ Templates.Compiled r ts'

namespace Blind

variable {α β : Type}

omit [Component σ] in
theorem bind {m : ExceptT DispatchError (StateM (Desk σ)) α} {f : α → ExceptT DispatchError (StateM (Desk σ)) β}
    (hm : Blind r m) (hf : ∀ a, Blind r (f a)) : Blind r (m >>= f) := by
  intro d ts hd hts
  obtain ⟨ts', h, hd', hts'⟩ := hm d ts hd hts
  rw [run_bind, run_bind, h]
  rcases hrun : m.run.run d with ⟨e | a, d'⟩ <;> rw [hrun] at hd'
  · exact ⟨ts', rfl, hd', hts'⟩
  · exact hf a d' ts' hd' hts'

omit [Component σ] in
theorem pure (a : Except DispatchError β) :
    Blind r (ExceptT.mk (Pure.pure a) : ExceptT DispatchError (StateM (Desk σ)) β) :=
  fun _ ts hd hts => ⟨ts, rfl, hd, hts⟩

omit [Component σ] in
theorem walk {pass : Pass σ α} (h : pass.Blind r) {d : Desk σ} {ts : Templates} (hd : Templates.Compiled r d.templates)
    (hts : Templates.Compiled r ts) : ∃ ts', (d.given ts).walk pass = ((d.walk pass).1, (d.walk pass).2.given ts') ∧
      Templates.Compiled r (d.walk pass).2.templates ∧ Templates.Compiled r ts' := by
  obtain ⟨ts', hrun, hd', hts'⟩ := h (.start d.context d.templates d.page) ts hd hts
  refine ⟨ts', ?_, hd', hts'⟩
  have hstart : (Scene.start d.context d.templates d.page).given ts = .start d.context ts d.page := rfl
  rw [hstart] at hrun
  simp only [Desk.walk, given, hrun]
  rfl

omit [Component σ] in
theorem phase {pass : Pass σ α} (h : pass.Blind r) (p : DispatchPhase) : Blind r (Desk.phase p pass) := by
  intro d ts hd hts
  obtain ⟨ts', hrun, hd', hts'⟩ := walk h hd hts
  refine ⟨ts', ?_, hd', hts'⟩
  show (((d.given ts).walk pass).1.mapError (DispatchError.failed p), ((d.given ts).walk pass).2) = _
  rw [hrun]
  rfl

omit [Component σ] in
theorem get {f : Desk σ → ExceptT DispatchError (StateM (Desk σ)) β} (h : ∀ d, Blind r (f d))
    (hf : ∀ d ts, f (d.given ts) = f d) : Blind r (do f (← MonadState.get)) := by
  intro d ts hd hts
  rw [run_bind, run_bind, run_get, run_get]
  dsimp only
  rw [hf d ts]
  exact h d d ts hd hts

theorem work (hk : r.Keyed) : Blind r (work r) := by
  have hwalk : ∀ p phase, Blind r (Desk.phase p (Pass.walkPage r phase)) := fun p phase =>
    Blind.phase (.walkPage hk phase) p
  have hwoken : Blind r (modify woken : ExceptT DispatchError (StateM (Desk σ)) PUnit) :=
    fun _ ts hd hts => ⟨ts, rfl, hd, hts⟩
  refine bind hwoken fun _ => get (fun d => ?_) fun _ _ => rfl
  split
  · exact bind (hwalk _ _) fun _ => hwalk _ _
  · exact hwalk _ _

theorem conclude (hk : r.Keyed) (found : Found σ) : Blind r (conclude r found) := by
  have hshow : Blind r (.inl <$> Desk.phase .generateResponse (Pass.renderPage r) :
      ExceptT DispatchError (StateM (Desk σ)) (Http.Response ⊕ Instance σ)) := by
    rw [map_eq_pure_bind]
    exact bind (phase (.renderPage hk) _) fun _ => pure (.ok _)
  rcases found with _ | _ | new | result
  · exact hshow
  · exact hshow
  · exact pure (.ok _)
  · exact bind (pure _) fun _ => pure (.ok _)

theorem locked (hk : r.Keyed) : Blind r (locked r) := bind (work hk) (conclude hk)

end Blind

theorem released_given (hk : r.Keyed) (result : Except DispatchError (Http.Response ⊕ Instance σ)) {d : Desk σ}
    (hd : Templates.Compiled r d.templates) {ts : Templates} (hts : Templates.Compiled r ts) :
    released r (result, d.given ts) = released r (result, d) := by
  rcases result with e | response | new
  · rfl
  · rfl
  · obtain ⟨ts', hrun, -, -⟩ := Blind.walk (d := d.turnedTo new) (.renderPage hk) hd hts
    have hturned : (d.given ts).turnedTo new = (d.turnedTo new).given ts := rfl
    simp only [released, hturned, hrun]
    rcases (d.turnedTo new).walk (Pass.renderPage r) with ⟨e | response, shown⟩ <;> rfl

/-- The course is the same whatever is compiled. -/
theorem course_given (hk : r.Keyed) {d : Desk σ} (hd : Templates.Compiled r d.templates) {ts : Templates}
    (hts : Templates.Compiled r ts) : (d.given ts).course r = d.course r := by
  obtain ⟨ts', hrun, hd', hts'⟩ := Blind.locked hk d ts hd hts
  rw [course, hrun, released_given hk _ hd' hts']
  rfl

end Desk

/-! ## Steps of a request -/

namespace Click

/-- Where the request holds a place, there is a page. -/
def Finds (s : Shared σ) (k : Click σ) : Prop := ∀ id place, k.stage = .holds id place → (s.instances[place]?).isSome

/-- With every step of its own a request comes closer to its answer. -/
theorem step_ahead (r : Registry σ) {s : Shared σ} {k : Click σ} (h : k.Finds s) :
    (k.step r s).2.ahead ≤ k.ahead - 1 := by
  obtain ⟨c, stage⟩ := k
  rcases stage with _ | ⟨id, place⟩ | ⟨id, new⟩ | ⟨id, page, response⟩ | result
  · simp only [step]
    rcases Address.ofSegments c.request.rawSegments with e | a
    · exact Nat.zero_le _
    · dsimp only
      rcases (s.pages.reuse a.contextId).1 with e | place
      · exact Nat.zero_le _
      · exact Nat.le_refl _
  · obtain ⟨page, hpage⟩ := Option.isSome_iff_exists.mp (h id place rfl)
    simp only [step, hpage]
    rcases (Desk.locked r).run.run (s.desk c page) with ⟨e | response | new, d⟩
    · exact Nat.zero_le _
    · exact Nat.zero_le _
    · exact Nat.le_refl _
  · simp only [step]
    rcases (s.desk c new.awake).walk (Pass.renderPage r) with ⟨e | response, d⟩
    · exact Nat.zero_le _
    · exact Nat.le_refl _
  · exact Nat.le_refl _
  · exact Nat.le_refl _

/-- The request has had the page that it looked up, and `saved` is what it has saved since then. -/
inductive Past (r : Registry σ) (n : Nat) (id : String) (o : Course σ) : Click σ → Option (Instance σ) → Prop
  | answered {c : Context} : o.new = none → Past r n id o ⟨c, .answered o.result⟩ none
  | leaves {c : Context} {ts : Templates} {new : Instance σ} :
      c.contextId = some id → c.contextIdCount = n → Templates.Compiled r ts →
      o = Desk.released r (.ok (.inr new), ⟨c, ts, o.page⟩) → Past r n id o ⟨c, .leaves id new⟩ none
  | shows {c : Context} {shown : Instance σ} {response : Http.Response} :
      o.new = some shown → o.result = .ok response → Past r n id o ⟨c, .shows id shown response⟩ none
  | saved {c : Context} {shown : Instance σ} : o.new = some shown → Past r n id o ⟨c, .answered o.result⟩ (some shown)

variable {s : Shared σ} {c : Context} {id : String} {place : Nat} {p : Instance σ}

theorem step_comes (r : Registry σ) {a : Address} {pages : PageCache Nat}
    (ha : Address.ofSegments c.request.rawSegments = .ok a) (hfound : s.pages.reuse a.contextId = (.ok place, pages)) :
    (⟨c, .comes⟩ : Click σ).step r s = ({ s with pages := pages }, ⟨c.begin a, .holds a.contextId place⟩) := by
  simp only [step, ha, hfound]
  rfl

theorem step_holds (hk : r.Keyed) (hid : c.contextId = some id) (hcount : c.contextIdCount = s.contextIdCount)
    (hs : Templates.Compiled r s.templates) (hp : s.instances[place]? = some p) :
    let o := Desk.course r ⟨c, s.templates, p⟩
    ∃ ts k, (⟨c, .holds id place⟩ : Click σ).step r s =
        ({ s with templates := ts, instances := s.instances.set place o.page }, k) ∧
      Templates.Compiled r ts ∧ Past r s.contextIdCount id o k none := by
  have hdesk : s.desk c p = ⟨c, s.templates, p⟩ := by
    rw [Shared.desk, Shared.seen, ← hcount]
  obtain ⟨-, -, hts, -⟩ := Desk.Blind.locked hk ⟨c, s.templates, p⟩ s.templates hs hs
  have hwork := Shared.noticed_of_id hid (Desk.locked_takes r (s.desk c p))
  simp only [step, hp]
  rw [hdesk] at hwork ⊢
  rw [Desk.course]
  rcases hrun : (Desk.locked r).run.run ⟨c, s.templates, p⟩ with ⟨result, d⟩
  rw [hrun] at hwork hts
  obtain ⟨hid', hcount', hsame⟩ := hwork
  dsimp only at hid' hcount' hsame hts
  refine ⟨d.templates, ⟨d.context, .acted id result⟩, ?_, hts, ?_⟩
  · dsimp only
    rw [hsame, Desk.released_page]
  · rcases result with e | response | new
    · exact .answered rfl
    · exact .answered rfl
    · refine .leaves hid' hcount' hts ?_
      rw [Desk.released_page]

theorem step_past (hk : r.Keyed) (hs : Templates.Compiled r s.templates) {o : Course σ} {k : Click σ}
    {saved : Option (Instance σ)} (h : Past r s.contextIdCount id o k saved) :
    ∃ ts k', Templates.Compiled r ts ∧
      (k.step r s = ({ s with templates := ts }, k') ∧ Past r s.contextIdCount id o k' saved ∨
        saved = none ∧ ∃ shown, o.new = some shown ∧ k.revisits = some id ∧
          k.step r s = ({ s with templates := ts }.save id shown, k') ∧ Past r s.contextIdCount id o k' (some shown)) := by
  cases h with
  | answered hnew => exact ⟨s.templates, _, hs, .inl ⟨rfl, .answered hnew⟩⟩
  | saved hnew => exact ⟨s.templates, _, hs, .inl ⟨rfl, .saved hnew⟩⟩
  | @shows c shown response hnew hresult =>
    refine ⟨s.templates, ⟨c, .answered o.result⟩, hs, .inr ⟨rfl, shown, hnew, rfl, ?_, .saved hnew⟩⟩
    rw [hresult]
    rfl
  | @leaves c ts new hid hcount hts ho =>
    have hdesk : s.desk c new.awake = (⟨c, s.templates, o.page⟩ : Desk σ).turnedTo new := by
      rw [Shared.desk, Shared.seen, ← hcount]
      rfl
    have hgiven : o = Desk.released r (.ok (.inr new), ⟨c, s.templates, o.page⟩) :=
      ho.trans (Desk.released_given hk (.ok (.inr new)) (d := ⟨c, s.templates, o.page⟩) hs hts)
    obtain ⟨-, -, hts', -⟩ := Desk.Blind.walk (d := s.desk c new.awake) (.renderPage hk) hs hs
    have hwork := Shared.noticed_of_id hid (Desk.render_takes r (s.desk c new.awake))
    simp only [step]
    rw [Desk.released, ← hdesk] at hgiven
    rcases hrun : (s.desk c new.awake).walk (Pass.renderPage r) with ⟨e | response, d⟩ <;>
      rw [hrun] at hwork hts' hgiven <;> obtain ⟨hid', hcount', hsame⟩ := hwork <;> dsimp only at hsame hts' hgiven ⊢
    · refine ⟨d.templates, ⟨d.context, .answered o.result⟩, hts', .inl ⟨?_, .answered ?_⟩⟩
      · rw [hsame, congrArg Course.result hgiven]
        rfl
      · exact congrArg Course.new hgiven
    · refine ⟨d.templates, ⟨d.context, .shows id d.page response⟩, hts', .inl ⟨?_, .shows ?_ ?_⟩⟩
      · rw [hsame]
        rfl
      · exact congrArg Course.new hgiven
      · exact congrArg Course.result hgiven

/-! ## A request that has the session for itself -/

variable {cache : PageCache (Instance σ)} {n : Nat} {o : Course σ} {k : Click σ} {saved : Option (Instance σ)}

theorem Past.finds (h : Past r n id o k saved) (s : Shared σ) : k.Finds s := by
  rintro id place hstage
  cases h <;> cases hstage

/-- Once it has had the page, the request comes to its result, and the page that is left is cached. -/
theorem Past.finishes (hk : r.Keyed) (hn : k.ahead ≤ n) (hs : Templates.Compiled r s.templates)
    (h : Past r s.contextIdCount id o k saved)
    (hc : cache.Cached id s.pages s.instances place (saved.getD o.page)) :
    ∃ s' place', Finishes (step r) answer? s k o.result s' ∧ cache.Cached id s'.pages s'.instances place' o.left ∧
      s'.contextIdCount = s.contextIdCount := by
  induction n generalizing s k saved place with
  | zero =>
    cases h with
    | answered hnew =>
      refine ⟨s, place, .answered rfl, ?_, rfl⟩
      rw [Course.left, hnew]
      exact hc
    | saved hnew =>
      refine ⟨s, place, .answered rfl, ?_, rfl⟩
      rw [Course.left, hnew]
      exact hc
    | leaves => cases hn
    | shows => cases hn
  | succ n ih =>
    have hcloser : (k.step r s).2.ahead ≤ n := Nat.le_trans (step_ahead r (h.finds s)) (by omega)
    obtain ⟨ts, k', hts, ⟨hstep, hpast⟩ | ⟨rfl, shown, -, -, hstep, hpast⟩⟩ := step_past hk hs h <;>
      rw [hstep] at hcloser
    · obtain ⟨s', place', hfinishes, hleft⟩ := ih (s := { s with templates := ts }) hcloser hts hpast hc
      exact ⟨s', place', .step (by rw [hstep]; exact hfinishes), hleft⟩
    · have hsaved := (PageCache.Cached.save hc shown).1
      obtain ⟨s', place', hfinishes, hleft⟩ :=
        ih (s := { s with templates := ts }.save id shown) hcloser hts hpast hsaved
      exact ⟨s', place', .step (by rw [hstep]; exact hfinishes), hleft⟩

/-- So does the request that holds the page. -/
theorem holds_finishes (hk : r.Keyed) (hid : c.contextId = some id) (hcount : c.contextIdCount = s.contextIdCount)
    (hs : Templates.Compiled r s.templates) (hc : cache.Cached id s.pages s.instances place p) :
    let o := Desk.course r ⟨c, s.templates, p⟩
    ∃ s' place', Finishes (step r) answer? s ⟨c, .holds id place⟩ o.result s' ∧
      cache.Cached id s'.pages s'.instances place' o.left ∧ s'.contextIdCount = s.contextIdCount := by
  intro o
  obtain ⟨ts, k, hstep, hts, hpast⟩ := step_holds hk hid hcount hs (PageCache.Cached.getElem? hc)
  have hupdated := PageCache.Cached.update hc o.page
  obtain ⟨s', place', hfinishes, hleft⟩ := Past.finishes
    (s := { s with templates := ts, instances := s.instances.set place o.page }) hk (Nat.le_refl _) hts hpast hupdated
  exact ⟨s', place', .step (by rw [hstep]; exact hfinishes), hleft⟩

/-- A request to an element is answered as if it were done in one go, and so is the session left. -/
theorem alone (hk : r.Keyed) (hcount : c.contextIdCount = s.contextIdCount) (hs : Templates.Compiled r s.templates)
    (events : List Event) (h : s.pages.Placed s.instances cache) :
    let o := (Dispatch.respond r).run.run ⟨c, s.templates, cache, events⟩
    ∃ s', Finishes (step r) answer? s ⟨c, .comes⟩ o.1 s' ∧ s'.pages.Placed s'.instances o.2.pages ∧
      s'.contextIdCount = s.contextIdCount := by
  rcases ha : Address.ofSegments c.request.rawSegments with e | a
  · have hstep : (⟨c, .comes⟩ : Click σ).step r s = (s, ⟨c, .answered (.error (.malformedAddress e))⟩) := by
      simp only [step, ha]
    have hrespond : (Dispatch.respond r).run.run ⟨c, s.templates, cache, events⟩ =
        (.error (.malformedAddress e), ⟨c, s.templates, cache, events⟩) := by
      rw [Dispatch.respond, run_bind, Dispatch.run_address, ha]
      rfl
    rw [hrespond]
    exact ⟨s, .step (by rw [hstep]; exact .answered rfl), h, rfl⟩
  rcases hp : cache.page? a.contextId with _ | p
  · have hstep : (⟨c, .comes⟩ : Click σ).step r s =
        (s, ⟨c.begin a, .answered (.error (.pageExpired ⟨a.contextId⟩))⟩) := by
      simp only [step, ha, PageCache.reuse_of_miss (h.page?_none hp)]
      rfl
    have hinvoked : (Dispatch.invoked r).run.run ⟨c, s.templates, cache, events⟩ =
        (.error (.pageExpired ⟨a.contextId⟩), ⟨c.begin a, s.templates, cache, events⟩) := by
      rw [Dispatch.run_invoked (x := ⟨c, s.templates, cache, events⟩) r ha, PageCache.reuse_of_miss hp]
      rfl
    rw [Dispatch.respond_eq, run_bind, hinvoked]
    exact ⟨s, .step (by rw [hstep]; exact .answered rfl), h, rfl⟩
  obtain ⟨place, hok, hcached⟩ := PageCache.Placed.cached h hp
  have hcomes := step_comes r (s := s) ha (Prod.ext hok rfl)
  have hid : (c.begin a).contextId = some a.contextId := rfl
  have hcount' : (c.begin a).contextIdCount = s.contextIdCount := hcount
  obtain ⟨s', place', hfinishes, hleft, hkept⟩ :=
    holds_finishes (s := { s with pages := (s.pages.reuse a.contextId).2 }) hk hid hcount' hs hcached
  obtain ⟨hresult, hheld, -⟩ := Dispatch.respond_course (x := ⟨c, s.templates, cache, events⟩) r h.tied' ha hp
  refine ⟨s', .step ?_, PageCache.Cached.placed hleft hheld, hkept⟩
  rw [hcomes, hresult]
  exact hfinishes

end Click

end PageServer
