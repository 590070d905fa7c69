/-
  PageServer.Proofs.Click — a click runs the link that was shown.

  `click_runs_what_was_shown` is about a link to an action that a rendered page showed, and about
  the request that its URL makes. The page may have been given other values in between, as long as
  what decides on the way to the link reads alike and the paths of the rounds are in reach. A path
  that only an earlier repetition has put in reach is not (`link_out_of_reach`): that repetition
  is left out when the action is invoked.
-/

import PageServer.Proofs.Retraced

namespace PageServer

variable {σ : Type} [Component σ] {r : Registry σ}

/-! ## A click -/

/-- At the end of the path a link to an action was shown, in the content of no other link. -/
structure ShownLink (r : Registry σ) (s : Scene σ) (v : Visit σ) (π : Path) (x : Visit σ) (action : Binding) :
    Prop where
  page : pageVisit? r s = some v
  visited : v.at? r .render π = some x
  link : ∃ label content, x.element = .control (.hyperlink (.action action) label) content
  outermost : ∀ ρ w τ y, π = ρ ++ w :: τ → v.at? r .render ρ = some y → y.element.isLink = false

/-- A link that is the sender performs its action. -/
theorem link_performs {x : Visit σ} {a : Binding} {label : Option Binding} {content : Option Element}
    {name : String} (hx : x.element = .control (.hyperlink (.action a) label) content)
    (hsender : x.scene.context.isSender = true)
    (hname : ((Pass.actionName r.helpers a).on x.scene).1 = .ok name) :
    x.scene.events ++ [.perform x.scene.current.name name] <+: (x.run r .invoke).2.events := by
  obtain ⟨depth, element, s⟩ := x
  cases hx
  have hrun : Visit.run r .invoke ⟨depth, .control (.hyperlink (.action a) label) content, s⟩ =
      (do return some (← Pass.perform r a) : Pass σ (Found σ)).on s := by
    simp only [Visit.run, Element.visit, Element.visitWith, Control.visit, Control.visitHyperlink, Pass.on_bind,
      Pass.on_get]
    rw [if_pos hsender, Pass.on_bind]
  rw [hrun, Pass.on_bind, Pass.on_perform, hname]
  dsimp only
  have hevents : (s.acted name).events = s.events ++ [.perform s.current.name name] := by
    simp [Scene.acted, Scene.withState]
  rcases (Component.perform s.current.state name).1 with e | reply
  · exact hevents ▸ List.prefix_rfl
  · dsimp only
    rw [← hevents]
    rcases (Outcome.ofReply r reply).1 with e | o <;> exact List.prefix_append _ _

/-- A traversal performs nothing but the one action that it is known to perform. -/
theorem performed_eq {s : Scene σ} {e : Event} (hs : s.performed = [])
    (he : e ∈ ((Pass.walkPage r .invoke).on s).2.performed) :
    ((Pass.walkPage r .invoke).on s).2.performed = [e] := by
  rcases walkPage_cases r .invoke s with ⟨-, hev⟩ | ⟨v, hv, hrun⟩
  · rw [Scene.performed, hev] at he
    rw [Scene.performed] at hs
    rw [hs] at he
    cases he
  obtain ⟨d, -, -, -, hscene⟩ := pageVisit?_eq_some.mp hv
  have hvs : v.scene.performed = [] := by rw [hscene]; exact hs
  have hcomes := invoke_comes (r := r) v
  rw [← hrun] at hcomes
  rcases ht : (Pass.walkPage r .invoke).on s with ⟨x, t⟩
  rw [ht] at hcomes he
  cases hcomes with
  | quiet hq =>
    rw [show t.performed = [] from hq.trans hvs] at he
    cases he
  | acted _ _ _ _ hperf _ =>
    rw [hvs, List.nil_append] at hperf
    rw [hperf, List.mem_singleton] at he
    rw [hperf, he]

/-- A click runs the link that was shown, once, in the component it was shown in, and with every
    round around it set as it was. -/
theorem click_runs_what_was_shown (hs : Stores σ) (hk : r.Keyed) {s : Scene σ} {c : Context} {templates : Templates}
    {page : Instance σ} {v x : Visit σ} {π : Path} {a : Binding}
    (hframes : s.frames = []) (hpage : page.name = s.page.name)
    (hcompiled : Templates.Compiled r s.templates) (hcompiled' : Templates.Compiled r templates)
    (hshown : ShownLink r s v π x a) (hsender : c.sender = some x.scene.context.elementId)
    (hapart : ∀ ρ τ y, π = ρ ++ τ → v.at? r .render ρ = some y → (y.setAlong r 0 τ).Pairwise KeyPath.Apart)
    (halike : ∀ v' ρ w τ y y', pageVisit? r (.start c templates page) = some v' → π = ρ ++ w :: τ →
      v.at? r .render ρ = some y → v'.at? r .invoke ρ = some y' → Alike r y y' ∧ InReach y y') :
    let t := ((Pass.walkPage r .invoke).on (.start c templates page)).2
    ∃ v' x', pageVisit? r (.start c templates page) = some v' ∧ v'.at? r .invoke π = some x' ∧
      x'.element = x.element ∧ x'.scene.places = x.scene.places ∧
      (∀ ρ (i : Nat) τ, π = ρ ++ .round i :: τ → ∃ y u list item index content items value st,
        v.at? r .render ρ = some y ∧ y.element = .control (.repetition list item index) content ∧
        ((Control.listItems r.helpers list).on y.scene).1 = .ok items ∧ items[i]? = some value ∧
        v'.at? r .invoke (ρ ++ [.round i]) = some u ∧ u.later? r 0 τ = some st ∧
        (∀ p ∈ item, p.valueIn st = value) ∧ ∀ p ∈ index, p.valueIn st = .int i) ∧
      ∀ name, ((Pass.actionName r.helpers a).on x'.scene).1 = .ok name →
        t.performed = [.perform x'.scene.current.name name] ∧
        x'.scene.events ++ [.perform x'.scene.current.name name] <+: t.events := by
  intro t
  obtain ⟨d, hd, hte, hn, hscene⟩ := pageVisit?_eq_some.mp hshown.page
  have hcomp := hcompiled.compile_of_get hd hte
  let s' : Scene σ := .start c templates page
  let v' : Visit σ := ⟨v.depth, v.element, (s'.compiled r d).mapContext Context.atRoot⟩
  have hd' : r.resolveComponent s'.page.name = .ok d := by rw [← hd]; exact congrArg _ hpage
  have hv' : pageVisit? r s' = some v' :=
    pageVisit?_eq_some.mpr ⟨d, hd', hcompiled'.get_of_compile hd hcomp, hn, rfl⟩
  have hsame : Same r v v' := by
    refine ⟨rfl, rfl, ?_, ?_, ?_, hcompiled'.get hd hk⟩
    · rw [hscene]
      rfl
    · rw [hscene]
      show [] = s.frames.map Frame.place
      rw [hframes]
      rfl
    · rw [hscene]
      exact hcompiled.get hd hk
  have hsender' : v'.scene.context.sender = some x.scene.context.elementId := hsender
  obtain ⟨x', hx'⟩ := retraced hs hk hshown.visited hsame hshown.outermost hapart
    (fun ρ w τ y y' => halike v' ρ w τ y y' hv') hsender' List.prefix_rfl
  have hxx' := hx'.same
  refine ⟨v', x', hv', hx'.at?, hxx'.element, hxx'.places, ?_, ?_⟩
  · rintro ρ i τ rfl
    exact hx'.reads fun y => hapart ρ _ y rfl
  · intro name hname
    obtain ⟨label, content, hlink⟩ := hshown.link
    have hsx : x'.scene.context.isSender = true :=
      (isSender_iff ((Visit.at?_sender hx'.at?).trans hsender')).mpr hxx'.elementId
    have hperf := link_performs (hxx'.element.trans hlink) hsx hname
    have hrun : (Pass.walkPage r .invoke).on s' = v'.run r .invoke := walkPage_of_pageVisit hv'
    have hext : x'.scene.events ++ [.perform x'.scene.current.name name] <+: t.events := by
      have := Visit.at?_run_extends hx'.at?
      rw [← hrun] at this
      exact hperf.trans this
    refine ⟨performed_eq rfl (List.mem_filter.mpr ⟨?_, rfl⟩), hext⟩
    exact hext.subset (by simp)

/-! ## Links on pages that store -/

/-- The action of a link that names it by a key path. -/
def Element.linked? : Element → Option KeyPath
  | .control (.hyperlink (.action (.keyPath p)) _) _ => some p
  | _ => none

theorem Element.linked?_eq_some {e : Element} {p : KeyPath} (h : e.linked? = some p) :
    ∃ label content, e = .control (.hyperlink (.action (.keyPath p)) label) content := by
  unfold linked? at h
  split at h
  · cases h
    exact ⟨_, _, rfl⟩
  · cases h

theorem Part.child_zero {phase : Phase} {v u : Visit σ} (h : Part r phase v (.child 0) u) :
    u.scene.current.state = v.scene.current.state := by
  cases h with
  | child _ hs _ =>
    cases hs
    rfl

/-- Whether all visits on a path pass a test, each with the rest of the path. -/
def Visit.passAlong (r : Registry σ) (phase : Phase) (test : Visit σ → Path → Bool) (v : Visit σ) : Path → Bool
  | [] => test v []
  | w :: π => test v (w :: π) && (v.part? r phase w).all (·.passAlong r phase test π)

theorem Visit.passAlong_at? {phase : Phase} {test : Visit σ → Path → Bool} {v y : Visit σ} {ρ τ : Path}
    (h : v.passAlong r phase test (ρ ++ τ) = true) (hy : v.at? r phase ρ = some y) : test y τ = true := by
  induction ρ generalizing v with
  | nil =>
    cases hy
    cases τ with
    | nil => exact h
    | cons w τ => exact (Bool.and_eq_true_iff.mp h).1
  | cons w ρ ih =>
    obtain ⟨u, hu, hy⟩ := Visit.at?_cons.mp hy
    have hrest := (Bool.and_eq_true_iff.mp h).2
    rw [part?_eq_some.mpr hu] at hrest
    exact ih hrest hy

instance (p q : KeyPath) : Decidable (p.Apart q) := inferInstanceAs (Decidable (¬ _ ∧ ¬ _))

namespace Notes

/-- A page before a request. -/
def start (d : Definition Notes) (c : Context) : Scene Notes := .start c [] (.ofDefinition d)

def shown? (r : Registry Notes) (d : Definition Notes) (π : Path) : Option (Visit Notes) :=
  (pageVisit? r (start d Scripted.context)).bind (·.at? r .render π)

/-- Not in a link, apart from the paths set later on, and fixed but for where `rest` is the way on. -/
def passes (r : Registry Notes) (rest : Path) (y : Visit Notes) (τ : Path) : Bool :=
  (τ.isEmpty || !y.element.isLink) && decide ((y.setAlong r 0 τ).Pairwise KeyPath.Apart) &&
    (y.element.isFixed || τ == rest)

theorem passes_iff {r : Registry Notes} {rest τ : Path} {y : Visit Notes} : passes r rest y τ = true ↔
    (τ ≠ [] → y.element.isLink = false) ∧ (y.setAlong r 0 τ).Pairwise KeyPath.Apart ∧
      (y.element.isFixed = true ∨ τ = rest) := by
  simp [passes, and_assoc, Decidable.or_iff_not_imp_left]

theorem shown_link {r : Registry Notes} {d : Definition Notes} {p : KeyPath} {id : ElementId} (π rest : Path)
    (h : (pageVisit? r (start d Scripted.context)).map (fun v =>
      ((v.at? r .render π).map fun x => (x.element.linked?, x.scene.context.elementId),
        v.passAlong r .render (passes r rest) π)) = some (some (some p, id), true)) :
    ∃ v x, ShownLink r (start d Scripted.context) v π x (.keyPath p) ∧ x.scene.context.elementId = id ∧
      ∀ ρ τ z, π = ρ ++ τ → v.at? r .render ρ = some z → passes r rest z τ = true := by
  simp only [Option.map_eq_some_iff, Prod.mk.injEq] at h
  obtain ⟨v, hv, ⟨x, hx, hl, hid⟩, hpass⟩ := h
  have htest : ∀ ρ τ z, π = ρ ++ τ → v.at? r .render ρ = some z → passes r rest z τ = true :=
    fun ρ τ z hπ hz => Visit.passAlong_at? (hπ ▸ hpass) hz
  refine ⟨v, x, ⟨hv, hx, Element.linked?_eq_some hl, fun ρ w τ z hπ hz => ?_⟩, hid, htest⟩
  exact (passes_iff.mp (htest ρ (w :: τ) z hπ hz)).1 nofun

/-- The second repetition sets a path that is only in reach after a round of the first one. -/
def nested : Definition Notes where
  name := "Nested"
  template := "<wo:Repetition list=\"$maps\" item=\"$a\">x</wo:Repetition>" ++
    "<wo:Repetition list=\"$items\" item=\"$a.b\"><wo:Hyperlink action=\"$go\" string=\"go\"/></wo:Repetition>"
  declarations := ""
  initial := ⟨[("a", .string "text"), ("items", .list [.int 1]), ("maps", .list [.map [("x", .int 1)]])]⟩

/-- Whether `y` is a repetition that lists the number one when the scene is `s`. -/
def listsOne (r : Registry Notes) (y : Visit Notes) (s : Scene Notes) : Bool :=
  match y.element with
  | .control (.repetition list _ _) _ =>
    match ((Control.listItems r.helpers list).on s).1 with
    | .ok [.int 1] => true
    | _ => false
  | _ => false

theorem alike_of_listsOne {r : Registry Notes} {y y' : Visit Notes} (h : listsOne r y y.scene = true)
    (h' : listsOne r y y'.scene = true) : Alike r y y' := by
  unfold listsOne at h h'
  unfold Alike
  split at h
  · rename_i list item index content he
    rw [he] at h' ⊢
    dsimp only at h' ⊢
    split at h
    · rename_i hl
      split at h'
      · rename_i hl'
        rw [hl, hl']
      · cases h'
    · cases h
  · cases h

end Notes

open Notes in
/-- When the action is invoked no round of the first repetition comes before. -/
theorem link_out_of_reach :
    let r := registry [nested]
    let click := Scripted.context.begin ⟨"3", ⟨[1, 0]⟩⟩
    ∃ v x, ShownLink r (start nested Scripted.context) v [.child 1, .round 0] x (.keyPath ⟨"go", []⟩) ∧
      click.sender = some x.scene.context.elementId ∧
      (∀ ρ τ y, [.child 1, .round 0] = ρ ++ τ → v.at? r .render ρ = some y →
        (y.setAlong r 0 τ).Pairwise KeyPath.Apart) ∧
      (∀ v' ρ w τ y y', pageVisit? r (start nested click) = some v' → [.child 1, .round 0] = ρ ++ w :: τ →
        v.at? r .render ρ = some y → v'.at? r .invoke ρ = some y' → Alike r y y') ∧
      ((Pass.walkPage r .invoke).on (start nested click)).2.performed = [] := by
  intro r click
  obtain ⟨v, x, hshown, hid, htest⟩ := shown_link (r := r) (d := nested) (p := ⟨"go", []⟩)
    [.child 1, .round 0] [.round 0] (show _ = some (some (_, ⟨[1, 0]⟩), _) by decide +kernel)
  have hclick : ((shown? r nested [.child 1]).bind (fun y =>
      ((pageVisit? r (start nested click)).bind (·.at? r .invoke [.child 1])).map fun y' =>
        listsOne r y y.scene && listsOne r y y'.scene),
      ((Pass.walkPage r .invoke).on (start nested click)).2.performed.isEmpty) = (some true, true) := by
    decide +kernel
  obtain ⟨hlists, hnone⟩ := Prod.mk.inj hclick
  refine ⟨v, x, hshown, by rw [hid]; rfl, fun ρ τ y hπ hy => (passes_iff.mp (htest ρ τ y hπ hy)).2.1, ?_,
    List.isEmpty_iff.mp hnone⟩
  intro v' ρ w τ y y' hv' hπ hy hy'
  rcases (passes_iff.mp (htest ρ (w :: τ) y hπ hy)).2.2 with hfixed | htail
  · exact .of_isFixed hfixed
  · rw [htail] at hπ
    obtain rfl : [Way.child 1] = ρ := List.append_cancel_right (show [Way.child 1] ++ [.round 0] = _ from hπ)
    rw [shown?, show pageVisit? r (start nested Scripted.context) = some v from hshown.page, hv', Option.bind_some,
      Option.bind_some, hy, hy'] at hlists
    obtain ⟨hl, hl'⟩ := Bool.and_eq_true_iff.mp (Option.some.inj hlists)
    exact alike_of_listsOne hl hl'

namespace Notes

def shelf : Definition Notes where
  name := "Shelf"
  template := "<wo:Repetition list=\"$items\" item=\"$it\" index=\"$i\"><wo:Row it=\"$it\">" ++
    "<wo:Hyperlink action=\"$go\" string=\"go\"/></wo:Row></wo:Repetition>"
  declarations := ""
  initial := ⟨[("items", .list [.string "a", .string "b"])]⟩

def row : Definition Notes := ⟨"Row", "<wo:ComponentContent/>", "", ⟨[]⟩⟩

def toSecondLink : Path := [.child 0, .round 1, .child 0, .template, .child 0, .content]

/-- At the repetition the page still has its first state. -/
theorem still_alike {r : Registry Notes} {d : Definition Notes} {c c' : Context} {v v' : Visit Notes}
    (hv : pageVisit? r (start d c) = some v) (hv' : pageVisit? r (start d c') = some v') {ρ τ rest : Path} {w : Way}
    {z z' : Visit Notes} (hπ : .child 0 :: rest = ρ ++ w :: τ) (hz : v.at? r .render ρ = some z)
    (hz' : v'.at? r .invoke ρ = some z') (hpass : passes r rest z (w :: τ) = true) :
    Alike r z z' ∧ InReach z z' := by
  rcases (passes_iff.mp hpass).2.2 with hfixed | htail
  · exact ⟨.of_isFixed hfixed, .of_isFixed hfixed⟩
  · rw [htail] at hπ
    obtain rfl : [.child 0] = ρ := List.append_cancel_right (show [.child 0] ++ rest = _ from hπ)
    obtain ⟨u, hu, hz⟩ := Visit.at?_cons.mp hz
    obtain ⟨u', hu', hz'⟩ := Visit.at?_cons.mp hz'
    obtain rfl := Option.some.inj hz
    obtain rfl := Option.some.inj hz'
    have hstate : u'.scene.current.state = u.scene.current.state := by
      rw [hu.child_zero, hu'.child_zero]
      obtain ⟨_, _, _, _, hscene⟩ := pageVisit?_eq_some.mp hv
      obtain ⟨_, _, _, _, hscene'⟩ := pageVisit?_eq_some.mp hv'
      rw [hscene, hscene']
      rfl
    exact ⟨.of_state hstate, fun p _ hp => hstate ▸ hp⟩

end Notes

open Notes in
theorem second_link_runs_in_its_round :
    let r := registry [shelf, row]
    let click := Scripted.context.begin ⟨"3", ⟨[0, 1, 0, 0]⟩⟩
    ∃ v x, ShownLink r (start shelf Scripted.context) v toSecondLink x (.keyPath ⟨"go", []⟩) ∧ ∃ v' x' u st,
      pageVisit? r (start shelf click) = some v' ∧ v'.at? r .invoke toSecondLink = some x' ∧
      v'.at? r .invoke [.child 0, .round 1] = some u ∧
      u.later? r 0 [.child 0, .template, .child 0, .content] = some st ∧
      KeyPath.valueIn ⟨"i", []⟩ st = .int 1 ∧
      ((Pass.walkPage r .invoke).on (start shelf click)).2.performed = [.perform x'.scene.current.name "go"] := by
  intro r click
  have hk : r.Keyed := Registry.keyed_of_goesBy (by decide +kernel)
  obtain ⟨v, x, hshown, hid, htest⟩ := shown_link (r := r) (d := shelf) (p := ⟨"go", []⟩)
    toSecondLink toSecondLink.tail (show _ = some (some (_, ⟨[0, 1, 0, 0]⟩), _) by decide +kernel)
  obtain ⟨v', x', hv', hx', -, -, hrounds, hperf⟩ := click_runs_what_was_shown stores hk rfl rfl .nil .nil hshown
    (show click.sender = _ by rw [hid]; rfl) (fun ρ τ y hπ hy => (passes_iff.mp (htest ρ τ y hπ hy)).2.1)
    fun v' ρ w τ z z' hv' hπ hz hz' => still_alike hshown.page hv' hπ hz hz' (htest ρ _ z hπ hz)
  obtain ⟨y, u, list, item, index, c, items, value, st, hy, he, -, -, hu, hst, -, hindex⟩ :=
    hrounds [.child 0] 1 [.child 0, .template, .child 0, .content] rfl
  have hpaths : (shown? r shelf [.child 0]).map (·.element.roundPaths) = some [⟨"it", []⟩, ⟨"i", []⟩] := by
    decide +kernel
  rw [shown?, show pageVisit? r (start shelf Scripted.context) = some v from hshown.page, Option.bind_some, hy,
    Option.map_some, he] at hpaths
  have hi : index = some ⟨"i", []⟩ := by
    rcases item with _ | p <;> rcases index with _ | q <;> simp [Element.roundPaths] at hpaths ⊢
    exact hpaths.2
  exact ⟨v, x, hshown, v', x', u, st, hv', hx', hu, hst, hindex _ hi, (hperf "go" rfl).1⟩

end PageServer
