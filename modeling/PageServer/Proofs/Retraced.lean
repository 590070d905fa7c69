/-
  PageServer.Proofs.Retraced — when an action is invoked, the way to the sender is the one that was
  shown.

  The invoking traversal leaves out what is beside the path to the sender, where the rendering one
  went in and came back. So it comes to each visit on the way with other states, but to the same
  element in the same place (`Same`). It takes the same way on if what decides reads alike
  (`Alike`): that is `Part.shown_again`, and `retraced` follows a whole path. What a round sets
  is still there at the end of the path, if nothing on the way sets it again
  (`Retraced.reads`).
-/

import PageServer.Proofs.Compiled
import PageServer.Proofs.Rounds
import PageServer.Proofs.Sender

namespace PageServer

variable {σ : Type}

/-! ## Off the path to the sender -/

theorem visits_iff {s : Scene σ} {sender : ElementId} (h : s.context.sender = some sender) :
    Phase.invoke.visits s = (sender.startsWith s.context.elementId || s.context.elementId.startsWith sender) := by
  simp [Phase.visits, onSenderPath_iff h]

/-- What is above the sender is visited. -/
theorem visits_above {s : Scene σ} {sender : ElementId} (h : s.context.sender = some sender)
    (hp : s.context.elementId.indices <+: sender.indices) : Phase.invoke.visits s = true := by
  rw [visits_iff h, ElementId.startsWith, List.isPrefixOf_iff_prefix.mpr hp]
  rfl

/-- What is beside something above the sender is not. -/
theorem not_visits_beside {s : Scene σ} {sender : ElementId} {base : List Nat} {j k : Nat}
    (h : s.context.sender = some sender) (hid : s.context.elementId.indices = base ++ [j])
    (hp : base ++ [k] <+: sender.indices) (hjk : j ≠ k) : Phase.invoke.visits s = false := by
  obtain ⟨rest, hr⟩ := hp
  rw [List.append_assoc] at hr
  rw [visits_iff h, ElementId.startsWith, ElementId.startsWith, hid, ← hr, Bool.or_eq_false_iff,
    ← Bool.not_eq_true, ← Bool.not_eq_true, List.isPrefixOf_iff_prefix, List.isPrefixOf_iff_prefix,
    List.prefix_append_right_inj, List.prefix_append_right_inj]
  constructor
  · intro hpre
    exact hjk (List.cons_prefix_cons.mp hpre).1
  · intro hpre
    exact hjk (List.cons_prefix_cons.mp hpre).1.symm

theorem next_indices {s : Scene σ} {base : List Nat} {j : Nat} (h : s.context.elementId.indices = base ++ [j]) :
    (s.mapContext Context.next).context.elementId.indices = base ++ [j + 1] := by
  simp [Context.next, ElementId.next, h]

variable [Component σ] {r : Registry σ}

theorem visitAll_skipped (run : Element → Pass σ (Found σ)) {sender : ElementId} {base : List Nat} {k : Nat}
    (hp : base ++ [k] <+: sender.indices) (xs : List Element) (j : Nat) (s : Scene σ)
    (h : s.context.sender = some sender) (hid : s.context.elementId.indices = base ++ [j])
    (hlen : j + xs.length ≤ k) :
    ∃ c, (Element.visitAll r run .invoke xs).on s = (.ok none, { s with context := c }) := by
  induction xs generalizing j s with
  | nil => exact ⟨s.context, rfl⟩
  | cons e rest ih =>
    simp only [List.length_cons] at hlen
    have hskip := not_visits_beside h hid hp (by omega)
    obtain ⟨c, hc⟩ := ih (j + 1) (s.mapContext Context.next) h (next_indices hid) (by omega)
    refine ⟨c, ?_⟩
    rw [Pass.on_visitAll_cons, Pass.on_part, hskip]
    exact hc

theorem rounds_skipped (hs : Stores σ) {item index : Option KeyPath}
    (hap : (item.toList ++ index.toList).Pairwise KeyPath.Apart)
    (body : Pass σ (Found σ)) {sender : ElementId} {base : List Nat} {k : Nat}
    (hp : base ++ [k] <+: sender.indices) (xs : List Value) (i : Nat) (s : Scene σ)
    (h : s.context.sender = some sender) (hid : s.context.elementId.indices = base ++ [i])
    (hlen : i + xs.length ≤ k) (hopen : ∀ p ∈ item.toList ++ index.toList, p.isOpen s.current.state = true) :
    ∃ t, (Control.rounds item index (Walk.part .invoke body) i xs).on s = (.ok none, t) ∧
      Sets (item.toList ++ index.toList) s t ∧
      ∀ p ∈ item.toList ++ index.toList, p.isOpen t.current.state = true := by
  induction xs generalizing i s with
  | nil => exact ⟨s, rfl, .refl _ s, hopen⟩
  | cons v rest ih =>
    simp only [List.length_cons] at hlen
    obtain ⟨t, ht⟩ := setRound_of_isOpen hs hap hopen i v
    obtain ⟨hsets, hopen', -, -⟩ := setRound_sets hs hap ht
    have hr := Pass.Within.setRound returns_plain item index i v s
    rw [ht] at hr
    have hid' : t.context.elementId.indices = base ++ [i] := hr.elementId ▸ hid
    have hskip := not_visits_beside (hr.sender.trans h) hid' hp (by omega)
    obtain ⟨u, hu, hsets', hopen''⟩ := ih (i + 1) (t.mapContext Context.next) (hr.sender.trans h)
      (next_indices hid') (by omega) hopen'
    refine ⟨u, ?_, hsets.trans ⟨hsets'.outer, hsets'.isOpen, hsets'.holds⟩, hopen''⟩
    rw [Pass.on_rounds_cons, ht]
    dsimp only
    rw [Pass.on_part, hskip]
    exact hu

/-! ## The same way down again -/

def Element.isLink : Element → Bool
  | .control (.hyperlink ..) _ => true
  | _ => false

/-- The same element in the same place, come to in two traversals. -/
structure Same (r : Registry σ) (v v' : Visit σ) : Prop where
  depth : v'.depth = v.depth
  element : v'.element = v.element
  elementId : v'.scene.context.elementId = v.scene.context.elementId
  places : v'.scene.places = v.scene.places
  compiled : Templates.Compiled r v.scene.templates
  compiled' : Templates.Compiled r v'.scene.templates

/-- What decides on the ways down from an element reads alike in two traversals: whether a
    conditional shows its content, what a repetition lists, and that the values bound to a
    component can be read. -/
def Alike (r : Registry σ) (v v' : Visit σ) : Prop :=
  match v.element with
  | .control (.conditional condition negate) _ =>
    ((Control.isShown r.helpers condition negate).on v'.scene).1 =
      ((Control.isShown r.helpers condition negate).on v.scene).1
  | .control (.repetition list _ _) _ =>
    ((Control.listItems r.helpers list).on v'.scene).1 = ((Control.listItems r.helpers list).on v.scene).1
  | .component _ _ bindings _ =>
    ∀ b ∈ bindings, (b.2.valueIn r.helpers v.scene.current.state).isOk = true →
      (b.2.valueIn r.helpers v'.scene.current.state).isOk = true
  | _ => True

/-- The paths that a round sets are in reach again. -/
def InReach (v v' : Visit σ) : Prop :=
  ∀ p ∈ v.element.roundPaths, p.isOpen v.scene.current.state = true → p.isOpen v'.scene.current.state = true

omit [Component σ] in
/-- Steps that only look see the same in two scenes. -/
theorem Pass.bind_sees {α β : Type} {p : Pass σ α} {f : α → Pass σ β} {s t : Scene σ} (hs : (p.on s).2 = s)
    (ht : (p.on t).2 = t) (hp : (p.on t).1 = (p.on s).1) (hf : ∀ a, ((f a).on t).1 = ((f a).on s).1) :
    ((p >>= f).on t).1 = ((p >>= f).on s).1 := by
  rw [Pass.on_bind, Pass.on_bind]
  rcases hps : p.on s with ⟨x, s'⟩
  rcases hpt : p.on t with ⟨y, t'⟩
  rw [hps] at hs hp
  rw [hpt] at ht hp
  cases hs
  cases ht
  cases hp
  cases x with
  | error e => rfl
  | ok a => exact hf a

/-- What decides is read from the current component alone. -/
theorem Alike.of_state {v v' : Visit σ} (h : v'.scene.current.state = v.scene.current.state) : Alike r v v' := by
  have hread : ∀ b : Binding, ((Pass.evaluate r.helpers b).on v'.scene).1 =
      ((Pass.evaluate r.helpers b).on v.scene).1 := fun b => by rw [Pass.on_evaluate, Pass.on_evaluate, h]
  have hkeeps : ∀ (b : Binding) (s : Scene σ), ((Pass.evaluate r.helpers b).on s).2 = s :=
    fun b s => by rw [Pass.on_evaluate]
  have hflag : ∀ (b : Option Binding) (d : Bool), ((Pass.evaluateFlag r.helpers b d).on v'.scene).1 =
      ((Pass.evaluateFlag r.helpers b d).on v.scene).1 := by
    intro b d
    cases b with
    | none => rfl
    | some b => exact Pass.bind_sees (hkeeps b _) (hkeeps b _) (hread b) fun _ => rfl
  have hflags := fun (b : Option Binding) (s : Scene σ) => Pass.evaluateFlag_keeps s r.helpers b false
  unfold Alike
  split
  · exact Pass.bind_sees (hflags _ _) (hflags _ _) (hflag _ _) fun _ =>
      Pass.bind_sees (hflags _ _) (hflags _ _) (hflag _ _) fun _ => rfl
  · exact Pass.bind_sees (hkeeps _ _) (hkeeps _ _) (hread _) fun x => by cases x <;> rfl
  · exact fun b _ => by rw [h]; exact id
  · trivial

/-- No way down depends on what is read there. -/
def Element.isFixed : Element → Bool
  | .control (.conditional ..) _ | .control (.repetition ..) _ => false
  | .component _ _ bindings _ => bindings.all (·.2.keyPath?.isSome)
  | _ => true

theorem Alike.of_isFixed {v v' : Visit σ} (h : v.element.isFixed = true) : Alike r v v' := by
  unfold Alike
  split
  · rename_i he
    rw [he] at h
    cases h
  · rename_i he
    rw [he] at h
    cases h
  · rename_i he
    rw [he] at h
    intro b hb
    have hp : b.2.keyPath?.isSome = true := List.all_eq_true.mp h b hb
    obtain ⟨key, b⟩ := b
    cases b with
    | keyPath p => exact fun _ => rfl
    | _ => cases hp
  · trivial

theorem InReach.of_isFixed {v v' : Visit σ} (h : v.element.isFixed = true) : InReach v v' := by
  obtain ⟨depth, element, s⟩ := v
  unfold InReach
  cases element with
  | control c content =>
    cases c with
    | repetition list item index => cases h
    | _ => exact nofun
  | _ => exact nofun

/-- What becomes of the states of the components on a way from `v` to `u`. -/
def Settles (r : Registry σ) (v : Visit σ) (w : Way) (u : Visit σ) : Prop :=
  match w with
  | .round i => ∃ list item index content items x,
      v.element = .control (.repetition list item index) content ∧
      ((Control.listItems r.helpers list).on v.scene).1 = .ok items ∧ items[i]? = some x ∧
      Sets (item.toList ++ index.toList) v.scene u.scene ∧
      (∀ p ∈ item, p.Holds u.scene.current.state x) ∧ ∀ p ∈ index, p.Holds u.scene.current.state (.int i)
  | .template => u.scene.states.tail = v.scene.states
  | .content => u.scene.states = v.scene.states.tail
  | _ => u.scene.states = v.scene.states

theorem receive_of_isOk (hs : Stores σ) {helpers : Helpers} {parent : σ} {bs : Bindings}
    (h : ∀ b ∈ bs, (b.2.valueIn helpers parent).isOk = true) (i : Instance σ) :
    ∃ child es, Instance.receive helpers parent bs i = ((.ok (), child), es) := by
  induction bs generalizing i with
  | nil => exact ⟨i, [], rfl⟩
  | cons kb rest ih =>
    obtain ⟨key, b⟩ := kb
    have hb := h (key, b) (by simp)
    rcases hv : b.valueIn helpers parent with e | v
    · simp [hv, Except.isOk, Except.toBool] at hb
    obtain ⟨t, ht⟩ := hs.takes i.state key v
    obtain ⟨child, es, hr⟩ := ih (fun b hb => h b (by simp [hb])) { i with state := t }
    exact ⟨child, .set i.name key v :: es, by simp [Instance.receive, hv, Instance.set, ht, Except.map, hr]⟩

theorem isOk_of_receive {helpers : Helpers} {parent : σ} {bs : Bindings} {i child : Instance σ} {es : List Event}
    (h : Instance.receive helpers parent bs i = ((.ok (), child), es)) :
    ∀ b ∈ bs, (b.2.valueIn helpers parent).isOk = true := by
  induction bs generalizing i child es with
  | nil => exact nofun
  | cons kb rest ih =>
    obtain ⟨key, b⟩ := kb
    simp only [Instance.receive] at h
    rcases hv : b.valueIn helpers parent with e | v <;> rw [hv] at h
    · cases h
    dsimp only at h
    rcases ht : i.set key v with ⟨_ | j, e⟩ <;> rw [ht] at h
    · cases h
    dsimp only at h
    rcases hr : Instance.receive helpers parent rest j with ⟨⟨o, c⟩, es'⟩
    rw [hr] at h
    cases h
    intro b' hb'
    rcases List.mem_cons.mp hb' with rfl | hb'
    · rw [hv]
      rfl
    · exact ih hr b' hb'

theorem Part.same {v u v' u' : Visit σ} {phase phase' : Phase} {w : Way} (hk : r.Keyed)
    (h : Part r phase v w u) (h' : Part r phase' v' w u') (hsame : Same r v v') (hd : u'.depth = u.depth)
    (he : u'.element = u.element) : Same r u u' where
  depth := hd
  element := he
  elementId := by
    have hid : u'.scene.context.elementId.indices = u.scene.context.elementId.indices := by
      rw [h'.below.elementId, h.below.elementId, hsame.elementId]
    exact congrArg ElementId.mk hid
  places := by
    rw [h'.below.places, h.below.places]
    cases w <;> simp [Visit.placesVia, hsame.elementId, hsame.element, hsame.places]
  compiled := h.compiled hk hsame.compiled
  compiled' := h'.compiled hk hsame.compiled'

/-- A way that was shown leads to the same place when the action is invoked, if the sender lies
    at its end or below. -/
theorem Part.shown_again (hs : Stores σ) (hk : r.Keyed) {v u v' : Visit σ} {w : Way} {sender : ElementId}
    (h : Part r .render v w u) (hsame : Same r v v') (halike : Alike r v v') (hreach : InReach v v')
    (hlink : v.element.isLink = false) (hap : v.element.roundPaths.Pairwise KeyPath.Apart)
    (hsender : v'.scene.context.sender = some sender)
    (hp : u.scene.context.elementId.indices <+: sender.indices) :
    ∃ u', Part r .invoke v' w u' ∧ Settles r v' w u' ∧ Same r u u' := by
  have hrender := h
  rw [h.below.elementId] at hp
  obtain ⟨depth', element', s'⟩ := v'
  obtain ⟨hdepth, helement, helementId, hplaces, -, hcompiled'⟩ := id hsame
  have hids : s'.context.elementId.indices = v.scene.context.elementId.indices := by rw [← helementId]
  cases h with
  | @child depth n s t name children e hn ht hv =>
    obtain rfl : depth' = depth := hdepth
    cases helement
    obtain ⟨hlt, -⟩ := List.getElem?_eq_some_iff.mp hn
    have hlen : (children.take n).length = n := by simp; omega
    obtain ⟨c, hc⟩ := visitAll_skipped (Element.visit r .invoke depth') hp (children.take n) 0
      (s'.mapContext Context.down) hsender (by rw [← hids]; rfl) (by omega)
    have hb := visitAll_passed (fun e => (returns_kept r).visit .invoke depth' e) hc
    have hci := hb.elementId s'.context.elementId.indices 0 rfl
    rw [hlen, Nat.zero_add, hids] at hci
    have hpart : Part r .invoke ⟨depth', .group name children, s'⟩ (.child n)
        ⟨depth', e, { s'.mapContext Context.down with context := c }⟩ :=
      .child hn hc (visits_above (hb.sender.trans hsender) (hci ▸ hp))
    exact ⟨_, hpart, rfl, hrender.same hk hpart hsame rfl rfl⟩
  | @round depth i s t u list item index items x e hl hi hr hset hv =>
    obtain rfl : depth' = depth := hdepth
    cases helement
    obtain ⟨hlt, -⟩ := List.getElem?_eq_some_iff.mp hi
    have hlen : (items.take i).length = i := by simp; omega
    have hl' : (Control.listItems r.helpers list).on s' = (.ok items, s') := by
      refine Prod.ext ?_ (Pass.listItems_keeps s' r.helpers list)
      rw [show _ = _ from halike, hl]
    have hopen : ∀ p ∈ item.toList ++ index.toList,
        p.isOpen (s.mapContext Context.down).current.state = true := isOpen_of_rounds hs hap hr hset
    obtain ⟨t', ht', hsets, hopen'⟩ := rounds_skipped hs hap
      (e.visitWith r (Element.visit r .invoke depth') .invoke) hp (items.take i) 0
      (s'.mapContext Context.down) hsender (by rw [← hids]; rfl) (by omega)
      fun p hp => hreach p hp (hopen p hp)
    obtain ⟨u', hu'⟩ := setRound_of_isOpen hs hap hopen' i x
    obtain ⟨hsets', -, hitem, hindex⟩ := setRound_sets hs hap hu'
    have hbody := (returns_kept r).visitWith (fun e => (returns_kept r).visit .invoke depth' e) .invoke e
    have hru := Pass.Within.setRound returns_plain item index i x t'
    rw [hu'] at hru
    have hb := (rounds_passed (Pass.Within.part returns_plain hbody .invoke) ht').returns hru
    have hci := hb.elementId s'.context.elementId.indices 0 rfl
    rw [hlen, Nat.zero_add, hids] at hci
    have hpart : Part r .invoke ⟨depth', .control (.repetition list item index) (some e), s'⟩ (.round i)
        ⟨depth', e, u'⟩ :=
      .round hl' hi ht' hu' (visits_above (hb.sender.trans hsender) (hci ▸ hp))
    have hset' : Sets (item.toList ++ index.toList) s' u' :=
      Sets.trans ⟨hsets.outer, hsets.isOpen, hsets.holds⟩ hsets'
    exact ⟨_, hpart, ⟨list, item, index, some e, items, x, rfl, by rw [hl'], hi, hset', hitem, hindex⟩,
      hrender.same hk hpart hsame rfl rfl⟩
  | @inside depth s t c e ha =>
    obtain rfl : depth' = depth := hdepth
    cases helement
    have hgo : ∀ t' : Scene σ, (c.approach r .invoke).on s' = (.ok true, t') → t'.states = s'.states →
        ∃ u', Part r .invoke ⟨depth', .control c (some e), s'⟩ .inside u' ∧
          Settles r ⟨depth', .control c (some e), s'⟩ .inside u' ∧ Same r ⟨depth', e, t⟩ u' := by
      intro t' ha' hst
      have hpart : Part r .invoke ⟨depth', .control c (some e), s'⟩ .inside ⟨depth', e, t'⟩ := .inside ha'
      exact ⟨_, hpart, hst, hrender.same hk hpart hsame rfl rfl⟩
    cases approached ha with
    | link => cases hlink
    | shownForm => exact hgo _ rfl rfl
    | form => exact hgo _ rfl rfl
    | conditional hc =>
      refine hgo s' (Prod.ext ?_ (Pass.isShown_keeps s' r.helpers _ _)) rfl
      exact Eq.trans halike (by rw [hc])
    | shownContainer => exact hgo _ rfl rfl
    | container => exact hgo _ rfl rfl
  | @template depth s t tag name bs content e ha =>
    obtain rfl : depth' = depth + 1 := hdepth
    cases helement
    obtain ⟨d, child, es, hd, htemplate, hreceive, -⟩ := Pass.arrive_ok ha
    have hc := hsame.compiled.compile_of_get hd htemplate
    have htemplate' := hcompiled'.get_of_compile hd hc
    have hoks : ∀ b ∈ bs, (b.2.valueIn r.helpers s'.current.state).isOk = true :=
      fun b hb => halike b hb (isOk_of_receive hreceive b hb)
    obtain ⟨child', es', hreceive'⟩ := receive_of_isOk hs hoks (Pass.childAt d s')
    have ha' : (Pass.arrive r name bs content).on s' =
        (.ok e, ((s'.compiled r d).addEvents es').pushed s'.context.elementId.text child' content) := by
      rw [Pass.on_arrive, hd]
      dsimp only
      rw [htemplate', hreceive']
    have hpart : Part r .invoke ⟨depth + 1, .component tag name bs content, s'⟩ .template ⟨depth, e, _⟩ :=
      .template ha'
    exact ⟨_, hpart, congrArg List.tail (Scene.states_pushed _ _ _ _),
      hrender.same hk hpart hsame rfl rfl⟩
  | @content depth s c f rest e hf hc =>
    obtain rfl : depth' = depth + 1 := hdepth
    cases helement
    have hpl : s'.places = (f.key, some e) :: rest.map Frame.place := by
      rw [show s'.places = s.places from hplaces, Scene.places, hf, List.map_cons, Frame.place, hc]
    rcases hf' : s'.frames with _ | ⟨f', rest'⟩
    · simp [Scene.places, hf'] at hpl
    have hc' : f'.content = some e := by
      simp only [Scene.places, hf', List.map_cons, List.cons.injEq, Frame.place, Prod.mk.injEq] at hpl
      exact hpl.1.2
    have hpart : Part r .invoke ⟨depth + 1, .control .componentContent c, s'⟩ .content
        ⟨depth, e, { s' with frames := rest' }⟩ := .content hf' hc'
    refine ⟨_, hpart, ?_, hrender.same hk hpart hsame rfl rfl⟩
    simp [Settles, Scene.states, hf']

/-! ## Along a path -/

/-- Where a component is found from the end of a way on that is `n` levels out at its start. One
    that is left for what it is wrapped around is not found any more. -/
def Way.out? : Way → Nat → Option Nat
  | template, n => some (n + 1)
  | content, 0 => none
  | content, n + 1 => some n
  | _, n => some n

namespace Visit

/-- The paths that are set, while a path is shown, in the component `n` levels out at its start. -/
def setAlong (r : Registry σ) (v : Visit σ) : Nat → Path → List KeyPath
  | _, [] => []
  | n, w :: π =>
    (if n = 0 then v.element.roundPaths else []) ++
      ((w.out? n).bind fun m => (v.part? r .render w).map (·.setAlong r m π)).getD []

/-- What has become, at the end of a path, of the component `n` levels out at its start. -/
def later? (r : Registry σ) (v : Visit σ) : Nat → Path → Option σ
  | n, [] => v.scene.states[n]?
  | n, w :: π =>
    match w.out? n with
    | some m => (v.part? r .invoke w).bind (·.later? r m π)
    | none => v.scene.states[n]?

theorem setAlong_cons {v u : Visit σ} {w : Way} (h : Part r .render v w u) {n m : Nat} (hm : w.out? n = some m)
    (π : Path) :
    v.setAlong r n (w :: π) = (if n = 0 then v.element.roundPaths else []) ++ u.setAlong r m π := by
  simp [setAlong, hm, part?_eq_some.mpr h]

theorem later?_cons {v u : Visit σ} {w : Way} (h : Part r .invoke v w u) {n m : Nat} (hm : w.out? n = some m)
    (π : Path) : v.later? r n (w :: π) = u.later? r m π := by
  simp [later?, hm, part?_eq_some.mpr h]

end Visit

/-- What was shown on the way from `v` to `x` along a path is come by on the way from `v'` to `x'`
    when the action is invoked. -/
inductive Retraced (r : Registry σ) : Visit σ → Visit σ → Path → Visit σ → Visit σ → Prop
  | here {v v' : Visit σ} : Same r v v' → Retraced r v v' [] v v'
  | step {v v' u u' x x' : Visit σ} {w : Way} {π : Path} :
      Same r v v' → Alike r v v' → Part r .render v w u → Part r .invoke v' w u' → Settles r v' w u' →
      Retraced r u u' π x x' → Retraced r v v' (w :: π) x x'

/-- A path that was shown is taken again, down to the sender. -/
theorem retraced (hs : Stores σ) (hk : r.Keyed) {v v' x : Visit σ} {π : Path} {sender : ElementId}
    (hx : v.at? r .render π = some x) (hsame : Same r v v')
    (hout : ∀ ρ w τ y, π = ρ ++ w :: τ → v.at? r .render ρ = some y → y.element.isLink = false)
    (hap : ∀ ρ τ y, π = ρ ++ τ → v.at? r .render ρ = some y → (y.setAlong r 0 τ).Pairwise KeyPath.Apart)
    (halike : ∀ ρ w τ y y', π = ρ ++ w :: τ → v.at? r .render ρ = some y → v'.at? r .invoke ρ = some y' →
      Alike r y y' ∧ InReach y y')
    (hsender : v'.scene.context.sender = some sender)
    (hid : x.scene.context.elementId.indices <+: sender.indices) : ∃ x', Retraced r v v' π x x' := by
  induction π generalizing v v' with
  | nil =>
    cases hx
    exact ⟨v', .here hsame⟩
  | cons w π ih =>
    obtain ⟨u, hu, hux⟩ := Visit.at?_cons.mp hx
    have hp : u.scene.context.elementId.indices <+: sender.indices := by
      rw [Visit.at?_elementId hux] at hid
      exact (List.prefix_append _ _).trans hid
    have hpaths := (List.pairwise_append.mp (hap [] (w :: π) v rfl rfl)).1
    obtain ⟨hal, hreach⟩ := halike [] w π v v' rfl rfl rfl
    obtain ⟨u', hu', hsettles, hsame'⟩ :=
      hu.shown_again hs hk hsame hal hreach (hout [] w π v rfl rfl) hpaths hsender hp
    obtain ⟨x', hx'⟩ := ih hux hsame'
      (fun ρ w' τ y hπ hy => hout (w :: ρ) w' τ y (by rw [hπ]; rfl) (Visit.at?_cons.mpr ⟨u, hu, hy⟩))
      (fun ρ τ y hπ hy => hap (w :: ρ) τ y (by rw [hπ]; rfl) (Visit.at?_cons.mpr ⟨u, hu, hy⟩))
      (fun ρ w' τ y y' hπ hy hy' => halike (w :: ρ) w' τ y y' (by rw [hπ]; rfl)
        (Visit.at?_cons.mpr ⟨u, hu, hy⟩) (Visit.at?_cons.mpr ⟨u', hu', hy'⟩))
      (hu'.below.sender.trans hsender)
    exact ⟨x', .step hsame hal hu hu' hsettles hx'⟩

namespace Retraced

theorem at? {v v' x x' : Visit σ} {π : Path} (h : Retraced r v v' π x x') : v'.at? r .invoke π = some x' := by
  induction h with
  | here _ => rfl
  | step _ _ _ hu' _ _ ih => exact Visit.at?_cons.mpr ⟨_, hu', ih⟩

theorem same {v v' x x' : Visit σ} {π : Path} (h : Retraced r v v' π x x') : Same r x x' := by
  induction h with
  | here h => exact h
  | step _ _ _ _ _ _ ih => exact ih

/-- What a component holds apart from the paths that are set in it later on stays. -/
theorem later {v v' x x' : Visit σ} {π : Path} (h : Retraced r v v' π x x') {n : Nat} {st : σ}
    (hst : v'.scene.states[n]? = some st) :
    ∃ st', v'.later? r n π = some st' ∧
      ∀ p val, (∀ q ∈ v.setAlong r n π, q.Apart p) → p.Holds st val → p.Holds st' val := by
  induction h generalizing n st with
  | here _ => exact ⟨st, by cases n <;> exact hst, fun _ _ _ h => h⟩
  | @step v v' u u' x x' w π hsame hal hu hu' hsettles _ ih =>
    -- A component that the way leaves alone is only a matter of where to find it from `u'` on.
    have hfind : ∀ m, w.out? n = some m → u'.scene.states[m]? = some st →
        ∃ st', v'.later? r n (w :: π) = some st' ∧
          ∀ p val, (∀ q ∈ v.setAlong r n (w :: π), q.Apart p) → p.Holds st val → p.Holds st' val := by
      intro m hm hst
      obtain ⟨st', hst', hkeep⟩ := ih hst
      rw [Visit.setAlong_cons hu hm, Visit.later?_cons hu' hm]
      exact ⟨st', hst', fun p val hq => hkeep p val fun q hqu => hq q (List.mem_append_right _ hqu)⟩
    cases w with
    | child k => exact hfind n rfl (hsettles ▸ hst)
    | inside => exact hfind n rfl (hsettles ▸ hst)
    | template =>
      refine hfind (n + 1) rfl ?_
      rw [← hst, ← hsettles, List.getElem?_tail]
    | content =>
      cases n with
      | zero => exact ⟨st, hst, fun _ _ _ h => h⟩
      | succ n =>
        refine hfind n rfl ?_
        rw [hsettles, List.getElem?_tail, hst]
    | round i =>
      obtain ⟨list, item, index, content, items, y, he, -, -, hsets, -, -⟩ := hsettles
      cases n with
      | zero =>
        obtain rfl : v'.scene.current.state = st := by
          rw [v'.scene.states_eq] at hst
          simpa using hst
        obtain ⟨st', hst', hkeep⟩ := ih (n := 0) (by rw [u'.scene.states_eq]; rfl)
        rw [Visit.setAlong_cons hu (m := 0) rfl, Visit.later?_cons hu' (m := 0) rfl]
        refine ⟨st', hst', fun p val hq hp => hkeep p val (fun q hqu => hq q (List.mem_append_right _ hqu)) ?_⟩
        refine hsets.holds p val (fun q hqi => hq q (List.mem_append_left _ ?_)) hp
        rw [if_pos rfl, ← hsame.element, he]
        exact hqi
      | succ n =>
        refine hfind (n + 1) rfl ?_
        rw [← hst, ← List.getElem?_tail, ← List.getElem?_tail, hsets.outer]

/-- At the end of the path each round on it still reads the item and the number it was shown with. -/
theorem reads {v v' x x' : Visit σ} {ρ τ : Path} {i : Nat} (h : Retraced r v v' (ρ ++ .round i :: τ) x x')
    (hap : ∀ y, v.at? r .render ρ = some y → (y.setAlong r 0 (.round i :: τ)).Pairwise KeyPath.Apart) :
    ∃ y u list item index content items value st,
      v.at? r .render ρ = some y ∧ y.element = .control (.repetition list item index) content ∧
      ((Control.listItems r.helpers list).on y.scene).1 = .ok items ∧ items[i]? = some value ∧
      v'.at? r .invoke (ρ ++ [.round i]) = some u ∧ u.later? r 0 τ = some st ∧
      (∀ p ∈ item, p.valueIn st = value) ∧ ∀ p ∈ index, p.valueIn st = .int i := by
  induction ρ generalizing v v' with
  | nil =>
    rcases h with _ | ⟨hsame, hal, hu, hu', ⟨list, item, index, content, items, value, he, hl, hi, -, hitem,
      hindex⟩, hx⟩
    obtain ⟨st, hst, hkeep⟩ := hx.later (n := 0) (by rw [Scene.states_eq]; rfl)
    have hap := hap v rfl
    rw [hsame.element] at he
    rw [Alike, he] at hal
    rw [Visit.setAlong_cons hu (m := 0) rfl, if_pos rfl, he] at hap
    obtain ⟨-, -, hcross⟩ := List.pairwise_append.mp hap
    refine ⟨v, _, list, item, index, content, items, value, st, rfl, he, hal ▸ hl, hi,
      Visit.at?_cons.mpr ⟨_, hu', rfl⟩, hst, fun p hp => ?_, fun p hp => ?_⟩
    · refine (hkeep p value (fun q hq => (hcross p ?_ q hq).symm) (hitem p hp)).valueIn
      simp [Element.roundPaths, show item = some p from hp]
    · refine (hkeep p (.int i) (fun q hq => (hcross p ?_ q hq).symm) (hindex p hp)).valueIn
      simp [Element.roundPaths, show index = some p from hp]
  | cons w ρ ih =>
    rcases h with _ | ⟨-, -, hu, hu', -, hx⟩
    obtain ⟨y, z, list, item, index, content, items, value, st, hy, he, hl, hi, hz, hrest⟩ :=
      ih hx fun y hy => hap y (Visit.at?_cons.mpr ⟨_, hu, hy⟩)
    exact ⟨y, z, list, item, index, content, items, value, st, Visit.at?_cons.mpr ⟨_, hu, hy⟩, he, hl, hi,
      Visit.at?_cons.mpr ⟨_, hu', hz⟩, hrest⟩

end Retraced

end PageServer
