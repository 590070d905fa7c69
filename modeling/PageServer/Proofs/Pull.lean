/-
  PageServer.Proofs.Pull — what goes back when a component is left.

  A value goes back where the component around it reads another one, be it that the component has
  changed the value or that the one around has become different meanwhile. So a value that has not
  changed can undo what a text field in the content has set (`content_is_undone`). Only
  changed values go back exactly if the others are still what is read at their turn
  (`only_changes_go_back_iff`), and then leaving is as if nothing but them were bound.
-/

import PageServer.Proofs.Paths
import PageServer.Proofs.Visits

namespace PageServer

variable {σ : Type} [Component σ]

/-- Whether a component has another value for what is bound than it had before. -/
def differs (before after : σ) (b : String × Binding) : Bool :=
  Component.value? after b.1 != Component.value? before b.1

/-- What goes back from `child` is among `which`. -/
def GoBackOnly (which : String × Binding → Bool) (child : σ) (bs : Bindings) (s : Scene σ) : Prop :=
  ∀ pre b post t, bs = pre ++ b :: post → (Pass.pullBindings child pre).on s = (.ok (), t) →
    Pass.owed child t.current.state b.1 b.2 ≠ none → which b = true

/-- What is not among `which` is what is read anyway, when those among them before it went back. -/
def StillRead (which : String × Binding → Bool) (child : σ) (bs : Bindings) (s : Scene σ) : Prop :=
  ∀ pre b post t, bs = pre ++ b :: post → which b = false →
    (Pass.pullBindings child (pre.filter which)).on s = (.ok (), t) →
    Pass.owed child t.current.state b.1 b.2 = none

/-! ## One binding after the other -/

theorem owed_eq_some {child parent : σ} {key : String} {b : Binding} {p : KeyPath} {v : Value} :
    Pass.owed child parent key b = some (p, v) ↔
      b = .keyPath p ∧ Component.value? child key = some v ∧ (p.valueIn parent == v) = false := by
  unfold Pass.owed
  cases b with
  | keyPath q =>
    rcases Component.value? child key with _ | w
    · simp [Binding.keyPath?]
    · simp only [Binding.keyPath?, bne, Bool.not_eq_true', Option.ite_none_right_eq_some, Option.some.injEq,
        Prod.mk.injEq, Binding.keyPath.injEq]
      constructor
      · rintro ⟨h, rfl, rfl⟩
        exact ⟨rfl, rfl, h⟩
      · rintro ⟨rfl, rfl, h⟩
        exact ⟨h, rfl, rfl⟩
  | _ => simp [Binding.keyPath?]

theorem pullBindings_append (child : σ) (xs ys : Bindings) (s : Scene σ) :
    (Pass.pullBindings child (xs ++ ys)).on s = match (Pass.pullBindings child xs).on s with
      | (.ok (), t) => (Pass.pullBindings child ys).on t
      | (.error e, t) => (.error e, t) := by
  induction xs generalizing s with
  | nil => rfl
  | cons b rest ih =>
    obtain ⟨key, b⟩ := b
    rw [List.cons_append, Pass.on_pullBindings_cons, Pass.on_pullBindings_cons]
    rcases Pass.owed child s.current.state key b with _ | ⟨p, v⟩
    · exact ih s
    · dsimp only
      rw [Pass.on_bind, Pass.on_bind]
      rcases (Pass.setPath p v).on s with ⟨_ | _, t⟩
      · rfl
      · exact ih t

/-- The others can be left out if none of them has anything to give back. -/
theorem pullBindings_filter {which : String × Binding → Bool} {child : σ} {bs : Bindings} {s : Scene σ}
    (h : GoBackOnly which child bs s) :
    (Pass.pullBindings child bs).on s = (Pass.pullBindings child (bs.filter which)).on s := by
  induction bs generalizing s with
  | nil => rfl
  | cons b rest ih =>
    obtain ⟨key, b⟩ := b
    have hrest : ∀ t, (Pass.pullBindings child [(key, b)]).on s = (.ok (), t) → GoBackOnly which child rest t := by
      intro t ht pre c post u hr hu
      refine h ((key, b) :: pre) c post u (by rw [hr]; rfl) ?_
      rw [← List.singleton_append, pullBindings_append, ht]
      exact hu
    rw [Pass.on_pullBindings_cons] at hrest
    by_cases hb : which (key, b) = true
    · rw [List.filter_cons_of_pos hb, Pass.on_pullBindings_cons, Pass.on_pullBindings_cons]
      rcases ho : Pass.owed child s.current.state key b with _ | ⟨p, v⟩ <;> rw [ho] at hrest
      · exact ih (hrest s rfl)
      · dsimp only at hrest ⊢
        rw [Pass.on_bind] at hrest
        rw [Pass.on_bind, Pass.on_bind]
        rcases hp : (Pass.setPath p v).on s with ⟨_ | _, t⟩
        · rfl
        · rw [hp] at hrest
          exact ih (hrest t rfl)
    · have hnone : Pass.owed child s.current.state key b = none :=
        Classical.byContradiction fun hne => hb (h [] (key, b) rest s rfl rfl hne)
      rw [hnone] at hrest
      rw [List.filter_cons_of_neg hb, Pass.on_pullBindings_cons, hnone]
      exact ih (hrest s rfl)

theorem GoBackOnly.append {which : String × Binding → Bool} {child : σ} {xs ys : Bindings} {s : Scene σ}
    (h : GoBackOnly which child (xs ++ ys) s) : GoBackOnly which child xs s :=
  fun pre b post t hxs => h pre b (post ++ ys) t (by rw [hxs, List.append_assoc, List.cons_append])

theorem goBackOnly_iff {which : String × Binding → Bool} {child : σ} {bs : Bindings} {s : Scene σ} :
    GoBackOnly which child bs s ↔ StillRead which child bs s := by
  constructor
  · intro h pre b post t hbs hb ht
    rw [hbs] at h
    rw [← pullBindings_filter h.append] at ht
    exact Classical.byContradiction fun hne => by simp [h pre b post t rfl ht hne] at hb
  · intro h
    -- By the length of what comes before: that is pulled as if only `which` were in it.
    suffices hpre : ∀ n pre post, pre.length = n → bs = pre ++ post → GoBackOnly which child pre s by
      exact hpre _ bs [] rfl (List.append_nil bs).symm
    intro n
    induction n using Nat.strongRecOn with
    | _ n ih =>
      intro pre post hn hbs pre' b post' t hpre ht hne
      have hlt : pre'.length < n := by
        rw [← hn, hpre]
        simp
      have hbs' : bs = pre' ++ b :: (post' ++ post) := by rw [hbs, hpre]; simp
      rw [pullBindings_filter (ih _ hlt pre' _ rfl hbs')] at ht
      exact eq_true_of_ne_false fun hb => hne (h pre' b _ t hbs' hb ht)

/-! ## What is read afterwards -/

section Reads

variable (hs : Stores σ)
include hs

theorem pullBindings_untouched {child : σ} {bs : Bindings} {s t : Scene σ} {q : KeyPath}
    (h : (Pass.pullBindings child bs).on s = (.ok (), t))
    (hq : ∀ key p, (key, .keyPath p) ∈ bs → ¬ p.Touches q) :
    q.valueIn t.current.state = q.valueIn s.current.state := by
  induction bs generalizing s with
  | nil =>
    cases h
    rfl
  | cons b rest ih =>
    obtain ⟨key, b⟩ := b
    have hrest : ∀ key p, (key, .keyPath p) ∈ rest → ¬ p.Touches q :=
      fun key p hp => hq key p (List.mem_cons_of_mem _ hp)
    rw [Pass.on_pullBindings_cons] at h
    rcases ho : Pass.owed child s.current.state key b with _ | ⟨p, v⟩ <;> rw [ho] at h
    · exact ih h hrest
    · obtain ⟨rfl, -, -⟩ := owed_eq_some.mp ho
      obtain ⟨_, u, hu, ht⟩ := Pass.on_bind_eq_ok.mp h
      obtain ⟨root, x, hr, hx, rfl⟩ := Pass.on_setPath_eq_ok.mp hu
      rw [ih ht hrest]
      have hset : p.setIn v s.current.state = .ok x := KeyPath.setIn_eq_ok.mpr ⟨root, hr, hx⟩
      have huntouched := KeyPath.valueIn_setIn_untouched hs hset (hq key p List.mem_cons_self)
      simpa [Scene.withState] using huntouched

/-- A value is read where it went back, unless it is covered by one that went back later. -/
theorem pullBindings_reads {child : σ} {pre post : Bindings} {key : String} {p : KeyPath} {v : Value}
    {s t : Scene σ} (h : (Pass.pullBindings child (pre ++ (key, .keyPath p) :: post)).on s = (.ok (), t))
    (hv : Component.value? child key = some v) (hq : ∀ key' q, (key', .keyPath q) ∈ post → ¬ q.Touches p) :
    p.valueIn t.current.state = v ∨ (p.valueIn t.current.state == v) = true := by
  rw [pullBindings_append] at h
  rcases hu : (Pass.pullBindings child pre).on s with ⟨_ | _, u⟩ <;> rw [hu] at h
  · cases h
  dsimp only at h
  rw [Pass.on_pullBindings_cons] at h
  rcases ho : Pass.owed child u.current.state key (.keyPath p) with _ | ⟨q, w⟩ <;> rw [ho] at h
  · rw [pullBindings_untouched hs h hq]
    refine .inr (eq_true_of_ne_false fun hne => ?_)
    rw [owed_eq_some.mpr ⟨rfl, hv, hne⟩] at ho
    cases ho
  · obtain ⟨hqp, hw, -⟩ := owed_eq_some.mp ho
    cases hqp
    obtain rfl := Option.some.inj (hv.symm.trans hw)
    obtain ⟨_, x, hx, ht⟩ := Pass.on_bind_eq_ok.mp h
    obtain ⟨root, y, hr, hy, rfl⟩ := Pass.on_setPath_eq_ok.mp hx
    have hset : p.setIn v u.current.state = .ok y := KeyPath.setIn_eq_ok.mpr ⟨root, hr, hy⟩
    rw [pullBindings_untouched hs ht hq]
    left
    simpa [Scene.withState] using KeyPath.valueIn_setIn hs hset

end Reads

/-! ## A component is left -/

/-- What is left of the use of a component once its template was visited. -/
theorem enter_of_arrive {α : Type} {r : Registry σ} {name : String} {bs : Bindings} {content : Option Element}
    {s t : Scene σ} {template : Element} {f : Frame σ} {rest : List (Frame σ)} (run : Element → Pass σ α)
    (h : (Pass.arrive r name bs content).on s = (.ok template, t))
    (hf : ((run template).on t).2.frames = f :: rest) :
    (Pass.enter r name bs content run).on s =
      let pulled := (Pass.pullBindings f.inner.state bs).on { ((run template).on t).2 with frames := rest }
      (Pass.afterPull ((run template).on t).1 pulled.1, Pass.putChild f.key f.inner pulled.2) := by
  rw [Pass.on_enter, h]
  dsimp only
  rw [Pass.on_depart, hf]

omit [Component σ] in
theorem Pass.putChild_state (key : String) (c : Instance σ) (s : Scene σ) :
    (putChild key c s).current.state = s.current.state := by
  rw [putChild, Scene.current_withCurrent]
  rfl

theorem afterPull_ok {α : Type} {x : Except Failure α} {pulled : Except Failure Unit} {a : α}
    (h : Pass.afterPull x pulled = .ok a) : pulled = .ok () := by
  rcases x with e | x
  · cases h
  · rcases pulled with e | _
    · cases h
    · rfl

/-- Nothing but changed values goes back from a component exactly if each other one is what the
    component around it reads at its turn. Then leaving the component is as if only the changed ones
    were bound: what they do not touch stays as it had become, and each of them is read, unless
    another one covers it. -/
theorem only_changes_go_back_iff (r : Registry σ) (phase : Phase) (depth : Nat) {name : String} {bs : Bindings}
    {content : Option Element} {s t : Scene σ} {template : Element}
    (h : (Pass.arrive r name bs content).on s = (.ok template, t)) :
    let ran := (template.visit r phase depth).on t
    let left := (Pass.enter r name bs content (Element.visit r phase depth)).on s
    ∃ f rest, ran.2.frames = f :: rest ∧
      let parent : Scene σ := { ran.2 with frames := rest }
      let changed := differs t.current.state f.inner.state
      (GoBackOnly changed f.inner.state bs parent ↔ StillRead changed f.inner.state bs parent) ∧
      (StillRead changed f.inner.state bs parent →
        let pulled := (Pass.pullBindings f.inner.state (bs.filter changed)).on parent
        left = (Pass.afterPull ran.1 pulled.1, Pass.putChild f.key f.inner pulled.2) ∧
        (Stores σ → ∀ x, left.1 = .ok x →
          (∀ q : KeyPath, (∀ key p, (key, .keyPath p) ∈ bs → changed (key, .keyPath p) = true → ¬ p.Touches q) →
            q.valueIn left.2.current.state = q.valueIn parent.current.state) ∧
          ∀ pre key p post v, bs = pre ++ (key, .keyPath p) :: post →
            changed (key, .keyPath p) = true → Component.value? f.inner.state key = some v →
            (∀ key' q, (key', .keyPath q) ∈ post → changed (key', .keyPath q) = true → ¬ q.Touches p) →
            p.valueIn left.2.current.state = v ∨ (p.valueIn left.2.current.state == v) = true)) := by
  intro ran left
  obtain ⟨d, child, es, -, -, -, ht⟩ := Pass.arrive_ok h
  have hplaces : ran.2.places = (s.context.elementId.text, content) :: s.places := by
    have hr : ran.2.places = t.places := (returns r phase depth template t).places
    rw [hr, ht, Scene.places_pushed]
    rfl
  rcases hf : ran.2.frames with _ | ⟨f, rest⟩
  · simp [Scene.places, hf] at hplaces
  refine ⟨f, rest, rfl, goBackOnly_iff, ?_⟩
  intro hread pulled
  have hleft : left = (Pass.afterPull ran.1 pulled.1, Pass.putChild f.key f.inner pulled.2) := by
    have he := enter_of_arrive (Element.visit r phase depth) h hf
    rw [pullBindings_filter (goBackOnly_iff.mpr hread)] at he
    exact he
  refine ⟨hleft, fun hs x hx => ?_⟩
  rw [hleft] at hx
  have hp : pulled = (.ok (), pulled.2) := Prod.ext (afterPull_ok hx) rfl
  have hstate : left.2.current.state = pulled.2.current.state := by rw [hleft, Pass.putChild_state]
  rw [hstate]
  constructor
  · intro q hq
    refine pullBindings_untouched hs hp fun key p hmem => ?_
    obtain ⟨hmem, hc⟩ := List.mem_filter.mp hmem
    exact hq key p hmem hc
  · intro pre key p post v hbs hc hv hq
    have hsplit : bs.filter (differs t.current.state f.inner.state) =
        pre.filter (differs t.current.state f.inner.state) ++
          (key, .keyPath p) :: post.filter (differs t.current.state f.inner.state) := by
      rw [hbs, List.filter_append, List.filter_cons_of_pos hc]
    simp only [pulled, hsplit] at hp ⊢
    refine pullBindings_reads hs hp hv fun key' q hmem => ?_
    obtain ⟨hmem, hc'⟩ := List.mem_filter.mp hmem
    exact hq key' q hmem hc'

/-! ## A note and its field -/

namespace Notes

/-- A component around its content, and one with a field of its own. -/
def boxes : Registry Notes :=
  registry [⟨"Box", "<wo:ComponentContent/>", "", ⟨[]⟩⟩, ⟨"Editor", "<wo:TextField value=\"$v\"/>", "", ⟨[]⟩⟩]

/-- Something new was entered in a field of the component at `0`. -/
def entered : Scene Notes :=
  .start { Scripted.context with
    elementId := ⟨[0]⟩
    request := { Scripted.context.request with form := ⟨[("0.0", "new")]⟩ } } []
    ⟨"Page", ⟨[("note", .string "old"), ("title", .string "T")]⟩, []⟩

def note : KeyPath := ⟨"note", []⟩

def noteField : Element := .control (.textField (.keyPath note) none) none

/-- The scene in which the template of a component is come to, the component when it is left, and
    the scene that it is left for. -/
def used (name : String) (bs : Bindings) (content : Option Element) :
    Option (Scene Notes × Frame Notes × Scene Notes) :=
  match (Pass.arrive boxes name bs content).on entered with
  | (.ok template, t) =>
    let u := ((template.visit boxes .take 9).on t).2
    match u.frames with
    | f :: rest => some (t, f, { u with frames := rest })
    | [] => none
  | _ => none

theorem used_eq_some {name : String} {bs : Bindings} {content : Option Element} {t p : Scene Notes}
    {f : Frame Notes} (h : used name bs content = some (t, f, p)) :
    ∃ template rest, (Pass.arrive boxes name bs content).on entered = (.ok template, t) ∧
      ((template.visit boxes .take 9).on t).2.frames = f :: rest ∧
      p = { ((template.visit boxes .take 9).on t).2 with frames := rest } := by
  unfold used at h
  split at h
  · rename_i template t' ha
    dsimp only at h
    split at h
    · rename_i f' rest hf
      cases h
      exact ⟨template, rest, ha, hf, rfl⟩
    · cases h
  · cases h

end Notes

open Notes in
theorem content_is_undone :
    ¬ ∀ (r : Registry Notes) (phase : Phase) (depth : Nat) (name : String) (bs : Bindings)
      (content : Option Element) (s t : Scene Notes) (template : Element) (f : Frame Notes)
      (rest : List (Frame Notes)),
      (Pass.arrive r name bs content).on s = (.ok template, t) →
      ((template.visit r phase depth).on t).2.frames = f :: rest →
      GoBackOnly (differs t.current.state f.inner.state) f.inner.state bs
        { ((template.visit r phase depth).on t).2 with frames := rest } := by
  intro h
  have hused : (used "Box" [("v", .keyPath note)] (some noteField)).map (fun (t, f, p) =>
      (Pass.owed f.inner.state p.current.state "v" (.keyPath note)).isSome &&
        !differs t.current.state f.inner.state ("v", .keyPath note)) = some true := by decide +kernel
  obtain ⟨⟨t, f, p⟩, hu, hb⟩ := Option.map_eq_some_iff.mp hused
  obtain ⟨template, rest, ha, hf, rfl⟩ := used_eq_some hu
  obtain ⟨howed, hsame⟩ := Bool.and_eq_true_iff.mp hb
  have hgo := h boxes .take 9 "Box" _ (some noteField) entered t template f rest ha hf [] ("v", .keyPath note) []
    _ rfl rfl (Option.isSome_iff_ne_none.mp howed)
  rw [hgo] at hsame
  cases hsame

open Notes in
theorem entered_text_goes_back :
    let bs : Bindings := [("title", .keyPath ⟨"title", []⟩), ("v", .keyPath note)]
    let left := (Pass.enter boxes "Editor" bs none (Element.visit boxes .take 9)).on entered
    ∃ template t v, (Pass.arrive boxes "Editor" bs none).on entered = (.ok template, t) ∧
      (v == .string "new") = true ∧
      (note.valueIn left.2.current.state = v ∨ (note.valueIn left.2.current.state == v) = true) := by
  intro bs left
  have hused : (used "Editor" bs none).map (fun (t, f, p) =>
      ((Component.value? f.inner.state "v").any (· == .string "new"),
        (Pass.owed f.inner.state p.current.state "title" (.keyPath ⟨"title", []⟩)).isSome,
        differs t.current.state f.inner.state ("v", .keyPath note))) = some (true, false, true) := by decide +kernel
  have hok : left.1.isOk = true := by decide +kernel
  obtain ⟨⟨t, f, p⟩, hu, hb⟩ := Option.map_eq_some_iff.mp hused
  simp only [Prod.mk.injEq] at hb
  obtain ⟨hv, howed, hdiffers⟩ := hb
  obtain ⟨v, hv, hnew⟩ := (Option.any_eq_true ..).mp hv
  obtain ⟨template, rest, ha, hf, rfl⟩ := used_eq_some hu
  obtain ⟨f', rest', hf', -, hleft⟩ := only_changes_go_back_iff boxes .take 9 ha
  obtain ⟨rfl, rfl⟩ := List.cons.inj (hf.symm.trans hf')
  rcases hx : left.1 with e | x
  · rw [hx] at hok
    cases hok
  have hread : StillRead (differs t.current.state f.inner.state) f.inner.state bs
      { ((template.visit boxes .take 9).on t).2 with frames := rest } := by
    -- The title is all that may stay as it was, and it comes first.
    intro pre b post u hbs hb hp
    change [_, _] = _ at hbs
    rcases pre with _ | ⟨c, pre⟩
    · cases hbs
      cases hp
      simpa using howed
    · obtain ⟨rfl, hbs⟩ := List.cons.inj hbs
      rcases pre with _ | ⟨c, pre⟩
      · cases hbs
        rw [hdiffers] at hb
        cases hb
      · cases pre <;> cases hbs
  obtain ⟨-, hreads⟩ := (hleft hread).2 stores x hx
  exact ⟨template, t, v, ha, hnew, hreads [("title", .keyPath ⟨"title", []⟩)] "v" note [] v rfl hdiffers hv nofun⟩

end PageServer
