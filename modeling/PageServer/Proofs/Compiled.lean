/-
  PageServer.Proofs.Compiled — the templates that are kept are those of the definitions.

  A component is registered under the name of its definition (`Keyed`), so what is kept for a name
  was compiled from the one definition that the name stands for (`Templates.Compiled`). Every
  traversal keeps it so, and a use of a component gets the same template in each of them.
-/

import PageServer.Proofs.Visits

namespace PageServer

variable {σ : Type}

/-! ## Names of definitions -/

/-- Every component goes by the name of its definition. -/
def Registry.Keyed (r : Registry σ) : Prop := ∀ name d, r.resolveComponent name = .ok d → d.name = name

theorem Registry.resolveComponent_eq_ok {r : Registry σ} {name : String} {d : Definition σ} :
    r.resolveComponent name = .ok d ↔ Assoc.get? name r.types = some (.component d) := by
  unfold Registry.resolveComponent Registry.resolve
  rcases Assoc.get? name r.types with _ | t
  · exact ⟨nofun, nofun⟩
  · cases t with
    | component d' => exact ⟨fun h => by cases h; rfl, fun h => by cases h; rfl⟩
    | _ => exact ⟨nofun, nofun⟩

def ElementType.goesBy (name : String) : ElementType σ → Bool
  | .component d => d.name == name
  | _ => true

/-- A name that is given away was free. -/
theorem Registry.register_eq_ok {r r' : Registry σ} {name : String} {t : ElementType σ} (h : r.register name t = .ok r') :
    Assoc.get? name r.types = none ∧ r' = { r with types := Assoc.put name t r.types } := by
  rw [Registry.register] at h
  split at h <;> cases h
  rename_i hnone
  exact ⟨hnone, rfl⟩

theorem Registry.Keyed.register {r r' : Registry σ} {name : String} {t : ElementType σ} (h : r.Keyed)
    (ht : t.goesBy name = true) (hr : r.register name t = .ok r') : r'.Keyed := by
  obtain ⟨-, rfl⟩ := Registry.register_eq_ok hr
  intro name' d hd
  rw [Registry.resolveComponent_eq_ok] at hd
  by_cases hname : name' = name
  · subst hname
    rw [Assoc.get?_put_self] at hd
    cases hd
    exact eq_of_beq ht
  · rw [Assoc.get?_put_of_ne hname] at hd
    exact h name' d (Registry.resolveComponent_eq_ok.mpr hd)

theorem Registry.keyed_of_goesBy {r : Registry σ} (h : r.types.all (fun t => t.2.goesBy t.1) = true) : r.Keyed := by
  intro name d hd
  have hname := List.all_eq_true.mp h _ (Assoc.mem_of_get? (Registry.resolveComponent_eq_ok.mp hd))
  exact eq_of_beq hname

/-! ## What is kept -/

/-- What is kept under the name of a definition is its template. -/
def Templates.Compiled (r : Registry σ) (ts : Templates) : Prop :=
  ∀ name d e, r.resolveComponent name = .ok d → Assoc.get? d.name ts = some e →
    Template.compile r d.template d.declarations = .ok e

variable {r : Registry σ}

theorem Templates.Compiled.nil : Templates.Compiled r [] := nofun

namespace Templates.Compiled

variable {ts : Templates} {name : String} {d : Definition σ} (h : Templates.Compiled r ts)
  (hd : r.resolveComponent name = .ok d)
include h hd

theorem compile_of_get {e : Element} (he : (Templates.get r d ts).1 = .ok e) :
    Template.compile r d.template d.declarations = .ok e := by
  unfold Templates.get at he
  split at he
  · rename_i e' hget
    cases he
    exact h name d e hd hget
  · split at he
    · rename_i hc
      cases he
      exact hc
    · cases he

theorem get_of_compile {e : Element} (he : Template.compile r d.template d.declarations = .ok e) :
    (Templates.get r d ts).1 = .ok e := by
  unfold Templates.get
  split
  · rename_i e' hget
    have hc := h name d e' hd hget
    rw [he] at hc
    cases hc
    rfl
  · rw [he]

theorem get (hk : r.Keyed) : Templates.Compiled r (Templates.get r d ts).2 := by
  intro name' d' e' hd' hget'
  unfold Templates.get at hget'
  split at hget'
  · exact h name' d' e' hd' hget'
  · split at hget'
    · rename_i e hc
      by_cases hn : d'.name = d.name
      · rw [hn, Assoc.get?_put_self] at hget'
        have hnames : name' = name := by rw [← hk name' d' hd', hn, hk name d hd]
        subst hnames
        rw [hd] at hd'
        cases hd'
        cases hget'
        exact hc
      · rw [Assoc.get?_put_of_ne hn] at hget'
        exact h name' d' e' hd' hget'
    · exact h name' d' e' hd' hget'

end Templates.Compiled

/-! ## In traversals -/

/-- What holds of the templates that are kept in `s` holds of those in `t`. -/
def Stays (P : Templates → Prop) (s t : Scene σ) : Prop := P s.templates → P t.templates

/-- The property stays when a template is asked for. -/
def Registry.Preserves (r : Registry σ) (P : Templates → Prop) : Prop :=
  ∀ name d ts, r.resolveComponent name = .ok d → P ts → P (Templates.get r d ts).2

namespace Stays

variable {P : Templates → Prop}

theorem same {s t : Scene σ} (h : t.templates = s.templates) : Stays P s t := by
  unfold Stays
  rw [h]
  exact id

theorem plain [Component σ] : Plain (Stays P : Scene σ → Scene σ → Prop) where
  refl _ := id
  trans h h' hs := h' (h hs)
  sets _ _ _ := id
  takes s _ _ _ _ := same (s.withCurrent_templates _)
  response _ _ := id
  url _ := id

theorem along {s t : Scene σ} (h : Along (Stays P) s t) : Stays P s t := by
  induction h with
  | refl => exact id
  | visit _ hr ih => exact fun hs => hr (ih hs)
  | next _ ih => exact ih

theorem pushed (s : Scene σ) (key : String) (child : Instance σ) (content : Option Element) :
    (s.pushed key child content).templates = s.templates := Scene.withCurrent_templates _ _

theorem kept [Component σ] (hP : r.Preserves P) : Kept r (Stays P) where
  toPlain := plain
  performs s _ := same (t := s.acted _) (s.withCurrent_templates _)
  templates _ _ _ hd hs := hP _ _ _ hd hs
  level s t h := show Stays P (s.mapContext Context.down) t from along h
  form _ _ h := h
  container _ _ _ h := h
  refused s key child := same (by simp [Pass.putChild, Scene.without])
  left s key child content t h := by
    have ht : Stays P s t := by
      unfold Stays at h ⊢
      rwa [pushed] at h
    exact ⟨fun _ => ht, fun f rest _ u hu hs => (same (Scene.withCurrent_templates _ _)) (hu (ht hs))⟩
  aside _ _ _ _ _ h := h

/-- A traversal of a page keeps what holds of the templates. -/
theorem walkPage [Component σ] (hP : r.Preserves P) (phase : Phase) :
    Pass.Within (Stays P) (Pass.walkPage r phase : Pass σ _) := by
  refine .bind plain (fun s hs => ?_) fun e => (kept hP).visit phase r.maxDepth e
  rw [Pass.on_pageTemplate]
  rcases hd : r.resolveComponent s.page.name with e | d
  · exact hs
  have hnext : P (s.compiled r d).templates := hP _ d _ hd hs
  dsimp only
  rcases (Templates.get r d s.templates).1 with e | e <;> exact hnext

theorem renderPage [Component σ] (hP : r.Preserves P) : Pass.Within (Stays P) (Pass.renderPage r : Pass σ _) :=
  .bind plain (fun _ => id) fun _ => .bind plain (fun _ => id) fun _ => .bind plain (walkPage hP .render) fun _ =>
    .get fun _ => id

end Stays

/-- What is kept in `t` is as good as what was kept in `s`. -/
def StaysCompiled (r : Registry σ) (s t : Scene σ) : Prop :=
  Templates.Compiled r s.templates → Templates.Compiled r t.templates

theorem Registry.Keyed.preserves_compiled (hk : r.Keyed) : r.Preserves (Templates.Compiled r) :=
  fun _ _ _ hd hs => hs.get hd hk

theorem StaysCompiled.kept [Component σ] (hk : r.Keyed) : Kept r (StaysCompiled r) := Stays.kept hk.preserves_compiled

variable [Component σ] {phase : Phase}

/-- No template is looked up on the way into the content of a control. -/
theorem Approached.compiled {c : Control} {s t : Scene σ} (h : Approached r phase c s t) :
    StaysCompiled r s t := by
  cases h with
  | @link _ _ target ho =>
    have hl := Pass.Within.openLink (Stays.plain (P := Templates.Compiled r)) (r := r) target s
    rw [ho] at hl
    exact hl
  | shownForm ho =>
    have hf := Pass.Within.openForm (Stays.plain (P := Templates.Compiled r)) s
    rw [ho] at hf
    exact hf
  | @shownContainer _ _ id elementName _ ho =>
    rcases Pass.on_openContainer s r.helpers id elementName with ⟨_, he⟩ | ⟨id', _, x, he⟩ <;> rw [he] at ho
    · cases ho
    · cases ho
      exact fun hc => hc
  | _ => exact fun hc => hc

theorem Part.compiled (hk : r.Keyed) {v u : Visit σ} {w : Way} (h : Part r phase v w u) :
    StaysCompiled r v.scene u.scene := by
  have k := @StaysCompiled.kept σ r _ hk
  cases h with
  | @child depth n s t name children e hn hs hv =>
    have hl := Stays.along (k.visitAll (k.visit phase depth) phase (children.take n)
      (.refl (s := s.mapContext Context.down)))
    rw [hs] at hl
    exact hl
  | @round depth i s t u list item index items x e hl hi hr hset hv =>
    have hbody := k.visitWith (k.visit phase depth) phase e
    have hrs := Stays.along (Pass.Within.rounds k item index (.part k.toPlain hbody phase)
      (items.take i) 0 (.refl (s := s.mapContext Context.down)))
    rw [hr] at hrs
    have hsu := Pass.Within.setRound k.toPlain item index i x t
    rw [hset] at hsu
    exact fun hs => hsu (hrs hs)
  | inside hs => exact (approached hs).compiled
  | @template depth s t tag name bs content e hs =>
    obtain ⟨d, child, es, hd, -, -, rfl⟩ := Pass.arrive_ok hs
    exact fun hc => by
      rw [Stays.pushed]
      exact hc.get hd hk
  | content => exact id

end PageServer
