/-
  PageServer.Proofs.Rounds — setting the rounds of a repetition.

  A round writes its item and its number to key paths of the current component. What the
  component holds apart from these paths stays, and so do the components around it (`Sets`).
  Once a round could be set the next ones can be, too.
-/

import PageServer.Proofs.Balance
import PageServer.Proofs.Paths

namespace PageServer

variable {σ : Type}

/-! ## States of the components on the stack -/

/-- The states of the components on the stack, innermost first, and that of the page. -/
def Scene.states (s : Scene σ) : List σ := s.frames.map (·.inner.state) ++ [s.page.state]

namespace Scene

theorem states_eq (s : Scene σ) : s.states = s.current.state :: s.states.tail := by
  unfold states current
  rcases s.frames with _ | ⟨f, rest⟩ <;> rfl

theorem states_withCurrent (s : Scene σ) (i : Instance σ) :
    (s.withCurrent i).states = i.state :: s.states.tail := by
  unfold states withCurrent
  rcases s.frames with _ | ⟨f, rest⟩ <;> rfl

theorem states_withState (s : Scene σ) (x : σ) : (s.withState x).states = x :: s.states.tail :=
  s.states_withCurrent _

theorem states_pushed (s : Scene σ) (key : String) (child : Instance σ) (content : Option Element) :
    (s.pushed key child content).states = child.state :: s.states := by
  have h : (s.without key).states = s.states := by
    rw [without, states_withCurrent, s.states_eq]
    rfl
  rw [← h]
  rfl

end Scene

/-! ## Setting a round -/

variable [Component σ] {r : Registry σ}

/-- The paths that a round sets. -/
def Element.roundPaths : Element → List KeyPath
  | .control (.repetition _ item index) _ => item.toList ++ index.toList
  | _ => []

/-- From `s` to `t` the current component has changed at `paths`, and none around it. -/
structure Sets (paths : List KeyPath) (s t : Scene σ) : Prop where
  outer : t.states.tail = s.states.tail
  isOpen : ∀ q, (∀ p ∈ paths, p.Apart q) → q.isOpen t.current.state = q.isOpen s.current.state
  holds : ∀ q x, (∀ p ∈ paths, p.Apart q) → q.Holds s.current.state x → q.Holds t.current.state x

theorem Sets.refl (paths : List KeyPath) (s : Scene σ) : Sets paths s s :=
  ⟨rfl, fun _ _ => rfl, fun _ _ _ h => h⟩

theorem Sets.trans {paths : List KeyPath} {s t u : Scene σ} (h : Sets paths s t) (h' : Sets paths t u) :
    Sets paths s u :=
  ⟨h'.outer.trans h.outer, fun q hq => (h'.isOpen q hq).trans (h.isOpen q hq),
    fun q x hq hx => h'.holds q x hq (h.holds q x hq hx)⟩

theorem Sets.mono {ps qs : List KeyPath} {s t : Scene σ} (h : Sets ps s t) (hsub : ps ⊆ qs) : Sets qs s t :=
  ⟨h.outer, fun q hq => h.isOpen q fun p hp => hq p (hsub hp),
    fun q x hq => h.holds q x fun p hp => hq p (hsub hp)⟩

theorem isOpen_of_setPath {p : KeyPath} {v : Value} {s t : Scene σ}
    (h : (Pass.setPath p v).on s = (.ok (), t)) : p.isOpen s.current.state = true := by
  obtain ⟨root, x, hr, hx, -⟩ := Pass.on_setPath_eq_ok.mp h
  exact KeyPath.isOpen_of_setIn (KeyPath.setIn_eq_ok.mpr ⟨root, hr, hx⟩)

/-- One write after the other. -/
def Pass.setEach : List (KeyPath × Value) → Pass σ Unit
  | [] => pure ()
  | (p, v) :: rest => do
    setPath p v
    setEach rest

/-- What a round writes. -/
def roundWrites (item index : Option KeyPath) (i : Nat) (v : Value) : List (KeyPath × Value) :=
  item.toList.map (·, v) ++ index.toList.map (·, .int i)

theorem setRound_eq (item index : Option KeyPath) (i : Nat) (v : Value) (s : Scene σ) :
    (Control.setRound item index i v).on s = (Pass.setEach (roundWrites item index i v)).on s := by
  have hlast : ∀ (p : KeyPath) (x : Value) (s : Scene σ),
      (Pass.setPath p x).on s = (Pass.setEach [(p, x)]).on s := by
    intro p x s
    rw [Pass.setEach, Pass.on_bind]
    rcases (Pass.setPath p x).on s with ⟨_ | _, t⟩ <;> rfl
  cases item with
  | none =>
    cases index with
    | none => rfl
    | some q => exact hlast q _ s
  | some p =>
    cases index with
    | none => rfl
    | some q =>
      show ((do Pass.setPath p v; Pass.setPath q (.int i)) : Pass σ Unit).on s =
        ((do Pass.setPath p v; Pass.setEach [(q, .int i)]) : Pass σ Unit).on s
      rw [Pass.on_bind, Pass.on_bind]
      rcases (Pass.setPath p v).on s with ⟨_ | _, t⟩
      · rfl
      · exact hlast q _ t

omit [Component σ] in
theorem roundWrites_paths (item index : Option KeyPath) (i : Nat) (v : Value) :
    (roundWrites item index i v).map (·.1) = item.toList ++ index.toList := by
  simp [roundWrites, Function.comp_def]

section Stores

variable (hs : Stores σ)
include hs

theorem setPath_sets {p : KeyPath} {v : Value} {s t : Scene σ} (h : (Pass.setPath p v).on s = (.ok (), t)) :
    Sets [p] s t ∧ p.isOpen t.current.state = true ∧ p.Holds t.current.state v := by
  obtain ⟨root, x, hr, hx, rfl⟩ := Pass.on_setPath_eq_ok.mp h
  have hset : p.setIn v s.current.state = .ok x := KeyPath.setIn_eq_ok.mpr ⟨root, hr, hx⟩
  have hcur : ((s.addEvents [.set s.current.name p.first root]).withState x).current.state = x := by
    simp [Scene.withState]
  refine ⟨⟨?_, fun q hq => ?_, fun q y hq hy => ?_⟩, ?_, ?_⟩
  · rw [Scene.states_withState]
    rfl
  · rw [hcur]
    exact KeyPath.isOpen_setIn_apart hs hset (hq p (by simp))
  · rw [hcur]
    exact KeyPath.holds_setIn_apart hs hset hy (hq p (by simp))
  · rw [hcur]
    exact KeyPath.isOpen_setIn hs hset
  · rw [hcur]
    exact KeyPath.holds_setIn hs hset

theorem setPath_of_isOpen {p : KeyPath} {s : Scene σ} (h : p.isOpen s.current.state = true) (v : Value) :
    ∃ t, (Pass.setPath p v).on s = (.ok (), t) := by
  obtain ⟨x, hx⟩ := KeyPath.setIn_of_isOpen hs h v
  obtain ⟨root, hr, ht⟩ := KeyPath.setIn_eq_ok.mp hx
  exact ⟨_, Pass.on_setPath_eq_ok.mpr ⟨root, x, hr, ht, rfl⟩⟩

theorem setEach_sets {ws : List (KeyPath × Value)} {s t : Scene σ} (hap : (ws.map (·.1)).Pairwise KeyPath.Apart)
    (h : (Pass.setEach ws).on s = (.ok (), t)) :
    Sets (ws.map (·.1)) s t ∧ ∀ w ∈ ws, w.1.isOpen t.current.state = true ∧ w.1.Holds t.current.state w.2 := by
  induction ws generalizing s with
  | nil =>
    cases h
    exact ⟨.refl [] t, nofun⟩
  | cons w rest ih =>
    obtain ⟨p, v⟩ := w
    obtain ⟨_, u, hu, ht⟩ := Pass.on_bind_eq_ok.mp h
    obtain ⟨hset, hopen, hholds⟩ := setPath_sets hs hu
    obtain ⟨hp, hrest⟩ := List.pairwise_cons.mp hap
    obtain ⟨hsets, hws⟩ := ih hrest ht
    refine ⟨(hset.mono (by simp)).trans (hsets.mono (by simp)), fun w hw => ?_⟩
    rcases List.mem_cons.mp hw with rfl | hw
    · have hapart : ∀ q ∈ rest.map (·.1), q.Apart p := fun q hq => (hp q hq).symm
      exact ⟨(hsets.isOpen p hapart).trans hopen, hsets.holds p v hapart hholds⟩
    · exact hws w hw

theorem setEach_of_isOpen {ws : List (KeyPath × Value)} {s : Scene σ}
    (hap : (ws.map (·.1)).Pairwise KeyPath.Apart) (h : ∀ w ∈ ws, w.1.isOpen s.current.state = true) :
    ∃ t, (Pass.setEach ws).on s = (.ok (), t) := by
  induction ws generalizing s with
  | nil => exact ⟨s, rfl⟩
  | cons w rest ih =>
    obtain ⟨p, v⟩ := w
    obtain ⟨u, hu⟩ := setPath_of_isOpen hs (h (p, v) (by simp)) v
    obtain ⟨hset, -, -⟩ := setPath_sets hs hu
    obtain ⟨hp, hrest⟩ := List.pairwise_cons.mp hap
    have hopen : ∀ w ∈ rest, w.1.isOpen u.current.state = true := by
      intro w hw
      rw [hset.isOpen w.1 (by simpa using hp w.1 (List.mem_map_of_mem hw))]
      exact h w (by simp [hw])
    obtain ⟨t, ht⟩ := ih hrest hopen
    exact ⟨t, Pass.on_bind_eq_ok.mpr ⟨(), u, hu, ht⟩⟩

theorem isOpen_of_setEach {ws : List (KeyPath × Value)} {s t : Scene σ}
    (hap : (ws.map (·.1)).Pairwise KeyPath.Apart) (h : (Pass.setEach ws).on s = (.ok (), t)) :
    ∀ w ∈ ws, w.1.isOpen s.current.state = true := by
  induction ws generalizing s with
  | nil => exact nofun
  | cons w rest ih =>
    obtain ⟨p, v⟩ := w
    obtain ⟨_, u, hu, ht⟩ := Pass.on_bind_eq_ok.mp h
    obtain ⟨hset, -, -⟩ := setPath_sets hs hu
    obtain ⟨hp, hrest⟩ := List.pairwise_cons.mp hap
    intro w hw
    rcases List.mem_cons.mp hw with rfl | hw
    · exact isOpen_of_setPath hu
    · rw [← hset.isOpen w.1 (by simpa using hp w.1 (List.mem_map_of_mem hw))]
      exact ih hrest ht w hw

theorem setRound_sets {item index : Option KeyPath} {i : Nat} {v : Value} {s t : Scene σ}
    (hap : (item.toList ++ index.toList).Pairwise KeyPath.Apart)
    (h : (Control.setRound item index i v).on s = (.ok (), t)) :
    Sets (item.toList ++ index.toList) s t ∧
      (∀ p ∈ item.toList ++ index.toList, p.isOpen t.current.state = true) ∧
      (∀ p ∈ item, p.Holds t.current.state v) ∧ ∀ p ∈ index, p.Holds t.current.state (.int i) := by
  rw [setRound_eq] at h
  rw [← roundWrites_paths item index i v] at hap ⊢
  obtain ⟨hsets, hws⟩ := setEach_sets hs hap h
  refine ⟨hsets, fun p hp => ?_, fun p hp => ?_, fun p hp => ?_⟩
  · obtain ⟨w, hw, rfl⟩ := List.mem_map.mp hp
    exact (hws w hw).1
  · exact (hws (p, v) (by simp [roundWrites, show item = some p from hp])).2
  · exact (hws (p, .int i) (by simp [roundWrites, show index = some p from hp])).2

theorem setRound_of_isOpen {item index : Option KeyPath} {s : Scene σ}
    (hap : (item.toList ++ index.toList).Pairwise KeyPath.Apart)
    (h : ∀ p ∈ item.toList ++ index.toList, p.isOpen s.current.state = true) (i : Nat) (v : Value) :
    ∃ t, (Control.setRound item index i v).on s = (.ok (), t) := by
  rw [← roundWrites_paths item index i v] at hap h
  rw [setRound_eq]
  exact setEach_of_isOpen hs hap fun w hw => h w.1 (List.mem_map_of_mem hw)

theorem isOpen_of_setRound {item index : Option KeyPath} {i : Nat} {v : Value} {s t : Scene σ}
    (hap : (item.toList ++ index.toList).Pairwise KeyPath.Apart)
    (h : (Control.setRound item index i v).on s = (.ok (), t)) :
    ∀ p ∈ item.toList ++ index.toList, p.isOpen s.current.state = true := by
  rw [setRound_eq] at h
  rw [← roundWrites_paths item index i v] at hap ⊢
  intro p hp
  obtain ⟨w, hw, rfl⟩ := List.mem_map.mp hp
  exact isOpen_of_setEach hs hap h w hw

/-- The paths of a round that was come to could be written when the first round was set. -/
theorem isOpen_of_rounds {item index : Option KeyPath} (hap : (item.toList ++ index.toList).Pairwise KeyPath.Apart)
    {body : Pass σ (Found σ)} {xs : List Value} {i j : Nat} {x : Value} {s t u : Scene σ}
    (hr : (Control.rounds item index body j xs).on s = (.ok none, t))
    (hset : (Control.setRound item index i x).on t = (.ok (), u)) :
    ∀ p ∈ item.toList ++ index.toList, p.isOpen s.current.state = true := by
  cases xs with
  | nil =>
    cases hr
    exact isOpen_of_setRound hs hap hset
  | cons y rest =>
    rw [Pass.on_rounds_cons] at hr
    rcases hy : (Control.setRound item index j y).on s with ⟨_ | _, s'⟩ <;> rw [hy] at hr
    · cases hr
    · exact isOpen_of_setRound hs hap hy

end Stores

end PageServer
