/-
  PageServer.Proofs.NestedWrites — a nested write happens as a whole or not at all.

  `Value.store` writes in place: it makes maps of nulls and enters keys on its way down, before it
  knows whether it will get to the end. It gets there unless something that is neither a map nor a
  null is in the way (`Clear`, `store_eq_ok_iff`). What is in the way stands behind keys that were
  there already, so a write that fails has entered nothing and put back what it found
  (`store_of_error`). The value is then the same also as a list of entries, if these were in key
  order (`KeyOrdered`).

  A write through a key path asks the component once if the way is clear, and else not at all. That
  and the rest of it is `nested_write_is_all_or_nothing`.
-/

import PageServer.Proofs.Pass
import PageServer.Proofs.Paths

namespace PageServer

namespace Value

/-- Nothing but maps and nulls is found on the way along the path, before its end. -/
def Clear (path : List String) (v : Value) : Prop :=
  ∀ d x, d <+: path → d ≠ path → v.at? d = some x → x = null ∨ ∃ entries, x = map entries

/-- The maps that keys lead to have their entries in key order. -/
def KeyOrdered (v : Value) : Prop := ∀ path entries, v.at? path = some (map entries) → Assoc.Sorted entries

theorem entries?_eq_some {v : Value} {entries : List (String × Value)} (h : v.entries? = some entries) :
    (v = null ∧ entries = []) ∨ v = map entries := by
  cases v with
  | null =>
    cases h
    exact .inl ⟨rfl, rfl⟩
  | map es =>
    cases h
    exact .inr rfl
  | _ => cases h

/-! ## Where a write gets to the end -/

theorem isOpen_null (path : List String) : null.isOpen path = true := by
  induction path with
  | nil => rfl
  | cons key rest ih => exact ih

theorem clear_cons {key : String} {rest : List String} {v : Value} :
    v.Clear (key :: rest) ↔ ∃ entries, v.entries? = some entries ∧
      ((Assoc.get? key entries).getD null).Clear rest := by
  constructor
  · intro h
    have hroot : v = null ∨ ∃ entries, v = map entries := h [] v List.nil_prefix (by simp) rfl
    obtain ⟨entries, he⟩ : ∃ entries, v.entries? = some entries := by
      rcases hroot with rfl | ⟨entries, rfl⟩
      · exact ⟨[], rfl⟩
      · exact ⟨entries, rfl⟩
    refine ⟨entries, he, fun d x hd hne hx => ?_⟩
    rcases hg : Assoc.get? key entries with _ | y
    · rw [hg, Option.getD_none] at hx
      by_cases hnil : d = []
      · subst hnil
        cases hx
        exact .inl rfl
      · rw [at?_null hnil] at hx
        cases hx
    · refine h (key :: d) x (List.cons_prefix_cons.mpr ⟨rfl, hd⟩) (fun heq => hne (List.cons.inj heq).2) ?_
      rw [at?_cons_of_entries he, hg]
      rwa [hg] at hx
  · rintro ⟨entries, he, h⟩ d x hd hne hx
    cases d with
    | nil =>
      cases hx
      rcases entries?_eq_some he with ⟨rfl, -⟩ | rfl
      · exact .inl rfl
      · exact .inr ⟨entries, rfl⟩
    | cons key' d =>
      obtain ⟨rfl, -⟩ := List.cons_prefix_cons.mp hd
      rw [at?_cons_of_entries he] at hx
      obtain ⟨y, hy, hx⟩ := Option.bind_eq_some_iff.mp hx
      rw [hy] at h
      exact h d x (List.cons_prefix_cons.mp hd).2 (fun heq => hne (heq ▸ rfl)) hx

theorem clear_iff_isOpen {path : List String} {v : Value} : v.Clear path ↔ v.isOpen path = true := by
  induction path generalizing v with
  | nil => exact ⟨fun _ => rfl, fun _ d x hd hne => absurd (List.prefix_nil.mp hd) hne⟩
  | cons key rest ih =>
    rw [clear_cons]
    rcases he : v.entries? with _ | entries
    · simp [isOpen, he]
    · simp [isOpen, he, ih]

theorem store_eq_ok_iff {new v : Value} {path : List String} :
    (store new path v).1 = .ok () ↔ v.Clear path := by
  rw [clear_iff_isOpen, ← setPath_ok_iff new, setPath]
  rcases store new path v with ⟨_ | _, w⟩
  · constructor
    · intro h
      cases h
    · rintro ⟨_, h⟩
      cases h
  · exact ⟨fun _ => ⟨w, rfl⟩, fun _ => rfl⟩

theorem setPath_of_store {new v : Value} {path : List String} (h : (store new path v).1 = .ok ()) :
    setPath new path v = .ok (store new path v).2 := by
  rw [setPath]
  rcases hs : store new path v with ⟨_ | _, w⟩
  · rw [hs] at h
    cases h
  · rfl

/-! ## A write that does not -/

theorem KeyOrdered.sorted {v : Value} (h : v.KeyOrdered) {entries : List (String × Value)}
    (he : v.entries? = some entries) : Assoc.Sorted entries := by
  rcases entries?_eq_some he with ⟨-, rfl⟩ | rfl
  · exact .nil
  · exact h [] entries rfl

theorem KeyOrdered.entry {v x : Value} (h : v.KeyOrdered) {entries : List (String × Value)} {key : String}
    (he : v.entries? = some entries) (hx : Assoc.get? key entries = some x) : x.KeyOrdered := by
  intro path es hes
  refine h (key :: path) es ?_
  rw [at?_cons_of_entries he, hx]
  exact hes

/-- A write that fails leaves everything as it was. What stopped it was behind the keys, so these
    were all there, and each gets back what it had. -/
theorem store_of_error {new v : Value} {path : List String} (hv : v.KeyOrdered)
    (h : (store new path v).1 ≠ .ok ()) : (store new path v).2 = v := by
  induction path generalizing v with
  | nil => exact absurd rfl h
  | cons key rest ih =>
    rcases he : v.entries? with _ | entries
    · simp only [store, he]
    simp only [store, he] at h ⊢
    rcases hx : Assoc.get? key entries with _ | x
    · rw [hx] at h
      exact absurd (store_eq_ok_iff.mpr (clear_iff_isOpen.mpr (isOpen_null rest))) h
    · rw [hx, Option.getD_some] at h
      have hinner : (store new rest x).2 = x := ih (hv.entry he hx) h
      have hput : Assoc.put key x entries = entries := (hv.sorted he).put_of_get? hx
      rw [Option.getD_some, hinner, hput]
      rcases entries?_eq_some he with ⟨-, rfl⟩ | rfl
      · cases hx
      · rfl

theorem keyOrdered_map {entries : List (String × Value)} (hs : Assoc.Sorted entries)
    (h : ∀ key x, Assoc.get? key entries = some x → x.KeyOrdered) : (map entries).KeyOrdered := by
  intro path es hes
  cases path with
  | nil =>
    cases hes
    exact hs
  | cons key rest =>
    obtain ⟨x, hx, hes⟩ := Option.bind_eq_some_iff.mp hes
    exact h key x hx rest es hes

theorem keyOrdered_of_no_map {v : Value} (h : ∀ entries, v ≠ map entries) : v.KeyOrdered := by
  intro path es hes
  cases path with
  | nil => exact absurd (Option.some.inj hes) (h es)
  | cons key rest =>
    cases v with
    | map entries => exact absurd rfl (h entries)
    | _ => cases hes

/-- A write keeps maps in key order, whether or not it goes through. -/
theorem KeyOrdered.store {new v : Value} {path : List String} (hv : v.KeyOrdered) (hnew : new.KeyOrdered) :
    (store new path v).2.KeyOrdered := by
  induction path generalizing v with
  | nil => exact hnew
  | cons key rest ih =>
    rcases he : v.entries? with _ | entries
    · simp only [Value.store, he]
      exact hv
    simp only [Value.store, he]
    refine keyOrdered_map ((hv.sorted he).put key _) fun key' x hx => ?_
    by_cases hk : key' = key
    · subst hk
      rw [Assoc.get?_put_self] at hx
      cases hx
      rcases hg : Assoc.get? key' entries with _ | y
      · refine ih (keyOrdered_of_no_map fun entries heq => ?_)
        cases heq
      · exact ih (hv.entry he hg)
    · rw [Assoc.get?_put_of_ne hk] at hx
      exact hv.entry he hx

end Value

/-! ## Components -/

variable {σ : Type} [Component σ]

/-- The component is asked once, to take a value for the first key. -/
theorem Pass.setPath_of_clear {p : KeyPath} {s : Scene σ} (h : (p.root s.current.state).Clear p.rest) (new : Value) :
    ∃ root, ((setPath p new).on s).2.events = s.events ++ [.set s.current.name p.first root] := by
  obtain ⟨root, hroot⟩ := (Value.setPath_ok_iff new p.rest _).mpr (Value.clear_iff_isOpen.mp h)
  refine ⟨root, ?_⟩
  rw [on_setPath, KeyPath.rootFor_eq, hroot]
  show ((setKey p.first root).on s).2.events = _
  rw [on_setKey]
  rcases Component.take s.current.state p.first root with e | x
  · rfl
  · exact Scene.withCurrent_events ..

theorem KeyPath.rootFor_of_not_clear {p : KeyPath} {c : σ} (h : ¬ (p.root c).Clear p.rest) (new : Value) :
    ∃ e, p.rootFor new c = .error (.path p e) := by
  rw [rootFor_eq]
  rcases hset : Value.setPath new p.rest (p.root c) with e | root
  · exact ⟨e, rfl⟩
  · exact absurd (Value.clear_iff_isOpen.mpr ((Value.setPath_ok_iff new p.rest _).mp ⟨root, hset⟩)) h

/-- A nested write goes through exactly if its way is clear. Then the path leads to what was written,
    and paths apart from it to what they led to before; else the value is what it was.

    So a component that stores what it is given holds what is written through a key path, and no
    component is asked to take anything where that can't be. -/
theorem nested_write_is_all_or_nothing (new : Value) (path : List String) (v : Value) (p : KeyPath) (s : Scene σ) :
    let written := Value.store new path v
    (written.1 = .ok () ↔ v.Clear path) ∧
    (written.1 = .ok () → written.2.at? path = some new ∧
      ∀ q, Value.Apart path q → written.2.at? q = v.at? q) ∧
    (written.1 ≠ .ok () → v.KeyOrdered → written.2 = v) ∧
    (Stores σ → ∀ c : σ, (p.root c).Clear p.rest → ∃ c', p.setIn new c = .ok c' ∧ p.valueIn c' = new) ∧
    ((p.root s.current.state).Clear p.rest →
      ∃ root, ((Pass.setPath p new).on s).2.events = s.events ++ [.set s.current.name p.first root]) ∧
    (¬ (p.root s.current.state).Clear p.rest → ∃ e, p.setIn new s.current.state = .error (.path p e) ∧
      (Pass.setPath p new).on s = (.error (.path p e), s)) := by
  intro written
  refine ⟨Value.store_eq_ok_iff, fun hok => ?_, fun herr hv => Value.store_of_error hv herr, fun hs c hc => ?_,
    fun hc => Pass.setPath_of_clear hc new, fun hc => ?_⟩
  · have hset : Value.setPath new path v = .ok written.2 := Value.setPath_of_store hok
    exact ⟨Value.at?_setPath hset, fun q hq => Value.at?_setPath_apart hset hq⟩
  · obtain ⟨c', hc'⟩ := KeyPath.setIn_of_isOpen hs (Value.clear_iff_isOpen.mp hc) new
    exact ⟨c', hc', KeyPath.valueIn_setIn hs hc'⟩
  · obtain ⟨e, he⟩ := KeyPath.rootFor_of_not_clear hc new
    refine ⟨e, ?_, ?_⟩
    · rw [KeyPath.setIn, he]
      rfl
    · rw [Pass.on_setPath, he]

namespace Notes

def ada : Value := .map [("name", .string "Ada")]

theorem keyOrdered_ada : ada.KeyOrdered :=
  Value.keyOrdered_map (List.pairwise_singleton _ _) fun key x hx => by
    obtain ⟨-, rfl⟩ : key = "name" ∧ x = .string "Ada" := by simpa using Assoc.mem_of_get? hx
    exact Value.keyOrdered_of_no_map nofun

/-- A page about Ada. -/
def scene : Scene Notes :=
  .start { request := { method := .get, uri := "/", path := "/", segments := [] }, sessionId := "1" } []
    ⟨"Notes", ⟨[("user", ada)]⟩, []⟩

end Notes

/-- The age comes beside the name. What is said of the name leads through a text and is not written. -/
theorem age_is_written_beside_the_name :
    let age : KeyPath := ⟨"user", ["age"]⟩
    let first : KeyPath := ⟨"user", ["name", "first"]⟩
    (∃ w, Value.store (.int 36) age.rest Notes.ada = (.ok (), w) ∧ w.at? age.rest = some (.int 36) ∧
      w.at? ["name"] = some (.string "Ada")) ∧
    (∃ c, age.setIn (.int 36) (⟨[("user", Notes.ada)]⟩ : Notes) = .ok c ∧ age.valueIn c = .int 36) ∧
    (Value.store .null first.rest Notes.ada).2 = Notes.ada ∧
    ∃ e, (Pass.setPath first .null).on Notes.scene = (.error (.path first e), Notes.scene) := by
  intro age first
  have hclear : Notes.ada.Clear age.rest := Value.clear_iff_isOpen.mpr (by decide)
  have hblocked : ¬ Notes.ada.Clear first.rest := fun h => absurd (Value.clear_iff_isOpen.mp h) (by decide)
  obtain ⟨hok, hwritten, -, hholds, -, -⟩ :=
    nested_write_is_all_or_nothing (.int 36) age.rest Notes.ada age Notes.scene
  obtain ⟨hok', -, hkept, -, -, hunasked⟩ :=
    nested_write_is_all_or_nothing .null first.rest Notes.ada first Notes.scene
  obtain ⟨hage, hname⟩ := hwritten (hok.mpr hclear)
  have hbeside : Value.Apart age.rest ["name"] := by simp [Value.Apart, age]
  obtain ⟨e, -, he⟩ := hunasked hblocked
  exact ⟨⟨_, Prod.ext (hok.mpr hclear) rfl, hage, hname ["name"] hbeside⟩,
    hholds Notes.stores ⟨[("user", Notes.ada)]⟩ hclear,
    hkept (fun h => hblocked (hok'.mp h)) Notes.keyOrdered_ada, e, he⟩

end PageServer
