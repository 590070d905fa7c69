/-
  PageServer.Proofs.Paths — reading and writing through key paths.

  A nested write goes through if it meets nothing but maps and nulls on its way (`isOpen`). What
  was written is then what the path holds (`holds_setIn`), and a write along a path apart from
  another one leaves what that one holds (`holds_setIn_apart`) and whether it is open. All of
  it is about components that store what they are given (`Stores`).
-/

import PageServer.Component

namespace PageServer

/-! ## Values -/

namespace Value

/-- What stands at the end of a path of keys that are all entered in maps. -/
def at? : List String → Value → Option Value
  | [], v => some v
  | key :: rest, v => (v.get? key).bind (at? rest)

/-- Whether a nested write meets nothing but maps and nulls. -/
def isOpen : List String → Value → Bool
  | [], _ => true
  | key :: rest, v =>
    match v.entries? with
    | some entries => isOpen rest ((Assoc.get? key entries).getD null)
    | none => false

/-- What a path leads to in a value. -/
def readAt (path : List String) (v : Value) : Value := path.foldl (fun v k => (v.derived? k).getD null) v

@[simp] theorem readAt_nil (v : Value) : v.readAt [] = v := by
  rw [readAt, List.foldl_nil]

@[simp] theorem readAt_cons (key : String) (rest : List String) (v : Value) :
    v.readAt (key :: rest) = ((v.derived? key).getD null).readAt rest := by
  rw [readAt, List.foldl_cons, readAt]

theorem readAt_null (path : List String) : null.readAt path = null := by
  induction path with
  | nil => rfl
  | cons key rest ih => simpa [derived?] using ih

/-- A path leads no further from a number. -/
theorem readAt_int {path : List String} (h : path ≠ []) (n : Int) : (int n).readAt path = null := by
  cases path with
  | nil => exact absurd rfl h
  | cons key rest => simpa [derived?] using readAt_null rest

theorem readAt_of_at? {path : List String} {v x : Value} (h : v.at? path = some x) : v.readAt path = x := by
  induction path generalizing v with
  | nil =>
    rw [readAt_nil]
    exact Option.some.inj h
  | cons key rest ih =>
    obtain ⟨y, hy, hx⟩ := Option.bind_eq_some_iff.mp h
    cases v with
    | map entries =>
      have hd : (map entries).derived? key = some y := by
        have hg : Assoc.get? key entries = some y := hy
        simp [derived?, hg]
      rw [readAt_cons, hd]
      exact ih hx
    | _ => cases hy

theorem setPath_cons {new v : Value} {key : String} {rest : List String} {entries : List (String × Value)}
    (he : v.entries? = some entries) :
    setPath new (key :: rest) v =
      (setPath new rest ((Assoc.get? key entries).getD null)).map fun x => map (Assoc.put key x entries) := by
  simp only [setPath, store, he]
  rcases store new rest ((Assoc.get? key entries).getD null) with ⟨_ | _, slot⟩ <;> rfl

theorem setPath_blocked {new v : Value} {key : String} {rest : List String} (he : v.entries? = none) :
    setPath new (key :: rest) v = .error ⟨key, v⟩ := by
  simp only [setPath, store, he]
  rfl

/-- A nested write that goes through, from the outermost map on. -/
theorem setPath_cons_ok {new v w : Value} {key : String} {rest : List String}
    (h : setPath new (key :: rest) v = .ok w) :
    ∃ entries inner, v.entries? = some entries ∧
      setPath new rest ((Assoc.get? key entries).getD null) = .ok inner ∧
      w = map (Assoc.put key inner entries) := by
  rcases he : v.entries? with _ | entries
  · rw [setPath_blocked he] at h
    cases h
  rw [setPath_cons he] at h
  rcases hi : setPath new rest ((Assoc.get? key entries).getD null) with e | inner <;> rw [hi] at h
  · cases h
  · cases h
    exact ⟨entries, inner, rfl, hi, rfl⟩

theorem setPath_ok_iff (new : Value) (path : List String) (v : Value) :
    (∃ w, setPath new path v = .ok w) ↔ v.isOpen path = true := by
  induction path generalizing v with
  | nil => exact ⟨fun _ => rfl, fun _ => ⟨new, rfl⟩⟩
  | cons key rest ih =>
    rcases he : v.entries? with _ | entries
    · simp [setPath_blocked he, isOpen, he]
    · rw [setPath_cons he]
      simp only [isOpen, he, ← ih]
      constructor
      · rintro ⟨w, hw⟩
        rcases hi : setPath new rest ((Assoc.get? key entries).getD null) with e | inner <;> rw [hi] at hw
        · cases hw
        · exact ⟨inner, rfl⟩
      · rintro ⟨inner, hi⟩
        exact ⟨_, by rw [hi]; rfl⟩

theorem at?_setPath {new v w : Value} {path : List String} (h : setPath new path v = .ok w) :
    w.at? path = some new := by
  induction path generalizing v w with
  | nil =>
    cases h
    rfl
  | cons key rest ih =>
    obtain ⟨entries, inner, -, hi, rfl⟩ := setPath_cons_ok h
    simp [at?, get?, ih hi]

/-- Neither path goes on from the other. -/
def Apart (p q : List String) : Prop := ¬ p <+: q ∧ ¬ q <+: p

theorem Apart.tail {key : String} {p q : List String} (h : Apart (key :: p) (key :: q)) : Apart p q :=
  ⟨fun hp => h.1 (List.cons_prefix_cons.mpr ⟨rfl, hp⟩), fun hq => h.2 (List.cons_prefix_cons.mpr ⟨rfl, hq⟩)⟩

theorem at?_null {path : List String} (h : path ≠ []) : null.at? path = none := by
  cases path with
  | nil => exact absurd rfl h
  | cons key rest => rfl

/-- Behind the keys of a map, or of a null in its place. -/
theorem at?_cons_of_entries {v : Value} {entries : List (String × Value)} (he : v.entries? = some entries)
    (key : String) (rest : List String) : v.at? (key :: rest) = (Assoc.get? key entries).bind (at? rest) := by
  cases v with
  | null =>
    cases he
    rfl
  | map es =>
    cases he
    rfl
  | _ => cases he

/-- A write leaves what other paths lead to. -/
theorem at?_setPath_apart {new v w : Value} {p q : List String} (h : setPath new p v = .ok w) (hpq : Apart p q) :
    w.at? q = v.at? q := by
  induction p generalizing q v w with
  | nil => exact absurd List.nil_prefix hpq.1
  | cons key rest ih =>
    cases q with
    | nil => exact absurd List.nil_prefix hpq.2
    | cons key' q =>
      obtain ⟨entries, inner, he, hi, rfl⟩ := setPath_cons_ok h
      rw [at?_cons_of_entries he, at?_cons_of_entries rfl]
      by_cases hk : key' = key
      · subst hk
        have hinner : inner.at? q = ((Assoc.get? key' entries).getD null).at? q := ih hi hpq.tail
        rw [Assoc.get?_put_self, Option.bind_some, hinner]
        rcases Assoc.get? key' entries with _ | y
        · exact at?_null fun hq => hpq.tail.2 (hq ▸ List.nil_prefix)
        · rfl
      · rw [Assoc.get?_put_of_ne hk]

/-- A write along `q` can be seen at the end of `p`: one path goes on from the other, or `p` counts
    the entries of a map that `q` goes on from. -/
def Touches (q p : List String) : Prop := ¬ Apart q p ∨ ∃ d, p = d ++ ["count"] ∧ d <+: q

theorem not_touches_tail {key : String} {q p : List String} (h : ¬ Touches (key :: q) (key :: p)) :
    ¬ Touches q p := by
  rintro (hap | ⟨d, rfl, hd⟩)
  · exact h (.inl fun h' => hap h'.tail)
  · exact h (.inr ⟨key :: d, rfl, List.cons_prefix_cons.mpr ⟨rfl, hd⟩⟩)

theorem not_touches_apart {q p : List String} (h : ¬ Touches q p) : Apart q p :=
  Classical.byContradiction fun hn => h (.inl hn)

/-- The entries at other keys, and the count of entries as far as it is no more than counted. -/
theorem readAt_put {key key' : String} {x : Value} {entries : List (String × Value)} {p : List String}
    (hne : key' ≠ key) (hc : key' = "count" → p ≠ []) :
    (map (Assoc.put key x entries)).readAt (key' :: p) = (map entries).readAt (key' :: p) := by
  rw [readAt_cons, readAt_cons, derived?, derived?, Assoc.get?_put_of_ne hne]
  rcases Assoc.get? key' entries with _ | y
  · dsimp only
    split
    · rename_i hk
      simp [readAt_int (hc hk)]
    · rfl
  · rfl

theorem readAt_setPath {new v w : Value} {q p : List String} (h : setPath new q v = .ok w)
    (hpq : ¬ Touches q p) : w.readAt p = v.readAt p := by
  induction q generalizing p v w with
  | nil => exact absurd List.nil_prefix (not_touches_apart hpq).1
  | cons key rest ih =>
    cases p with
    | nil => exact absurd List.nil_prefix (not_touches_apart hpq).2
    | cons key' p =>
      obtain ⟨entries, inner, he, hi, rfl⟩ := setPath_cons_ok h
      by_cases hk : key' = key
      · subst hk
        have hp : p ≠ [] := fun hp => (not_touches_tail hpq) (.inl fun hap => hap.2 (hp ▸ List.nil_prefix))
        have hinner := ih hi (not_touches_tail hpq)
        have hself : (map (Assoc.put key' inner entries)).derived? key' = some inner := by simp [derived?]
        rw [readAt_cons, hself, Option.getD_some, hinner, readAt_cons]
        cases v with
        | null =>
          cases he
          rfl
        | map es =>
          cases he
          rw [derived?]
          rcases Assoc.get? key' entries with _ | y
          · dsimp only [Option.getD_none]
            split
            · simp [readAt_null, readAt_int hp]
            · rfl
          · rfl
        | _ => cases he
      · have hc : key' = "count" → p ≠ [] := by
          rintro rfl rfl
          exact hpq (.inr ⟨[], rfl, List.nil_prefix⟩)
        rw [readAt_put hk hc]
        cases v with
        | null =>
          cases he
          have hnone : (map []).derived? key' = if key' = "count" then some (int 0) else none := rfl
          rw [readAt_cons, hnone, readAt_null]
          split
          · rename_i hcount
            simp [readAt_int (hc hcount)]
          · simp [readAt_null]
        | map es =>
          cases he
          rfl
        | _ => cases he

theorem isOpen_setPath {new v w : Value} {path : List String} (h : setPath new path v = .ok w) :
    w.isOpen path = true := by
  induction path generalizing v w with
  | nil => rfl
  | cons key rest ih =>
    obtain ⟨entries, inner, -, hi, rfl⟩ := setPath_cons_ok h
    simp [isOpen, entries?, ih hi]

theorem isOpen_setPath_apart {new v w : Value} {p q : List String} (h : setPath new p v = .ok w)
    (hpq : Apart p q) : w.isOpen q = v.isOpen q := by
  induction p generalizing q v w with
  | nil => exact absurd List.nil_prefix hpq.1
  | cons key rest ih =>
    cases q with
    | nil => rfl
    | cons key' q =>
      obtain ⟨entries, inner, he, hi, rfl⟩ := setPath_cons_ok h
      have hw : (map (Assoc.put key inner entries)).entries? = some (Assoc.put key inner entries) := rfl
      simp only [isOpen, he, hw]
      by_cases hk : key' = key
      · subst hk
        simpa using ih hi hpq.tail
      · rw [Assoc.get?_put_of_ne hk]

end Value

/-! ## Components -/

variable {σ : Type} [Component σ]

/-- Components take whatever they are given, and give it back; their other keys stay. -/
structure Stores (σ : Type) [Component σ] : Prop where
  takes : ∀ (s : σ) (key : String) (v : Value), ∃ t, Component.take s key v = .ok t
  value?_self : ∀ {s t : σ} {key : String} {v : Value},
    Component.take s key v = .ok t → Component.value? t key = some v
  value?_other : ∀ {s t : σ} {key key' : String} {v : Value},
    Component.take s key v = .ok t → key' ≠ key → Component.value? t key' = Component.value? s key'

namespace KeyPath

/-- The value of the first key. -/
def root (p : KeyPath) (s : σ) : Value := (Component.value? s p.first).getD .null

/-- `v` stands at the end of the path, each key of which is entered where it leads to. -/
def Holds (p : KeyPath) (s : σ) (v : Value) : Prop :=
  (Component.value? s p.first).bind (Value.at? p.rest) = some v

def isOpen (p : KeyPath) (s : σ) : Bool := (p.root s).isOpen p.rest

def Apart (p q : KeyPath) : Prop := Value.Apart p.segments q.segments

/-- A write through `q` can be seen by who reads `p`. -/
def Touches (q p : KeyPath) : Prop :=
  ¬ q.Apart p ∨ ∃ d, p.rest = d ++ ["count"] ∧ p.first :: d <+: q.segments

theorem Apart.symm {p q : KeyPath} (h : p.Apart q) : q.Apart p := ⟨h.2, h.1⟩

theorem Apart.rest {p q : KeyPath} (h : p.Apart q) (hf : q.first = p.first) : Value.Apart p.rest q.rest := by
  have h' : Value.Apart (p.first :: p.rest) (p.first :: q.rest) := by
    rw [← hf]
    rw [Apart, segments, segments, hf] at h
    rwa [hf]
  exact h'.tail

theorem Holds.valueIn {p : KeyPath} {s : σ} {v : Value} (h : p.Holds s v) : p.valueIn s = v := by
  obtain ⟨x, hx, hv⟩ := Option.bind_eq_some_iff.mp h
  rw [KeyPath.valueIn, hx]
  exact Value.readAt_of_at? hv

/-- The value for the first key is the old one with the new one in its place. -/
theorem rootFor_eq (p : KeyPath) (v : Value) (s : σ) :
    p.rootFor v s = (Value.setPath v p.rest (p.root s)).mapError (.path p) := by
  unfold rootFor
  cases hr : p.rest with
  | nil => rfl
  | cons key rest =>
    simp only [List.isEmpty_cons, Bool.false_eq_true, if_false]
    show _ = Except.mapError _ (Value.setPath v (key :: rest) ((Component.value? s p.first).getD .null))
    cases Value.setPath v (key :: rest) ((Component.value? s p.first).getD .null) <;> rfl

theorem setIn_eq_ok {p : KeyPath} {v : Value} {s t : σ} : p.setIn v s = .ok t ↔
    ∃ root, p.rootFor v s = .ok root ∧ Component.take s p.first root = .ok t := by
  unfold setIn
  rcases p.rootFor v s with e | root
  · exact ⟨nofun, nofun⟩
  · exact ⟨fun h => ⟨root, rfl, h⟩, fun ⟨_, hr, h⟩ => by cases hr; exact h⟩

theorem setIn_ok {p : KeyPath} {v : Value} {s t : σ} (h : p.setIn v s = .ok t) :
    ∃ root, Value.setPath v p.rest (p.root s) = .ok root ∧ Component.take s p.first root = .ok t := by
  rw [setIn, rootFor_eq] at h
  rcases hr : Value.setPath v p.rest (p.root s) with e | root <;> rw [hr] at h
  · cases h
  · exact ⟨root, rfl, h⟩

theorem isOpen_of_setIn {p : KeyPath} {v : Value} {s t : σ} (h : p.setIn v s = .ok t) : p.isOpen s = true := by
  obtain ⟨root, hr, -⟩ := setIn_ok h
  exact (Value.setPath_ok_iff v p.rest (p.root s)).mp ⟨root, hr⟩

variable (hs : Stores σ)
include hs

theorem setIn_of_isOpen {p : KeyPath} {s : σ} (h : p.isOpen s = true) (v : Value) :
    ∃ t, p.setIn v s = .ok t := by
  obtain ⟨root, hr⟩ := (Value.setPath_ok_iff v p.rest (p.root s)).mpr h
  obtain ⟨t, ht⟩ := hs.takes s p.first root
  exact ⟨t, by rw [setIn, rootFor_eq, hr]; exact ht⟩

theorem holds_setIn {p : KeyPath} {v : Value} {s t : σ} (h : p.setIn v s = .ok t) : p.Holds t v := by
  obtain ⟨root, hr, ht⟩ := setIn_ok h
  rw [Holds, hs.value?_self ht]
  exact Value.at?_setPath hr

theorem holds_setIn_apart {p q : KeyPath} {v x : Value} {s t : σ} (h : p.setIn v s = .ok t)
    (hx : q.Holds s x) (hpq : p.Apart q) : q.Holds t x := by
  obtain ⟨root, hr, ht⟩ := setIn_ok h
  by_cases hf : q.first = p.first
  · obtain ⟨y, hy, hx⟩ := Option.bind_eq_some_iff.mp hx
    rw [Holds, hf, hs.value?_self ht]
    have hroot : p.root s = y := by rw [KeyPath.root, ← hf, hy]; rfl
    rw [hroot] at hr
    rw [Option.bind_some, Value.at?_setPath_apart hr (hpq.rest hf)]
    exact hx
  · rw [Holds, hs.value?_other ht hf]
    exact hx

theorem valueIn_setIn {p : KeyPath} {v : Value} {s t : σ} (h : p.setIn v s = .ok t) : p.valueIn t = v :=
  (holds_setIn hs h).valueIn

/-- What is read elsewhere stays. -/
theorem valueIn_setIn_untouched {q p : KeyPath} {v : Value} {s t : σ} (h : q.setIn v s = .ok t)
    (hpq : ¬ q.Touches p) : p.valueIn t = p.valueIn s := by
  obtain ⟨root, hr, ht⟩ := setIn_ok h
  show (p.root t).readAt p.rest = (p.root s).readAt p.rest
  by_cases hf : p.first = q.first
  · have hroot : p.root s = q.root s := by rw [KeyPath.root, KeyPath.root, hf]
    rw [KeyPath.root, hf, hs.value?_self ht, Option.getD_some, hroot]
    refine Value.readAt_setPath hr ?_
    rintro (hap | ⟨d, hd, hdq⟩)
    · refine hpq (.inl fun h' => hap (h'.rest hf))
    · exact hpq (.inr ⟨d, hd, by rw [hf]; exact List.cons_prefix_cons.mpr ⟨rfl, hdq⟩⟩)
  · rw [KeyPath.root, KeyPath.root, hs.value?_other ht hf]

theorem isOpen_setIn {p : KeyPath} {v : Value} {s t : σ} (h : p.setIn v s = .ok t) : p.isOpen t = true := by
  obtain ⟨root, hr, ht⟩ := setIn_ok h
  rw [isOpen, KeyPath.root, hs.value?_self ht]
  exact Value.isOpen_setPath hr

theorem isOpen_setIn_apart {p q : KeyPath} {v : Value} {s t : σ} (h : p.setIn v s = .ok t)
    (hpq : p.Apart q) : q.isOpen t = q.isOpen s := by
  obtain ⟨root, hr, ht⟩ := setIn_ok h
  by_cases hf : q.first = p.first
  · rw [isOpen, isOpen, KeyPath.root, KeyPath.root, hf, hs.value?_self ht]
    exact Value.isOpen_setPath_apart hr (hpq.rest hf)
  · rw [isOpen, isOpen, KeyPath.root, KeyPath.root, hs.value?_other ht hf]

end KeyPath

/-! ## A component that stores -/

/-- A component that takes down what it is given. -/
structure Notes where
  entries : List (String × Value)

instance : Component Notes where
  name _ := "Notes"
  value? s key := Assoc.get? key s.entries
  take s key v := .ok ⟨Assoc.put key v s.entries⟩
  perform s _ := (.ok .stay, s)

def Notes.registry (ds : List (Definition Notes)) : Registry Notes :=
  { types := ds.foldl (fun types d => Assoc.put d.name (.component d) types) (@Registry.builtin Notes).types }

theorem Notes.stores : Stores Notes where
  takes _ _ _ := ⟨_, rfl⟩
  value?_self h := by
    cases h
    exact Assoc.get?_put_self ..
  value?_other h hk := by
    cases h
    exact Assoc.get?_put_of_ne hk ..

end PageServer
