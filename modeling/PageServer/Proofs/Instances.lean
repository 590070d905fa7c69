/-
  PageServer.Proofs.Instances — no traversal loses a component.

  A component in use is found from the page by the keys of the components on the way
  (`Instance.find?`). While the traversal is in a template, the components on the stack are out of
  those around them; `Scene.find?` looks through the stack as if each were in its place. Seen so,
  to push, to pop and to put back are all the same change: what is found below one place is
  replaced (`graft`). Between the ends of a traversal everything that was found is found again,
  with a state that it became by taking values and performing actions, and what is new was made
  where a use of a component was visited, under the element id of that use (`Grows`).

  Together with `Returns` this says how a traversal ends, well or not
  (`walkPage_loses_nothing`). The mark that one is inside of a form is the one thing that nested
  forms can spoil.
-/

import PageServer.Proofs.Visitwise

namespace PageServer

variable {σ : Type}

/-! ## Components by their keys -/

/-- What is found at each place, by the keys on the way to it: a component of this definition, in
    this state. -/
abbrev View (σ : Type) := List String → Option (String × σ)

namespace Instance

def find? (i : Instance σ) : View σ
  | [] => some (i.name, i.state)
  | key :: keys => (i.child? key).bind (·.find? keys)

@[simp] theorem find?_nil (i : Instance σ) : i.find? [] = some (i.name, i.state) := rfl

theorem find?_cons (i : Instance σ) (key : String) (keys : List String) :
    i.find? (key :: keys) = (i.child? key).bind (·.find? keys) := rfl

theorem child?_withoutChild_self (i : Instance σ) (key : String) : (i.withoutChild key).child? key = none := by
  unfold child? withoutChild
  refine List.lookup_eq_none_iff.mpr fun e he => ?_
  have hne := (List.mem_filter.mp he).2
  simp only [bne_iff_ne] at hne ⊢
  exact hne.symm

theorem child?_withoutChild_of_ne (i : Instance σ) {key other : String} (h : other ≠ key) :
    (i.withoutChild key).child? other = i.child? other := by
  show (i.children.filter (·.1 != key)).lookup other = i.children.lookup other
  induction i.children with
  | nil => rfl
  | cons e rest ih =>
    obtain ⟨k, c⟩ := e
    by_cases hk : k = key
    · have hother : (other == k) = false := by simpa [hk] using h
      simp only [List.filter_cons, hk, bne_self_eq_false, Bool.false_eq_true, if_false, ih]
      rw [← hk, List.lookup_cons, hother]
    · simp only [List.filter_cons, bne_iff_ne, ne_eq, hk, not_false_eq_true, if_true, List.lookup_cons, ih]

theorem child?_withChild_self (i : Instance σ) (key : String) (c : Instance σ) :
    (i.withChild key c).child? key = some c := by
  have hnone := i.child?_withoutChild_self key
  unfold child? at hnone ⊢
  simp only [withChild, List.lookup_append, hnone]
  simp

theorem child?_withChild_of_ne (i : Instance σ) {key other : String} (h : other ≠ key) (c : Instance σ) :
    (i.withChild key c).child? other = i.child? other := by
  have hkeep := i.child?_withoutChild_of_ne h
  unfold child? at hkeep ⊢
  have hother : (other == key) = false := by simpa using h
  simp only [withChild, List.lookup_append, hkeep, List.lookup_cons, hother, List.lookup_nil, Option.or_none]

end Instance

/-! ## Looking through the stack -/

/-- The view `V`, but with `W` from the place `p` on. -/
def graft (V : View σ) (p : List String) (W : View σ) : View σ :=
  fun q => if p <+: q then W (q.drop p.length) else V q

theorem graft_at (V : View σ) (p : List String) (W : View σ) (q : List String) : graft V p W (p ++ q) = W q := by
  simp [graft]

theorem graft_off (V : View σ) {p q : List String} (W : View σ) (h : ¬ p <+: q) : graft V p W q = V q := if_neg h

theorem graft_graft (V : View σ) (p : List String) (W W' : View σ) : graft (graft V p W) p W' = graft V p W' := by
  funext q
  unfold graft
  split <;> rfl

theorem graft_self {V W : View σ} {p : List String} (h : ∀ q, V (p ++ q) = W q) : graft V p W = V := by
  funext q
  by_cases hq : p <+: q
  · obtain ⟨q, rfl⟩ := hq
    rw [graft_at, h]
  · exact graft_off V W hq

/-- The keys from the page to the innermost component. -/
def keysOf (frames : List (Frame σ)) : List String := (frames.map (·.key)).reverse

theorem keysOf_cons (f : Frame σ) (rest : List (Frame σ)) : keysOf (f :: rest) = keysOf rest ++ [f.key] := by
  simp [keysOf]

def findThrough (page : Instance σ) : List (Frame σ) → View σ
  | [] => page.find?
  | f :: rest => graft (findThrough page rest) (keysOf (f :: rest)) f.inner.find?

namespace Scene

/-- The keys from the page to the current component. -/
def keys (s : Scene σ) : List String := keysOf s.frames

/-- What is found from the page on, as if the components on the stack were in their places. -/
def find? (s : Scene σ) : View σ := findThrough s.page s.frames

/-- What is found from the current component on is found in it. -/
theorem find?_keys_append (s : Scene σ) (q : List String) : s.find? (s.keys ++ q) = s.current.find? q := by
  unfold find? keys current
  cases s.frames with
  | nil => rfl
  | cons f rest => exact graft_at _ _ _ _

theorem keys_withCurrent (s : Scene σ) (i : Instance σ) : (s.withCurrent i).keys = s.keys := by
  unfold withCurrent
  rcases h : s.frames with _ | ⟨f, rest⟩ <;> simp [keys, h, keysOf]

/-- Another current component changes what is found from it on. -/
theorem find?_withCurrent (s : Scene σ) (i : Instance σ) :
    (s.withCurrent i).find? = graft s.find? s.keys i.find? := by
  unfold withCurrent find? keys
  rcases h : s.frames with _ | ⟨f, rest⟩
  · funext q
    simp [findThrough, graft, keysOf]
  · have hkeys : keysOf ({ f with inner := i } :: rest) = keysOf (f :: rest) := by simp [keysOf]
    simp only [findThrough, hkeys, graft_graft]

theorem find?_putChild (s : Scene σ) (key : String) (c : Instance σ) :
    (Pass.putChild key c s).find? = graft s.find? (s.keys ++ [key]) c.find? := by
  rw [Pass.putChild, find?_withCurrent]
  funext q
  by_cases hq : s.keys <+: q
  · obtain ⟨q, rfl⟩ := hq
    rw [graft_at]
    cases q with
    | nil =>
      have hoff : ¬ s.keys ++ [key] <+: s.keys ++ [] := fun h => absurd h.length_le (by simp)
      rw [graft_off _ _ hoff, find?_keys_append]
      rfl
    | cons k q =>
      rw [Instance.find?_cons]
      by_cases hk : k = key
      · subst hk
        rw [Instance.child?_withChild_self, show s.keys ++ k :: q = (s.keys ++ [k]) ++ q by simp, graft_at]
        rfl
      · have hoff : ¬ s.keys ++ [key] <+: s.keys ++ k :: q := by
          rw [List.prefix_append_right_inj]
          simp [Ne.symm hk]
        rw [Instance.child?_withChild_of_ne _ hk, graft_off _ _ hoff, find?_keys_append]
        rfl
  · have hoff : ¬ s.keys ++ [key] <+: q := fun h => hq ((List.prefix_append _ _).trans h)
    rw [graft_off _ _ hq, graft_off _ _ hoff]

theorem find?_pushed (s : Scene σ) (key : String) (c : Instance σ) (content : Option Element) :
    (s.pushed key c content).find? = graft (s.without key).find? (s.keys ++ [key]) c.find? := by
  have hkeys : keysOf (⟨key, c, content⟩ :: (s.without key).frames) = s.keys ++ [key] := by
    rw [keysOf_cons]
    exact congrArg (· ++ [key]) (s.keys_withCurrent _)
  show findThrough (s.without key).page (⟨key, c, content⟩ :: (s.without key).frames) = _
  rw [findThrough, hkeys]
  rfl

/-- Without a component nothing is found where it was; elsewhere nothing changes. -/
theorem find?_without (s : Scene σ) (key : String) {q : List String} (h : ¬ s.keys ++ [key] <+: q) :
    (s.without key).find? q = s.find? q := by
  rw [without, find?_withCurrent]
  by_cases hq : s.keys <+: q
  · obtain ⟨q, rfl⟩ := hq
    rw [graft_at, find?_keys_append]
    cases q with
    | nil => rfl
    | cons k q =>
      have hk : k ≠ key := by
        rintro rfl
        exact h ⟨q, by simp⟩
      rw [Instance.find?_cons, Instance.child?_withoutChild_of_ne _ hk]
      rfl
  · exact graft_off _ _ hq

end Scene

/-! ## What becomes of components -/

variable [Component σ]

/-- What a component may become: it takes values and performs actions. -/
inductive Becomes : σ → σ → Prop
  | refl (x : σ) : Becomes x x
  | take {x y z : σ} (key : String) (v : Value) : Becomes x y → Component.take y key v = .ok z → Becomes x z
  | perform {x y : σ} (action : String) : Becomes x y → Becomes x (Component.perform y action).2

theorem Becomes.trans {x y z : σ} (h : Becomes x y) (h' : Becomes y z) : Becomes x z := by
  induction h' with
  | refl => exact h
  | take key v _ ht ih => exact .take key v ih ht
  | perform action _ ih => exact .perform action ih

/-- Found later, it is the same component. -/
def Persists (a b : String × σ) : Prop := b.1 = a.1 ∧ Becomes a.2 b.2

theorem Persists.refl (a : String × σ) : Persists a a := ⟨rfl, .refl _⟩

theorem Persists.trans {a b c : String × σ} (h : Persists a b) (h' : Persists b c) : Persists a c :=
  ⟨h'.1.trans h.1, h.2.trans h'.2⟩

/-- What may come of a place: nothing, a component that is made and that `N` allows for, or the one
    that was there. No component goes. -/
inductive Later (N : String × σ → Prop) : Option (String × σ) → Option (String × σ) → Prop
  | nothing : Later N none none
  | made {b : String × σ} : N b → Later N none (some b)
  | kept {a b : String × σ} : Persists a b → Later N (some a) (some b)

theorem Later.refl (N : String × σ → Prop) (x : Option (String × σ)) : Later N x x := by
  cases x with
  | none => exact .nothing
  | some a => exact .kept (.refl a)

theorem Later.trans {N : String × σ → Prop} (hN : ∀ a b, N a → Persists a b → N b) {x y z : Option (String × σ)}
    (h : Later N x y) (h' : Later N y z) : Later N x z := by
  cases h with
  | nothing => exact h'
  | made hb =>
    cases h' with
    | kept hbc => exact .made (hN _ _ hb hbc)
  | kept hab =>
    cases h' with
    | kept hbc => exact .kept (hab.trans hbc)

theorem Later.imp {N N' : String × σ → Prop} (hN : ∀ b, N b → N' b) {x y : Option (String × σ)} (h : Later N x y) :
    Later N' x y := by
  cases h with
  | nothing => exact .nothing
  | made hb => exact .made (hN _ hb)
  | kept hab => exact .kept hab

theorem Later.of_some {N : String × σ → Prop} {name : String} {x : σ} {o : Option (String × σ)}
    (h : Later N (some (name, x)) o) : ∃ y, o = some (name, y) ∧ Becomes x y := by
  cases h with
  | @kept _ b hab =>
    obtain ⟨name', y⟩ := b
    obtain ⟨rfl, hy⟩ := hab
    exact ⟨y, rfl, hy⟩

theorem Later.of_none {N : String × σ → Prop} {b : String × σ} (h : Later N none (some b)) : N b := by
  cases h with
  | made hb => exact hb

def Grows (N : List String → String × σ → Prop) (V V' : View σ) : Prop := ∀ q, Later (N q) (V q) (V' q)

namespace Grows

variable {N : List String → String × σ → Prop} {V V' V'' W W' : View σ}

theorem refl (V : View σ) : Grows N V V := fun q => .refl (N q) (V q)

theorem trans (hN : ∀ q a b, N q a → Persists a b → N q b) (h : Grows N V V') (h' : Grows N V' V'') : Grows N V V'' :=
  fun q => (h q).trans (hN q) (h' q)

/-- What grows from a place on and elsewhere grows as a whole. -/
theorem graft (p : List String) (hoff : ∀ q, ¬ p <+: q → Later (N q) (V q) (V' q))
    (hW : Grows (fun q => N (p ++ q)) W W') : Grows N (graft V p W) (graft V' p W') := by
  intro q
  by_cases hq : p <+: q
  · obtain ⟨q, rfl⟩ := hq
    rw [graft_at, graft_at]
    exact hW q
  · rw [graft_off _ _ hq, graft_off _ _ hq]
    exact hoff q hq

/-- What grows from a place on, with nothing changed elsewhere. -/
theorem below (p : List String) (hV : ∀ q, V (p ++ q) = W q) (hoff : ∀ q, ¬ p <+: q → V' q = V q)
    (hW : Grows (fun q => N (p ++ q)) W W') : Grows N V (PageServer.graft V' p W') := by
  have h : Grows N (PageServer.graft V p W) (PageServer.graft V' p W') :=
    graft p (fun q hq => by rw [hoff q hq]; exact .refl _ _) hW
  rwa [graft_self hV] at h

end Grows

/-! ## Steps -/

/-- The stack leads to the same place, and no component is lost. -/
structure Tended (N : List String → String × σ → Prop) (s t : Scene σ) : Prop where
  keys : t.keys = s.keys
  grows : Grows N s.find? t.find?

namespace Tended

variable {N : List String → String × σ → Prop} {s t u : Scene σ}

theorem refl (s : Scene σ) : Tended N s s := ⟨rfl, .refl _⟩

theorem trans (hN : ∀ q a b, N q a → Persists a b → N q b) (h : Tended N s t) (h' : Tended N t u) : Tended N s u :=
  ⟨h'.keys.trans h.keys, h.grows.trans hN h'.grows⟩

/-- The current component has become another state of itself. -/
theorem withState (s : Scene σ) {x : σ} (h : Becomes s.current.state x) : Tended N s (s.withState x) := by
  refine ⟨s.keys_withCurrent _, ?_⟩
  rw [Scene.withState, Scene.find?_withCurrent]
  refine Grows.below s.keys s.find?_keys_append (fun _ _ => rfl) fun q => ?_
  cases q with
  | nil => exact .kept ⟨rfl, h⟩
  | cons key q => exact .refl _ _

/-- What is in a place of the current component is there as `c` now, in it or on the stack. -/
theorem comes (s : Scene σ) (key : String) {c : Instance σ}
    (h : Grows (fun q => N (s.keys ++ [key] ++ q)) (fun q => s.current.find? (key :: q)) c.find?) :
    Grows N s.find? (graft (s.without key).find? (s.keys ++ [key]) c.find?) := by
  refine Grows.below _ (fun q => ?_) (fun q hq => s.find?_without key hq) h
  rw [List.append_assoc, s.find?_keys_append]
  rfl

theorem putChild (s : Scene σ) (key : String) {c : Instance σ}
    (h : Grows (fun q => N (s.keys ++ [key] ++ q)) (fun q => s.current.find? (key :: q)) c.find?) :
    Tended N s (Pass.putChild key c (s.without key)) := by
  have hkeys : (s.without key).keys = s.keys := s.keys_withCurrent _
  refine ⟨(Scene.keys_withCurrent _ _).trans hkeys, ?_⟩
  rw [Scene.find?_putChild, hkeys]
  exact comes s key h

/-- A component was on the stack, all is as it should be while it was there, and it comes back. -/
theorem left {key : String} {c : Instance σ} {content : Option Element} {f : Frame σ} {rest : List (Frame σ)}
    (hN : ∀ q a b, N q a → Persists a b → N q b)
    (h : Grows (fun q => N (s.keys ++ [key] ++ q)) (fun q => s.current.find? (key :: q)) c.find?)
    (ht : Tended N (s.pushed key c content) t) (hf : t.frames = f :: rest)
    (hu : Tended N { t with frames := rest } u) : Tended N s (Pass.putChild f.key f.inner u) := by
  have hpushed : (s.pushed key c content).keys = s.keys ++ [key] := by
    rw [Scene.keys, Scene.pushed, keysOf_cons]
    exact congrArg (· ++ [key]) (s.keys_withCurrent _)
  have hkeys : keysOf rest ++ [f.key] = s.keys ++ [key] := by
    rw [← hpushed, ← ht.keys, Scene.keys, hf, keysOf_cons]
  have hrest : u.keys = keysOf rest := hu.keys
  have hplace : keysOf rest = s.keys := (List.append_inj' hkeys rfl).1
  refine ⟨(Scene.keys_withCurrent _ _).trans (hrest.trans hplace), ?_⟩
  have hcome : Grows N s.find? (s.pushed key c content).find? := by
    rw [Scene.find?_pushed]
    exact comes s key h
  have hthrough : t.find? = graft ({ t with frames := rest } : Scene σ).find? (keysOf rest ++ [f.key]) f.inner.find? := by
    rw [Scene.find?, hf, findThrough, keysOf_cons]
    rfl
  have hgo : Grows N t.find? (Pass.putChild f.key f.inner u).find? := by
    rw [hthrough, Scene.find?_putChild, hrest]
    exact .graft _ (fun q _ => hu.grows q) (.refl _)
  exact (hcome.trans hN ht.grows).trans hN hgo

/-- A component is off the stack for a while, and the others are as they should be. -/
theorem aside {f : Frame σ} {rest : List (Frame σ)} (hf : s.frames = f :: rest)
    (h : Tended N { s with frames := rest } t) : Tended N s { t with frames := f :: t.frames } := by
  have hrest : keysOf t.frames = keysOf rest := h.keys
  constructor
  · rw [Scene.keys, Scene.keys, hf, keysOf_cons, keysOf_cons, hrest]
  · rw [Scene.find?, Scene.find?, hf, findThrough, findThrough, keysOf_cons, keysOf_cons, hrest]
    exact .graft _ (fun q _ => h.grows q) (.refl _)

end Tended

/-- A component that takes values stays the one it is. -/
theorem receive_persists (hs : Helpers) (parent : σ) (bs : Bindings) (i : Instance σ) :
    let c := (Instance.receive hs parent bs i).1.2
    c.children = i.children ∧ Persists (i.name, i.state) (c.name, c.state) := by
  induction bs generalizing i with
  | nil => exact ⟨rfl, .refl _⟩
  | cons kb rest ih =>
    obtain ⟨key, b⟩ := kb
    simp only [Instance.receive]
    rcases b.valueIn hs parent with e | v
    · exact ⟨rfl, .refl _⟩
    dsimp only [Instance.set]
    rcases ht : Component.take i.state key v with e | x
    · exact ⟨rfl, .refl _⟩
    · obtain ⟨hc, hsame⟩ := ih { i with state := x }
      have hx : Becomes i.state x := .take key v (.refl i.state) ht
      have htaken : Persists (i.name, i.state) (i.name, x) := ⟨rfl, hx⟩
      exact ⟨hc, htaken.trans hsame⟩

/-! ## Traversals -/

/-- What is found at `keys` was made for a use of a component that the traversal from `v` came to,
    under the element id of that use. -/
inductive MadeFor (r : Registry σ) (phase : Phase) (v : Visit σ) : List String → String × σ → Prop
  | visited {π : Path} {u : Visit σ} {tag name : String} {bs : Bindings} {content : Option Element}
      {d : Definition σ} {b : String × σ} :
      v.at? r phase π = some u → u.element = .component tag name bs content →
      r.resolveComponent name = .ok d → Persists (d.name, d.initial) b →
      MadeFor r phase v (u.scene.keys ++ [u.scene.context.elementId.text]) b

variable {r : Registry σ} {phase : Phase}

theorem MadeFor.later {v : Visit σ} {q : List String} {a b : String × σ} (h : MadeFor r phase v q a)
    (hab : Persists a b) : MadeFor r phase v q b := by
  cases h with
  | visited hu he hd hsame => exact .visited hu he hd (hsame.trans hab)

/-- A component that has taken its values is the one in the place of the element, or a new one. -/
theorem MadeFor.received {v : Visit σ} {π : Path} {depth : Nat} {s : Scene σ} {tag name : String} {bs : Bindings}
    {content : Option Element} {d : Definition σ} {x : Except Failure Unit} {c : Instance σ} {es : List Event}
    (hu : v.at? r phase π = some ⟨depth, .component tag name bs content, s⟩)
    (hd : r.resolveComponent name = .ok d)
    (hc : Instance.receive r.helpers s.current.state bs (Pass.childAt d s) = ((x, c), es)) :
    Grows (fun q => MadeFor r phase v (s.keys ++ [s.context.elementId.text] ++ q))
      (fun q => s.current.find? (s.context.elementId.text :: q)) c.find? := by
  obtain ⟨hchildren, hsame⟩ := receive_persists r.helpers s.current.state bs (Pass.childAt d s)
  rw [hc] at hchildren hsame
  intro q
  show Later _ ((s.current.child? s.context.elementId.text).bind (·.find? q)) (c.find? q)
  unfold Pass.childAt at hchildren hsame
  rcases hold : s.current.child? s.context.elementId.text with _ | old <;> rw [hold] at hchildren hsame
  · cases q with
    | nil =>
      have hmade : MadeFor r phase v (s.keys ++ [s.context.elementId.text] ++ []) (c.name, c.state) := by
        rw [List.append_nil]
        exact .visited hu rfl hd hsame
      exact .made hmade
    | cons k q =>
      have hnone : c.find? (k :: q) = none := by
        rw [Instance.find?_cons, Instance.child?, hchildren]
        rfl
      rw [hnone]
      exact .nothing
  · cases q with
    | nil => exact .kept hsame
    | cons k q =>
      have hkeep : c.find? (k :: q) = old.find? (k :: q) := by
        rw [Instance.find?_cons, Instance.child?, hchildren]
        rfl
      rw [hkeep]
      exact .refl _ _

theorem tended_kept (v : Visit σ) :
    KeptAt r (fun u => ∃ π, v.at? r phase π = some u) (Tended (MadeFor r phase v)) where
  refl := .refl
  trans := .trans fun _ _ _ h hab => h.later hab
  sets s es _ := ⟨rfl, .refl _⟩
  takes s key x y ht := .withState s (.take key x (.refl _) ht)
  response s x := ⟨rfl, .refl _⟩
  url s := ⟨rfl, .refl _⟩
  performs s name :=
    have h : Tended (MadeFor r phase v) s (s.withState _) := .withState s (.perform name (.refl _))
    ⟨h.keys, h.grows⟩
  templates s name d _ := ⟨rfl, .refl _⟩
  next s := ⟨rfl, .refl _⟩
  level s t h := ⟨h.keys, h.grows⟩
  form _ s t _ _ _ h := ⟨h.keys, h.grows⟩
  container s id t h := ⟨h.keys, h.grows⟩
  refused depth s tag name bs content d e child es hE hd hr := by
    obtain ⟨π, hu⟩ := hE
    have hc := MadeFor.received hu hd hr
    have h := Tended.putChild ((s.compiled r d).addEvents es) s.context.elementId.text hc
    exact ⟨h.keys, h.grows⟩
  left depth s tag name bs content d child es t hE hd hr ht := by
    obtain ⟨π, hu⟩ := hE
    constructor
    · intro hnil
      have hkeys := ht.keys
      rw [Scene.keys, hnil] at hkeys
      simp [Scene.keys, Scene.pushed, keysOf] at hkeys
    · intro f rest hf u htu
      have hc := MadeFor.received hu hd hr
      have h := Tended.left (s := (s.compiled r d).addEvents es) (fun _ _ _ h hab => h.later hab) hc ht hf htu
      exact ⟨h.keys, h.grows⟩
  aside s f rest t hf h := h.aside hf

/-- Where no form is come to inside of a form, the mark of one is left as it was. -/
theorem inForm_kept : KeptAt r (fun u => u.element.isForm = true → u.scene.context.inForm = false)
    (fun s t => t.context.inForm = s.context.inForm) where
  refl s := rfl
  trans h h' := h'.trans h
  sets s es _ := rfl
  takes s key v x _ := by simp [Scene.withState]
  response s x := rfl
  url s := Context.url_inForm s.context
  performs s name := by simp [Scene.acted, Scene.withState]
  templates s name d _ := rfl
  next s := rfl
  level s t h := h
  form v s t hE hform hs h := by
    rw [hs, hE hform]
    rfl
  container s id t h := h
  refused depth s tag name bs content d e child es _ _ _ := by simp [Pass.putChild, Scene.without]
  left depth s tag name bs content d child es t _ _ _ ht := by
    have hpushed : (((s.compiled r d).addEvents es).pushed s.context.elementId.text child content).context =
        s.context := Scene.without_context _ _
    rw [hpushed] at ht
    refine ⟨fun _ => ht, fun f rest _ u hu => ?_⟩
    rw [Pass.putChild, Scene.withCurrent_context]
    exact hu.trans ht
  aside s f rest t hf h := h

/-- Every component in a page that is traversed is found again, and new ones were made for visits. -/
theorem walkPage_grows (r : Registry σ) (phase : Phase) {s : Scene σ} (hs : s.frames = []) :
    let t := ((Pass.walkPage r phase).on s).2
    t.frames = [] ∧
    Grows (fun keys b => ∃ v, pageVisit? r s = some v ∧ MadeFor r phase v keys b) s.page.find? t.page.find? := by
  intro t
  rcases hv : pageVisit? r s with _ | v
  · obtain ⟨e, c, ts, -, hrun⟩ := walkPage_of_no_pageVisit phase hv
    have ht : t = { s with context := c, templates := ts } := congrArg Prod.snd hrun
    rw [ht]
    exact ⟨hs, .refl _⟩
  · have ht : t = (v.run r phase).2 := congrArg Prod.snd (walkPage_of_pageVisit hv)
    obtain ⟨d, -, -, -, hscene⟩ := pageVisit?_eq_some.mp hv
    have htended : Tended (MadeFor r phase v) v.scene t := by
      rw [ht]
      exact (tended_kept v).run v fun π u hu => ⟨π, hu⟩
    have hframes : t.frames = [] := by
      have hkeys := htended.keys
      rw [hscene] at hkeys
      simpa [Scene.keys, Scene.compiled, hs, keysOf] using hkeys
    refine ⟨hframes, fun keys => ?_⟩
    have h := htended.grows keys
    have hstart : v.scene.find? = s.page.find? := by
      rw [hscene, Scene.find?]
      show findThrough s.page s.frames = _
      rw [hs]
      rfl
    rw [hstart, Scene.find?, hframes] at h
    exact h.imp fun b hb => ⟨v, rfl, hb⟩

/-- However a traversal of a page ends, it ends where it began: at the root, in no component but the
    page, in the same update containers, and in a form only if it began in one. If it comes to no form
    inside of a form, then exactly if it began in one. Every component in the page is still there
    under the same keys, and those that are new were made for uses of components that the traversal
    came to, each under the element id of its use. -/
theorem walkPage_loses_nothing (r : Registry σ) (phase : Phase) (c : Context) (templates : Templates)
    (page : Instance σ) (response : Http.Response) (events : List Event) :
    let s : Scene σ := ⟨c, templates, page, [], response, events⟩
    let t := ((Pass.walkPage r phase).on s).2
    (t.context.elementId = .root ∨ t.context = c) ∧
    t.context.containers = c.containers ∧
    t.frames = [] ∧
    (t.context.inForm = true → c.inForm = true) ∧
    ((∀ v π u, pageVisit? r s = some v → v.at? r phase π = some u →
        u.element.isForm = true → u.scene.context.inForm = false) → t.context.inForm = c.inForm) ∧
    (∀ keys name x, page.find? keys = some (name, x) →
      ∃ y, t.page.find? keys = some (name, y) ∧ Becomes x y) ∧
    ∀ keys name y, page.find? keys = none → t.page.find? keys = some (name, y) →
      ∃ v, pageVisit? r s = some v ∧ MadeFor r phase v keys (name, y) := by
  intro s t
  obtain ⟨hframes, hgrows⟩ := walkPage_grows r phase (s := s) rfl
  have hfound : ∀ keys name x, page.find? keys = some (name, x) →
      ∃ y, t.page.find? keys = some (name, y) ∧ Becomes x y := by
    intro keys name x hx
    have h := hgrows keys
    rw [show s.page.find? keys = _ from hx] at h
    exact h.of_some
  have hmade : ∀ keys name y, page.find? keys = none → t.page.find? keys = some (name, y) →
      ∃ v, pageVisit? r s = some v ∧ MadeFor r phase v keys (name, y) := by
    intro keys name y hnone hy
    have h := hgrows keys
    rw [show s.page.find? keys = _ from hnone, show Instance.find? _ keys = _ from hy] at h
    exact h.of_none
  rcases hv : pageVisit? r s with _ | v
  · obtain ⟨e, c', ts, hc', hrun⟩ := walkPage_of_no_pageVisit phase hv
    have ht : t = { s with context := c', templates := ts } := congrArg Prod.snd hrun
    have hfields : (c'.elementId = .root ∨ c' = c) ∧ c'.containers = c.containers ∧ c'.inForm = c.inForm := by
      rcases hc' with rfl | rfl
      · exact ⟨.inr rfl, rfl, rfl⟩
      · exact ⟨.inl rfl, rfl, rfl⟩
    have hcontext : t.context = c' := by rw [ht]
    rw [hv] at hmade
    rw [hcontext]
    exact ⟨hfields.1, hfields.2.1, hframes, fun h => hfields.2.2 ▸ h, fun _ => hfields.2.2, hfound, hmade⟩
  · have ht : t = (v.run r phase).2 := congrArg Prod.snd (walkPage_of_pageVisit hv)
    obtain ⟨d, -, -, -, hscene⟩ := pageVisit?_eq_some.mp hv
    have hcontext : v.scene.context = c.atRoot := by rw [hscene]; rfl
    have hreturns : Returns v.scene t := by
      rw [ht]
      exact returns r phase (v.depth + 1) v.element v.scene
    rw [hv] at hmade
    refine ⟨.inl ?_, ?_, hframes, fun h => ?_, fun hforms => ?_, hfound, hmade⟩
    · rw [hreturns.elementId, hcontext]
      rfl
    · rw [hreturns.containers, hcontext]
      rfl
    · have hbegan := hreturns.inForm h
      rw [hcontext] at hbegan
      exact hbegan
    · have hform : (v.run r phase).2.context.inForm = v.scene.context.inForm :=
        inForm_kept.run v fun π u hu => hforms v π u rfl hu
      rw [← ht, hcontext] at hform
      exact hform

end PageServer
