/-
  PageServer.Proofs.Partial — a request for one update container gets its part of the whole page.

  Of two requests that show the same page one asks for the container `X` alone. Both traversals do
  the same (`Mirrored`), so all there is to say is which of the output the second response gets:
  what the visits to the outermost containers with the id `X` write, in the order in which they come
  (`Pieces`). It is said of each visit by what is said of the visits its ways lead to (`filters`),
  and then of the page (`partial_update_is_the_page_filtered`).
-/

import Mathlib.Data.List.Nodup
import PageServer.Proofs.Addresses
import PageServer.Proofs.Mirrored

namespace PageServer

variable {σ : Type} [Component σ]

/-! ## Outermost containers -/

/-- The id of the update container that is visited. -/
def Visit.containerId? (r : Registry σ) (v : Visit σ) : Option String :=
  match v.element with
  | .control (.updateContainer id _) _ => (id.valueIn r.helpers v.scene.current.state).toOption.map Value.text
  | _ => none

/-- At the end of the path there is a container with the id `X`, and none on the way there. -/
structure Visit.Outermost (r : Registry σ) (X : String) (v : Visit σ) (π : Path) : Prop where
  container : ∃ u, v.at? r .render π = some u ∧ u.containerId? r = some X
  first : ∀ ρ τ u, π = ρ ++ τ → τ ≠ [] → v.at? r .render ρ = some u → u.containerId? r ≠ some X

/-- The path begins with the way `w` from `v` and leads to an outermost container from there. -/
def Visit.Beyond (r : Registry σ) (X : String) (v : Visit σ) (w : Way) (π : Path) : Prop :=
  ∃ u ρ, π = w :: ρ ∧ Part r .render v w u ∧ u.Outermost r X ρ

variable {r : Registry σ} {X : String} {v u : Visit σ} {w : Way} {π : Path}

theorem Visit.outermost_of_container (h : v.containerId? r = some X) : v.Outermost r X π ↔ π = [] := by
  constructor
  · intro hπ
    by_cases hnil : π = []
    · exact hnil
    · exact absurd h (hπ.first [] π v rfl hnil rfl)
  · rintro rfl
    refine ⟨⟨v, rfl, h⟩, fun ρ τ u hsplit hτ _ => ?_⟩
    exact absurd (List.append_eq_nil_iff.mp hsplit.symm).2 hτ

/-- Containers that are in no container at `v` are those beyond one of the ways. -/
theorem Visit.outermost_iff (h : v.containerId? r ≠ some X) : v.Outermost r X π ↔ ∃ w, v.Beyond r X w π := by
  constructor
  · rintro ⟨⟨x, hx, hX⟩, hfirst⟩
    cases π with
    | nil =>
      cases hx
      exact absurd hX h
    | cons w π =>
      obtain ⟨u, hu, hx⟩ := Visit.at?_cons.mp hx
      refine ⟨w, u, π, rfl, hu, ⟨x, hx, hX⟩, fun ρ τ y hsplit hτ hy => ?_⟩
      exact hfirst (w :: ρ) τ y (by rw [hsplit]; rfl) hτ (Visit.at?_cons.mpr ⟨u, hu, hy⟩)
  · rintro ⟨w, u, ρ, rfl, hu, ⟨x, hx, hX⟩, hfirst⟩
    refine ⟨⟨x, Visit.at?_cons.mpr ⟨u, hu, hx⟩, hX⟩, fun ρ' τ y hsplit hτ hy => ?_⟩
    cases ρ' with
    | nil =>
      cases hy
      exact h
    | cons w' ρ' =>
      rw [List.cons_append, List.cons.injEq] at hsplit
      obtain ⟨rfl, hsplit⟩ := hsplit
      obtain ⟨u', hu', hy⟩ := Visit.at?_cons.mp hy
      obtain rfl := hu.functional hu'
      exact hfirst ρ' τ y hsplit hτ hy

theorem Visit.beyond_of_part (hu : Part r .render v w u) :
    v.Beyond r X w π ↔ ∃ ρ, π = w :: ρ ∧ u.Outermost r X ρ := by
  constructor
  · rintro ⟨u', ρ, hπ, hu', ho⟩
    obtain rfl := hu.functional hu'
    exact ⟨ρ, hπ, ho⟩
  · rintro ⟨ρ, hπ, ho⟩
    exact ⟨u, ρ, hπ, hu, ho⟩

theorem Visit.not_beyond (h : ∀ u, ¬ Part r .render v w u) : ¬ v.Beyond r X w π := by
  rintro ⟨u, _, _, hu, _⟩
  exact h u hu

/-! ## Pieces of the output -/

/-- The output goes on from `a` to `b`, and `kept` is what the visits at the paths `πs` write on the
    way, one after the other. -/
inductive Pieces (r : Registry σ) (v : Visit σ) : ByteArray → List Path → ByteArray → ByteArray → Prop
  | gap {a b g : ByteArray} : b = a ++ g → Pieces r v a [] b .empty
  | piece {a b g out kept : ByteArray} {π : Path} {πs : List Path} {u : Visit σ} :
      v.at? r .render π = some u → u.scene.response.content = a ++ g →
      (u.run r .render).2.response.content = a ++ g ++ out →
      Pieces r v (a ++ g ++ out) πs b kept → Pieces r v a (π :: πs) b (out ++ kept)

namespace Pieces

theorem before {a b c k : ByteArray} {πs : List Path} (g : ByteArray) (hb : b = a ++ g) (h : Pieces r v b πs c k) :
    Pieces r v a πs c k := by
  cases h with
  | @gap _ _ g' hc => exact .gap (g := g ++ g') (by rw [hc, hb, ByteArray.append_assoc])
  | @piece _ _ g' out _ _ _ _ hu hs ht hrest =>
    have hassoc : b ++ g' = a ++ (g ++ g') := by rw [hb, ByteArray.append_assoc]
    rw [hassoc] at hs ht hrest
    exact .piece hu hs ht hrest

theorem append {a b c k k' : ByteArray} {πs ρs : List Path} (h : Pieces r v a πs b k) (h' : Pieces r v b ρs c k') :
    Pieces r v a (πs ++ ρs) c (k ++ k') := by
  induction h with
  | gap hb =>
    rw [ByteArray.empty_append]
    exact h'.before _ hb
  | piece hu hs ht _ ih =>
    rw [ByteArray.append_assoc]
    exact .piece hu hs ht (ih h')

theorem up (hu : Part r .render v w u) {a b k : ByteArray} {πs : List Path} (h : Pieces r u a πs b k) :
    Pieces r v a (πs.map (w :: ·)) b k := by
  induction h with
  | gap hb => exact .gap hb
  | piece hx hs ht _ ih => exact .piece (Visit.at?_cons.mpr ⟨u, hu, hx⟩) hs ht ih

end Pieces

/-- Between `s` and `t` the second response gets what the containers at the paths in `W` write. -/
structure Shows (r : Registry σ) (X : String) (v : Visit σ) (W : Path → Prop) (s : Scene σ) (x : Http.Response)
    (t : Scene σ) (y : Http.Response) : Prop where
  twin : Twin X t y
  containers : t.context.containers = s.context.containers
  pieces : ∃ πs kept, Pieces r v s.response.content πs t.response.content kept ∧ y.content = x.content ++ kept ∧
    πs.Nodup ∧ ∀ π, π ∈ πs ↔ W π

namespace Shows

variable {W W' : Path → Prop} {s t s' t' z : Scene σ} {x y a : Http.Response}

theorem of_gains (h : Gains True X s x t y) (hX : X ∉ s.context.containers) (hW : ∀ π, ¬ W π) :
    Shows r X v W s x t y := by
  obtain ⟨g, g', hg, hg', -, hout⟩ := h.grown
  refine ⟨h.twin, h.containers, [], .empty, .gap hg, ?_, .nil, fun π => ?_⟩
  · rw [hg', hout trivial hX]
  · simp [hW]

theorem trans (h : Shows r X v W s x t y) (h' : Shows r X v W' t y z a) (hdisjoint : ∀ π, W π → ¬ W' π) :
    Shows r X v (fun π => W π ∨ W' π) s x z a := by
  obtain ⟨πs, k, hp, hy, hnodup, hπs⟩ := h.pieces
  obtain ⟨ρs, k', hp', ha, hnodup', hρs⟩ := h'.pieces
  refine ⟨h'.twin, h'.containers.trans h.containers, πs ++ ρs, k ++ k', hp.append hp', ?_, ?_, fun π => ?_⟩
  · rw [ha, hy, ByteArray.append_assoc]
  · refine List.nodup_append.mpr ⟨hnodup, hnodup', ?_⟩
    rintro π hπ _ hρ rfl
    exact hdisjoint π ((hπs π).mp hπ) ((hρs π).mp hρ)
  · rw [List.mem_append, hπs, hρs]

theorem up (hu : Part r .render v w u) (h : Shows r X u (u.Outermost r X) s x t y) :
    Shows r X v (v.Beyond r X w) s x t y := by
  obtain ⟨πs, k, hp, hy, hnodup, hπs⟩ := h.pieces
  refine ⟨h.twin, h.containers, πs.map (w :: ·), k, hp.up hu, hy, hnodup.map List.cons_injective, fun π => ?_⟩
  rw [Visit.beyond_of_part hu, List.mem_map]
  constructor
  · rintro ⟨ρ, hρ, rfl⟩
    exact ⟨ρ, rfl, (hπs ρ).mp hρ⟩
  · rintro ⟨ρ, rfl, ho⟩
    exact ⟨ρ, (hπs ρ).mpr ho, rfl⟩

theorem congr (h : Shows r X v W s x t y) (hs : Unheard s' s) (ht : Unheard t t') (hW : ∀ π, W' π ↔ W π) :
    Shows r X v W' s' x t' y := by
  obtain ⟨πs, k, hp, hy, hnodup, hπs⟩ := h.pieces
  rw [← ht.response, hs.response] at hp
  exact ⟨h.twin.unheard ht, ht.containers.trans (h.containers.trans hs.containers), πs, k, hp, hy, hnodup,
    fun π => (hπs π).trans (hW π).symm⟩

end Shows

/-! ## Passes that show what they should -/

/-- If `p` ends well in `s`, then so it does for the second request, outside of `X`; and the second
    response gets what the containers at the paths in `W` write. -/
def Filters {α : Type} (r : Registry σ) (hs : Http.Headers) (X : String) (v : Visit σ) (W : Path → Prop)
    (p : Pass σ α) (s : Scene σ) : Prop :=
  ∀ x a t, Twin X s x → X ∉ s.context.containers → p.on s = (.ok a, t) →
    ∃ y, p.on (s.asked hs x) = (.ok a, t.asked hs y) ∧ Shows r X v W s x t y

namespace Filters

variable {hs : Http.Headers} {W W' : Path → Prop} {s : Scene σ} {α β : Type}

theorem own {p : Pass σ α} (h : p.Mirrored True hs X) (hW : ∀ π, ¬ W π) : Filters r hs X v W p s := by
  intro x a t ht hX hp
  obtain ⟨y, hy, hg⟩ := h s x ht
  rw [hp] at hy hg
  exact ⟨y, hy, .of_gains hg hX hW⟩

theorem bind {p : Pass σ α} {f : α → Pass σ β} (hp : Filters r hs X v W p s)
    (hf : ∀ a t, p.on s = (.ok a, t) → Filters r hs X v W' (f a) t) (hdisjoint : ∀ π, W π → ¬ W' π) :
    Filters r hs X v (fun π => W π ∨ W' π) (p >>= f) s := by
  intro x b z ht hX hb
  obtain ⟨a, t, ha, hb⟩ := Pass.on_bind_eq_ok.mp hb
  obtain ⟨y, hy, hshows⟩ := hp x a t ht hX ha
  obtain ⟨y', hy', hshows'⟩ := hf a t ha y b z hshows.twin (hshows.containers ▸ hX) hb
  exact ⟨y', Pass.on_bind_eq_ok.mpr ⟨a, _, hy, hy'⟩, hshows.trans hshows' hdisjoint⟩

theorem iff {p : Pass σ α} (h : Filters r hs X v W p s) (hW : ∀ π, W' π ↔ W π) : Filters r hs X v W' p s := by
  intro x a t ht hX hp
  obtain ⟨y, hy, hshows⟩ := h x a t ht hX hp
  exact ⟨y, hy, hshows.congr (.refl s) (.refl t) hW⟩

/-- The steps before a part are its element's own. -/
theorem after {p : Pass σ α} {f : α → Pass σ β} (hp : p.Mirrored True hs X)
    (hf : ∀ a t, p.on s = (.ok a, t) → Filters r hs X v W (f a) t) : Filters r hs X v W (p >>= f) s :=
  (bind (W := fun _ => False) (own hp fun _ => id) hf fun _ => False.elim).iff fun π => by simp

/-- The steps after a part are its element's own. -/
theorem followed {p : Pass σ α} {f : α → Pass σ β} (hp : Filters r hs X v W p s)
    (hf : ∀ a, (f a).Mirrored True hs X) : Filters r hs X v W (p >>= f) s :=
  (hp.bind (fun a t _ => own (W := fun _ => False) (hf a) fun _ => id) fun _ _ => id).iff fun π => by simp

/-- The first of the numbered parts from `i` on, and then the others. -/
theorem numbered {p : Pass σ α} {f : α → Pass σ β} {B : Nat → Path → Prop} {i : Nat} (hp : Filters r hs X v (B i) p s)
    (hf : ∀ a t, p.on s = (.ok a, t) → Filters r hs X v (fun π => ∃ j, i + 1 ≤ j ∧ B j π) (f a) t)
    (hB : ∀ π j, B i π → B j π → i = j) : Filters r hs X v (fun π => ∃ j, i ≤ j ∧ B j π) (p >>= f) s := by
  refine iff (hp.bind hf ?_) fun π => ?_
  · rintro π hi ⟨j, hj, hπ⟩
    have := hB π j hi hπ
    omega
  · constructor
    · rintro ⟨j, hj, hπ⟩
      by_cases hi : j = i
      · exact .inl (hi ▸ hπ)
      · exact .inr ⟨j, by omega, hπ⟩
    · rintro (hπ | ⟨j, hj, hπ⟩)
      · exact ⟨i, Nat.le_refl i, hπ⟩
      · exact ⟨j, by omega, hπ⟩

theorem part {p : Pass σ α} (hu : Part r .render v w u) (h : Filters r hs X u (u.Outermost r X) p s) :
    Filters r hs X v (v.Beyond r X w) p s := by
  intro x a t ht hX hp
  obtain ⟨y, hy, hshows⟩ := h x a t ht hX hp
  exact ⟨y, hy, hshows.up hu⟩

/-- A bracket of the context around a step. -/
theorem bracket {p : Pass σ α} (f g : Context → Context)
    (hf : ∀ c : Context, f (c.asked hs) = (f c).asked hs ∧ (f c).containers = c.containers ∧ (f c).request = c.request)
    (hg : ∀ c : Context, g (c.asked hs) = (g c).asked hs ∧ (g c).containers = c.containers ∧ (g c).request = c.request)
    (h : Filters r hs X v W p (s.mapContext f)) :
    Filters r hs X v W (do modify (·.mapContext f); Pass.ensuring p (·.mapContext g)) s := by
  intro x a t ht hX hp
  rw [Pass.on_bind, Pass.on_modify] at hp ⊢
  dsimp only at hp ⊢
  rw [Pass.on_ensuring] at hp ⊢
  rcases hrun : p.on (s.mapContext f) with ⟨e | b, z⟩ <;> rw [hrun] at hp <;> cases hp
  have hin : Unheard s (s.mapContext f) := ⟨rfl, (hf s.context).2.1, (hf s.context).2.2⟩
  have hX' : X ∉ (s.mapContext f).context.containers := by
    rw [hin.containers]
    exact hX
  obtain ⟨y, hy, hshows⟩ := h x a z (ht.unheard hin) hX' hrun
  refine ⟨y, ?_, hshows.congr hin ⟨rfl, (hg _).2.1, (hg _).2.2⟩ fun _ => .rfl⟩
  rw [Scene.asked_mapContext hs x s f fun c => (hf c).1, hy]
  exact congrArg (Prod.mk _) (Scene.asked_mapContext hs y z g fun c => (hg c).1)

theorem below {p : Pass σ α} (h : Filters r hs X v W p (s.mapContext Context.down)) :
    Filters r hs X v W (Pass.below p) s :=
  bracket Context.down Context.up (fun _ => ⟨rfl, rfl, rfl⟩) (fun _ => ⟨rfl, rfl, rfl⟩) h

theorem inForm {p : Pass σ α} (h : Filters r hs X v W p (s.mapContext (·.withInForm true))) :
    Filters r hs X v W (Pass.inForm p) s :=
  bracket (·.withInForm true) (·.withInForm false) (fun _ => ⟨rfl, rfl, rfl⟩) (fun _ => ⟨rfl, rfl, rfl⟩) h

end Filters

/-! ## The parts of an element -/

section Parts

variable {hs : Http.Headers} {depth : Nat} {s : Scene σ}

/-- A child that is come to: those before it were passed. -/
theorem Part.passed_children {name : Option String} {children xs : List Element} {e : Element} {j : Nat}
    {u : Visit σ} (h : Part r .render ⟨depth, .group name children, s⟩ (.child j) u)
    (hxs : xs ++ [e] <+: children) (hj : xs.length < j) :
    ∃ t, (Element.visitAll r (Element.visit r .render depth) .render (xs ++ [e])).on (s.mapContext Context.down) =
      (.ok none, t) := by
  cases h with
  | child _ hpassed _ =>
    obtain ⟨rest, hrest⟩ : xs ++ [e] <+: children.take j :=
      List.prefix_take_iff.mpr ⟨hxs, by rw [List.length_append, List.length_singleton]; omega⟩
    rw [← hrest, visitAll_append] at hpassed
    rcases ho : (Element.visitAll r (Element.visit r .render depth) .render (xs ++ [e])).on
      (s.mapContext Context.down) with ⟨_ | _ | o, t⟩ <;> rw [ho] at hpassed
    · cases hpassed
    · exact ⟨t, rfl⟩
    · cases hpassed

/-- The children that follow those that were passed. -/
theorem children_filter {name : Option String} {children : List Element}
    (ih : ∀ w u, Part r .render ⟨depth, .group name children, s⟩ w u →
      Filters r hs X u (u.Outermost r X) (u.element.visit r .render (u.depth + 1)) u.scene)
    (xs ys : List Element) (t : Scene σ) (hsplit : children = xs ++ ys)
    (hpassed : (Element.visitAll r (Element.visit r .render depth) .render xs).on (s.mapContext Context.down) =
      (.ok none, t)) :
    Filters r hs X ⟨depth, .group name children, s⟩
      (fun π => ∃ j, xs.length ≤ j ∧ Visit.Beyond r X ⟨depth, .group name children, s⟩ (.child j) π)
      (Element.visitAll r (Element.visit r .render depth) .render ys) t := by
  induction ys generalizing xs t with
  | nil =>
    refine .own (.pure none) fun π => ?_
    rintro ⟨j, hj, u, ρ, -, hu, -⟩
    cases hu with
    | child hk =>
      obtain ⟨hlt, -⟩ := List.getElem?_eq_some_iff.mp hk
      rw [hsplit, List.append_nil] at hlt
      omega
  | cons e ys hrest =>
    have hpart : Part r .render ⟨depth, .group name children, s⟩ (.child xs.length) ⟨depth, e, t⟩ :=
      .child (by simp [hsplit]) (by simpa [hsplit] using hpassed) rfl
    have hfirst := (ih _ _ hpart).part hpart
    have hprefix : xs ++ [e] <+: children := ⟨ys, by simp [hsplit]⟩
    refine hfirst.numbered (fun found u hu => ?_) ?_
    · have hu' : (Walk.part .render (e.visitWith r (Element.visit r .render depth) .render)).on t = (.ok found, u) := hu
      have hrun := visitAll_snoc hpassed e
      rw [hu'] at hrun
      cases found with
      | some o =>
        refine .own (.pure _) fun π => ?_
        rintro ⟨j, hj, w, ρ, -, hw, -⟩
        obtain ⟨z, hz⟩ := hw.passed_children hprefix hj
        rw [hrun] at hz
        cases hz
      | none =>
        refine .after .toNext fun _ z hz => ?_
        cases hz
        have hys := hrest (xs ++ [e]) _ (by simp [hsplit]) hrun
        rw [List.length_append, List.length_singleton] at hys
        exact hys
    · rintro _ j ⟨_, _, rfl, -⟩ ⟨_, _, hπ, -⟩
      cases hπ
      rfl

/-- A round that is come to: those before it were passed. -/
theorem Part.passed_rounds {list : Binding} {item index : Option KeyPath} {e : Element} {items xs : List Value}
    {x : Value} {j : Nat} {u : Visit σ}
    (h : Part r .render ⟨depth, .control (.repetition list item index) (some e), s⟩ (.round j) u)
    (hl : (Control.listItems r.helpers list).on s = (.ok items, s)) (hxs : xs ++ [x] <+: items) (hj : xs.length < j) :
    ∃ t, (Control.rounds item index (Walk.part .render (e.visitWith r (Element.visit r .render depth) .render)) 0
      (xs ++ [x])).on (s.mapContext Context.down) = (.ok none, t) := by
  cases h with
  | round hl' _ hpassed _ _ =>
    rw [hl] at hl'
    cases hl'
    obtain ⟨rest, hrest⟩ : xs ++ [x] <+: items.take j :=
      List.prefix_take_iff.mpr ⟨hxs, by rw [List.length_append, List.length_singleton]; omega⟩
    rw [← hrest, rounds_append] at hpassed
    rcases ho : (Control.rounds item index
      (Walk.part .render (e.visitWith r (Element.visit r .render depth) .render)) 0 (xs ++ [x])).on
      (s.mapContext Context.down) with ⟨_ | _ | o, t⟩ <;> rw [ho] at hpassed
    · cases hpassed
    · exact ⟨t, rfl⟩
    · cases hpassed

/-- The rounds that follow those that were passed. -/
theorem rounds_filter {list : Binding} {item index : Option KeyPath} {e : Element}
    (ih : ∀ w u, Part r .render ⟨depth, .control (.repetition list item index) (some e), s⟩ w u →
      Filters r hs X u (u.Outermost r X) (u.element.visit r .render (u.depth + 1)) u.scene)
    {items : List Value} (hl : (Control.listItems r.helpers list).on s = (.ok items, s))
    (xs ys : List Value) (t : Scene σ) (hsplit : items = xs ++ ys)
    (hpassed : (Control.rounds item index
        (Walk.part .render (e.visitWith r (Element.visit r .render depth) .render)) 0 xs).on
      (s.mapContext Context.down) = (.ok none, t)) :
    Filters r hs X ⟨depth, .control (.repetition list item index) (some e), s⟩
      (fun π => ∃ j, xs.length ≤ j ∧
        Visit.Beyond r X ⟨depth, .control (.repetition list item index) (some e), s⟩ (.round j) π)
      (Control.rounds item index
        (Walk.part .render (e.visitWith r (Element.visit r .render depth) .render)) xs.length ys) t := by
  induction ys generalizing xs t with
  | nil =>
    refine .own (.pure none) fun π => ?_
    rintro ⟨j, hj, u, ρ, -, hu, -⟩
    cases hu with
    | round hl' hk =>
      rw [hl] at hl'
      cases hl'
      obtain ⟨hlt, -⟩ := List.getElem?_eq_some_iff.mp hk
      rw [hsplit, List.append_nil] at hlt
      omega
  | cons y ys hrest =>
    have hprefix : xs ++ [y] <+: items := ⟨ys, by simp [hsplit]⟩
    refine .after (.of_oblivious (.setRound item index xs.length y)) fun _ t' hset => ?_
    have hpart : Part r .render ⟨depth, .control (.repetition list item index) (some e), s⟩ (.round xs.length)
        ⟨depth, e, t'⟩ :=
      .round hl (by simp [hsplit]) (by simpa [hsplit] using hpassed) hset rfl
    have hfirst := (ih _ _ hpart).part hpart
    refine hfirst.numbered (fun found u hu => ?_) ?_
    · have hu' : (Walk.part .render (e.visitWith r (Element.visit r .render depth) .render)).on t' = (.ok found, u) := hu
      have hrun := rounds_snoc hpassed hset
      rw [hu'] at hrun
      cases found with
      | some o =>
        refine .own (.pure _) fun π => ?_
        rintro ⟨j, hj, w, ρ, -, hw, -⟩
        obtain ⟨z, hz⟩ := hw.passed_rounds hl hprefix hj
        rw [hrun] at hz
        cases hz
      | none =>
        refine .after .toNext fun _ z hz => ?_
        cases hz
        have hys := hrest (xs ++ [y]) _ (by simp [hsplit]) hrun
        rw [List.length_append, List.length_singleton] at hys
        exact hys
    · rintro _ j ⟨_, _, rfl, -⟩ ⟨_, _, hπ, -⟩
      cases hπ
      rfl

/-- A component shows what its template shows. -/
theorem component_filters {tag name : String} {bs : Bindings} {content : Option Element}
    (ih : ∀ w u, Part r .render ⟨depth, .component tag name bs content, s⟩ w u →
      Filters r hs X u (u.Outermost r X) (u.element.visit r .render (u.depth + 1)) u.scene) :
    Filters r hs X ⟨depth, .component tag name bs content, s⟩
      (Visit.Beyond r X ⟨depth, .component tag name bs content, s⟩ .template)
      (Pass.enter r name bs content (Element.visit r .render depth)) s := by
  intro x o t ht hX hp
  rw [Pass.on_enter] at hp ⊢
  have harrive : (Pass.arrive r name bs content).Silent hs := (Pass.Oblivious.arrive r name bs content).silent hs
  obtain ⟨hcome, hin⟩ := harrive s x
  rcases ha : (Pass.arrive r name bs content).on s with ⟨e | template, t₁⟩ <;> rw [ha] at hp hcome hin
  · cases hp
  dsimp only at hp hcome hin
  rcases hrun : (Element.visit r .render depth template).on t₁ with ⟨found, u⟩
  rw [hrun] at hp
  dsimp only at hp
  rcases hd : (Pass.depart bs).on u with ⟨e | pulled, u'⟩ <;> rw [hd] at hp
  · cases hp
  obtain ⟨hpull, rfl⟩ : Pass.afterPull found pulled = .ok o ∧ u' = t := Prod.mk.inj hp
  have hfound : found = .ok o := by
    rcases found with e | a
    · cases hpull
    · rcases pulled with e | _ <;> cases hpull
      rfl
  rw [hfound] at hrun hpull
  have hX₁ : X ∉ t₁.context.containers := by
    rw [hin.containers]
    exact hX
  obtain ⟨y, hy, hshows⟩ : ∃ y, (Element.visit r .render depth template).on (t₁.asked hs x) = (.ok o, u.asked hs y) ∧
      Shows r X ⟨depth, .component tag name bs content, s⟩
        (Visit.Beyond r X ⟨depth, .component tag name bs content, s⟩ .template) t₁ x u y := by
    cases depth with
    | zero => cases hrun
    | succ depth =>
      have hpart : Part r .render ⟨depth + 1, .component tag name bs content, s⟩ .template ⟨depth, template, t₁⟩ :=
        .template ha
      exact (ih _ _ hpart).part hpart x o u (ht.unheard hin) hX₁ hrun
  have hdepart : (Pass.depart bs : Pass σ _).Silent hs := (Pass.Oblivious.depart bs).silent hs
  obtain ⟨hleave, hout⟩ := hdepart u y
  rw [hd] at hleave hout
  refine ⟨y, ?_, hshows.congr hin hout fun _ => .rfl⟩
  rw [hcome]
  dsimp only
  rw [hy]
  dsimp only
  rw [hleave]
  exact congrArg (Prod.mk · _) hpull

/-- What a component is wrapped around is shown where its template asks for it. -/
theorem componentContent_filters {content : Option Element}
    (ih : ∀ w u, Part r .render ⟨depth, .control .componentContent content, s⟩ w u →
      Filters r hs X u (u.Outermost r X) (u.element.visit r .render (u.depth + 1)) u.scene) :
    Filters r hs X ⟨depth, .control .componentContent content, s⟩
      (Visit.Beyond r X ⟨depth, .control .componentContent content, s⟩ .content)
      (Pass.inParent none (Element.visit r .render depth)) s := by
  intro x o t ht hX hp
  rw [Pass.on_inParent] at hp ⊢
  rw [Scene.asked_frames]
  rcases hf : s.frames with _ | ⟨f, rest⟩ <;> rw [hf] at hp
  · cases hp
    refine ⟨x, rfl, .of_gains (.refl ht) hX fun π => Visit.not_beyond fun u hu => ?_⟩
    cases hu with
    | content hf' => simp [hf] at hf'
  rcases hc : f.content with _ | e <;> simp only [hc] at hp ⊢
  · cases hp
    refine ⟨x, rfl, .of_gains (.refl ht) hX fun π => Visit.not_beyond fun u hu => ?_⟩
    cases hu with
    | content hf' hc' =>
      rw [hf] at hf'
      cases hf'
      rw [hc] at hc'
      cases hc'
  · have hin : Unheard s { s with frames := rest } := ⟨rfl, rfl, rfl⟩
    rcases hrun : (Element.visit r .render depth e).on { s with frames := rest } with ⟨e' | a, u⟩ <;>
      rw [hrun] at hp <;> cases hp
    cases depth with
    | zero => cases hrun
    | succ depth =>
      have hpart : Part r .render ⟨depth + 1, .control .componentContent content, s⟩ .content
          ⟨depth, e, { s with frames := rest }⟩ := .content hf hc
      obtain ⟨y, hy, hshows⟩ := (ih _ _ hpart).part hpart x o u (ht.unheard hin) hX hrun
      have hy' : (Element.visit r .render (depth + 1) e).on { s.asked hs x with frames := rest } = _ := hy
      refine ⟨y, ?_, hshows.congr hin ⟨rfl, rfl, rfl⟩ fun _ => .rfl⟩
      rw [hy']
      rfl

/-- The content of a control, come to in `t`. -/
theorem content_filters {c : Control} {content : Option Element} {t : Scene σ}
    (ih : ∀ w u, Part r .render ⟨depth, .control c content, s⟩ w u →
      Filters r hs X u (u.Outermost r X) (u.element.visit r .render (u.depth + 1)) u.scene)
    (ht : (c.approach r .render).on s = (.ok true, t)) :
    Filters r hs X ⟨depth, .control c content, s⟩ (Visit.Beyond r X ⟨depth, .control c content, s⟩ .inside)
      ((Element.visitContent r (Element.visit r .render depth) .render content).getD Walk.nothing) t := by
  cases content with
  | none => exact .own (.pure none) fun π => Visit.not_beyond fun u hu => by cases hu
  | some e =>
    have hpart : Part r .render ⟨depth, .control c (some e), s⟩ .inside ⟨depth, e, t⟩ := .inside ht
    exact (ih _ _ hpart).part hpart

theorem form_filters {action : Option Binding} {content : Option Element}
    (ih : ∀ w u, Part r .render ⟨depth, .control (.form action) content, s⟩ w u →
      Filters r hs X u (u.Outermost r X) (u.element.visit r .render (u.depth + 1)) u.scene) :
    Filters r hs X ⟨depth, .control (.form action) content, s⟩
      (Visit.Beyond r X ⟨depth, .control (.form action) content, s⟩ .inside)
      (Control.visitForm r action
        ((Element.visitContent r (Element.visit r .render depth) .render content).getD Walk.nothing) .render) s := by
  refine .followed (.after .openForm fun _ t ht => .followed (.inForm ?_) fun _ => .write _) fun _ => .pure none
  refine content_filters ih ?_
  simp only [Control.approach, if_true, Pass.on_bind, ht]
  rfl

theorem hyperlink_filters {target : Target} {label : Option Binding} {content : Option Element}
    (ih : ∀ w u, Part r .render ⟨depth, .control (.hyperlink target label) content, s⟩ w u →
      Filters r hs X u (u.Outermost r X) (u.element.visit r .render (u.depth + 1)) u.scene) :
    Filters r hs X ⟨depth, .control (.hyperlink target label) content, s⟩
      (Visit.Beyond r X ⟨depth, .control (.hyperlink target label) content, s⟩ .inside)
      (Control.visitHyperlink r target label
        ((Element.visitContent r (Element.visit r .render depth) .render content).getD Walk.nothing) .render) s := by
  refine .followed (.after (.openLink target) fun _ t ht => ?_) fun _ => .pure none
  cases label with
  | some b =>
    refine .own (.bind (.of_oblivious (.evaluateText r.helpers b)) fun _ => .bind (.write _) fun _ => .write _) fun π => ?_
    refine Visit.not_beyond fun u hu => ?_
    cases hu with
    | inside h => cases h
  | none =>
    refine .followed (content_filters ih ?_) fun _ => .write _
    rw [Control.approach, Pass.on_bind, ht]
    rfl

/-- A container with the id `X` is shown with its tags, another one without them. -/
theorem container_filters (hX : hs.get? Context.updateHeader = some X) {id : Binding} {elementName : Option Binding}
    {content : Option Element}
    (ih : ∀ w u, Part r .render ⟨depth, .control (.updateContainer id elementName) content, s⟩ w u →
      Filters r hs X u (u.Outermost r X) (u.element.visit r .render (u.depth + 1)) u.scene) :
    Filters r hs X ⟨depth, .control (.updateContainer id elementName) content, s⟩
      (Visit.Outermost r X ⟨depth, .control (.updateContainer id elementName) content, s⟩)
      (Control.visitUpdateContainer r.helpers id elementName
        ((Element.visitContent r (Element.visit r .render depth) .render content).getD Walk.nothing) .render) s := by
  intro x o t ht hout hp
  by_cases hid : Visit.containerId? r ⟨depth, .control (.updateContainer id elementName) content, s⟩ = some X
  · have hcontent : ((Element.visitContent r (Element.visit r .render depth) .render content).getD
        Walk.nothing).Mirrored False hs X := by
      cases content with
      | none => exact .pure none
      | some e => exact .visitWith hX (.visit hX depth) e
    obtain ⟨y, hy, hgain, hsame⟩ := container_gains hX r.helpers id elementName hcontent ht
    rw [hp] at hy hgain hsame
    have hv : ∃ v, id.valueIn r.helpers s.current.state = .ok v ∧ v.text = X := by
      simp only [Visit.containerId?] at hid
      rcases hval : id.valueIn r.helpers s.current.state with e | v <;> rw [hval] at hid <;> cases hid
      exact ⟨v, rfl, rfl⟩
    obtain ⟨w, hw, hw'⟩ := hsame hv
    refine ⟨y, hy, hgain.twin, hgain.containers, [[]], w, ?_, hw', List.nodup_singleton _, fun π => ?_⟩
    · have hrun : (Visit.run r .render ⟨depth, .control (.updateContainer id elementName) content, s⟩).2 = t :=
        congrArg Prod.snd hp
      have hstart : s.response.content = s.response.content ++ .empty := ByteArray.append_empty.symm
      have hend : t.response.content = s.response.content ++ .empty ++ w := by rw [← hstart, hw]
      have hrest : t.response.content = s.response.content ++ .empty ++ w ++ .empty := by
        rw [← hend, ByteArray.append_empty]
      rw [← hrun] at hend
      have hpiece := Pieces.piece (r := r) (Visit.at?_nil _) hstart hend (.gap hrest)
      rwa [ByteArray.append_empty] at hpiece
    · rw [Visit.outermost_of_container hid, List.mem_singleton]
  · rw [Control.visitUpdateContainer, Pass.on_bind, on_openContainer_eq] at hp
    rcases hval : id.valueIn r.helpers s.current.state with e | v <;> simp only [hval] at hp
    · cases hp
    rcases hname : elementName? r.helpers elementName s.current.state with e | name <;> simp only [hname] at hp
    · cases hp
    have hne : X ≠ v.text := by
      rintro rfl
      refine hid ?_
      simp only [Visit.containerId?, hval]
      rfl
    have happroach : ((Control.updateContainer id elementName).approach r .render).on s =
        (.ok true, s.opened v.text name) := by
      simp only [Control.approach, if_true, Pass.on_bind, on_openContainer_eq, hval, hname]
      rfl
    obtain ⟨y₁, hy₁, hty₁, hin, w₁, hw₁, hw₁'⟩ := opened_mirrored hX ht v.text name
    have hout₁ : X ∉ v.text :: s.context.containers := fun h => (List.mem_cons.mp h).elim hne hout
    have hfilter : Filters r hs X _ _ _ _ := content_filters ih happroach
    rw [Pass.on_ensuring] at hp
    generalize ((Element.visitContent r (Element.visit r .render depth) .render content).getD Walk.nothing) = p
      at hp hfilter ⊢
    rcases hrun : p.on (s.opened v.text name) with ⟨found, u⟩
    rw [hrun] at hp
    obtain ⟨rfl, rfl⟩ := Prod.mk.inj hp
    obtain ⟨y₂, hy₂, hshows⟩ := hfilter y₁ o u hty₁ (hin ▸ hout₁) hrun
    obtain ⟨πs, k, hpieces, hk, hnodup, hπs⟩ := hshows.pieces
    obtain ⟨y₃, hy₃, hty₃, hclosed, w₃, hw₃, hw₃'⟩ := closeContainer_mirrored hX hshows.twin name
    rw [if_neg hout₁, ByteArray.append_empty] at hw₁'
    rw [hshows.containers, hin, if_neg hout₁, ByteArray.append_empty] at hw₃'
    refine ⟨y₃, ?_, hty₃, ?_, πs, k, ?_, ?_, hnodup, fun π => ?_⟩
    · simp only [Control.visitUpdateContainer, Pass.on_bind, on_openContainer_eq, Scene.asked_current, hval, hname]
      rw [hy₁, Pass.on_ensuring, hy₂]
      exact congrArg (Prod.mk _) hy₃
    · rw [hclosed, hshows.containers, hin]
      rfl
    · have hend := (hpieces.before _ hw₁).append (.gap hw₃)
      rwa [List.append_nil, ByteArray.append_empty] at hend
    · rw [hw₃', hk, hw₁']
    · rw [hπs, Visit.outermost_iff hid]
      constructor
      · exact fun h => ⟨.inside, h⟩
      · rintro ⟨w, z, ρ, rfl, hz, ho⟩
        cases hz with
        | inside h => exact ⟨_, ρ, rfl, .inside h, ho⟩

end Parts

/-! ## Visits -/

namespace Filters

variable {hs : Http.Headers} {W : Path → Prop} {p : Pass σ (Found σ)} {s : Scene σ}

/-- An element that is no container shows what its parts show. -/
theorem of_ways (h : Filters r hs X v W p s) (hv : v.containerId? r = none)
    (hW : ∀ π, W π ↔ ∃ w, v.Beyond r X w π) : Filters r hs X v (v.Outermost r X) p s :=
  h.iff fun π => (Visit.outermost_iff (by rw [hv]; nofun)).trans (hW π).symm

theorem of_way (w : Way) (h : Filters r hs X v (v.Beyond r X w) p s) (hv : v.containerId? r = none)
    (hw : ∀ w' u, Part r .render v w' u → w' = w) : Filters r hs X v (v.Outermost r X) p s := by
  refine h.of_ways hv fun π => ⟨fun hπ => ⟨w, hπ⟩, ?_⟩
  rintro ⟨w', u, ρ, hπ, hu, ho⟩
  obtain rfl := hw w' u hu
  exact ⟨u, ρ, hπ, hu, ho⟩

theorem of_no_way (h : p.Mirrored True hs X) (hv : v.containerId? r = none) (hw : ∀ w u, ¬ Part r .render v w u) :
    Filters r hs X v (v.Outermost r X) p s := by
  refine .of_ways (W := fun _ => False) (.own h fun _ => id) hv fun π => ⟨False.elim, ?_⟩
  rintro ⟨w, u, ρ, -, hu, -⟩
  exact hw w u hu

end Filters

/-- Whatever control is visited. -/
theorem control_filters {hs : Http.Headers} (hX : hs.get? Context.updateHeader = some X) {depth : Nat} {s : Scene σ}
    {c : Control} {content : Option Element}
    (ih : ∀ w u, Part r .render ⟨depth, .control c content, s⟩ w u →
      Filters r hs X u (u.Outermost r X) (u.element.visit r .render (u.depth + 1)) u.scene) :
    Filters r hs X ⟨depth, .control c content, s⟩ (Visit.Outermost r X ⟨depth, .control c content, s⟩)
      (c.visit r (Element.visit r .render depth) .render
        (Element.visitContent r (Element.visit r .render depth) .render content)) s := by
  cases c with
  | string value escape whenEmpty =>
    refine .of_no_way (.visitString value escape whenEmpty) rfl fun w u hu => ?_
    cases hu with
    | inside h => cases h
  | textField value name =>
    refine .of_no_way (.visitTextField value name) rfl fun w u hu => ?_
    cases hu with
    | inside h => cases h
  | hyperlink target label =>
    refine .of_way .inside (hyperlink_filters ih) rfl fun w u hu => ?_
    cases hu
    rfl
  | form action =>
    refine .of_way .inside (form_filters ih) rfl fun w u hu => ?_
    cases hu
    rfl
  | submitButton action value =>
    refine .of_no_way (.visitSubmitButton action value) rfl fun w u hu => ?_
    cases hu with
    | inside h => cases h
  | repetition list item index =>
    cases content with
    | none =>
      refine .of_no_way (.pure none) rfl fun w u hu => ?_
      cases hu
    | some e =>
      have hrounds : Filters r hs X ⟨depth, .control (.repetition list item index) (some e), s⟩
          (fun π => ∃ j, Visit.Beyond r X ⟨depth, .control (.repetition list item index) (some e), s⟩ (.round j) π)
          (Control.visitRepetition r.helpers list item index
            (some (e.visitWith r (Element.visit r .render depth) .render)) .render) s := by
        refine .after (.of_oblivious (.listItems r.helpers list)) fun items t hl => .below ?_
        have hk := Pass.listItems_keeps s r.helpers list
        rw [hl] at hk
        obtain rfl : t = s := hk
        refine (rounds_filter ih hl [] items (t.mapContext Context.down) rfl rfl).iff fun π => ?_
        exact ⟨fun ⟨j, hj⟩ => ⟨j, Nat.zero_le j, hj⟩, fun ⟨j, _, hj⟩ => ⟨j, hj⟩⟩
      refine hrounds.of_ways rfl fun π => ⟨fun ⟨j, hj⟩ => ⟨.round j, hj⟩, ?_⟩
      rintro ⟨w, u, ρ, hπ, hu, ho⟩
      cases hu with
      | round hl hi hr hset hv => exact ⟨_, _, ρ, hπ, .round hl hi hr hset hv, ho⟩
      | inside h => cases h
  | conditional condition negate =>
    refine .of_way .inside ?_ rfl fun w u hu => ?_
    · refine .after (.of_oblivious (.isShown r.helpers condition negate)) fun b t hb => ?_
      have hk := Pass.isShown_keeps s r.helpers condition negate
      rw [hb] at hk
      obtain rfl : t = s := hk
      cases b with
      | true => exact content_filters ih hb
      | false =>
        refine .own (.pure none) fun π => Visit.not_beyond fun u hu => ?_
        cases hu with
        | inside h =>
          have h' : (Control.isShown r.helpers condition negate).on t = _ := h
          rw [hb] at h'
          cases h'
    · cases hu
      rfl
  | componentContent =>
    refine .of_way .content (componentContent_filters ih) rfl fun w u hu => ?_
    cases hu with
    | inside h => cases h
    | content => rfl
  | updateContainer id name => exact container_filters hX ih
  | widget typeName tag bindings =>
    have hno : ∀ w u, ¬ Part r .render ⟨depth, .control (.widget typeName tag bindings) content, s⟩ w u := by
      intro w u hu
      cases hu with
      | inside h => cases h
    simp only [Control.visit]
    split
    · exact .of_no_way (.visitWidget _ bindings) rfl hno
    · exact .of_no_way (.pure none) rfl hno

/-- Every visit shows what it should. -/
theorem filters {hs : Http.Headers} (hX : hs.get? Context.updateHeader = some X) (v : Visit σ) :
    Filters r hs X v (v.Outermost r X) (v.element.visit r .render (v.depth + 1)) v.scene := by
  induction v using Visit.induction r .render with
  | step v ih =>
  obtain ⟨depth, element, s⟩ := v
  show Filters r hs X _ _ (element.visitWith r (Element.visit r .render depth) .render) s
  cases element with
  | text text =>
    refine .of_ways (.own (.ofPass (.write text)) fun _ => id) rfl fun π => ?_
    refine ⟨False.elim, ?_⟩
    rintro ⟨w, u, ρ, -, hu, -⟩
    cases hu
  | group name children =>
    rw [Element.visitWith]
    refine .of_ways (.below (children_filter ih [] children (s.mapContext Context.down) rfl rfl)) rfl fun π => ?_
    constructor
    · rintro ⟨j, -, hj⟩
      exact ⟨.child j, hj⟩
    · rintro ⟨w, u, ρ, rfl, hu, ho⟩
      cases hu with
      | child hk hs hv => exact ⟨_, Nat.zero_le _, _, ρ, rfl, .child hk hs hv, ho⟩
  | component tag name bs content =>
    rw [Element.visitWith]
    refine .of_ways (component_filters ih) rfl fun π => ?_
    refine ⟨fun h => ⟨.template, h⟩, ?_⟩
    rintro ⟨w, u, ρ, rfl, hu, ho⟩
    cases hu with
    | template h => exact ⟨_, ρ, rfl, .template h, ho⟩
  | control c content =>
    rw [Element.visitWith]
    exact control_filters hX ih

/-! ## Pages -/

theorem Http.Headers.get?_set (hs : Http.Headers) (name value : String) : (hs.set name value).get? name = some value := by
  have hnone : (hs.fields.pairs.filter (·.1 != Text.asciiLower name)).find? (·.1 == Text.asciiLower name) = none := by
    refine List.find?_eq_none.mpr fun e he => ?_
    have hne := (List.mem_filter.mp he).2
    rw [bne_iff_ne] at hne
    rw [beq_iff_eq]
    exact hne
  simp only [Http.Headers.set, Http.Headers.get?, Http.Fields.set, Http.Fields.get?, Http.Fields.without,
    Http.Fields.append, Http.Fields.appendAll, List.find?_append, hnone]
  simp

theorem walkPage_filters {hs : Http.Headers} (hX : hs.get? Context.updateHeader = some X) {s : Scene σ}
    (hv : pageVisit? r s = some v) : Filters r hs X v (v.Outermost r X) (Pass.walkPage r .render) s := by
  obtain ⟨d, hd, hte, hn, hscene⟩ := pageVisit?_eq_some.mp hv
  refine .after (.of_oblivious (.pageTemplate r)) fun e t ht => ?_
  rw [Pass.on_pageTemplate, hd] at ht
  simp only [hte] at ht
  obtain ⟨he, hcompiled⟩ := Prod.mk.inj ht
  obtain rfl := Except.ok.inj he
  rw [hn, ← hcompiled, ← hscene]
  exact filters hX v

/-- A page is shown from one state, whole and for the container `X` alone. Both fail, and in the same
    way; or the second body is what the visits to the outermost containers with the id `X` write, piece
    after piece of the first. Either way the same has become of all else. -/
theorem partial_update_is_the_page_filtered (r : Registry σ) (X : String) (c : Context) (templates : Templates)
    (page : Instance σ) (response : Http.Response) (events : List Event)
    (hwhole : c.requestedContainer = none) (houtside : X ∉ c.containers) :
    let s : Scene σ := ⟨c, templates, page, [], response, events⟩
    let asked := c.asked (c.request.headers.set Context.updateHeader X)
    let full := (Pass.renderPage r).on s
    let part := (Pass.renderPage r).on { s with context := asked }
    ((∃ e, full.1 = .error e ∧ part.1 = .error e) ∨
      ∃ a b v πs, full.1 = .ok a ∧ part.1 = .ok b ∧
        pageVisit? r { s with response := Http.Response.page } = some v ∧
        Pieces r v .empty πs a.content b.content ∧ πs.Nodup ∧ ∀ π, π ∈ πs ↔ v.Outermost r X π) ∧
    part.2.page = full.2.page ∧
    part.2.context.contextIdCount = full.2.context.contextIdCount ∧
    part.2.context.contextId = full.2.context.contextId ∧
    part.2.templates = full.2.templates ∧ part.2.events = full.2.events := by
  intro s asked full part
  let hs := c.request.headers.set Context.updateHeader X
  let s₀ : Scene σ := { s with response := Http.Response.page }
  let x₀ := Http.Response.page.setMuted !c.containers.contains X
  have hX : hs.get? Context.updateHeader = some X := Http.Headers.get?_set _ _ _
  have htwin : Twin X s₀ x₀ := ⟨hwhole, rfl, rfl⟩
  have hfull : full = _ := Pass.on_renderPage r s
  have hpart : part = _ := Pass.on_renderPage r { s with context := asked }
  have hloud : ({ s with response := Http.Response.page } : Scene σ).mute = s₀ := Twin.mute_whole hwhole rfl
  have hmuted : ({ s with context := asked, response := Http.Response.page } : Scene σ).mute = s₀.asked hs x₀ :=
    Scene.mute_asked hX s₀ Http.Response.page
  rw [hloud] at hfull
  rw [hmuted] at hpart
  -- Both traversals end the same way, in scenes that differ in the request and the response alone.
  have hwalk : (Pass.walkPage r .render).Mirrored False hs X :=
    .bind (.of_oblivious (.pageTemplate r)) fun e => .visit hX r.maxDepth e
  obtain ⟨y, hy, -⟩ := hwalk s₀ x₀ htwin
  rw [hy] at hpart
  rcases hrun : (Pass.walkPage r .render).on s₀ with ⟨e | o, t⟩ <;> rw [hrun] at hfull hpart hy
  · rw [hfull, hpart]
    exact ⟨.inl ⟨e, rfl, rfl⟩, rfl, rfl, rfl, rfl, rfl⟩
  · rw [hfull, hpart]
    refine ⟨.inr ?_, rfl, rfl, rfl, rfl, rfl⟩
    rcases hv : pageVisit? r s₀ with _ | v
    · obtain ⟨e, c', ts, -, hfails⟩ := walkPage_of_no_pageVisit .render hv
      rw [hrun] at hfails
      cases hfails
    · obtain ⟨y', hy', hshows⟩ := walkPage_filters hX hv x₀ o t htwin houtside hrun
      obtain ⟨πs, kept, hpieces, hkept, hnodup, hπs⟩ := hshows.pieces
      have hsame : y' = y := congrArg (fun z : Except Failure (Found σ) × Scene σ => z.2.response) (hy'.symm.trans hy)
      have hempty : x₀.content = .empty := rfl
      rw [hsame, hempty, ByteArray.empty_append] at hkept
      refine ⟨_, _, v, πs, rfl, rfl, rfl, ?_, hnodup, hπs⟩
      show Pieces r v .empty πs t.response.content y.content
      rw [hkept]
      exact hpieces

/-- The container is there twice, once around another one with its id. -/
def Scripted.boxes : String :=
  "a<wo:UpdateContainer id=\"box\">b<wo:UpdateContainer id=\"box\">c</wo:UpdateContainer></wo:UpdateContainer>" ++
    "d<wo:UpdateContainer id=\"box\">e</wo:UpdateContainer>"

theorem boxes_alone_are_two_pieces :
    let r := Scripted.registry Scripted.boxes
    let s := Scene.start Scripted.context [] (.ofDefinition (Scripted.page Scripted.boxes))
    let asked := Scripted.context.asked (Scripted.context.request.headers.set Context.updateHeader "box")
    ∃ a b v πs, ((Pass.renderPage r).on s).1 = .ok a ∧ ((Pass.renderPage r).on { s with context := asked }).1 = .ok b ∧
      b.content = "<div id=\"box\">b<div id=\"box\">c</div></div><div id=\"box\">e</div>".toUTF8 ∧
      Pieces r v .empty πs a.content b.content ∧ ∀ π, π ∈ πs ↔ v.Outermost r "box" π := by
  intro r s asked
  have hshown : (((Pass.renderPage r).on { s with context := asked }).1.toOption.map (·.content)) =
      some "<div id=\"box\">b<div id=\"box\">c</div></div><div id=\"box\">e</div>".toUTF8 := by decide +kernel
  obtain ⟨hends, -⟩ := partial_update_is_the_page_filtered r "box" Scripted.context [] s.page s.response s.events
    rfl (by simp [Scripted.context])
  rcases hends with ⟨e, -, he⟩ | ⟨a, b, v, πs, ha, hb, -, hpieces, -, hπs⟩
  · rw [show ((Pass.renderPage r).on { s with context := asked }).1 = _ from he] at hshown
    cases hshown
  · rw [show ((Pass.renderPage r).on { s with context := asked }).1 = _ from hb] at hshown
    exact ⟨a, b, v, πs, ha, hb, Option.some.inj hshown, hpieces, hπs⟩

end PageServer
