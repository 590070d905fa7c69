/-
  PageServer.Assoc — association lists with text keys: the view of everything the server looks
  up by name.

  `put` replaces the entry of a key that is there, so no key is entered twice, and puts a new
  key before the first larger one, so a list built with it is in key order.
-/

namespace PageServer.Assoc

variable {α : Type}

def get? (key : String) : List (String × α) → Option α
  | [] => none
  | (k, v) :: rest => if k = key then some v else get? key rest

def contains (key : String) (entries : List (String × α)) : Bool := (get? key entries).isSome

def put (key : String) (value : α) : List (String × α) → List (String × α)
  | [] => [(key, value)]
  | (k, v) :: rest =>
    if k = key then (key, value) :: rest
    else if key < k then (key, value) :: (k, v) :: rest
    else (k, v) :: put key value rest

def erase (key : String) (entries : List (String × α)) : List (String × α) :=
  entries.filter (·.1 != key)

def keys (entries : List (String × α)) : List String := entries.map (·.1)

def ofList (entries : List (String × α)) : List (String × α) :=
  entries.foldl (fun acc e => put e.1 e.2 acc) []

/-! ## Looking up after a change -/

@[simp] theorem get?_put_self (k : String) (v : α) (es : List (String × α)) :
    get? k (put k v es) = some v := by
  induction es with
  | nil => simp [put, get?]
  | cons e rest ih =>
    obtain ⟨k', v'⟩ := e
    simp only [put]
    split
    · simp [get?]
    · split
      · simp [get?]
      · simp [get?, *]

@[simp] theorem get?_put_of_ne {k k' : String} (h : k' ≠ k) (v : α) (es : List (String × α)) :
    get? k' (put k v es) = get? k' es := by
  induction es with
  | nil => simp [put, get?, Ne.symm h]
  | cons e rest ih =>
    obtain ⟨k'', v''⟩ := e
    simp only [put]
    split
    · rename_i heq; subst heq; simp [get?, Ne.symm h]
    · split
      · simp [get?, Ne.symm h]
      · simp [get?, ih]

/-- A new entry leaves those that there are. -/
theorem get?_put_of_none {k k' : String} {v v' : α} {es : List (String × α)} (hnone : get? k es = none)
    (h : get? k' es = some v') : get? k' (put k v es) = some v' := by
  have hne : k' ≠ k := by
    rintro rfl
    rw [hnone] at h
    cases h
  rwa [get?_put_of_ne hne]

theorem mem_of_get? {k : String} {v : α} {es : List (String × α)} (h : get? k es = some v) : (k, v) ∈ es := by
  induction es with
  | nil => cases h
  | cons e rest ih =>
    obtain ⟨k', v'⟩ := e
    simp only [get?] at h
    split at h
    · cases h
      simp [*]
    · exact List.mem_cons_of_mem _ (ih h)

/-! ## Key order -/

/-- The entries are in key order, so no key is entered twice. -/
def Sorted (es : List (String × α)) : Prop := es.Pairwise (·.1 < ·.1)

theorem Sorted.nodup {es : List (String × α)} (h : Sorted es) : (keys es).Nodup := by
  refine List.pairwise_map.mpr (h.imp ?_)
  intro a b hab he
  rw [he] at hab
  exact String.lt_irrefl _ hab

theorem Sorted.erase {es : List (String × α)} (h : Sorted es) (k : String) : Sorted (erase k es) := h.filter _

theorem mem_put {k : String} {v : α} {es : List (String × α)} {e : String × α} (he : e ∈ put k v es) :
    e = (k, v) ∨ e ∈ es := by
  induction es with
  | nil => exact .inl (List.mem_singleton.mp he)
  | cons e' rest ih =>
    obtain ⟨k', v'⟩ := e'
    simp only [put] at he
    split at he
    · rcases List.mem_cons.mp he with he | he
      · exact .inl he
      · exact .inr (List.mem_cons_of_mem _ he)
    · split at he
      · exact List.mem_cons.mp he
      · rcases List.mem_cons.mp he with he | he
        · exact .inr (he ▸ List.mem_cons_self)
        · exact (ih he).imp_right (List.mem_cons_of_mem _)

theorem Sorted.put {es : List (String × α)} (h : Sorted es) (k : String) (v : α) : Sorted (put k v es) := by
  induction es with
  | nil => exact List.pairwise_singleton _ _
  | cons e rest ih =>
    obtain ⟨k', v'⟩ := e
    obtain ⟨hlt, hrest⟩ := List.pairwise_cons.mp h
    simp only [Assoc.put]
    split
    · rename_i heq
      exact List.pairwise_cons.mpr ⟨heq ▸ hlt, hrest⟩
    · rename_i hne
      split
      · rename_i hk
        refine List.pairwise_cons.mpr ⟨?_, h⟩
        intro e he
        rcases List.mem_cons.mp he with rfl | he
        · exact hk
        · exact String.lt_trans hk (hlt e he)
      · rename_i hk
        have hk' : k' < k := Std.lt_of_le_of_ne (String.not_lt.mp hk) hne
        refine List.pairwise_cons.mpr ⟨?_, ih hrest⟩
        intro e he
        rcases mem_put he with rfl | he
        · exact hk'
        · exact hlt e he

theorem sorted_ofList (es : List (String × α)) : Sorted (ofList es) :=
  List.foldlRecOn (motive := Sorted) es _ .nil fun _ h e _ => h.put e.1 e.2

theorem mem_ofList {es : List (String × α)} {e : String × α} (he : e ∈ ofList es) : e ∈ es := by
  have hall : ∀ e ∈ ofList es, e ∈ es := by
    refine List.foldlRecOn (motive := fun acc => ∀ e ∈ acc, e ∈ es) es _ (fun _ he => by cases he) ?_
    intro acc hacc e' he' e he
    rcases mem_put he with rfl | he
    · exact he'
    · exact hacc e he
  exact hall e he

/-- The entry of a key comes in place of the one there was. -/
theorem Sorted.put_perm {es : List (String × α)} (h : Sorted es) (k : String) (v : α) :
    (Assoc.put k v es).Perm ((k, v) :: Assoc.erase k es) := by
  induction es with
  | nil => exact .refl _
  | cons e rest ih =>
    obtain ⟨k', v'⟩ := e
    obtain ⟨hlt, hrest⟩ := List.pairwise_cons.mp h
    have hkeep : ∀ {x : String}, (∀ e ∈ rest, x < e.1) → Assoc.erase x rest = rest := by
      intro x hx
      refine List.filter_eq_self.mpr fun e he => bne_iff_ne.mpr fun heq => ?_
      exact String.lt_irrefl x (heq ▸ hx e he)
    simp only [Assoc.put]
    split
    · rename_i heq
      subst heq
      have herase : Assoc.erase k' ((k', v') :: rest) = rest := by
        have := hkeep hlt
        simpa [Assoc.erase] using this
      rw [herase]
    · rename_i hne
      have herase : Assoc.erase k ((k', v') :: rest) = (k', v') :: Assoc.erase k rest := by
        simp [Assoc.erase, hne]
      rw [herase]
      split
      · rename_i hk
        rw [hkeep fun e he => String.lt_trans hk (hlt e he)]
      · exact ((ih hrest).cons _).trans (.swap _ _ _)

/-- To enter again what is there changes nothing. -/
theorem Sorted.put_of_get? {es : List (String × α)} (h : Sorted es) {k : String} {v : α} (hg : get? k es = some v) :
    Assoc.put k v es = es := by
  induction es with
  | nil => cases hg
  | cons e rest ih =>
    obtain ⟨k', v'⟩ := e
    obtain ⟨hlt, hrest⟩ := List.pairwise_cons.mp h
    simp only [get?] at hg
    simp only [Assoc.put]
    split
    · rename_i heq
      rw [if_pos heq] at hg
      cases hg
      rw [heq]
    · rename_i hne
      rw [if_neg hne] at hg
      have hk' : k' < k := hlt _ (mem_of_get? hg)
      rw [if_neg (String.lt_asymm hk'), ih hrest hg]

theorem Sorted.length_put {es : List (String × α)} (h : Sorted es) {k : String} {v : α} (hg : get? k es = some v)
    (v' : α) : (Assoc.put k v' es).length = es.length := by
  have hold := (h.put_perm k v).length_eq
  rw [h.put_of_get? hg] at hold
  rw [(h.put_perm k v').length_eq, hold]
  rfl

/-- Where no key is entered twice, entries are what is looked up. -/
theorem get?_eq_some_iff {es : List (String × α)} (h : (keys es).Nodup) {k : String} {v : α} :
    get? k es = some v ↔ (k, v) ∈ es := by
  refine ⟨mem_of_get?, fun hm => ?_⟩
  induction es with
  | nil => cases hm
  | cons e rest ih =>
    obtain ⟨k', v'⟩ := e
    obtain ⟨hnot, hrest⟩ := List.nodup_cons.mp h
    rcases List.mem_cons.mp hm with heq | hm
    · cases heq
      simp [get?]
    · have hne : k' ≠ k := fun heq => hnot (List.mem_map.mpr ⟨_, hm, heq.symm⟩)
      simp [get?, hne, ih hrest hm]

@[simp] theorem get?_erase_self (k : String) (es : List (String × α)) : get? k (erase k es) = none := by
  induction es with
  | nil => rfl
  | cons e rest ih =>
    by_cases hk : e.1 = k
    · simpa [erase, hk] using ih
    · simpa [erase, hk, get?] using ih

@[simp] theorem get?_erase_of_ne {k k' : String} (h : k' ≠ k) (es : List (String × α)) :
    get? k' (erase k es) = get? k' es := by
  induction es with
  | nil => rfl
  | cons e rest ih =>
    by_cases hk : e.1 = k
    · simpa [erase, hk, get?, Ne.symm h] using ih
    · have ih' : get? k' (rest.filter (·.1 != k)) = get? k' rest := ih
      simp [erase, hk, get?, ih']

end PageServer.Assoc
