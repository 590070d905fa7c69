/-
  PageServer.Proofs.Places — the cached pages at places of their own.

  Where several requests work on a page at the same time, each of them has found out where it is, and
  works on it there. The cache then holds the places of its pages (`PageCache.places`), and the pages
  stand beside it. Looking a page up, working on it and saving another one does the same to both as
  it does to a cache with the pages in it (`PageCache.Placed`).
-/

import PageServer.Proofs.CachedPages

namespace PageServer

/-- The cache with places for its pages. -/
def PageCache.places {α : Type} (c : PageCache α) : PageCache Nat where
  capacity := c.capacity
  entries := c.entries.mapIdx fun place e => (e.1, e.2.1, place)
  recency := c.recency
  clock := c.clock

namespace PageCache

variable {α : Type} {c : PageCache α} {id id' : String}

theorem contextIds_save (h : c.Tied) (id : String) (page : α) : (c.save id page).2.contextIds =
    (c.contextIds.erase id ++ [id]).drop ((c.contextIds.erase id ++ [id]).length - c.capacity) := by
  obtain ⟨ht, -, hlist⟩ := h.save id page
  have hkeys : Assoc.keys (Assoc.erase id c.pageList ++ [(id, page)]) = c.contextIds.erase id ++ [id] := by
    rw [← h.keys_erase, Assoc.keys, List.map_append]
    rfl
  rw [ht.contextIds_eq, hlist, ← hkeys, Assoc.keys, Assoc.keys, List.length_map, ← List.map_drop]
  rfl

/-- Saving a page makes no other id known to the cache. -/
theorem mem_contextIds_of_save (h : c.Tied) {page : α} (hmem : id' ∈ (c.save id page).2.contextIds) :
    id' ∈ c.contextIds ∨ id' = id := by
  rw [contextIds_save h] at hmem
  rcases List.mem_append.mp (List.mem_of_mem_drop hmem) with hmem | hmem
  · exact .inl (List.mem_of_mem_erase hmem)
  · exact .inr (List.mem_singleton.mp hmem)

/-- Nor does looking for one. -/
theorem mem_contextIds_of_reuse (h : c.Tied) (hmem : id' ∈ (c.reuse id).2.contextIds) : id' ∈ c.contextIds := by
  rcases hp : c.page? id with _ | p
  · rwa [reuse_of_miss hp] at hmem
  · rw [(reuse_of_page? h hp).2.contextIds] at hmem
    rcases List.mem_append.mp hmem with hmem | hmem
    · exact List.mem_of_mem_erase hmem
    · rw [List.mem_singleton.mp hmem]
      exact h.mem_contextIds.mpr ⟨p, hp⟩

theorem capacity_update (c : PageCache α) (id : String) (page : α) : (c.update id page).capacity = c.capacity := by
  unfold update
  split <;> rfl

theorem contextIds_update (c : PageCache α) (id : String) (page : α) : (c.update id page).contextIds = c.contextIds := by
  unfold update
  split <;> rfl

theorem page?_update {p : α} (h : c.page? id = some p) (q : α) :
    (c.update id q).page? id' = if id' = id then some q else c.page? id' := by
  obtain ⟨⟨stamp, _⟩, he, -⟩ := Option.map_eq_some_iff.mp h
  simp only [update, he, page?]
  split
  · rename_i heq
    rw [heq, Assoc.get?_put_self]
    rfl
  · rename_i hne
    rw [Assoc.get?_put_of_ne hne]

theorem pageList_eq (c : PageCache α) : c.pageList = c.contextIds.filterMap fun id => (c.page? id).map (id, ·) := by
  rw [pageList, inOrder, contextIds, List.filterMap_map]
  refine List.filterMap_congr fun r _ => ?_
  rw [Function.comp_apply, page?, Option.map_map]
  rfl

/-- The pages of the cache are at these places, each at one of its own. -/
structure Placed (places : PageCache Nat) (pages : List α) (c : PageCache α) : Prop where
  tied : places.Tied
  tied' : c.Tied
  capacity : places.capacity = c.capacity
  contextIds : places.contextIds = c.contextIds
  page : ∀ id, (places.page? id).bind (pages[·]?) = c.page? id
  apart : ∀ id id' place, places.page? id = some place → places.page? id' = some place → id = id'

theorem Tied.places (h : c.Tied) : c.places.Tied := by
  have hkeys : c.places.entries.map (·.1) = c.entries.map (·.1) :=
    List.ext_getElem (by simp [PageCache.places]) (by simp [PageCache.places])
  have hstamps : c.places.entries.map stampOf = c.entries.map stampOf :=
    List.ext_getElem (by simp [PageCache.places]) (by simp [PageCache.places, stampOf])
  have hlength : c.places.entries.length = c.entries.length := by simp [PageCache.places]
  refine ⟨⟨?_, h.linked.recency_sorted, hstamps ▸ h.linked.perm⟩, h.clock, ?_, h.capacity⟩
  · have hsorted := List.pairwise_map.mpr h.linked.entries_sorted
    rw [← hkeys] at hsorted
    exact List.pairwise_map.mp hsorted
  · exact Nat.le_trans (Nat.le_of_eq hlength) h.size

theorem Tied.placed (h : c.Tied) : Placed c.places (c.entries.map (·.2.2)) c := by
  have hsorted := h.places.linked.entries_sorted
  have hfind : ∀ {id place}, c.places.page? id = some place ↔
      ∃ hlt : place < c.entries.length, c.entries[place].1 = id := by
    intro id place
    rw [page?, Option.map_eq_some_iff]
    constructor
    · rintro ⟨⟨stamp, _⟩, he, rfl⟩
      obtain ⟨place', hlt, heq⟩ := List.mem_mapIdx.mp (Assoc.mem_of_get? he)
      cases heq
      exact ⟨hlt, rfl⟩
    · rintro ⟨hlt, rfl⟩
      refine ⟨(c.entries[place].2.1, place), (Assoc.get?_eq_some_iff hsorted.nodup).mpr ?_, rfl⟩
      exact List.mem_mapIdx.mpr ⟨place, hlt, rfl⟩
  refine ⟨h.places, h, rfl, rfl, fun id => ?_, fun id id' place hplace hplace' => ?_⟩
  · ext p
    rw [Option.bind_eq_some_iff, show c.page? id = (Assoc.get? id c.entries).map (·.2) from rfl, Option.map_eq_some_iff]
    constructor
    · rintro ⟨place, hplace, hp⟩
      obtain ⟨hlt, rfl⟩ := hfind.mp hplace
      rw [List.getElem?_map, List.getElem?_eq_getElem hlt] at hp
      refine ⟨c.entries[place].2, ?_, Option.some.inj hp⟩
      exact (Assoc.get?_eq_some_iff h.linked.entries_sorted.nodup).mpr (List.getElem_mem hlt)
    · rintro ⟨⟨stamp, _⟩, he, rfl⟩
      obtain ⟨place, hlt, heq⟩ := List.mem_iff_getElem.mp (Assoc.mem_of_get? he)
      refine ⟨place, hfind.mpr ⟨hlt, congrArg Prod.fst heq⟩, ?_⟩
      rw [List.getElem?_map, List.getElem?_eq_getElem hlt, heq]
      rfl
  · obtain ⟨-, rfl⟩ := hfind.mp hplace
    obtain ⟨-, rfl⟩ := hfind.mp hplace'
    rfl

namespace Placed

variable {places : PageCache Nat} {pages : List α} {place : Nat} {p : α}

theorem page?_none (h : Placed places pages c) (hp : c.page? id = none) : places.page? id = none := by
  rcases hplace : places.page? id with _ | place
  · rfl
  · have hmem : id ∈ places.contextIds := h.tied.mem_contextIds.mpr ⟨place, hplace⟩
    rw [h.contextIds] at hmem
    obtain ⟨p, hp'⟩ := h.tied'.mem_contextIds.mp hmem
    rw [hp] at hp'
    cases hp'

/-- The pages at their places, in the order of their last uses, are those of the cache. -/
theorem pageList_eq (h : Placed places pages c) :
    (places.contextIds.filterMap fun id => ((places.page? id).bind (pages[·]?)).map (id, ·)) = c.pageList := by
  rw [PageCache.pageList_eq, h.contextIds]
  refine List.filterMap_congr fun id _ => ?_
  rw [h.page id]

theorem exists_place (h : Placed places pages c) (hp : c.page? id = some p) :
    ∃ place, places.page? id = some place ∧ pages[place]? = some p := by
  have hpage := h.page id
  rw [hp] at hpage
  exact Option.bind_eq_some_iff.mp hpage

theorem lt_length (h : Placed places pages c) (hplace : places.page? id = some place) : place < pages.length := by
  have hmem : id ∈ places.contextIds := h.tied.mem_contextIds.mpr ⟨place, hplace⟩
  rw [h.contextIds] at hmem
  obtain ⟨p, hp⟩ := h.tied'.mem_contextIds.mp hmem
  obtain ⟨place', hplace', hget⟩ := h.exists_place hp
  rw [hplace] at hplace'
  cases hplace'
  exact (List.getElem?_eq_some_iff.mp hget).1

/-- A page is found where its place is. -/
theorem reuse (h : Placed places pages c) (hp : c.page? id = some p) :
    ∃ place, (places.reuse id).1 = .ok place ∧ pages[place]? = some p ∧ Placed (places.reuse id).2 pages (c.reuse id).2 ∧
      (places.reuse id).2.page? id = some place := by
  obtain ⟨place, hplace, hget⟩ := h.exists_place hp
  obtain ⟨hok, hheld⟩ := reuse_of_page? h.tied hplace
  obtain ⟨-, hheld'⟩ := reuse_of_page? h.tied' hp
  have hsame : ∀ id', (places.reuse id).2.page? id' = places.page? id' := by
    intro id'
    by_cases hid : id' = id
    · rw [hid, hheld.page, hplace]
    · exact hheld.others id' hid
  refine ⟨place, hok, hget, ⟨hheld.tied, hheld'.tied, ?_, ?_, fun id' => ?_, fun id' id'' place' => ?_⟩, hheld.page⟩
  · rw [hheld.capacity, hheld'.capacity, h.capacity]
  · rw [hheld.contextIds, hheld'.contextIds, h.contextIds]
  · rw [hsame, h.page]
    by_cases hid : id' = id
    · rw [hid, hheld'.page, hp]
    · exact (hheld'.others id' hid).symm
  · rw [hsame, hsame]
    exact h.apart id' id'' place'

/-- What has become of a page is at its place. -/
theorem update (h : Placed places pages c) (hplace : places.page? id = some place) (q : α) :
    Placed places (pages.set place q) (c.update id q) := by
  have hlt := h.lt_length hplace
  obtain ⟨p, hp⟩ : ∃ p, c.page? id = some p := by
    have hpage := h.page id
    rw [hplace, Option.bind_some, List.getElem?_eq_getElem hlt] at hpage
    exact ⟨_, hpage.symm⟩
  refine ⟨h.tied, h.tied'.update id q, ?_, ?_, fun id' => ?_, h.apart⟩
  · rw [capacity_update, h.capacity]
  · rw [contextIds_update, h.contextIds]
  · rw [page?_update hp, ← h.page id']
    split
    · rename_i heq
      rw [heq, hplace, Option.bind_some, List.getElem?_set_self hlt]
    · rename_i hne
      rcases hplace' : places.page? id' with _ | place'
      · rfl
      · have hplaces : place ≠ place' := fun heq => hne (h.apart id' id place' hplace' (heq ▸ hplace))
        rw [Option.bind_some, Option.bind_some, List.getElem?_set_ne hplaces]

/-- Nobody finds what is at a place that is not in the cache. -/
theorem set (h : Placed places pages c) (hplace : ∀ id, places.page? id ≠ some place) (q : α) :
    Placed places (pages.set place q) c := by
  refine ⟨h.tied, h.tied', h.capacity, h.contextIds, fun id => ?_, h.apart⟩
  rw [← h.page id]
  rcases hplace' : places.page? id with _ | place'
  · rfl
  · have hplaces : place ≠ place' := fun heq => hplace id (heq ▸ hplace')
    rw [Option.bind_some, Option.bind_some, List.getElem?_set_ne hplaces]

/-- A page that is saved gets a new place. -/
theorem save (h : Placed places pages c) (id : String) (q : α) :
    Placed (places.save id pages.length).2 (pages ++ [q]) (c.save id q).2 := by
  have hsaved := h.tied.saved id pages.length
  have hsaved' := h.tied'.saved id q
  have hids : (places.save id pages.length).2.contextIds = (c.save id q).2.contextIds := by
    rw [contextIds_save h.tied, contextIds_save h.tied', h.contextIds, h.capacity]
  have hold : ∀ {id' place'}, id' ≠ id → (places.save id pages.length).2.page? id' = some place' →
      places.page? id' = some place' := by
    intro id' place' hne hplace
    rw [hsaved.others id' hne] at hplace
    split at hplace
    · exact hplace
    · cases hplace
  refine ⟨hsaved.tied, hsaved'.tied, ?_, hids, fun id' => ?_, fun id' id'' place' hplace hplace' => ?_⟩
  · rw [hsaved.capacity, hsaved'.capacity, h.capacity]
  · by_cases hid : id' = id
    · rw [hid, hsaved.page, hsaved'.page]
      simp
    · rw [hsaved.others id' hid, hsaved'.others id' hid, hids]
      split
      · rw [← h.page id']
        rcases hplace : places.page? id' with _ | place'
        · rfl
        · rw [Option.bind_some, Option.bind_some, List.getElem?_append_left (h.lt_length hplace)]
      · rfl
  · by_cases hid : id' = id <;> by_cases hid' : id'' = id
    · rw [hid, hid']
    · rw [hid, hsaved.page] at hplace
      cases hplace
      exact absurd (h.lt_length (hold hid' hplace')) (Nat.lt_irrefl _)
    · rw [hid', hsaved.page] at hplace'
      cases hplace'
      exact absurd (h.lt_length (hold hid hplace)) (Nat.lt_irrefl _)
    · exact h.apart id' id'' place' (hold hid hplace) (hold hid' hplace')

end Placed

/-! ## The page used last -/

/-- The page of `id` was used last, stands at `place`, and is `page`; the others are as in `c`. -/
structure Cached (c : PageCache α) (id : String) (places : PageCache Nat) (pages : List α) (place : Nat) (page : α) :
    Prop where
  cache : ∃ c', Placed places pages c' ∧ Held c id page c'
  found : places.page? id = some place

theorem Placed.cached {places : PageCache Nat} {pages : List α} {p : α} (h : Placed places pages c)
    (hp : c.page? id = some p) :
    ∃ place, (places.reuse id).1 = .ok place ∧ Cached c id (places.reuse id).2 pages place p := by
  obtain ⟨place, hok, -, hplaced, hfound⟩ := h.reuse hp
  exact ⟨place, hok, ⟨_, hplaced, (reuse_of_page? h.tied' hp).2⟩, hfound⟩

namespace Cached

variable {places : PageCache Nat} {pages : List α} {place place' : Nat} {page : α}

theorem getElem? (h : Cached c id places pages place page) : pages[place]? = some page := by
  obtain ⟨c', hplaced, hheld⟩ := h.cache
  have hpage := hplaced.page id
  rwa [h.found, hheld.page] at hpage

theorem reuse (h : Cached c id places pages place page) :
    (places.reuse id).1 = .ok place ∧ Cached c id (places.reuse id).2 pages place page := by
  obtain ⟨c', hplaced, hheld⟩ := h.cache
  obtain ⟨place', hok, -, hplaced', hfound⟩ := hplaced.reuse hheld.page
  have hsame : place' = place := by
    have hreuse := (reuse_of_page? hplaced.tied h.found).1
    rw [hok] at hreuse
    exact Except.ok.inj hreuse
  exact ⟨hsame ▸ hok, ⟨_, hplaced', hheld.again (reuse_of_page? hplaced.tied' hheld.page).2⟩, hsame ▸ hfound⟩

theorem update (h : Cached c id places pages place page) (q : α) : Cached c id places (pages.set place q) place q := by
  obtain ⟨c', hplaced, hheld⟩ := h.cache
  exact ⟨⟨_, hplaced.update h.found q, hheld.update q⟩, h.found⟩

theorem set (h : Cached c id places pages place page) (hplace : ∀ id, places.page? id ≠ some place') (q : α) :
    Cached c id places (pages.set place' q) place page := by
  obtain ⟨c', hplaced, hheld⟩ := h.cache
  exact ⟨⟨c', hplaced.set hplace q, hheld⟩, h.found⟩

/-- A page that is saved under the same id is at a new place, and nobody finds the old one. -/
theorem save (h : Cached c id places pages place page) (q : α) :
    Cached c id (places.save id pages.length).2 (pages ++ [q]) pages.length q ∧
      ∀ id', (places.save id pages.length).2.page? id' ≠ some place := by
  obtain ⟨c', hplaced, hheld⟩ := h.cache
  have hsaved := hplaced.tied.saved id pages.length
  refine ⟨⟨⟨_, hplaced.save id q, hheld.save q⟩, hsaved.page⟩, fun id' hid' => ?_⟩
  by_cases hid : id' = id
  · rw [hid, hsaved.page] at hid'
    cases hid'
    exact Nat.lt_irrefl _ (hplaced.lt_length h.found)
  · rw [hsaved.others id' hid] at hid'
    split at hid'
    · exact hid (hplaced.apart id' id place hid' h.found)
    · cases hid'

/-- Any cache that has used the page last, with the others as in `c`, is at these places. -/
theorem placed {c' : PageCache α} (h : Cached c id places pages place page) (h' : Held c id page c') :
    Placed places pages c' := by
  obtain ⟨c'', hplaced, hheld⟩ := h.cache
  refine ⟨hplaced.tied, h'.tied, ?_, ?_, fun id' => ?_, hplaced.apart⟩
  · rw [hplaced.capacity, hheld.capacity, h'.capacity]
  · rw [hplaced.contextIds, hheld.contextIds, h'.contextIds]
  · rw [hplaced.page id']
    by_cases hid : id' = id
    · rw [hid, hheld.page, h'.page]
    · rw [hheld.others id' hid, h'.others id' hid]

end Cached

end PageCache

end PageServer
