/-
  PageServer.Proofs.PageList — the page cache is a list of pages, least recently used first.

  The cache keeps two tables: `entries` from ids to stamps and pages, and `recency` from stamps to
  ids. `Linked` ties them together: the stamps in `recency` are those of the entries, oldest first.
  Every operation keeps that, and the rest of what `Tied` says. Read through `recency`, the
  entries are then a list without double ids (`pageList`). On it a save moves to the end and drops
  from the front, a use moves to the end, and a look-up changes nothing; whatever the cache
  answers is what this list answers (`PageCache.answers_as_list`).
-/

import PageServer.PageCache
import Mathlib.Data.List.Nodup

namespace PageServer

variable {α : Type}

/-! ## Lists of pages -/

/-- Pages by context id, least recently used first. -/
abbrev PageList (α : Type) := List (String × α)

namespace PageList

/-- The page comes last, in place of one with the same id. What is then too much is dropped from the
    front; the ids of that come first. -/
def save (capacity : Nat) (l : PageList α) (id : String) (page : α) : List String × PageList α :=
  let l := Assoc.erase id l ++ [(id, page)]
  ((l.take (l.length - capacity)).map (·.1), l.drop (l.length - capacity))

def restore (l : PageList α) (id : String) : Except PageCacheMiss α :=
  match Assoc.get? id l with
  | some page => .ok page
  | none => .error ⟨id⟩

/-- The page comes last. -/
def retain (l : PageList α) (id : String) : Except PageCacheMiss Unit × PageList α :=
  match Assoc.get? id l with
  | some page => (.ok (), Assoc.erase id l ++ [(id, page)])
  | none => (.error ⟨id⟩, l)

end PageList

/-! ## Using a cache or a list -/

inductive PageUse (α : Type) where
  | save (id : String) (page : α)
  | restore (id : String)
  | retain (id : String)

inductive PageAnswer (α : Type) where
  | dropped (ids : List String)
  | restored (result : Except PageCacheMiss α)
  | retained (result : Except PageCacheMiss Unit)

def PageCache.use (c : PageCache α) : PageUse α → PageAnswer α × PageCache α
  | .save id page => (.dropped (c.save id page).1, (c.save id page).2)
  | .restore id => (.restored (c.restore id), c)
  | .retain id => (.retained (c.retain id).1, (c.retain id).2)

def PageCache.useAll (c : PageCache α) : List (PageUse α) → List (PageAnswer α) × PageCache α
  | [] => ([], c)
  | u :: rest => ((c.use u).1 :: ((c.use u).2.useAll rest).1, ((c.use u).2.useAll rest).2)

def PageList.use (capacity : Nat) (l : PageList α) : PageUse α → PageAnswer α × PageList α
  | .save id page => (.dropped (l.save capacity id page).1, (l.save capacity id page).2)
  | .restore id => (.restored (l.restore id), l)
  | .retain id => (.retained (l.retain id).1, (l.retain id).2)

def PageList.useAll (capacity : Nat) (l : PageList α) : List (PageUse α) → List (PageAnswer α) × PageList α
  | [] => ([], l)
  | u :: rest =>
    ((l.use capacity u).1 :: (useAll capacity (l.use capacity u).2 rest).1,
      (useAll capacity (l.use capacity u).2 rest).2)

/-- The page that was saved last under an id, or else `before`. -/
def lastSaved (id : String) (before : Option α) : List (PageUse α) → Option α
  | [] => before
  | .save id' page :: rest => lastSaved id (if id' = id then some page else before) rest
  | _ :: rest => lastSaved id before rest

/-! ## Two tables and a clock -/

/-- An entry as the other table has it. -/
def stampOf (e : String × Nat × α) : Nat × String := (e.2.1, e.1)

/-- Each entry's stamp leads back to its id, and no other stamp leads anywhere. -/
structure Linked (recency : List (Nat × String)) (entries : List (String × Nat × α)) : Prop where
  entries_sorted : Assoc.Sorted entries
  recency_sorted : recency.Pairwise (·.1 < ·.1)
  perm : recency.Perm (entries.map stampOf)

/-- The entries in the order of the other table. -/
def inOrder (recency : List (Nat × String)) (entries : List (String × Nat × α)) : PageList α :=
  recency.filterMap fun r => (Assoc.get? r.2 entries).map fun e => (r.2, e.2)

structure PageCache.Tied (c : PageCache α) : Prop where
  linked : Linked c.recency c.entries
  clock : ∀ r ∈ c.recency, r.1 ≤ c.clock
  size : c.size ≤ c.capacity
  capacity : 0 < c.capacity

/-- The pages as they would be dropped. -/
def PageCache.pageList (c : PageCache α) : PageList α := inOrder c.recency c.entries

namespace Linked

variable {recency : List (Nat × String)} {entries : List (String × Nat × α)}

theorem length (h : Linked recency entries) : entries.length = recency.length := by
  simpa using h.perm.length_eq.symm

theorem mem_iff (h : Linked recency entries) {stamp : Nat} {id : String} :
    (stamp, id) ∈ recency ↔ ∃ page, Assoc.get? id entries = some (stamp, page) := by
  rw [h.perm.mem_iff, List.mem_map]
  constructor
  · rintro ⟨⟨id', stamp', page⟩, he, heq⟩
    cases heq
    exact ⟨page, (Assoc.get?_eq_some_iff h.entries_sorted.nodup).mpr he⟩
  · rintro ⟨page, hp⟩
    exact ⟨(id, stamp, page), Assoc.mem_of_get? hp, rfl⟩

/-- Ids stand in the order of their stamps, none of them twice. -/
theorem ids_nodup (h : Linked recency entries) : (recency.map (·.2)).Nodup := by
  have hids : (recency.map (·.2)).Perm (Assoc.keys entries) := by
    have := h.perm.map (·.2)
    rwa [List.map_map] at this
  exact hids.nodup_iff.mpr h.entries_sorted.nodup

theorem keys_inOrder (h : Linked recency entries) : Assoc.keys (inOrder recency entries) = recency.map (·.2) := by
  have hsome : ∀ r ∈ recency,
      ((Assoc.get? r.2 entries).map fun e => (r.2, e.2)).map (·.1) = some r.2 := by
    intro r hr
    obtain ⟨page, hp⟩ := h.mem_iff.mp hr
    rw [hp]
    rfl
  rw [Assoc.keys, inOrder, List.map_filterMap, List.filterMap_congr hsome, List.filterMap_eq_map']

theorem length_inOrder (h : Linked recency entries) : (inOrder recency entries).length = entries.length := by
  have hlen := congrArg List.length h.keys_inOrder
  simpa [Assoc.keys, h.length] using hlen

theorem get?_inOrder (h : Linked recency entries) (id : String) :
    Assoc.get? id (inOrder recency entries) = (Assoc.get? id entries).map (·.2) := by
  have hnodup : (Assoc.keys (inOrder recency entries)).Nodup := h.keys_inOrder ▸ h.ids_nodup
  ext page
  rw [Assoc.get?_eq_some_iff hnodup, inOrder, List.mem_filterMap]
  constructor
  · rintro ⟨⟨stamp, id'⟩, -, hp⟩
    obtain ⟨e, he, heq⟩ := Option.map_eq_some_iff.mp hp
    cases heq
    rw [he]
    rfl
  · intro hp
    obtain ⟨⟨stamp, page'⟩, he, rfl⟩ := Option.map_eq_some_iff.mp hp
    exact ⟨(stamp, id), h.mem_iff.mpr ⟨_, he⟩, by rw [he]; rfl⟩

/-- Without the entry of an id the other table is without its stamp. -/
theorem perm_erase (h : Linked recency entries) (id : String) :
    (recency.filter (·.2 != id)).Perm ((Assoc.erase id entries).map stampOf) := by
  have hf := h.perm.filter (·.2 != id)
  rwa [List.filter_map] at hf

theorem erase (h : Linked recency entries) (id : String) :
    Linked (recency.filter (·.2 != id)) (Assoc.erase id entries) :=
  ⟨h.entries_sorted.erase id, h.recency_sorted.filter _, h.perm_erase id⟩

/-- What is not looked up does not matter. -/
theorem inOrder_congr {entries' : List (String × Nat × α)}
    (h : ∀ r ∈ recency, (Assoc.get? r.2 entries').map (·.2) = (Assoc.get? r.2 entries).map (·.2)) :
    inOrder recency entries' = inOrder recency entries := by
  refine List.filterMap_congr fun r hr => ?_
  have hpage : ∀ o : Option (Nat × α), (o.map fun e => (r.2, e.2)) = (o.map (·.2)).map fun p => (r.2, p) := by
    intro o
    cases o <;> rfl
  rw [hpage, hpage, h r hr]

theorem inOrder_erase (id : String) :
    inOrder (recency.filter (·.2 != id)) (Assoc.erase id entries) = Assoc.erase id (inOrder recency entries) := by
  have hother : ∀ r ∈ recency.filter (·.2 != id),
      (Assoc.get? r.2 (Assoc.erase id entries)).map (·.2) = (Assoc.get? r.2 entries).map (·.2) := by
    intro r hr
    have hne : r.2 ≠ id := bne_iff_ne.mp (List.mem_filter.mp hr).2
    rw [Assoc.get?_erase_of_ne hne]
  rw [inOrder_congr hother, Assoc.erase, inOrder, inOrder, List.filterMap_filter, List.filter_filterMap]
  refine List.filterMap_congr fun r _ => ?_
  rcases Assoc.get? r.2 entries with _ | e
  · simp
  · by_cases hid : r.2 = id <;> simp [hid, Option.filter]

/-! ### Giving a new stamp -/

theorem restamp_eq (h : Linked recency entries) (stamp : Nat) (id : String) :
    PageCache.restamp ((Assoc.get? id entries).map (·.1)) stamp id recency =
      recency.filter (·.2 != id) ++ [(stamp, id)] := by
  have hsame : ∀ r ∈ recency, ((Assoc.get? id entries).map (·.1) != some r.1) = (r.2 != id) := by
    rintro ⟨stamp', id'⟩ hr
    rw [Bool.eq_iff_iff, bne_iff_ne, bne_iff_ne, not_iff_not]
    constructor
    · intro hs
      obtain ⟨⟨stamp'', page⟩, he, rfl⟩ := Option.map_eq_some_iff.mp hs
      have hr' := h.mem_iff.mpr ⟨page, he⟩
      have hnodup : (recency.map (·.1)).Nodup :=
        (List.pairwise_map.mpr (h.recency_sorted.imp Nat.ne_of_lt))
      exact congrArg Prod.snd (List.inj_on_of_nodup_map hnodup hr hr' rfl)
    · rintro rfl
      obtain ⟨page, he⟩ := h.mem_iff.mp hr
      rw [he]
      rfl
  rw [PageCache.restamp, List.filter_congr hsame]

/-- A use at a new stamp puts the page last. -/
theorem restamp (h : Linked recency entries) {stamp : Nat} (hnew : ∀ r ∈ recency, r.1 < stamp) (id : String)
    (page : α) :
    Linked (PageCache.restamp ((Assoc.get? id entries).map (·.1)) stamp id recency)
      (Assoc.put id (stamp, page) entries) := by
  rw [h.restamp_eq]
  refine ⟨h.entries_sorted.put _ _, ?_, ?_⟩
  · refine List.pairwise_append.mpr ⟨h.recency_sorted.filter _, List.pairwise_singleton _ _, ?_⟩
    intro r hr r' hr'
    rw [List.mem_singleton.mp hr']
    exact hnew r (List.mem_filter.mp hr).1
  · have hput := (h.entries_sorted.put_perm id (stamp, page)).map stampOf
    exact (((h.perm_erase id).append_right _).trans List.perm_append_comm).trans hput.symm

theorem inOrder_restamp (h : Linked recency entries) (stamp : Nat) (id : String) (page : α) :
    inOrder (PageCache.restamp ((Assoc.get? id entries).map (·.1)) stamp id recency)
        (Assoc.put id (stamp, page) entries) =
      Assoc.erase id (inOrder recency entries) ++ [(id, page)] := by
  have hother : ∀ r ∈ recency.filter (·.2 != id), (Assoc.get? r.2 (Assoc.put id (stamp, page) entries)).map (·.2) =
      (Assoc.get? r.2 (Assoc.erase id entries)).map (·.2) := by
    intro r hr
    have hne : r.2 ≠ id := bne_iff_ne.mp (List.mem_filter.mp hr).2
    rw [Assoc.get?_put_of_ne hne, Assoc.get?_erase_of_ne hne]
  rw [h.restamp_eq, ← inOrder_erase, ← inOrder_congr hother, inOrder, List.filterMap_append, ← inOrder]
  simp

/-! ### Dropping what was not used for the longest time -/

theorem tail {stamp : Nat} {id : String} (h : Linked ((stamp, id) :: recency) entries) :
    Linked recency (Assoc.erase id entries) ∧
      ∃ page, inOrder ((stamp, id) :: recency) entries = (id, page) :: inOrder recency (Assoc.erase id entries) := by
  have hnot : ∀ r ∈ recency, (r.2 != id) = true := by
    intro r hr
    have hid := (List.nodup_cons.mp h.ids_nodup).1
    exact bne_iff_ne.mpr fun heq => hid (List.mem_map.mpr ⟨r, hr, heq⟩)
  have hrest : ((stamp, id) :: recency).filter (·.2 != id) = recency := by
    rw [List.filter_cons_of_neg (by simp), List.filter_eq_self.mpr hnot]
  have hlinked := h.erase id
  rw [hrest] at hlinked
  refine ⟨hlinked, ?_⟩
  obtain ⟨page, hp⟩ := h.mem_iff.mp List.mem_cons_self
  refine ⟨page, ?_⟩
  have hothers : inOrder recency (Assoc.erase id entries) = inOrder recency entries :=
    inOrder_congr fun r hr => by rw [Assoc.get?_erase_of_ne (bne_iff_ne.mp (hnot r hr))]
  rw [hothers, inOrder, List.filterMap_cons_some (b := (id, page)) (by rw [hp]; rfl), ← inOrder]

/-- As many are dropped as there are too many, from the front. -/
theorem evict (h : Linked recency entries) (capacity : Nat) :
    let o := PageCache.evict capacity recency entries
    Linked o.2.1 o.2.2 ∧ o.2.1 <:+ recency ∧
      o.1 = ((inOrder recency entries).take (entries.length - capacity)).map (·.1) ∧
      inOrder o.2.1 o.2.2 = (inOrder recency entries).drop (entries.length - capacity) := by
  induction recency generalizing entries with
  | nil =>
    have hlen := h.length
    have hnil : entries = [] := List.eq_nil_of_length_eq_zero hlen
    subst hnil
    exact ⟨h, List.suffix_rfl, by simp [inOrder, PageCache.evict], by simp [inOrder, PageCache.evict]⟩
  | cons r rest ih =>
    obtain ⟨stamp, id⟩ := r
    obtain ⟨hrest, page, hcons⟩ := h.tail
    rw [hcons]
    simp only [PageCache.evict]
    split
    · rename_i htoo
      obtain ⟨hl, hsuf, hids, hord⟩ := ih hrest
      have hmore : entries.length - capacity = (Assoc.erase id entries).length - capacity + 1 := by
        have h1 := h.length
        have h2 := hrest.length
        rw [List.length_cons] at h1
        omega
      rw [hmore, List.take_succ_cons, List.drop_succ_cons, List.map_cons]
      exact ⟨hl, hsuf.trans (List.suffix_cons _ _), congrArg _ hids, hord⟩
    · rename_i hfits
      have hnone : entries.length - capacity = 0 := by omega
      rw [hnone, ← hcons]
      exact ⟨h, List.suffix_rfl, rfl, rfl⟩

end Linked

/-! ## What each use does -/

namespace PageCache

variable {c : PageCache α}

theorem tied_ofCapacity (n : Nat) : (ofCapacity n : PageCache α).Tied where
  linked := ⟨.nil, .nil, .refl _⟩
  clock := nofun
  size := Nat.zero_le _
  capacity := Nat.le_max_right n 1

namespace Tied

theorem contextIds_eq (h : c.Tied) : c.contextIds = Assoc.keys c.pageList := h.linked.keys_inOrder.symm

theorem nodup (h : c.Tied) : (Assoc.keys c.pageList).Nodup := h.contextIds_eq ▸ h.linked.ids_nodup

theorem page?_eq (h : c.Tied) (id : String) : c.page? id = Assoc.get? id c.pageList :=
  (h.linked.get?_inOrder id).symm

theorem length_pageList (h : c.Tied) : c.pageList.length = c.size := h.linked.length_inOrder

theorem stamps_below (h : c.Tied) : ∀ r ∈ c.recency, r.1 < c.clock + 1 :=
  fun r hr => Nat.lt_succ_of_le (h.clock r hr)

/-- Stamps given out now are not beyond the next one. -/
theorem restamped (h : c.Tied) (id : String) :
    ∀ r ∈ restamp ((Assoc.get? id c.entries).map (·.1)) (c.clock + 1) id c.recency, r.1 ≤ c.clock + 1 := by
  intro r hr
  rw [h.linked.restamp_eq] at hr
  rcases List.mem_append.mp hr with hr | hr
  · exact Nat.le_succ_of_le (h.clock r (List.mem_filter.mp hr).1)
  · exact Nat.le_of_eq (congrArg Prod.fst (List.mem_singleton.mp hr))

theorem save (h : c.Tied) (id : String) (page : α) :
    (c.save id page).2.Tied ∧ (c.save id page).1 = (c.pageList.save c.capacity id page).1 ∧
      (c.save id page).2.pageList = (c.pageList.save c.capacity id page).2 := by
  have hl := h.linked.restamp h.stamps_below id page
  have hord := h.linked.inOrder_restamp (c.clock + 1) id page
  obtain ⟨hlinked, hsuf, hids, hlist⟩ := hl.evict c.capacity
  rw [hord] at hids hlist
  have hlen : (Assoc.put id (c.clock + 1, page) c.entries).length =
      (Assoc.erase id c.pageList ++ [(id, page)]).length := by
    rw [← hl.length_inOrder, hord]
    rfl
  rw [hlen] at hids hlist
  refine ⟨⟨hlinked, fun r hr => h.restamped id r (hsuf.subset hr), ?_, h.capacity⟩, hids, hlist⟩
  show (evict _ _ _).2.2.length ≤ c.capacity
  have hsize := congrArg List.length hlist
  rw [hlinked.length_inOrder, List.length_drop] at hsize
  have hcut : ∀ m n k : Nat, k = m - (m - n) → k ≤ n := by omega
  exact hcut _ _ _ hsize

theorem retain_of_get? (h : c.Tied) {id : String} {page : α} (hp : Assoc.get? id c.pageList = some page) :
    (c.retain id).2.Tied ∧ (c.retain id).1 = .ok () ∧
      (c.retain id).2.pageList = Assoc.erase id c.pageList ++ [(id, page)] := by
  rw [← h.page?_eq, PageCache.page?] at hp
  obtain ⟨⟨stamp, page'⟩, he, rfl⟩ := Option.map_eq_some_iff.mp hp
  have hl := h.linked.restamp h.stamps_below id page'
  have hord := h.linked.inOrder_restamp (c.clock + 1) id page'
  have hstamps := h.restamped id
  rw [he] at hl hord hstamps
  have hsize : (Assoc.put id (c.clock + 1, page') c.entries).length ≤ c.capacity := by
    rw [h.linked.entries_sorted.length_put he]
    exact h.size
  simp only [PageCache.retain, he]
  exact ⟨⟨hl, hstamps, hsize, h.capacity⟩, trivial, hord⟩

theorem retain_of_miss (h : c.Tied) {id : String} (hp : Assoc.get? id c.pageList = none) :
    c.retain id = (.error ⟨id⟩, { c with clock := c.clock + 1 }) := by
  rw [← h.page?_eq, PageCache.page?, Option.map_eq_none_iff] at hp
  simp only [PageCache.retain, hp]

theorem restore (h : c.Tied) (id : String) : c.restore id = c.pageList.restore id := by
  rcases hp : Assoc.get? id c.pageList with _ | page <;>
    simp only [PageCache.restore, PageList.restore, h.page?_eq, hp]

/-- What has become of a page takes its place. -/
theorem update (h : c.Tied) (id : String) (page : α) : (c.update id page).Tied := by
  rcases hg : Assoc.get? id c.entries with _ | ⟨stamp, old⟩
  · simp only [PageCache.update, hg]
    exact h
  simp only [PageCache.update, hg]
  have hsorted := h.linked.entries_sorted
  have hperm : (c.entries.map stampOf).Perm ((Assoc.put id (stamp, page) c.entries).map stampOf) := by
    have hold := (hsorted.put_perm id (stamp, old)).map stampOf
    rw [hsorted.put_of_get? hg] at hold
    exact hold.trans ((hsorted.put_perm id (stamp, page)).map stampOf).symm
  have hsize : (Assoc.put id (stamp, page) c.entries).length ≤ c.capacity := by
    rw [hsorted.length_put hg]
    exact h.size
  exact ⟨⟨hsorted.put _ _, h.linked.recency_sorted, h.linked.perm.trans hperm⟩, h.clock, hsize, h.capacity⟩

/-- A use of the cache is one of the list. -/
theorem use (h : c.Tied) (u : PageUse α) :
    (c.use u).2.Tied ∧ (c.use u).1 = (c.pageList.use c.capacity u).1 ∧
      (c.use u).2.pageList = (c.pageList.use c.capacity u).2 := by
  cases u with
  | save id page =>
    obtain ⟨ht, hids, hlist⟩ := h.save id page
    exact ⟨ht, congrArg _ hids, hlist⟩
  | restore id => exact ⟨h, congrArg _ (h.restore id), rfl⟩
  | retain id =>
    rcases hp : Assoc.get? id c.pageList with _ | page
    · simp only [PageCache.use, PageList.use, PageList.retain, hp, h.retain_of_miss hp]
      exact ⟨⟨h.linked, fun r hr => Nat.le_succ_of_le (h.clock r hr), h.size, h.capacity⟩, trivial, rfl⟩
    · obtain ⟨ht, hok, hlist⟩ := h.retain_of_get? hp
      simp only [PageCache.use, PageList.use, PageList.retain, hp]
      exact ⟨ht, congrArg _ hok, hlist⟩

end Tied

@[simp] theorem capacity_use (c : PageCache α) (u : PageUse α) : (c.use u).2.capacity = c.capacity := by
  cases u with
  | save => rfl
  | restore => rfl
  | retain id =>
    simp only [use, retain]
    split <;> rfl

@[simp] theorem capacity_useAll (c : PageCache α) (uses : List (PageUse α)) :
    (c.useAll uses).2.capacity = c.capacity := by
  induction uses generalizing c with
  | nil => rfl
  | cons u rest ih => rw [useAll, ih, capacity_use]

/-- The clock counts the uses that may change the order. -/
theorem clock_use (c : PageCache α) (u : PageUse α) : (c.use u).2.clock ≤ c.clock + 1 := by
  cases u with
  | save => exact Nat.le_refl _
  | restore => exact Nat.le_succ _
  | retain id =>
    simp only [use, retain]
    split <;> exact Nat.le_refl _

/-- After any uses the cache has answered as the list, and stands for what the list is. -/
theorem useAll_as_list {c : PageCache α} (h : c.Tied) (uses : List (PageUse α)) :
    (c.useAll uses).2.Tied ∧ (c.useAll uses).1 = (c.pageList.useAll c.capacity uses).1 ∧
      (c.useAll uses).2.pageList = (c.pageList.useAll c.capacity uses).2 ∧
      (c.useAll uses).2.clock ≤ c.clock + uses.length := by
  induction uses generalizing c with
  | nil => exact ⟨h, rfl, rfl, Nat.le_refl _⟩
  | cons u rest ih =>
    obtain ⟨ht, hanswer, hlist⟩ := h.use u
    obtain ⟨ht', hanswers, hlist', hclock⟩ := ih ht
    rw [hlist, capacity_use] at hanswers hlist'
    refine ⟨ht', ?_, hlist', ?_⟩
    · rw [useAll, PageList.useAll, hanswer, hanswers]
    · have := clock_use c u
      simp only [useAll, List.length_cons]
      omega

end PageCache

/-! ## What the list holds -/

theorem PageList.mem_erase_append {l : PageList α} {id : String} {page : α} {e : String × α}
    (he : e ∈ Assoc.erase id l ++ [(id, page)]) : e = (id, page) ∨ e ∈ l ∧ e.1 ≠ id := by
  rcases List.mem_append.mp he with he | he
  · have := List.mem_filter.mp he
    exact .inr ⟨this.1, bne_iff_ne.mp this.2⟩
  · exact .inl (List.mem_singleton.mp he)

/-- The saved page itself is not dropped. -/
theorem PageList.not_mem_save {capacity : Nat} (hc : 0 < capacity) (l : PageList α) (id : String) (page : α) :
    id ∉ (l.save capacity id page).1 := by
  intro hmem
  obtain ⟨e, he, rfl⟩ := List.mem_map.mp hmem
  have hfront : (Assoc.erase e.1 l ++ [(e.1, page)]).length - capacity ≤ (Assoc.erase e.1 l).length := by
    rw [List.length_append, List.length_singleton]
    omega
  rw [List.take_append_of_le_length hfront] at he
  have hne := (List.mem_filter.mp (List.mem_of_mem_take he)).2
  exact bne_iff_ne.mp hne rfl

/-- Each page in the list is the one that was saved last under its id. -/
theorem PageList.mem_useAll {capacity : Nat} {uses : List (PageUse α)} {l : PageList α}
    (before : String → Option α) (h : ∀ e ∈ l, before e.1 = some e.2) :
    ∀ e ∈ (l.useAll capacity uses).2, lastSaved e.1 (before e.1) uses = some e.2 := by
  induction uses generalizing l before with
  | nil => exact h
  | cons u rest ih =>
    cases u with
    | save id page =>
      have hsaved : ∀ e ∈ (l.save capacity id page).2, (if id = e.1 then some page else before e.1) = some e.2 := by
        intro e he
        rcases mem_erase_append (List.mem_of_mem_drop he) with rfl | ⟨he, hne⟩
        · exact if_pos rfl
        · rw [if_neg (Ne.symm hne)]
          exact h e he
      exact ih (fun i => if id = i then some page else before i) hsaved
    | restore id => exact ih before h
    | retain id =>
      refine ih before fun e he => ?_
      simp only [use, retain] at he
      split at he
      · rename_i page hp
        rcases mem_erase_append he with rfl | ⟨he, -⟩
        · exact h _ (Assoc.mem_of_get? hp)
        · exact h e he
      · exact h e he

/-- However a new cache is used, it answers as the list does and never holds more pages than it may.
    Its two tables and the clock stay tied together. -/
theorem PageCache.answers_as_list (n : Nat) (uses : List (PageUse α)) :
    let c := ((ofCapacity n : PageCache α).useAll uses).2
    let l := (PageList.useAll (max n 1) ([] : PageList α) uses).2
    c.Tied ∧ c.clock ≤ uses.length ∧ c.size ≤ max n 1 ∧
    ((ofCapacity n : PageCache α).useAll uses).1 = (PageList.useAll (max n 1) [] uses).1 ∧
    c.contextIds = l.map (·.1) ∧ (l.map (·.1)).Nodup ∧ (∀ id, c.page? id = Assoc.get? id l) ∧
    (∀ id page, id ∉ (c.save id page).1) ∧
    ∀ id page, c.restore id = .ok page → lastSaved id none uses = some page := by
  intro c l
  obtain ⟨ht, hanswers, hlist, hclock⟩ := useAll_as_list (tied_ofCapacity (α := α) n) uses
  have hcl : c.pageList = l := hlist
  have hcap : c.capacity = max n 1 := capacity_useAll _ uses
  have hzero : (ofCapacity n : PageCache α).clock + uses.length = uses.length := Nat.zero_add _
  refine ⟨ht, hzero ▸ hclock, hcap ▸ ht.size, hanswers, hcl ▸ ht.contextIds_eq, hcl ▸ ht.nodup,
    hcl ▸ ht.page?_eq, ?_, ?_⟩
  · intro id page
    rw [(ht.save id page).2.1]
    exact PageList.not_mem_save ht.capacity _ id page
  · intro id page hp
    rw [ht.restore id, hcl, PageList.restore] at hp
    split at hp
    · rename_i page' hg
      cases hp
      have hnew : ∀ e ∈ ([] : PageList α), (none : Option α) = some e.2 := by simp
      exact PageList.mem_useAll (fun _ => none) hnew (id, page) (Assoc.mem_of_get? hg)
    · cases hp

end PageServer
