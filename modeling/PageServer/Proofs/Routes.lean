/-
  PageServer.Proofs.Routes — which route a request finds, whatever has been registered.

  Paths are kept as texts, and the segments of a request are joined to a text that is looked for. So
  a route is found by the pieces that the joined segments are cut into, if they are those of its path
  (`normalizePath_eq_pathOf_iff`), and the first registration for a path or for a key counts
  (`get?_exact`, `get?_byKey`).

  A segment may hold a slash, which is encoded in URLs. Once segments are joined it is a slash as any
  other: `/a%2Fb` finds the route of `/a/b` (`encoded_slash_finds_the_route_of_another_path`). Segments
  without slashes find only a route for exactly them.
-/

import PageServer.Router
import PageServer.Proofs.FormData

namespace PageServer

/-! ## Paths and segments -/

/-- The pieces of a path that are not empty. -/
def piecesOf (path : String) : List String := (Text.fullPieces '/' path.toList).map String.ofList

/-- Segments, cut at the slashes in them. -/
def cutAgain (segments : List String) : List String :=
  (segments.flatMap fun s => Text.pieces '/' s.toList).map String.ofList

theorem mem_piecesOf {path s : String} (h : s ∈ piecesOf path) : s ≠ "" ∧ '/' ∉ s.toList := by
  obtain ⟨p, hp, rfl⟩ := List.mem_map.mp h
  simpa using Text.mem_fullPieces hp

theorem cutAgain_of_not_mem {segments : List String} (h : ∀ s ∈ segments, '/' ∉ s.toList) :
    cutAgain segments = segments := by
  have hwhole : ∀ s ∈ segments, Text.pieces '/' s.toList = [s.toList] := fun s hs => Text.pieces_of_not_mem (h s hs)
  rw [cutAgain, List.flatMap_congr hwhole, ← List.map_eq_flatMap, List.map_map]
  exact (List.map_congr_left fun s _ => String.ofList_toList).trans (List.map_id _)

theorem normalizePath_eq_pathOf_iff {segments : List String} (h : ∀ s ∈ segments, s ≠ "") (path : String) :
    normalizePath path = pathOf (segments.map String.toList) ↔ piecesOf path = cutAgain segments := by
  have hne : ∀ p ∈ segments.map String.toList, p ≠ [] := List.forall_mem_map.mpr fun s hs => by simpa using h s hs
  have hinj : Function.Injective String.ofList := fun a b hab => by simpa using congrArg String.toList hab
  -- after its first slash, each of the two texts is joined of parts that are not empty
  rw [normalizePath, pathOf, pathOf, hinj.eq_iff, List.cons.injEq, Text.join_eq_join_iff (fun _ => Text.mem_fullPieces) hne,
    piecesOf, cutAgain, hinj.list_map.eq_iff, List.flatMap_map]
  simp

theorem Http.Request.segments_ne {method : Method} {uri : String} {r : Request} (h : ofUri method uri = .ok r) :
    ∀ s ∈ r.segments, s ≠ "" := by
  obtain ⟨segments, pairs, hsegments, -, rfl⟩ := ofUri_eq_ok_iff.mp h
  refine List.forall_mem_map.mpr fun t ht => ?_
  obtain ⟨piece, hpiece, hdecode⟩ := Text.exists_of_mapM hsegments t ht
  simpa using Text.percentDecode_ne_nil hdecode (Text.mem_fullPieces hpiece).1

/-! ## Registrations -/

/-- An entry for a key that has none. -/
def Assoc.offer {α : Type} (key : String) (value : α) (entries : List (String × α)) : List (String × α) :=
  if (get? key entries).isSome then entries else put key value entries

theorem Assoc.get?_offer {α : Type} (k k' : String) (v : α) (es : List (String × α)) :
    get? k' (offer k v es) = (get? k' es).or (if k = k' then some v else none) := by
  by_cases hk : k = k'
  · subst hk
    cases hold : get? k es <;> simp [offer, hold]
  · cases hold : get? k es <;> simp [offer, hold, hk, Assoc.get?_put_of_ne (Ne.symm hk)]

namespace Router

/-- What a route is registered for: the path with exactly these pieces, or a first segment. -/
inductive Target where
  | path (pieces : List String)
  | key (key : String)
  deriving DecidableEq

inductive Registration where
  | path (path : String) (route : Route)
  | key (key : String) (route : Route)

namespace Registration

def target : Registration → Target
  | path p _ => .path (piecesOf p)
  | key k _ => .key k

def route : Registration → Route
  | path _ route => route
  | key _ route => route

/-- The error if there is a route for the same, which is called `label`. -/
def taken (label : String) : Registration → RouteError
  | path p _ => .pathTaken p label
  | key k _ => .keyTaken k label

end Registration

def register (t : Router) : Registration → Except RouteError Router
  | .path p route => t.add p route
  | .key k route => t.addKey k route

/-- What fails leaves the router as it is. -/
def after (t : Router) (g : Registration) : Router :=
  match t.register g with
  | .ok t => t
  | .error _ => t

def ofRegistrations (gs : List Registration) : Router := gs.foldl after {}

/-- The first route that is registered for something. -/
def first? (gs : List Registration) (target : Target) : Option Route :=
  (gs.find? (·.target = target)).map Registration.route

theorem first?_cons (g : Registration) (gs : List Registration) (target : Target) :
    first? (g :: gs) target = (if g.target = target then some g.route else none).or (first? gs target) := by
  by_cases h : g.target = target <;> simp [first?, h]

theorem after_path (t : Router) (p : String) (route : Route) :
    t.after (.path p route) = { t with exact := Assoc.offer (normalizePath p) route t.exact } := by
  cases h : Assoc.get? (normalizePath p) t.exact <;> simp [after, register, add, Assoc.offer, h]

theorem after_key (t : Router) (k : String) (route : Route) :
    t.after (.key k route) = { t with byKey := Assoc.offer k route t.byKey } := by
  cases h : Assoc.get? k t.byKey <;> simp [after, register, addKey, Assoc.offer, h]

/-- One registration gives a route to those segments for whose pieces it is, if they have none. -/
theorem get?_exact_after {segments : List String} (h : ∀ s ∈ segments, s ≠ "") (t : Router) (g : Registration) :
    Assoc.get? (pathOf (segments.map String.toList)) (t.after g).exact =
      (Assoc.get? (pathOf (segments.map String.toList)) t.exact).or
        (if g.target = .path (cutAgain segments) then some g.route else none) := by
  cases g with
  | path p route =>
    rw [after_path, Assoc.get?_offer]
    simp only [normalizePath_eq_pathOf_iff h, Registration.target, Registration.route, Target.path.injEq]
  | key k route => simp [after_key, Registration.target]

theorem get?_byKey_after (key : String) (t : Router) (g : Registration) :
    Assoc.get? key (t.after g).byKey =
      (Assoc.get? key t.byKey).or (if g.target = .key key then some g.route else none) := by
  cases g with
  | path p route => simp [after_path, Registration.target]
  | key k route =>
    rw [after_key, Assoc.get?_offer]
    simp only [Registration.target, Registration.route, Target.key.injEq]

/-- What each registration adds for something, if there is nothing, is what the first one adds. -/
theorem foldl_after (look : Router → Option Route) {target : Target}
    (hafter : ∀ t g, look (t.after g) = (look t).or (if g.target = target then some g.route else none))
    (t : Router) (gs : List Registration) : look (gs.foldl after t) = (look t).or (first? gs target) := by
  -- what the registrations after the first one add counts after what it adds
  induction gs generalizing t with
  | nil => simp [first?]
  | cons g gs ih => rw [List.foldl_cons, ih, hafter, Option.or_assoc, ← first?_cons]

theorem get?_exact {segments : List String} (h : ∀ s ∈ segments, s ≠ "") (gs : List Registration) :
    Assoc.get? (pathOf (segments.map String.toList)) (ofRegistrations gs).exact = first? gs (.path (cutAgain segments)) :=
  foldl_after (fun t => Assoc.get? (pathOf (segments.map String.toList)) t.exact) (get?_exact_after h) {} gs

theorem get?_byKey (key : String) (gs : List Registration) :
    Assoc.get? key (ofRegistrations gs).byKey = first? gs (.key key) :=
  foldl_after (fun t => Assoc.get? key t.byKey) (get?_byKey_after key) {} gs

theorem get?_ofRegistrations {segments : List String} (h : ∀ s ∈ segments, s ≠ "") (gs : List Registration) :
    (ofRegistrations gs).get? segments =
      (first? gs (.path (cutAgain segments))).or (segments.head?.bind fun key => first? gs (.key key)) := by
  simp only [get?, get?_exact h, get?_byKey]

theorem register_ofRegistrations (gs : List Registration) (g : Registration) :
    match first? gs g.target with
    | some old => (ofRegistrations gs).register g = .error (g.taken old.label)
    | none => ∃ t, (ofRegistrations gs).register g = .ok t := by
  cases g with
  | path p route =>
    -- a path is taken if its own pieces, as the segments of a request, would find a route
    have hpieces : cutAgain (piecesOf p) = piecesOf p := cutAgain_of_not_mem fun s hs => (mem_piecesOf hs).2
    have hheld : Assoc.get? (normalizePath p) (ofRegistrations gs).exact = first? gs (.path (piecesOf p)) := by
      have hne : ∀ s ∈ piecesOf p, s ≠ "" := fun s hs => (mem_piecesOf hs).1
      rw [(normalizePath_eq_pathOf_iff hne p).mpr hpieces.symm, get?_exact hne, hpieces]
    simp only [Registration.target, register, add, hheld, Registration.taken]
    split <;> simp [*]
  | key k route =>
    simp only [Registration.target, register, addKey, get?_byKey, Registration.taken]
    split <;> simp [*]

/-- A request finds the route that was first registered for a path with the pieces that its segments
    are cut into, or else the first one for its first segment, or else none. Segments without slashes
    are these pieces, and no two requests with such segments share the route of a path. To register
    for what has a route fails, names that route, and changes nothing; anything else succeeds. -/
theorem first_route_of_the_pieces_is_found (gs : List Registration) :
    (∀ method uri r, Http.Request.ofUri method uri = .ok r → ∀ s ∈ r.segments, s ≠ "") ∧
    (∀ segments : List String, (∀ s ∈ segments, s ≠ "") →
      (ofRegistrations gs).get? segments =
        (first? gs (.path (cutAgain segments))).or (segments.head?.bind fun key => first? gs (.key key))) ∧
    (∀ segments : List String, (∀ s ∈ segments, '/' ∉ s.toList) → cutAgain segments = segments) ∧
    (∀ (g : Registration) (a b : List String), (∀ s ∈ a ++ b, '/' ∉ s.toList) →
      g.target = .path (cutAgain a) → g.target = .path (cutAgain b) → a = b) ∧
    ∀ g : Registration, match first? gs g.target with
      | some old => (ofRegistrations gs).register g = .error (g.taken old.label) ∧
          ofRegistrations (gs ++ [g]) = ofRegistrations gs
      | none => ∃ t, (ofRegistrations gs).register g = .ok t := by
  refine ⟨fun _ _ _ h => Http.Request.segments_ne h, fun _ h => get?_ofRegistrations h gs,
    fun _ => cutAgain_of_not_mem, fun g a b h ha hb => ?_, fun g => ?_⟩
  · have hpieces := Target.path.inj (ha.symm.trans hb)
    obtain ⟨hslash, hslash'⟩ := List.forall_mem_append.mp h
    rwa [cutAgain_of_not_mem hslash, cutAgain_of_not_mem hslash'] at hpieces
  · have hregister := register_ofRegistrations gs g
    cases hfirst : first? gs g.target with
    | none => simpa [hfirst] using hregister
    | some old =>
      simp only [hfirst] at hregister
      refine ⟨hregister, ?_⟩
      rw [ofRegistrations, List.foldl_append, ← ofRegistrations, List.foldl_cons, List.foldl_nil, after, hregister]

theorem about_page_is_registered_once :
    let route (label : String) : Route := ⟨label, fun _ c => (.ok none, c)⟩
    let gs : List Registration := [.path "/about" (route "about"), .key "wa" (route "wa"), .path "/" (route "root")]
    let again : Registration := .path "about/" (route "again")
    ((ofRegistrations gs).get? ["about"] = some (route "about") ∧ (ofRegistrations gs).get? [] = some (route "root") ∧
      (ofRegistrations gs).get? ["wa", "x"] = some (route "wa") ∧ (ofRegistrations gs).get? ["about", "x"] = none) ∧
    (ofRegistrations gs).register again = .error (.pathTaken "about/" "about") ∧
      ofRegistrations (gs ++ [again]) = ofRegistrations gs := by
  intro route gs again
  obtain ⟨-, hget, -, -, hregister⟩ := first_route_of_the_pieces_is_found gs
  refine ⟨⟨?_, ?_, ?_, ?_⟩, hregister again⟩ <;>
  · rw [hget _ (by decide)]
    rfl

/-- Two requests with different segments, one of them not the pieces of the path, and one route. -/
theorem encoded_slash_finds_the_route_of_another_path :
    let route : Route := ⟨"ab", fun _ c => (.ok none, c)⟩
    let t := ofRegistrations [.path "/a/b" route]
    piecesOf "/a/b" = ["a", "b"] ∧
    (∃ r, Http.Request.ofUri .get "/a%2Fb" = .ok r ∧ r.segments = ["a/b"] ∧ t.get? r.segments = some route) ∧
    ∃ r, Http.Request.ofUri .get "/a/b" = .ok r ∧ r.segments = ["a", "b"] ∧ t.get? r.segments = some route := by
  intro route t
  exact ⟨rfl, ⟨_, rfl, rfl, rfl⟩, _, rfl, rfl, rfl⟩

end Router

end PageServer
