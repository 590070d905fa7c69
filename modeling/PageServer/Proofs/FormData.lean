/-
  PageServer.Proofs.FormData — requests carry what was written into their URLs and bodies.

  Where URLs and forms are cut, there are signs that no encoded text holds. So pairs that are encoded
  and joined are read as those pairs, empty names and values included (`formPairs_formText`), and a
  path of encoded segments is read as those segments (`segments_pathText`). The link to a direct
  action is such a path, of the segment `wa` and the name.
-/

import Mathlib.Data.List.Forall2
import PageServer.DirectAction
import PageServer.Scripted
import PageServer.Proofs.Markup

namespace PageServer

namespace Text

/-- All is read if each is. -/
theorem mapM_eq_ok_iff {ε α β : Type} {f : α → Except ε β} {as : List α} {bs : List β} :
    as.mapM f = .ok bs ↔ List.Forall₂ (fun a b => f a = .ok b) as bs := by
  induction as generalizing bs with
  | nil =>
    rw [List.mapM_nil, List.forall₂_nil_left_iff]
    exact ⟨fun h => (Except.ok.inj h).symm, fun h => h ▸ rfl⟩
  | cons a as ih =>
    rw [List.mapM_cons]
    constructor
    · intro h
      cases ha : f a with
      | error e =>
        rw [ha] at h
        cases h
      | ok b =>
        cases has : as.mapM f with
        | error e =>
          rw [ha, has] at h
          cases h
        | ok bs =>
          rw [ha, has] at h
          cases h
          exact .cons ha (ih.mp has)
    · rintro (_ | ⟨ha, has⟩)
      rw [ha, ih.mpr has]
      rfl

theorem exists_of_mapM {ε α β : Type} {f : α → Except ε β} {as : List α} {bs : List β} (h : as.mapM f = .ok bs) :
    ∀ b ∈ bs, ∃ a ∈ as, f a = .ok b := by
  induction mapM_eq_ok_iff.mp h with
  | nil => exact List.forall_mem_nil _
  | cons ha has ih =>
    refine List.forall_mem_cons.mpr ⟨⟨_, List.mem_cons_self, ha⟩, fun b hb => ?_⟩
    obtain ⟨a, hmem, ha⟩ := ih (mapM_eq_ok_iff.mpr has) b hb
    exact ⟨a, List.mem_cons_of_mem _ hmem, ha⟩

theorem mapM_isOk_iff {ε α β : Type} {f : α → Except ε β} {as : List α} :
    (∃ bs, as.mapM f = .ok bs) ↔ ∀ a ∈ as, ∃ b, f a = .ok b := by
  simp only [mapM_eq_ok_iff]
  induction as with
  | nil => simp
  | cons a as ih =>
    rw [List.forall_mem_cons, ← ih]
    constructor
    · rintro ⟨_, _ | ⟨ha, has⟩⟩
      exact ⟨⟨_, ha⟩, _, has⟩
    · rintro ⟨⟨_, ha⟩, _, has⟩
      exact ⟨_, .cons ha has⟩

/-! ## Form data -/

/-- A name and a value as forms and queries hold them. -/
def pairText (p : String × String) : List Char := percentEncode p.1.toList ++ '=' :: percentEncode p.2.toList

def formText (pairs : List (String × String)) : List Char := join '&' (pairs.map pairText)

theorem plusToSpace_encode (s : List Char) : plusToSpace (percentEncode s) = percentEncode s := by
  have hplus : '+' ∉ percentEncode s := not_mem_percentEncode (by decide) (by decide) s
  refine (List.map_congr_left fun c hc => ?_).trans (List.map_id _)
  rw [if_neg (ne_of_mem_of_not_mem hc hplus)]
  rfl

theorem formPair_pairText (p : String × String) : formPair (pairText p) = .ok p := by
  have hequals : '=' ∉ percentEncode p.1.toList := not_mem_percentEncode (by decide) (by decide) _
  rw [formPair, pairText, cut?_eq_some hequals]
  simp only [Option.getD_some, plusToSpace_encode, percentDecode_encode]
  show Except.ok (String.ofList p.1.toList, String.ofList p.2.toList) = Except.ok p
  rw [String.ofList_toList, String.ofList_toList]

/-- Form data is read as the pairs it was made of. -/
theorem formPairs_formText (pairs : List (String × String)) : formPairs (formText pairs) = .ok pairs := by
  -- a pair of empty texts is no empty piece, as it has its equals sign
  have hand : ∀ s, '&' ∉ percentEncode s := not_mem_percentEncode (by decide) (by decide)
  have hne : ∀ t ∈ pairs.map pairText, t ≠ [] := List.forall_mem_map.mpr fun p _ => by simp [pairText]
  have hsep : ∀ t ∈ pairs.map pairText, '&' ∉ t := List.forall_mem_map.mpr fun p _ => by simp [pairText, hand]
  rw [formPairs, formText, fullPieces_join hne hsep, mapM_eq_ok_iff, List.forall₂_map_left_iff]
  exact List.forall₂_same.mpr fun p _ => formPair_pairText p

theorem decodeLossy_toUTF8 (s : String) : decodeLossy s.toUTF8 = s := by
  have hread : String.fromUTF8? s.toUTF8 = some s := by
    rw [String.fromUTF8?, dif_pos (show s.toUTF8.IsValidUTF8 from s.isValidUTF8)]
    rfl
  rw [decodeLossy, hread]

end Text

/-! ## Requests -/

namespace Http.Request

/-- The path and the query of a URL. -/
def uriParts (uri : String) : List Char × List Char := (Text.cut? '?' uri.toList).getD (uri.toList, [])

theorem ofUri_eq_ok_iff {method : Method} {uri : String} {r : Request} : ofUri method uri = .ok r ↔
    ∃ segments pairs, (Text.fullPieces '/' (uriParts uri).1).mapM Text.percentDecode = .ok segments ∧
      Text.formPairs (uriParts uri).2 = .ok pairs ∧
      r = { method := method, uri := uri, path := String.ofList (uriParts uri).1,
            segments := segments.map String.ofList, form := ⟨pairs⟩ } := by
  have hunfold : ofUri method uri = (do
      let segments ← (Text.fullPieces '/' (uriParts uri).1).mapM Text.percentDecode
      let pairs ← Text.formPairs (uriParts uri).2
      return { method := method, uri := uri, path := String.ofList (uriParts uri).1,
               segments := segments.map String.ofList, form := ⟨pairs⟩ }) := rfl
  rw [hunfold]
  constructor
  · intro h
    cases hsegments : (Text.fullPieces '/' (uriParts uri).1).mapM Text.percentDecode with
    | error e =>
      rw [hsegments] at h
      cases h
    | ok segments =>
      cases hpairs : Text.formPairs (uriParts uri).2 with
      | error e =>
        rw [hsegments, hpairs] at h
        cases h
      | ok pairs =>
        rw [hsegments, hpairs] at h
        cases h
        exact ⟨segments, pairs, rfl, rfl, rfl⟩
  · rintro ⟨segments, pairs, hsegments, hpairs, rfl⟩
    rw [hsegments, hpairs]
    rfl

/-- The URL of a path whose segments are these. -/
def pathText (segments : List String) : List Char :=
  '/' :: Text.join '/' (segments.map fun s => Text.percentEncode s.toList)

theorem not_mem_pathText {c : Char} (h : Text.isUnreserved c = false) (hc : c ≠ '%') (hslash : c ≠ '/')
    (segments : List String) : c ∉ pathText segments := by
  intro hmem
  rcases Text.mem_join (List.mem_of_ne_of_mem hslash hmem) with heq | ⟨p, hp, hmem⟩
  · exact hslash heq
  · obtain ⟨s, -, rfl⟩ := List.mem_map.mp hp
    exact Text.not_mem_percentEncode h hc _ hmem

theorem segments_pathText {segments : List String} (h : ∀ s ∈ segments, s ≠ "") :
    (Text.fullPieces '/' (pathText segments)).mapM Text.percentDecode = .ok (segments.map String.toList) := by
  have hslash : ∀ s, '/' ∉ Text.percentEncode s := Text.not_mem_percentEncode (by decide) (by decide)
  have hne : ∀ t ∈ segments.map fun s => Text.percentEncode s.toList, t ≠ [] :=
    List.forall_mem_map.mpr fun s hs => Text.percentEncode_ne_nil (by simpa using h s hs)
  have hsep : ∀ t ∈ segments.map fun s => Text.percentEncode s.toList, '/' ∉ t :=
    List.forall_mem_map.mpr fun s _ => hslash _
  rw [pathText, Text.fullPieces_cons, Text.fullPieces_join hne hsep, Text.mapM_eq_ok_iff,
    List.forall₂_map_left_iff, List.forall₂_map_right_iff]
  exact List.forall₂_same.mpr fun s _ => Text.percentDecode_encode _

/-- A URL is read as the segments and the pairs that it was written with. -/
theorem ofUri_of_parts {segments : List String} (h : ∀ s ∈ segments, s ≠ "") {uri : String} {query : List Char}
    {pairs : List (String × String)} (hparts : uriParts uri = (pathText segments, query))
    (hpairs : Text.formPairs query = .ok pairs) (method : Method) :
    ∃ r, ofUri method uri = .ok r ∧ r.segments = segments ∧ r.headers = {} ∧ r.form.pairs = pairs := by
  refine ⟨_, ofUri_eq_ok_iff.mpr ⟨segments.map String.toList, pairs, ?_, ?_, rfl⟩, by simp, rfl, rfl⟩
  · rw [hparts]
    exact segments_pathText h
  · rw [hparts]
    exact hpairs

theorem ofUri_pathText {segments : List String} (h : ∀ s ∈ segments, s ≠ "") (method : Method) :
    ∃ r, ofUri method (String.ofList (pathText segments)) = .ok r ∧ r.segments = segments ∧ r.headers = {} ∧
      r.form.pairs = [] := by
  have hquery : '?' ∉ pathText segments := not_mem_pathText (by decide) (by decide) (by decide) segments
  have hparts : uriParts (String.ofList (pathText segments)) = (pathText segments, []) := by
    rw [uriParts, String.toList_ofList, Text.cut?_eq_none hquery, Option.getD_none]
  exact ofUri_of_parts h hparts rfl method

theorem ofUri_query {segments : List String} (h : ∀ s ∈ segments, s ≠ "") (pairs : List (String × String))
    (method : Method) : ∃ r, ofUri method (String.ofList (pathText segments ++ '?' :: Text.formText pairs)) = .ok r ∧
      r.segments = segments ∧ r.headers = {} ∧ r.form.pairs = pairs := by
  have hquery : '?' ∉ pathText segments := not_mem_pathText (by decide) (by decide) (by decide) segments
  refine ofUri_of_parts h ?_ (Text.formPairs_formText pairs) method
  rw [uriParts, String.toList_ofList, Text.cut?_eq_some hquery, Option.getD_some]

/-- A form that is sent in a body comes after the form values there are. -/
theorem withContent_formText (r : Request) (h : r.hasFormBody = true) (pairs : List (String × String)) :
    r.withContent (String.ofList (Text.formText pairs)).toUTF8 = .ok
      { r with form := r.form.appendAll pairs, content := (String.ofList (Text.formText pairs)).toUTF8 } := by
  rw [withContent, if_pos h, Text.decodeLossy_toUTF8, String.toList_ofList, Text.formPairs_formText]
  rfl

theorem lower_contentType : Text.asciiLower "Content-Type" = Text.asciiLower "content-type" := by
  refine String.toList_inj.mp ?_
  rw [Text.asciiLower, Text.asciiLower, String.toList_map, String.toList_map]
  decide

theorem hasFormBody_of_append {r : Request} (h : r.headers = {}) (parameters : String) :
    hasFormBody { r with headers := r.headers.append "Content-Type" (formType ++ parameters) } = true := by
  have hheader : header? { r with headers := r.headers.append "Content-Type" (formType ++ parameters) } "content-type" =
      some (formType ++ parameters) := by
    simp [header?, h, Headers.get?, Headers.append, Headers.appendAll, Fields.get?, Fields.appendAll, lower_contentType]
  rw [hasFormBody, hheader]
  simp

end Http.Request

/-! ## Links to direct actions -/

namespace DirectActions

/-- The URL of a direct action. -/
def url (name : String) : String := "/wa/" ++ String.ofList (Text.percentEncode name.toList)

theorem url_eq (name : String) : url name = String.ofList (Http.Request.pathText [handlerKey, name]) := by
  have hkey : Text.percentEncode handlerKey.toList = ['w', 'a'] := by decide
  have hpath : "/wa/".toList = ['/', 'w', 'a', '/'] := rfl
  refine String.toList_inj.mp ?_
  simp [url, Http.Request.pathText, Text.join, List.intercalate, hkey, hpath]

end DirectActions

theorem Control.on_openLink {σ : Type} [Component σ] {hs : Helpers} {b : Binding} {s : Scene σ} {v : Value}
    (h : b.valueIn hs s.current.state = .ok v) : (Control.openLink hs (.directAction b)).on s =
      (.ok (), { s with response := s.response.write (Text.tag "a" [("href", some (DirectActions.url v.text))] false) }) := by
  rw [openLink, Pass.on_bind, targetUrl, Pass.on_bind, Pass.on_evaluateText, h]
  rfl

/-- What is percent-encoded arrives as it was. Decoding undoes encoding; the pairs of a query and
    those of a form in the body, encoded and joined, are the form values of the request in this
    order; and the link to a direct action of any name but the empty one holds a URL that leads to
    the action of that name. -/
theorem encoded_data_arrives {σ : Type} [Component σ] :
    (∀ s, Text.percentDecode (Text.percentEncode s) = .ok s) ∧
    (∀ (method : Http.Method) (parameters : String) (query body : List (String × String)),
      ∃ r r', Http.Request.ofUri method ("/p?" ++ String.ofList (Text.formText query)) = .ok r ∧
        Http.Request.withContent
            { r with headers := r.headers.append "Content-Type" (Http.Request.formType ++ parameters) }
            (String.ofList (Text.formText body)).toUTF8 = .ok r' ∧
        ∀ name, r'.form.getAll name =
          (query.filter (·.1 == name)).map (·.2) ++ (body.filter (·.1 == name)).map (·.2)) ∧
    ∀ name, name ≠ "" →
      (∀ method, ∃ r, Http.Request.ofUri method (DirectActions.url name) = .ok r ∧ r.segments = ["wa", name] ∧
        DirectActions.nameIn? r.segments = some name) ∧
      ∀ (hs : Helpers) (b : Binding) (s : Scene σ) (v : Value), b.valueIn hs s.current.state = .ok v → v.text = name →
        ∃ text, (Control.openLink hs (.directAction b)).on s = (.ok (), { s with response := s.response.write text }) ∧
          Text.readTag? text.toList = some ("a", [("href", DirectActions.url name)], false) := by
  refine ⟨Text.percentDecode_encode, fun method parameters query body => ?_, fun name hname => ⟨fun method => ?_, ?_⟩⟩
  · have hurl : "/p?" ++ String.ofList (Text.formText query) =
        String.ofList (Http.Request.pathText ["p"] ++ '?' :: Text.formText query) := by
      have hpath : Http.Request.pathText ["p"] = ['/', 'p'] := by decide
      have hstart : "/p?".toList = ['/', 'p', '?'] := rfl
      refine String.toList_inj.mp ?_
      rw [String.toList_append, hstart, String.toList_ofList, String.toList_ofList, hpath]
      rfl
    have hne : ∀ s ∈ ["p"], s ≠ "" := by decide
    obtain ⟨r, hr, -, hheaders, hpairs⟩ := Http.Request.ofUri_query hne query method
    have hform := Http.Request.hasFormBody_of_append hheaders parameters
    refine ⟨r, _, hurl ▸ hr, Http.Request.withContent_formText _ hform body, ?_⟩
    intro name
    simp [Http.Fields.getAll, Http.Fields.appendAll, hpairs]
  · have hne : ∀ s ∈ [DirectActions.handlerKey, name], s ≠ "" := by simpa [DirectActions.handlerKey] using hname
    obtain ⟨r, hr, hsegments, -, -⟩ := Http.Request.ofUri_pathText hne method
    refine ⟨r, DirectActions.url_eq name ▸ hr, hsegments, ?_⟩
    rw [hsegments]
    rfl
  · rintro hs b s v hv rfl
    have hhref : ∀ c ∈ "href".toList, Text.isNameChar c = true := by decide
    exact ⟨_, Control.on_openLink hv, Text.readTag?_tag (by decide) (List.forall_mem_singleton.mpr hhref)⟩

/-- The name of an action with all that a URL has a meaning for. -/
theorem link_to_an_action_leads_to_it :
    let name := "a b/ü?"
    let scene : Scene Scripted := .start
      { request := { method := .get, uri := "/", path := "/", segments := [] }, sessionId := "s" } []
      ⟨"Page", { name := "Page", state := [] }, []⟩
    name ≠ "" ∧ DirectActions.url name = "/wa/a%20b%2F%C3%BC%3F" ∧
    (∃ r, Http.Request.ofUri .get (DirectActions.url name) = .ok r ∧ r.segments = ["wa", name] ∧
      DirectActions.nameIn? r.segments = some name) ∧
    ∃ text, (Control.openLink {} (.directAction (.constant (.string name)))).on scene =
        (.ok (), { scene with response := scene.response.write text }) ∧
      Text.readTag? text.toList = some ("a", [("href", DirectActions.url name)], false) := by
  intro name scene
  obtain ⟨-, -, hlinks⟩ := encoded_data_arrives (σ := Scripted)
  obtain ⟨hread, hwritten⟩ := hlinks name (by decide)
  have hvalue : (Binding.constant (.string name)).valueIn {} scene.current.state = .ok (.string name) := rfl
  exact ⟨by decide, by decide, hread .get, hwritten {} _ scene _ hvalue rfl⟩

end PageServer
