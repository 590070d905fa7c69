/-
  PageServer.Proofs.Refusals — which requests reach the application, and what becomes of the others.

  What can be wrong with a request is said here without reading it (`Gateway.Incoming.Has`): its
  method, a piece of its path, a pair of its query, the size of its body, or a pair of the form data in
  the body. A request without such a fault is read (`request_isOk`). Any other is refused for the first
  of its faults in this order (`request_of_hasFirst`), and the application is as it was. So any number of
  requests leave it as if only those without fault had come (`serveEach_application`).

  The body is taken as it was received. What its bytes are is not asked but for form data.
-/

import PageServer.Gateway
import PageServer.Proofs.FormData
import PageServer.Proofs.Runs

namespace PageServer

/-! ## Decoding -/

namespace Text

/-- A percent-encoded text without faults. -/
def Decodes (s : List Char) : Prop := ∃ t, percentDecode s = .ok t

/-- A pair of form data whose name and value are without faults. -/
def PairDecodes (pair : List Char) : Prop :=
  let (name, value) := (cut? '=' pair).getD (pair, [])
  Decodes (plusToSpace name) ∧ Decodes (plusToSpace value)

theorem formPair_isOk_iff {pair : List Char} : (∃ p, formPair pair = .ok p) ↔ PairDecodes pair := by
  unfold formPair PairDecodes
  rcases (cut? '=' pair).getD (pair, []) with ⟨name, value⟩
  dsimp only
  cases hname : percentDecode (plusToSpace name) with
  | error e => simp [Decodes, hname, bind, Except.bind]
  | ok k =>
    cases hvalue : percentDecode (plusToSpace value) <;> simp [Decodes, hname, hvalue, bind, Except.bind, pure, Except.pure]

theorem formPairs_isOk_iff {s : List Char} : (∃ pairs, formPairs s = .ok pairs) ↔ ∀ p ∈ fullPieces '&' s, PairDecodes p := by
  simp only [formPairs, mapM_isOk_iff, formPair_isOk_iff]

/-- There is one thing to say of what does not decode. -/
theorem eq_malformed {α : Type} {r : Except PercentError α} (h : ¬ ∃ a, r = .ok a) : r = .error .malformed := by
  cases r with
  | error e => rfl
  | ok a => exact absurd ⟨a, rfl⟩ h

end Text

namespace Http.Request

theorem ofUri_isOk_iff {method : Method} {uri : String} : (∃ r, ofUri method uri = .ok r) ↔
    (∀ p ∈ Text.fullPieces '/' (uriParts uri).1, Text.Decodes p) ∧
      ∀ p ∈ Text.fullPieces '&' (uriParts uri).2, Text.PairDecodes p := by
  simp only [ofUri_eq_ok_iff, ← Text.formPairs_isOk_iff, Text.Decodes, ← Text.mapM_isOk_iff]
  constructor
  · rintro ⟨_, segments, pairs, hsegments, hpairs, -⟩
    exact ⟨⟨segments, hsegments⟩, pairs, hpairs⟩
  · rintro ⟨⟨segments, hsegments⟩, pairs, hpairs⟩
    exact ⟨_, segments, pairs, hsegments, hpairs, rfl⟩

theorem withContent_isOk_iff {r : Request} {content : ByteArray} : (∃ r', r.withContent content = .ok r') ↔
    (r.hasFormBody = true → ∀ p ∈ Text.fullPieces '&' (Text.decodeLossy content).toList, Text.PairDecodes p) := by
  rw [← Text.formPairs_isOk_iff, withContent]
  cases r.hasFormBody with
  | false => simp [pure, Except.pure]
  | true =>
    cases Text.formPairs (Text.decodeLossy content).toList <;> simp [bind, Except.bind, pure, Except.pure]

end Http.Request

theorem Http.Method.simple_eq_none_iff {s : String} :
    (ofName? s).filter isSimple = none ↔ s ∉ ["GET", "HEAD", "POST"] := by
  constructor
  · rintro h hs
    simp only [List.mem_cons, List.not_mem_nil, or_false] at hs
    rcases hs with rfl | rfl | rfl <;> exact absurd h (by decide)
  · intro hs
    refine Option.filter_eq_none_iff.mpr fun m hm hsimple => hs ?_
    have hname : m.name = s := by simpa using List.find?_some hm
    subst hname
    -- only the simple methods are left, and their names are those listed
    cases m <;> first | decide | cases hsimple

namespace Gateway

/-! ## Faults -/

/-- What can be wrong with a request. -/
inductive Fault where
  | method
  | path
  | query
  | bodySize
  | bodyForm
  deriving DecidableEq, Repr

/-- Faults count in this order. -/
def Fault.position : Fault → Nat
  | method => 0
  | path => 1
  | query => 2
  | bodySize => 3
  | bodyForm => 4

namespace Incoming

variable {i : Incoming}

def content (i : Incoming) : ByteArray := i.body.getD .empty

/-- Whether the body is declared to be form data. -/
def IsForm (i : Incoming) : Prop :=
  ∃ t, i.header? "Content-Type" = some t ∧ "application/x-www-form-urlencoded".toList <+: t.toList

/-- The fault is one of the request. -/
def Has (i : Incoming) : Fault → Prop
  | .method => i.method ∉ ["GET", "HEAD", "POST"]
  | .path => ∃ p ∈ Text.fullPieces '/' (Http.Request.uriParts i.url).1, ¬ Text.Decodes p
  | .query => ∃ p ∈ Text.fullPieces '&' (Http.Request.uriParts i.url).2, ¬ Text.PairDecodes p
  | .bodySize => 1048576 < i.content.size
  | .bodyForm => i.IsForm ∧ ∃ p ∈ Text.fullPieces '&' (Text.decodeLossy i.content).toList, ¬ Text.PairDecodes p

theorem has_bodySize : i.Has .bodySize ↔ maxBodySize < i.content.size := Iff.rfl

/-- What the request is refused with for a fault. -/
def refusal (i : Incoming) : Fault → Refusal
  | .method => .unsupportedMethod i.method
  | .bodySize => .bodyTooLarge
  | .path | .query | .bodyForm => .badUrl .malformed

/-- The fault is one of the request, and none that counts before it is. -/
def HasFirst (i : Incoming) (f : Fault) : Prop := i.Has f ∧ ∀ f', f'.position < f.position → ¬ i.Has f'

theorem exists_hasFirst {f : Fault} (h : i.Has f) : ∃ f, i.HasFirst f := by
  obtain ⟨f, hf, hmin⟩ := (measure Fault.position).wf.has_min {f | i.Has f} ⟨f, h⟩
  exact ⟨f, hf, fun f' hlt hf' => hmin f' hf' hlt⟩

/-! ## Reading -/

/-- The request as it is read up to its body. -/
def headed (i : Incoming) (r : Http.Request) : Http.Request :=
  { r with
    remote := some i.remote
    headers := r.headers.appendAll i.headers
    cookies := r.cookies.appendAll i.cookies }

theorem hasFormBody_headed {r : Http.Request} (h : r.headers = {}) : (i.headed r).hasFormBody = true ↔ i.IsForm := by
  have hheader : (i.headed r).header? "content-type" = i.header? "Content-Type" := by
    simp only [Http.Request.header?, headed, h, Http.Headers.get?, Http.Headers.appendAll, Http.Fields.get?,
      Http.Fields.appendAll, List.nil_append, List.find?_map, Option.map_map, header?, Http.Request.lower_contentType]
    rfl
  rw [Http.Request.hasFormBody, hheader, IsForm]
  cases i.header? "Content-Type" <;> simp [Http.Request.formType]

theorem request_of_method (h : i.Has .method) : i.request = .error (.unsupportedMethod i.method) := by
  rw [request, Http.Method.simple_eq_none_iff.mpr h]
  rfl

/-- What is left to read if the method is without fault. -/
theorem request_of_uri (h : ¬ i.Has .method) : ∃ method, i.request =
    ((Http.Request.ofUri method i.url).mapError .badUrl).bind fun r =>
      if maxBodySize < i.content.size then .error .bodyTooLarge
      else ((i.headed r).withContent i.content).mapError .badUrl := by
  obtain ⟨method, hmethod⟩ := Option.ne_none_iff_exists'.mp (Http.Method.simple_eq_none_iff.not.mpr h)
  refine ⟨method, ?_⟩
  rw [request, hmethod]
  refine congrArg (Except.bind ((Http.Request.ofUri method i.url).mapError Refusal.badUrl)) (funext fun r => ?_)
  by_cases hsize : maxBodySize < i.content.size
  · rw [if_pos hsize]
    exact if_pos hsize
  · rw [if_neg hsize]
    exact if_neg hsize

theorem request_of_url (hmethod : ¬ i.Has .method) (h : i.Has .path ∨ i.Has .query) :
    i.request = .error (.badUrl .malformed) := by
  obtain ⟨method, hrequest⟩ := request_of_uri hmethod
  have hfault : ¬ ∃ r, Http.Request.ofUri method i.url = .ok r := by
    rw [Http.Request.ofUri_isOk_iff]
    rintro ⟨hpath, hquery⟩
    rcases h with ⟨p, hp, hfault⟩ | ⟨p, hp, hfault⟩
    · exact hfault (hpath p hp)
    · exact hfault (hquery p hp)
  rw [hrequest, Text.eq_malformed hfault]
  rfl

/-- What is left to read if the URL is without fault, too. -/
theorem request_of_body (hmethod : ¬ i.Has .method) (hpath : ¬ i.Has .path) (hquery : ¬ i.Has .query) :
    ∃ r, (Http.Request.hasFormBody r = true ↔ i.IsForm) ∧ i.request =
      if maxBodySize < i.content.size then .error .bodyTooLarge
      else (r.withContent i.content).mapError .badUrl := by
  obtain ⟨method, hrequest⟩ := request_of_uri hmethod
  obtain ⟨r, hr⟩ : ∃ r, Http.Request.ofUri method i.url = .ok r :=
    Http.Request.ofUri_isOk_iff.mpr ⟨by simpa [Has] using hpath, by simpa [Has] using hquery⟩
  have hheaders : r.headers = {} := by
    obtain ⟨segments, pairs, -, -, rfl⟩ := Http.Request.ofUri_eq_ok_iff.mp hr
    rfl
  refine ⟨i.headed r, hasFormBody_headed hheaders, ?_⟩
  rw [hrequest, hr]
  rfl

/-- The first fault of a request is what it is refused for. -/
theorem request_of_hasFirst {f : Fault} (h : i.HasFirst f) : i.request = .error (i.refusal f) := by
  obtain ⟨hfault, hbefore⟩ := h
  cases f with
  | method => exact request_of_method hfault
  | path => exact request_of_url (hbefore .method (by decide)) (.inl hfault)
  | query => exact request_of_url (hbefore .method (by decide)) (.inr hfault)
  | bodySize =>
    obtain ⟨r, -, hrequest⟩ :=
      request_of_body (hbefore .method (by decide)) (hbefore .path (by decide)) (hbefore .query (by decide))
    rw [hrequest, if_pos (has_bodySize.mp hfault)]
    rfl
  | bodyForm =>
    obtain ⟨r, hform, hrequest⟩ :=
      request_of_body (hbefore .method (by decide)) (hbefore .path (by decide)) (hbefore .query (by decide))
    have hmalformed : r.withContent i.content = .error .malformed := by
      obtain ⟨hi, p, hp, hfault⟩ := hfault
      exact Text.eq_malformed fun hok => hfault (Http.Request.withContent_isOk_iff.mp hok (hform.mpr hi) p hp)
    rw [hrequest, if_neg (has_bodySize.not.mp (hbefore .bodySize (by decide))), hmalformed]
    rfl

theorem request_isOk (h : ∀ f, ¬ i.Has f) : ∃ r, i.request = .ok r := by
  obtain ⟨r, hform, hrequest⟩ := request_of_body (h .method) (h .path) (h .query)
  obtain ⟨r', hr'⟩ : ∃ r', r.withContent i.content = .ok r' := by
    refine Http.Request.withContent_isOk_iff.mpr fun hi p hp => ?_
    by_contra hfault
    exact h .bodyForm ⟨hform.mp hi, p, hp, hfault⟩
  refine ⟨r', ?_⟩
  rw [hrequest, if_neg (has_bodySize.not.mp (h .bodySize)), hr']
  rfl

end Incoming

theorem status_refusal (i : Incoming) (f : Fault) :
    (i.refusal f).response.status.code = if f = .method then 501 else 400 := by
  cases f <;> rfl

/-! ## Answering -/

variable {σ : Type} [Component σ]

/-- The request as the application handles it, if it can be read. -/
def Incoming.arrival? (c : Circumstances) (i : Incoming) : Option Arrival :=
  i.request.toOption.map fun request => ⟨c.clock, i.sessionId?.getD c.newSessionId, c.errorId, request⟩

theorem Incoming.arrival?_eq_none_iff {c : Circumstances} {i : Incoming} : i.arrival? c = none ↔ ∃ f, i.Has f := by
  constructor
  · intro hnone
    by_contra hfaultless
    obtain ⟨r, hr⟩ := request_isOk (not_exists.mp hfaultless)
    simp [arrival?, hr, Except.toOption] at hnone
  · intro ⟨g, hg⟩
    obtain ⟨f, hf⟩ := exists_hasFirst hg
    rw [arrival?, request_of_hasFirst hf]
    rfl

theorem serve_application (app : Application σ) (logs : Logs) (c : Circumstances) (i : Incoming) :
    (serve app logs c i).2 = app.serveAll (i.arrival? c).toList := by
  show (answer app c (i.sessionId?.getD c.newSessionId) i).2 = _
  cases hrequest : i.request <;> rw [answer, Incoming.arrival?, hrequest] <;> rfl

/-- The application and the logs after these requests, the first one first. -/
def serveEach (app : Application σ) (logs : Logs) : List (Circumstances × Incoming) → Application σ × Logs
  | [] => (app, logs)
  | (c, i) :: rest => serveEach (serve app logs c i).2 (serve app logs c i).1.1.2 rest

/-- Any number of requests leave the application as if only those without fault had come. -/
theorem serveEach_application (app : Application σ) (logs : Logs) (traffic : List (Circumstances × Incoming)) :
    (serveEach app logs traffic).1 = app.serveAll (traffic.filterMap fun t => t.2.arrival? t.1) := by
  induction traffic generalizing app logs with
  | nil => rfl
  | cons t rest ih =>
    obtain ⟨c, i⟩ := t
    rw [serveEach, ih, serve_application, Application.serveAll, Application.serveAll, ← List.foldl_append,
      List.filterMap_cons]
    cases i.arrival? c <;> rfl

/-- Requests with a fault stay outside. A request is handled, in its session and counted, if and only
    if it has no fault. Otherwise the application is as it was, and the response is that for the first
    fault: 501 if it is the method, and 400 for all others. Either way this response is what goes out,
    and what is logged. -/
theorem faulty_requests_stay_outside (app : Application σ) (logs : Logs) (c : Circumstances) (i : Incoming) :
    let id := i.sessionId?.getD c.newSessionId
    let served := serve app logs c i
    ∃ response events, answer app c id i = ((response, events), served.2) ∧ served.1.2 = events ∧
      served.1.1.1.code = response.status.code ∧ served.1.1.1.body = response.content ∧
      served.1.1.2 = { logs with access := logs.access ++ i.accessInfo.accessEntry c.time c.duration response } ∧
      (served.2.requestCount = app.requestCount + 1 ↔ ∀ f, ¬ i.Has f) ∧
      ((∀ f, ¬ i.Has f) → ∃ request, i.request = .ok request ∧
        ((response, events), served.2) = app.handle c.clock id c.errorId request ∧
        (app.sessions.Sound → ∃ s, served.2.sessions.get? id = some s ∧ s.lastAccess = c.clock)) ∧
      ((∃ f, i.Has f) → served.2 = app ∧ events = [] ∧
        ∃ f, i.HasFirst f ∧ response = (i.refusal f).response ∧
          response.status.code = if f = .method then 501 else 400) := by
  intro id served
  have hread : (∀ f, ¬ i.Has f) → ∃ request, i.request = .ok request ∧
      answer app c id i = app.handle c.clock id c.errorId request := by
    intro h
    obtain ⟨request, hrequest⟩ := Incoming.request_isOk h
    exact ⟨request, hrequest, by rw [answer, hrequest]⟩
  have hrefused : (∃ f, i.Has f) → ∃ f, i.HasFirst f ∧ answer app c id i = (((i.refusal f).response, []), app) := by
    rintro ⟨g, hg⟩
    obtain ⟨f, hf⟩ := Incoming.exists_hasFirst hg
    exact ⟨f, hf, by rw [answer, Incoming.request_of_hasFirst hf]⟩
  have hserved : served.2 = (answer app c id i).2 := rfl
  refine ⟨(answer app c id i).1.1, (answer app c id i).1.2, rfl, rfl, rfl, rfl, rfl, ⟨fun hcount f hf => ?_, fun h => ?_⟩,
    fun h => ?_, fun h => ?_⟩
  · obtain ⟨f, -, hanswer⟩ := hrefused ⟨f, hf⟩
    rw [hserved, hanswer] at hcount
    exact absurd hcount.symm (Nat.succ_ne_self _)
  · obtain ⟨request, -, hanswer⟩ := hread h
    rw [hserved, hanswer]
    rfl
  · obtain ⟨request, hrequest, hanswer⟩ := hread h
    refine ⟨request, hrequest, hanswer, fun hsound => ?_⟩
    let a : Arrival := ⟨c.clock, id, c.errorId, request⟩
    rw [hserved, hanswer]
    exact ⟨app.leftSession a, hsound.get?_serve_self a, rfl⟩
  · obtain ⟨f, hf, hanswer⟩ := hrefused h
    rw [hserved, hanswer]
    exact ⟨rfl, rfl, f, hf, rfl, status_refusal i f⟩

/-- A request for something with a body of this many bytes. -/
def upload (url : String) (size : Nat) : Incoming :=
  { method := "POST", url := url, body := some ⟨Array.replicate size 0⟩, remote := ⟨.v4 [127, 0, 0, 1], 80, 0⟩ }

/-- A body at the limit is handled. One byte more is a fault, but not the one to tell if the path has
    one, too. -/
theorem upload_is_handled_up_to_the_limit :
    let app := Scripted.site "upload" 2
    let c : Circumstances := ⟨0, 5, 0, "s", "-"⟩
    ((∀ f, ¬ (upload "/" 1048576).Has f) ∧
      (serve app {} c (upload "/" 1048576)).2.requestCount = app.requestCount + 1 ∧
      ∃ s, (serve app {} c (upload "/" 1048576)).2.sessions.get? "s" = some s ∧ s.lastAccess = 5) ∧
    ((upload "/%zz" 1048577).Has .path ∧ (upload "/%zz" 1048577).Has .bodySize) ∧
    (serve app {} c (upload "/%zz" 1048577)).2 = app ∧ (serve app {} c (upload "/%zz" 1048577)).1.1.1.code = 400 ∧
      (serve app {} c (upload "/%zz" 1048577)).1.1.1.body = (Refusal.badUrl .malformed).response.content := by
  intro app c
  have hsize : ∀ url n, (upload url n).content.size = n := fun _ n => Array.size_replicate
  have hmethod : ∀ url n, ¬ (upload url n).Has .method := fun _ _ h => h (by simp [upload])
  have hnone : ∀ f, ¬ (upload "/" 1048576).Has f := by
    rintro (_ | _ | _ | _ | _)
    · exact hmethod _ _
    · rintro ⟨p, hp, -⟩
      cases hp
    · rintro ⟨p, hp, -⟩
      cases hp
    · rw [Incoming.has_bodySize, hsize]
      decide
    · rintro ⟨⟨t, ht, -⟩, -⟩
      cases ht
  have hpath : (upload "/%zz" 1048577).Has .path :=
    ⟨['%', 'z', 'z'], List.mem_singleton.mpr rfl, by rintro ⟨_, h⟩; cases h⟩
  have hlarge : (upload "/%zz" 1048577).Has .bodySize := by
    rw [Incoming.has_bodySize, hsize]
    decide
  obtain ⟨_, _, -, -, -, -, -, hcount, hhandled, -⟩ := faulty_requests_stay_outside app {} c (upload "/" 1048576)
  obtain ⟨_, _, -, -, hcode, hbody, -, -, -, hrefused⟩ := faulty_requests_stay_outside app {} c (upload "/%zz" 1048577)
  obtain ⟨request, -, -, hsession⟩ := hhandled hnone
  obtain ⟨hsame, -, f, hf, rfl, hstatus⟩ := hrefused ⟨_, hpath⟩
  have hfirst : f = .path := by
    cases f with
    | method => exact absurd hf.1 (hmethod _ _)
    | path => rfl
    | query | bodySize | bodyForm => exact absurd hpath (hf.2 .path (by decide))
  subst hfirst
  exact ⟨⟨hnone, hcount.mpr hnone, hsession (.of_empty rfl)⟩, ⟨hpath, hlarge⟩, hsame, hcode.trans hstatus, hbody⟩

end Gateway

end PageServer
