/-
  PageServer.Proofs.AccessEntries — entries of the access log say what the server wrote, not what
  a client would like it to have written.

  What a client sends stands in the three quoted fields of an entry, where it holds no line break
  and ends at its own closing quote. All else the server writes itself, as bare texts: the address
  of the client, the time, two numbers and the duration (`IpAddress.bare_text`, `bare_timeText`,
  `bare_durationText`). The address is that of the connection, or `-` if there is none, and nothing
  that the client sends (`namesClient_ofRequest`, `namesClient_accessInfo`). So:
  - `NamesClient.accessLine_reads`: an entry is one line, whose quoted fields give back what was
    sent;
  - `Logs.accessLines_after`: work on one more request adds one whole line to the access log, its
    entry, or none if there was no answer;
  - `Logs.accessLines_afterAll`: the log of any run is cut into the entries that were made.

  A log whose last line was cut short is not covered: the next entry would go on in that line.
-/

import PageServer.Gateway
import PageServer.Proofs.QuotedTexts

namespace PageServer

open Http

/-! ## Addresses -/

open Text

theorem Http.IpAddress.bare_v4Text (bytes : List Nat) : Bare (IpAddress.v4Text bytes) := by
  apply Bare.intercalate (by decide)
  intro p hp
  obtain ⟨n, -, rfl⟩ := List.mem_map.mp hp
  exact bare_toString n

theorem Http.IpAddress.bare_groupsText (groups : List Nat) : Bare (IpAddress.groupsText groups) := by
  apply Bare.intercalate (by decide)
  intro p hp
  obtain ⟨n, -, rfl⟩ := List.mem_map.mp hp
  apply bare_of_digits
  simpa [IpAddress.hexText] using isSome_hexValue?_toDigits n

theorem Http.IpAddress.bare_text (ip : IpAddress) : Bare ip.text := by
  cases ip with
  | v4 bytes => exact IpAddress.bare_v4Text bytes
  | v6 groups =>
    unfold IpAddress.text
    split
    · rename_i heq
      cases heq
    · split
      · exact bare_append.mpr ⟨by decide, IpAddress.bare_v4Text _⟩
      · dsimp only
        split
        · exact IpAddress.bare_groupsText _
        · rw [bare_append, bare_append]
          exact ⟨⟨IpAddress.bare_groupsText _, by decide⟩, IpAddress.bare_groupsText _⟩

/-! ## Times -/

@[simp] theorem bare_paddedNumber (width n : Nat) : Bare (paddedNumber width n) := by
  unfold paddedNumber
  rw [bare_append]
  refine ⟨?_, bare_toString n⟩
  apply bare_of_digits
  intro c hc
  have hzero : c = '0' := List.eq_of_mem_replicate (String.toList_ofList ▸ hc)
  subst hzero
  decide

@[simp] theorem bare_monthName (month : Nat) : Bare (Date.monthName month) := by
  unfold Date.monthName
  rw [List.getD_eq_getElem?_getD]
  cases hname : ["Jan", "Feb", "Mar", "Apr", "May", "Jun", "Jul", "Aug", "Sep", "Oct", "Nov", "Dec"][month - 1]? with
  | none => decide
  | some name =>
    have hall : ∀ name ∈ ["Jan", "Feb", "Mar", "Apr", "May", "Jun", "Jul", "Aug", "Sep", "Oct", "Nov", "Dec"],
        Bare name := by decide
    exact hall name (List.mem_of_getElem? hname)

theorem bare_timeText (seconds : Nat) : Bare (timeText seconds) := by
  simp only [timeText, bare_append, bare_paddedNumber, bare_monthName, and_true, true_and]
  decide

theorem bare_decimalText (whole fraction places : Nat) : Bare (decimalText whole fraction places) := by
  unfold decimalText
  dsimp only
  split
  · exact bare_toString whole
  · rw [bare_append, bare_append]
    refine ⟨⟨bare_toString whole, by decide⟩, ?_⟩
    intro c hc
    rw [String.toList_ofList, List.mem_reverse] at hc
    have hkept : c ∈ ((paddedNumber places fraction).toList.take places).reverse :=
      (List.dropWhile_sublist _).subset hc
    exact bare_paddedNumber places fraction c (List.mem_of_mem_take (List.mem_reverse.mp hkept))

theorem bare_durationText (nanoseconds : Nat) : Bare (durationText nanoseconds) := by
  unfold durationText
  split
  · exact bare_append.mpr ⟨bare_decimalText _ _ _, by decide⟩
  split
  · exact bare_append.mpr ⟨bare_decimalText _ _ _, by decide⟩
  split
  · exact bare_append.mpr ⟨bare_decimalText _ _ _, by decide⟩
  · exact bare_append.mpr ⟨bare_toString nanoseconds, by decide⟩

/-! ## One entry -/

namespace AccessInfo

/-- The client is named by an address, or by a sign that it is not known. -/
def NamesClient (i : AccessInfo) : Prop := i.clientIp = "-" ∨ ∃ ip : IpAddress, i.clientIp = ip.text

theorem namesClient_ofRequest (r : Request) : (ofRequest r).NamesClient := by
  unfold NamesClient ofRequest
  cases r.remote with
  | none => exact .inl rfl
  | some e => exact .inr ⟨e.ip, rfl⟩

variable {i : AccessInfo}

theorem NamesClient.bare (h : i.NamesClient) : Bare i.clientIp := by
  rcases h with heq | ⟨ip, heq⟩
  · rw [heq]
    decide
  · rw [heq]
    exact ip.bare_text

/-- The quoted fields of an entry, with what stands before each. -/
def accessFields (i : AccessInfo) (now : Nat) (response : Response) : List (String × String) :=
  [(i.clientIp ++ " - - [" ++ timeText now ++ "] ", i.requestLine),
   (" " ++ toString response.status.code ++ " " ++ toString response.content.size ++ " ", i.referer.getD "-"),
   (" ", i.userAgent.getD "-")]

/-- An entry without the line break at its end. -/
def accessLine (i : AccessInfo) (now duration : Nat) (response : Response) : String :=
  woven (i.accessFields now response) (" " ++ durationText duration)

theorem accessEntry_eq (i : AccessInfo) (now duration : Nat) (response : Response) :
    i.accessEntry now duration response = i.accessLine now duration response ++ "\n" := by
  unfold accessEntry accessLine accessFields woven
  simp only [List.foldr_cons, List.foldr_nil, String.append_assoc]

theorem NamesClient.bare_accessFields (h : i.NamesClient) (now : Nat) (response : Response) :
    ∀ field ∈ i.accessFields now response, Bare field.1 := by
  unfold accessFields
  intro field hfield
  simp only [List.mem_cons, List.not_mem_nil, or_false] at hfield
  rcases hfield with rfl | rfl | rfl
  · simp only [bare_append, h.bare, bare_timeText, true_and]
    decide
  · simp only [bare_append, bare_toString, and_true]
    decide
  · show Bare " "
    decide

/-- An entry is one line, from whose quoted fields what the client sent is read back. -/
theorem NamesClient.accessLine_reads (h : i.NamesClient) (now duration : Nat) (response : Response) :
    '\n' ∉ (i.accessLine now duration response).toList ∧
      quotedFields? (i.accessLine now duration response).toList =
        some [i.requestLine, i.referer.getD "-", i.userAgent.getD "-"] := by
  have hfields := h.bare_accessFields now response
  have hafter : Bare (" " ++ durationText duration) :=
    bare_append.mpr ⟨by decide, bare_durationText duration⟩
  exact ⟨newline_not_mem_woven hfields hafter, quotedFields?_woven hfields hafter⟩

end AccessInfo

theorem Gateway.Incoming.namesClient_accessInfo (i : Gateway.Incoming) : i.accessInfo.NamesClient :=
  .inr ⟨i.remote.ip, rfl⟩

/-! ## Log files -/

namespace Text

/-- A text cut after each line break. -/
def lines : List Char → List (List Char)
  | [] => []
  | c :: s =>
    if c = '\n' then [c] :: lines s
    else match lines s with
      | [] => [[c]]
      | line :: rest => (c :: line) :: rest

/-- A text whose last line, if there is any, ends in a line break. -/
def Whole (s : List Char) : Prop := s.getLast?.getD '\n' = '\n'

instance (s : List Char) : Decidable (Whole s) := inferInstanceAs (Decidable (_ = _))

theorem whole_append_newline (s : List Char) : Whole (s ++ ['\n']) := by
  simp [Whole]

theorem lines_line {line : List Char} (h : '\n' ∉ line) : lines (line ++ ['\n']) = [line ++ ['\n']] := by
  induction line with
  | nil => rfl
  | cons c line ih =>
    rw [List.mem_cons, not_or] at h
    obtain ⟨hc, hline⟩ := h
    rw [List.cons_append, lines, if_neg (Ne.symm hc), ih hline]

theorem lines_ne_nil {s : List Char} (h : s ≠ []) : lines s ≠ [] := by
  cases s with
  | nil => exact absurd rfl h
  | cons c s =>
    unfold lines
    split
    · exact List.cons_ne_nil _ _
    · split <;> exact List.cons_ne_nil _ _

/-- What is written after whole lines does not change them. -/
theorem lines_append {a : List Char} (h : Whole a) (b : List Char) : lines (a ++ b) = lines a ++ lines b := by
  induction a with
  | nil => rfl
  | cons c a ih =>
    unfold Whole at h
    rw [List.getLast?_cons, Option.getD_some] at h
    by_cases hc : c = '\n'
    · have ha : Whole a := by
        rwa [hc] at h
      rw [List.cons_append, lines, lines, if_pos hc, if_pos hc, ih ha, List.cons_append]
    · -- The line that begins here goes on, as its break is still to come.
      have hne : a ≠ [] := by
        rintro rfl
        exact hc h
      have ha : Whole a := by
        rw [List.getLast?_eq_some_getLast hne] at h
        simpa [Whole, List.getLast?_eq_some_getLast hne] using h
      rw [List.cons_append, lines, lines, if_neg hc, if_neg hc, ih ha]
      cases hlines : lines a with
      | nil => exact absurd hlines (lines_ne_nil hne)
      | cons line rest => rfl

end Text

/-- Work on a request that is over. -/
structure Ended where
  info : AccessInfo
  now : Nat
  duration : Nat
  ending : Ending

/-- The entry in the access log, if there was an answer. -/
def Ended.entry? (e : Ended) : Option String :=
  match e.ending with
  | .answered r => some (e.info.accessEntry e.now e.duration r)
  | .failed _ => none
  | .crashed => none

namespace Logs

/-- The lines of the access log. -/
def accessLines (logs : Logs) : List String := (lines logs.access.toList).map String.ofList

def after (logs : Logs) (e : Ended) : Logs := (logs.record e.info e.now e.duration e.ending).2

def afterAll (logs : Logs) (es : List Ended) : Logs := es.foldl after logs

variable {logs : Logs} {e : Ended} {es : List Ended}

theorem accessLines_after (hlogs : Whole logs.access.toList) (he : e.info.NamesClient) :
    (logs.after e).accessLines = logs.accessLines ++ e.entry?.toList ∧ Whole (logs.after e).access.toList := by
  unfold after record Ended.entry? accessLines
  cases e.ending with
  | answered r =>
    have hline := (he.accessLine_reads e.now e.duration r).1
    dsimp only
    rw [AccessInfo.accessEntry_eq, String.toList_append, lines_append hlogs, String.toList_append]
    refine ⟨?_, ?_⟩
    · show List.map String.ofList (_ ++ lines (_ ++ ['\n'])) = _
      rw [lines_line hline]
      simp
    · rw [← List.append_assoc]
      exact whole_append_newline _
  | failed report => exact ⟨(List.append_nil _).symm, hlogs⟩
  | crashed => exact ⟨(List.append_nil _).symm, hlogs⟩

theorem accessLines_afterAll (hlogs : Whole logs.access.toList) (hes : ∀ e ∈ es, e.info.NamesClient) :
    (logs.afterAll es).accessLines = logs.accessLines ++ es.filterMap Ended.entry? := by
  induction es generalizing logs with
  | nil => exact (List.append_nil _).symm
  | cons e es ih =>
    obtain ⟨he, hes⟩ := List.forall_mem_cons.mp hes
    obtain ⟨hlines, hwhole⟩ := accessLines_after hlogs he
    calc
      (logs.afterAll (e :: es)).accessLines = ((logs.after e).afterAll es).accessLines := rfl
      _ = (logs.after e).accessLines ++ es.filterMap Ended.entry? := ih hwhole hes
      _ = logs.accessLines ++ (e.entry?.toList ++ es.filterMap Ended.entry?) := by rw [hlines, List.append_assoc]
      _ = logs.accessLines ++ (e :: es).filterMap Ended.entry? := by
        cases hentry : e.entry? <;> simp [hentry]

end Logs

/-- Every request adds one line to the access log of the server. -/
theorem Gateway.accessLines_serve {σ : Type} [Component σ] {app : Application σ} {logs : Logs} {c : Circumstances}
    {i : Incoming} (h : Whole logs.access.toList) :
    let response := (answer app c (i.sessionId?.getD c.newSessionId) i).1.1
    (serve app logs c i).1.1.2.accessLines =
      logs.accessLines ++ [i.accessInfo.accessEntry c.time c.duration response] := by
  intro response
  let e : Ended := ⟨i.accessInfo, c.time, c.duration, .answered response⟩
  have hserve : (serve app logs c i).1.1.2 = logs.after e := rfl
  rw [hserve]
  exact (Logs.accessLines_after h i.namesClient_accessInfo).1

/-! ## Entries and files together -/

/-- Whatever a client sends, its entry is one line from whose quoted fields all that it sent is read
    back, and the access log is cut into the lines it had and the entries that were added. -/
theorem access_entries_cannot_be_forged :
    (∀ (i : AccessInfo) (now duration : Nat) (response : Response), i.NamesClient →
      ∃ line, i.accessEntry now duration response = line ++ "\n" ∧ '\n' ∉ line.toList ∧
        quotedFields? line.toList = some [i.requestLine, i.referer.getD "-", i.userAgent.getD "-"]) ∧
    ∀ (logs : Logs) (es : List Ended), Whole logs.access.toList → (∀ e ∈ es, e.info.NamesClient) →
      (logs.afterAll es).accessLines = logs.accessLines ++ es.filterMap Ended.entry? := by
  refine ⟨?_, ?_⟩
  · intro i now duration response hclient
    obtain ⟨hline, hfields⟩ := hclient.accessLine_reads now duration response
    exact ⟨i.accessLine now duration response, i.accessEntry_eq now duration response, hline, hfields⟩
  · intro logs es hlogs hes
    exact Logs.accessLines_afterAll hlogs hes

/-- A second entry in the request line and quotes, a backslash and an escape sequence in the other
    fields: all of it stays where it was sent. -/
theorem entry_in_request_line_stays_there :
    let request := "GET /\" 200 0 \"-\" \"-\" 1ms\n10.0.0.2 - - [06/Dec/2023:02:02:47 +0000] \"GET / HTTP/1.1"
    let attack : AccessInfo := ⟨"10.0.0.1", request, some "\\\" 1\\", some "\x1b[2J\""⟩
    let response : Response := {}
    let answered : Ended := ⟨attack, 1701828167, 1200000, .answered response⟩
    let failed : Ended := ⟨attack, 1701828168, 1200000, .failed "it broke"⟩
    attack.NamesClient ∧
      (∃ line, attack.accessEntry 1701828167 1200000 response = line ++ "\n" ∧ '\n' ∉ line.toList ∧
        quotedFields? line.toList = some [request, "\\\" 1\\", "\x1b[2J\""]) ∧
      Whole ({} : Logs).access.toList ∧
      (({} : Logs).afterAll [answered, failed, answered]).accessLines =
        [attack.accessEntry 1701828167 1200000 response, attack.accessEntry 1701828167 1200000 response] := by
  intro request attack response answered failed
  have hclient : attack.NamesClient := .inr ⟨.v4 [10, 0, 0, 1], by decide⟩
  have hwhole : Whole ({} : Logs).access.toList := by decide
  have hall : ∀ e ∈ [answered, failed, answered], e.info.NamesClient := by
    intro e he
    simp only [List.mem_cons, List.not_mem_nil, or_false] at he
    rcases he with rfl | rfl | rfl <;> exact hclient
  exact ⟨hclient, access_entries_cannot_be_forged.1 attack 1701828167 1200000 response hclient, hwhole,
    access_entries_cannot_be_forged.2 {} [answered, failed, answered] hwhole hall⟩

end PageServer
