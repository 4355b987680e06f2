import ExtProc.Coalesce
import ExtProc.Conversion

/-! What the server reads of a message, and that nothing depends on the rest. -/
namespace Machine

variable {σ μ ρ : Type} {M : Machine σ μ ρ} {f : μ → μ} {s : σ}

/-- A change of messages that no step notices, no run notices. -/
theorem replies_map_of_step (h : ∀ s m, M.step s (f m) = M.step s m) (ms : List μ) :
    M.replies s (ms.map f) = M.replies s ms := by
  induction ms generalizing s with
  | nil => rfl
  | cons m ms ih =>
    have hstep := h s m
    cases hm : M.fails (M.step s m).1 with
    | true =>
      have hfm : M.fails (M.step s (f m)).1 = true := by rw [hstep, hm]
      rw [List.map_cons, replies_cons_of_fails hm, replies_cons_of_fails hfm, hstep]
    | false =>
      have hfm : M.fails (M.step s (f m)).1 = false := by rw [hstep, hm]
      rw [List.map_cons, replies_cons hm, replies_cons hfm, hstep, ih]

end Machine

namespace ExtProc

open Exec (exec)

variable {K : Crates} {l l' : List HeaderValue} {hv : HeaderValue} {key key' : String}
  {inbound inbound' : List Inbound}

/-- An entry by its text alone, wherever it stood. -/
def HeaderValue.asRead (hv : HeaderValue) : HeaderValue :=
  { key := hv.key, value := headerValueStr hv, rawValue := [] }

/-- A name and a value that both parse. -/
def isLegible (K : Crates) (hv : HeaderValue) : Bool :=
  (K.parseName hv.key).isSome && (K.parseValue (headerValueStr hv)).isSome

def lastEntry (key : String) (l : List HeaderValue) : List HeaderValue :=
  (l.filter fun hv => hv.key = key).getLast?.toList

/-- The last method, the last path, and the entries that join the map. -/
def requestAsRead (K : Crates) (l : List HeaderValue) : List HeaderValue :=
  (lastEntry ":method" l ++ lastEntry ":path" l ++ l.filter (isLegible K)).map HeaderValue.asRead

def responseAsRead (K : Crates) (l : List HeaderValue) : List HeaderValue :=
  (lastEntry ":status" l ++ l.filter (isLegible K)).map HeaderValue.asRead

/-- A message with nothing in it but what the server reads; of trailers it reads nothing. -/
def Message.asRead (K : Crates) : Message → Message
  | .requestHeaders h =>
    .requestHeaders ⟨some (requestAsRead K (extractHeaderList h)), h.endOfStream⟩
  | .responseHeaders h =>
    .responseHeaders ⟨some (responseAsRead K (extractHeaderList h)), h.endOfStream⟩
  | .requestTrailers _ => .requestTrailers ⟨none⟩
  | .responseTrailers _ => .responseTrailers ⟨none⟩
  | m => m

theorem lastValue_map_asRead : lastValue key (l.map HeaderValue.asRead) = lastValue key l := by
  rw [lastValue, List.filter_map, List.getLast?_map, Option.map_map]
  rfl

theorem lastValue_append :
    lastValue key (l ++ l') = (lastValue key l').or (lastValue key l) := by
  rw [lastValue, List.filter_append, List.getLast?_append, Option.map_or]
  rfl

theorem lastValue_lastEntry : lastValue key (lastEntry key l) = lastValue key l := by
  rw [lastValue, lastEntry]
  cases hlast : (l.filter fun hv => hv.key = key).getLast? with
  | none => simp [lastValue, hlast]
  | some hv =>
    have hmem := List.mem_of_getLast? hlast
    have hkey : hv.key = key := by simpa using (List.mem_filter.mp hmem).2
    simp [lastValue, hlast, hkey]

/-- No entry of a list has the key. -/
theorem lastValue_eq_none (h : ∀ hv ∈ l, hv.key ≠ key) : lastValue key l = none := by
  have hnone : l.filter (fun hv => hv.key = key) = [] := by
    rw [List.filter_eq_nil_iff]
    intro hv hmem
    simpa using h hv hmem
  rw [lastValue, hnone]
  rfl

theorem lastValue_lastEntry_of_ne (h : key' ≠ key) : lastValue key (lastEntry key' l) = none := by
  refine lastValue_eq_none ?_
  intro hv hmem hkey
  have hlast := List.mem_of_getLast? (Option.mem_toList.mp hmem)
  have hkey' : hv.key = key' := by simpa using (List.mem_filter.mp hlast).2
  exact h (hkey'.symm.trans hkey)

theorem lastValue_legible (hpseudo : PseudoIllegal K) (hkey : key.toList.head? = some ':') :
    lastValue key (l.filter (isLegible K)) = none := by
  refine lastValue_eq_none ?_
  rintro hv hmem rfl
  have hlegible := (List.mem_filter.mp hmem).2
  rw [isLegible, hpseudo hv.key hkey] at hlegible
  cases hlegible

theorem lastValue_requestAsRead (hpseudo : PseudoIllegal K)
    (hkey : key = ":method" ∨ key = ":path") :
    lastValue key (requestAsRead K l) = lastValue key l := by
  rw [requestAsRead, lastValue_map_asRead, lastValue_append, lastValue_append]
  rcases hkey with rfl | rfl
  · rw [lastValue_legible hpseudo rfl, lastValue_lastEntry,
      lastValue_lastEntry_of_ne (by decide)]
    rfl
  · rw [lastValue_legible hpseudo rfl, lastValue_lastEntry,
      lastValue_lastEntry_of_ne (by decide), Option.or_none]
    rfl

theorem lastValue_responseAsRead (hpseudo : PseudoIllegal K) :
    lastValue ":status" (responseAsRead K l) = lastValue ":status" l := by
  rw [responseAsRead, lastValue_map_asRead, lastValue_append, lastValue_legible hpseudo rfl,
    lastValue_lastEntry]
  rfl

theorem foldl_asRead (m : HeaderMap K) :
    (l.map HeaderValue.asRead).foldl appendEntry m = l.foldl appendEntry m := by
  rw [List.foldl_map]
  rfl

theorem foldl_lastEntry (hpseudo : PseudoIllegal K) (hkey : key.toList.head? = some ':')
    (m : HeaderMap K) : (lastEntry key l).foldl appendEntry m = m := by
  rw [lastEntry]
  cases hlast : (l.filter fun hv => hv.key = key).getLast? with
  | none => rfl
  | some hv =>
    have hmem := List.mem_of_getLast? hlast
    have hv_key : hv.key = key := by simpa using (List.mem_filter.mp hmem).2
    exact appendEntry_of_pseudo hpseudo (by rw [hv_key, hkey]) m

/-- An entry that is not legible leaves the map alone. -/
theorem appendEntry_of_illegible (h : isLegible K hv = false) (m : HeaderMap K) :
    appendEntry m hv = m := by
  rw [appendEntry, appendParsed]
  cases hname : K.parseName hv.key with
  | none => rfl
  | some name =>
    cases hvalue : K.parseValue (headerValueStr hv) with
    | none => rfl
    | some value => simp [isLegible, hname, hvalue] at h

theorem foldl_legible (l : List HeaderValue) (m : HeaderMap K) :
    (l.filter (isLegible K)).foldl appendEntry m = l.foldl appendEntry m := by
  induction l generalizing m with
  | nil => rfl
  | cons hv l ih =>
    cases hlegible : isLegible K hv with
    | true => rw [List.filter_cons_of_pos hlegible, List.foldl_cons, List.foldl_cons, ih]
    | false =>
      rw [List.filter_cons_of_neg (by simp [hlegible]), List.foldl_cons,
        appendEntry_of_illegible hlegible, ih]

theorem request_asRead (hpseudo : PseudoIllegal K) (l : List HeaderValue) :
    envoyHeadersToRequest K (requestAsRead K l) = envoyHeadersToRequest K l := by
  have hheaders : convertedHeaders K (requestAsRead K l) = convertedHeaders K l := by
    rw [convertedHeaders, requestAsRead, foldl_asRead, List.foldl_append, List.foldl_append,
      foldl_lastEntry hpseudo rfl, foldl_lastEntry hpseudo rfl, foldl_legible]
    rfl
  have hmethod := lastValue_requestAsRead (l := l) hpseudo (Or.inl rfl)
  have hpath := lastValue_requestAsRead (l := l) hpseudo (Or.inr rfl)
  have hparts : ∀ a b : Request K, a.headers = b.headers → a.method = b.method → a.uri = b.uri →
      a = b := by
    rintro ⟨h, m, u⟩ ⟨h', m', u'⟩ rfl rfl rfl
    rfl
  refine hparts _ _ ?_ ?_ ?_
  · rw [request_headers hpseudo, request_headers hpseudo, hheaders]
  · rw [request_method, request_method, hmethod]
  · rw [request_uri, request_uri, pathText, pathText, hpath]

theorem response_asRead (hpseudo : PseudoIllegal K) (l : List HeaderValue) :
    envoyHeadersToResponse K (responseAsRead K l) = envoyHeadersToResponse K l := by
  have hheaders : convertedHeaders K (responseAsRead K l) = convertedHeaders K l := by
    rw [convertedHeaders, responseAsRead, foldl_asRead, List.foldl_append,
      foldl_lastEntry hpseudo rfl, foldl_legible]
    rfl
  have hparts : ∀ a b : Response K, a.headers = b.headers → a.status = b.status → a = b := by
    rintro ⟨h, s⟩ ⟨h', s'⟩ rfl rfl
    rfl
  refine hparts _ _ ?_ ?_
  · rw [response_headers hpseudo, response_headers hpseudo, hheaders]
  · rw [response_status, response_status, lastValue_responseAsRead hpseudo]

theorem handle_asRead (hpseudo : PseudoIllegal K) (p : FilterPipeline K) (s : StreamState K)
    (m : Message) : handle p s (m.asRead K) = handle p s m := by
  cases m with
  | requestHeaders h =>
    rw [Message.asRead, handle_requestHeaders, handle_requestHeaders]
    simp only [extractHeaderList, Option.getD_some, request_asRead hpseudo]
  | responseHeaders h =>
    rw [Message.asRead, handle_responseHeaders, handle_responseHeaders]
    simp only [extractHeaderList, Option.getD_some, response_asRead hpseudo]
  | requestBody b | responseBody b | requestTrailers t | responseTrailers t => rfl

theorem outcomes_asRead (hpseudo : PseudoIllegal K) {p : FilterPipeline K}
    (h : (messagesOf inbound).map (Message.asRead K) =
      (messagesOf inbound').map (Message.asRead K)) :
    outcomes p .new inbound = outcomes p .new inbound' := by
  have hstep : ∀ s m, (server p).step s (Message.asRead K m) = (server p).step s m :=
    handle_asRead hpseudo p
  rw [outcomes, outcomes, ← Machine.replies_map_of_step hstep, h,
    Machine.replies_map_of_step hstep]

/-- Streams whose messages read the same do the same things in the same order, wherever the
consumer leaves: the rest of a message (`:authority` and `:scheme`, names and values that do not
parse, all but the last of a pseudo-header, in which field a text stands, what trailers hold) is
never seen. -/
theorem unread_unobservable (hpseudo : PseudoIllegal K) (p : FilterPipeline K) (room : Option Nat)
    (hmessages : (messagesOf inbound).map (Message.asRead K) =
      (messagesOf inbound').map (Message.asRead K))
    (hend : transportFailure inbound = transportFailure inbound') :
    (exec (process p inbound) (.start room)).2.log =
      (exec (process p inbound') (.start room)).2.log := by
  have houtcomes := outcomes_asRead hpseudo (p := p) hmessages
  refine process_alike ?_ ?_ (.start room)
  · rw [houtcomes]
  · rw [failure, failure, houtcomes, hend]

section Unread

/-- A request for the same method and path, in different words. -/
def wordyRequest : List Inbound :=
  [.ok ⟨none⟩,
    .ok ⟨some (.requestHeaders ⟨some [⟨":scheme", "https", []⟩, ⟨":method", "PUT", []⟩,
      ⟨"no name", "x", []⟩, ⟨":path", "/a", []⟩, ⟨":method", "", Utf8.asBytes "POST"⟩], true⟩)⟩,
    .ok ⟨some (.requestTrailers ⟨some [⟨"x-a", "1", []⟩]⟩)⟩]

def plainWords : List Inbound :=
  [.ok ⟨some (.requestHeaders ⟨some [⟨":path", "/a", []⟩, ⟨":method", "POST", []⟩], true⟩)⟩,
    .ok ⟨some (.requestTrailers ⟨none⟩)⟩]

theorem words_unread :
    (exec (process passAll wordyRequest) (.start none)).2.log =
      (exec (process passAll plainWords) (.start none)).2.log :=
  unread_unobservable httpCrates_lawful.parseName_pseudo passAll none (by decide) rfl

end Unread

end ExtProc
