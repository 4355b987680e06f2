import ExtProc.FilterState
import ExtProc.HeaderBytes

/-! Which path the request filters see. -/
namespace ExtProc

open Utf8 (fromUtf8)

variable {K : Crates} {p : FilterPipeline K} {s s' : StreamState K} {m : Message}
  {o : Outcome K} {ctx : HttpFilterContext K} {l l' : List HeaderValue} {hv : HeaderValue}
  {v v' : String} {render : K.Uri → String}

/-- The text of the last path entry, where its bytes are UTF-8. -/
def sentPath (l : List HeaderValue) : Option String :=
  (l.filter fun hv => hv.key = ":path").getLast?.bind fun hv => fromUtf8 (transmitted hv)

def otherHeaders (l : List HeaderValue) : List HeaderValue :=
  l.filter fun hv => hv.key ≠ ":path"

theorem pathText_of_sentPath (h : sentPath l = some v) : pathText l = v := by
  obtain ⟨hv, hlast, hutf8⟩ := Option.bind_eq_some_iff.mp h
  simp [pathText, lastValue, hlast, headerValueStr_of_utf8 hutf8]

def readUri (K : Crates) (v : String) : K.Uri := (K.parseUri v).getD K.rootUri

/-- A path the parser refuses, and one it takes for the root. -/
def ReadsAsRoot (K : Crates) (v : String) : Prop :=
  K.parseUri v = none ∨ K.parseUri v = some K.rootUri

theorem readUri_of_readsAsRoot (h : ReadsAsRoot K v) : readUri K v = K.rootUri := by
  rcases h with h | h <;> simp [readUri, h]

theorem readsAsRoot_of_refused (hnone : K.parseUri v = none)
    (h : readUri K v = readUri K v') : ReadsAsRoot K v ∧ ReadsAsRoot K v' := by
  refine ⟨Or.inl hnone, ?_⟩
  cases hv' : K.parseUri v' with
  | none => exact Or.inl hv'
  | some u =>
    have hroot : K.rootUri = u := by simpa [readUri, hnone, hv'] using h
    exact Or.inr (by simp [hv', hroot])

/-- What the parser accepts stays apart, so two paths meet in the root only. -/
theorem readUri_eq_iff (hrender : ∀ s u, K.parseUri s = some u → render u = s) :
    readUri K v = readUri K v' ↔ v = v' ∨ ReadsAsRoot K v ∧ ReadsAsRoot K v' := by
  constructor
  · intro h
    cases hv : K.parseUri v with
    | none => exact Or.inr (readsAsRoot_of_refused hv h)
    | some u =>
      cases hv' : K.parseUri v' with
      | none => exact Or.inr (readsAsRoot_of_refused hv' h.symm).symm
      | some u' =>
        have hu : u = u' := by simpa [readUri, hv, hv'] using h
        left
        calc v = render u := (hrender v u hv).symm
          _ = render u' := by rw [hu]
          _ = v' := hrender v' u' hv'
  · intro h
    rcases h with h | ⟨h, h'⟩
    · rw [h]
    · rw [readUri_of_readsAsRoot h, readUri_of_readsAsRoot h']

/-- The loop reads the path for nothing but the path. -/
theorem foldl_otherHeaders (l : List HeaderValue) {parts parts' : RequestParts K}
    (hmethod : parts.method = parts'.method) (hmap : parts.headerMap = parts'.headerMap) :
    (l.foldl requestStep parts).method = ((otherHeaders l).foldl requestStep parts').method ∧
      (l.foldl requestStep parts).headerMap =
        ((otherHeaders l).foldl requestStep parts').headerMap := by
  induction l generalizing parts parts' with
  | nil => exact ⟨hmethod, hmap⟩
  | cons hv l ih =>
    by_cases hpath : hv.key = ":path"
    · have hdrop : otherHeaders (hv :: l) = otherHeaders l := by simp [otherHeaders, hpath]
      rw [hdrop]
      apply ih <;> simp [requestStep, hpath, hmethod, hmap]
    · have hkeep : otherHeaders (hv :: l) = hv :: otherHeaders l := by
        simp [otherHeaders, hpath]
      rw [hkeep]
      apply ih
      · simp only [requestStep, hpath, if_false]
        split <;> try split
        all_goals simp [hmethod]
      · simp only [requestStep, hpath, if_false]
        split <;> try split
        all_goals simp [hmap]

theorem request_otherHeaders (K : Crates) (l : List HeaderValue) :
    (envoyHeadersToRequest K l).method = (envoyHeadersToRequest K (otherHeaders l)).method ∧
      (envoyHeadersToRequest K l).headers =
        (envoyHeadersToRequest K (otherHeaders l)).headers :=
  foldl_otherHeaders l rfl rfl

theorem request_eq_iff (hother : otherHeaders l = otherHeaders l') :
    envoyHeadersToRequest K l = envoyHeadersToRequest K l' ↔
      (envoyHeadersToRequest K l).uri = (envoyHeadersToRequest K l').uri := by
  obtain ⟨hmethod, hheaders⟩ := request_otherHeaders K l
  obtain ⟨hmethod', hheaders'⟩ := request_otherHeaders K l'
  rw [hother] at hmethod hheaders
  constructor
  · intro h
    rw [h]
  · intro huri
    cases hl : envoyHeadersToRequest K l
    cases hl' : envoyHeadersToRequest K l'
    simp_all

theorem uri_of_sentPath (h : sentPath l = some v) :
    (envoyHeadersToRequest K l).uri = readUri K v := by
  rw [request_uri, pathText_of_sentPath h, readUri]

def openingHeaders : Message → Option (List HeaderValue)
  | .requestHeaders h => some (extractHeaderList h)
  | _ => none

/-- The header list of the most recent request headers. -/
def latestHeaders (turns : List (Turn K)) : Option (List HeaderValue) :=
  turns.foldl (fun latest t => (openingHeaders t.message).or latest) none

theorem openedBy_eq (K : Crates) (m : Message) :
    openedBy K m = (openingHeaders m).map (envoyHeadersToRequest K) := by
  cases m <;> rfl

theorem latestRequest_eq (turns : List (Turn K)) :
    latestRequest turns = (latestHeaders turns).map (envoyHeadersToRequest K) := by
  change turns.foldl _ (Option.map (envoyHeadersToRequest K) none) = _
  apply List.foldl_hom
  intro latest t
  rw [openedBy_eq]
  cases openingHeaders t.message <;> rfl

theorem RequestRun.given (h : RequestRun p s o s')
    (hcall : .executeHttpRequest ctx ∈ o.calls) : s.request = some ctx.request := by
  obtain ⟨request, hq, hc | hc⟩ := h.mem_calls hcall
  · cases hc
    exact hq
  · cases hc

theorem ResponseRun.not_executeHttpRequest (h : ResponseRun p s o s') :
    .executeHttpRequest ctx ∉ o.calls := by
  intro hcall
  obtain ⟨request, resp, -, -, ⟨-, hc⟩ | ⟨ctx', hc⟩⟩ := h.mem_calls hcall <;> cases hc

theorem HeaderRun.not_executeHttpRequest (h : HeaderRun p s o s') :
    .executeHttpRequest ctx ∉ o.calls := by
  intro hcall
  obtain ⟨request, resp, -, -, hc⟩ := h.mem_calls hcall
  cases hc

/-- The request filters are given the request that the message leaves in the state. -/
theorem HandleRun.given (h : HandleRun p s m o s')
    (hcall : .executeHttpRequest ctx ∈ o.calls) : s'.request = some ctx.request := by
  cases h with
  | requestOpened he | chunkRefused side hover | chunkKept side he | trailers side t => cases hcall
  | requestEnded he hrun => exact hrun.frame.1.trans (hrun.given hcall)
  | responseOpened he hrun => exact (hrun.not_executeHttpRequest hcall).elim
  | responseEnded he hrun => exact (hrun.not_executeHttpRequest hcall).elim
  | bodyEnded side hcap he hrun =>
    cases hrun with
    | request hrun => exact hrun.frame.1.trans (hrun.given hcall)
    | response hrun => exact (hrun.not_executeHttpRequest hcall).elim

/-- On every stream, the request filters start on the latest header list. -/
theorem request_given {ms : List Message} {pre post : List (Turn K)} {t : Turn K}
    (hrun : (server p).run StreamState.new ms = pre ++ t :: post)
    (hcall : .executeHttpRequest ctx ∈ t.reply.calls) :
    ∃ l, latestHeaders (pre ++ [t]) = some l ∧ ctx.request = envoyHeadersToRequest K l := by
  obtain ⟨⟨hq, -⟩, ht⟩ := run_keeps hrun
  have hstep := turn_run ht
  have hgiven := hstep.keeps.1.symm.trans (hstep.given hcall)
  have hlatest : latestRequest (pre ++ [t]) = some ctx.request := by
    rw [← hgiven, hq]
    simp [latestRequest]
  rw [latestRequest_eq] at hlatest
  obtain ⟨l, hl, hconv⟩ := Option.map_eq_some_iff.mp hlatest
  exact ⟨l, hl, hconv.symm⟩

/-- Requests are given with the path Envoy sent, or with the root for a path the parser refuses,
and stay apart unless both of their paths are read as the root. -/
structure PathsSeen (p : FilterPipeline K) (render : K.Uri → String) : Prop where
  given : ∀ {ms : List Message} {pre post : List (Turn K)} {t : Turn K}
    {ctx : HttpFilterContext K}, (server p).run .new ms = pre ++ t :: post →
    .executeHttpRequest ctx ∈ t.reply.calls →
    ∃ l, latestHeaders (pre ++ [t]) = some l ∧ ctx.request = envoyHeadersToRequest K l
  rendered : ∀ {l v}, sentPath l = some v →
    render (envoyHeadersToRequest K l).uri = v ∨
      K.parseUri v = none ∧ (envoyHeadersToRequest K l).uri = K.rootUri
  apart : ∀ {l l' v v'}, otherHeaders l = otherHeaders l' → sentPath l = some v →
    sentPath l' = some v' →
    (envoyHeadersToRequest K l = envoyHeadersToRequest K l' ↔
      v = v' ∨ ReadsAsRoot K v ∧ ReadsAsRoot K v')

theorem paths_seen (p : FilterPipeline K)
    (hrender : ∀ s u, K.parseUri s = some u → render u = s) : PathsSeen p render where
  given := request_given
  rendered := by
    intro l v h
    rw [uri_of_sentPath h, readUri]
    cases hv : K.parseUri v with
    | none => exact Or.inr ⟨rfl, rfl⟩
    | some u => exact Or.inl (hrender v u hv)
  apart := by
    intro l l' v v' hother h h'
    rw [request_eq_iff hother, uri_of_sentPath h, uri_of_sentPath h']
    exact readUri_eq_iff hrender

section Root

def spaced : List HeaderValue := [⟨":path", "admin page", []⟩]

def rooted : List HeaderValue := [⟨":path", "/", []⟩]

/-- A path the parser refuses gives the filters the request of the root path. -/
theorem refused_path_collapses :
    otherHeaders spaced = otherHeaders rooted ∧ sentPath spaced = some "admin page" ∧
      sentPath rooted = some "/" ∧
      ∃ ctx, ctx.request.uri = "/" ∧
        (handle passAll .new (.requestHeaders ⟨some spaced, true⟩)).1.calls =
          [.executeHttpRequest ctx] ∧
        (handle passAll .new (.requestHeaders ⟨some rooted, true⟩)).1.calls =
          [.executeHttpRequest ctx] := by
  refine ⟨by decide, by decide, by decide, _, ?_, rfl, rfl⟩
  decide

theorem passAll_paths_seen : PathsSeen passAll (id : String → String) := by
  apply paths_seen passAll
  intro s u h
  by_cases hroot : s.toList.head? = some '/' <;> simp_all [httpCrates]

end Root

end ExtProc
