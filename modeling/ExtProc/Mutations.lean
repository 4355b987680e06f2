import ExtProc.Conversion
import ExtProc.Exchange
import ExtProc.Patch
import ExtProc.Phases
import ExtProc.Snapshot

/-! Header mutations as edit scripts, and what the scripts of a response add up to. -/
namespace ExtProc

open Utf8 (Bytes asBytes fromUtf8 fromUtf8_asBytes)

variable {K : Crates} {p : FilterPipeline K} {s s' : StreamState K} {headers headers' : HeaderMap K}
  {resp resp' : Response K} {ctx : HttpFilterContext K} {n : K.HeaderName} {o : Outcome K}

/-- No name repeats, and every value converts to text. -/
structure Plain (K : Crates) (headers : HeaderMap K) : Prop where
  distinct : (headers.iter.map Prod.fst).Nodup
  texts : ∀ h ∈ headers.iter, (K.toStr h.2).isSome

def textEntries (headers : HeaderMap K) : List (K.HeaderName × String) :=
  headers.iter.map fun h => (h.1, textOf K h.2)

/-- The text under each name. -/
def valueMap (headers : HeaderMap K) : K.HeaderName → Option String :=
  Patch.ofList (textEntries headers)

theorem textEntries_fst : (textEntries headers).map Prod.fst = headers.iter.map Prod.fst := by
  simp [textEntries]

theorem mem_keys_iff_textEntries : n ∈ headers.keys ↔ n ∈ (textEntries headers).map Prod.fst := by
  simp [textEntries_fst, Multimap.mem_keys]

theorem Plain.nodup (h : Plain K headers) : ((textEntries headers).map Prod.fst).Nodup := by
  simpa only [textEntries_fst] using h.distinct

theorem Plain.lastText_eq_some_iff (h : Plain K headers) {t : String} :
    lastText K headers n = some t ↔ (n, t) ∈ textEntries headers := by
  simp only [textEntries, List.mem_map, Prod.mk.injEq]
  constructor
  · intro ht
    obtain ⟨v, hv, rfl⟩ := Option.map_eq_some_iff.mp ht
    exact ⟨(n, v), Multimap.mem_getAll.mp (List.mem_of_getLast? hv), rfl, rfl⟩
  · rintro ⟨⟨m, v⟩, hmem, rfl, rfl⟩
    have hone := Multimap.getAll_eq_singleton h.distinct hmem
    simp [lastText, hone]

/-- A mutation as Envoy applies it: delete the names, then set each value in order. -/
def mutationPatch (K : Crates) (m : HeaderMutation) : Patch K.HeaderName String where
  remove := m.removeHeaders.filterMap K.parseName
  set := m.setHeaders.filterMap fun option =>
    option.header.bind fun hv => (K.parseName hv.key).map fun n => (n, headerValueStr hv)

def applyMutations (K : Crates) (ms : List HeaderMutation) (f : K.HeaderName → Option String) :
    K.HeaderName → Option String :=
  ms.foldl (fun f m => (mutationPatch K m).apply f) f

/-- The header mutation a reply carries. -/
def ProcessingResponse.headerMutation (reply : ProcessingResponse) : Option HeaderMutation :=
  match reply.response with
  | some (.requestHeaders h) | some (.responseHeaders h) =>
    h.response.bind CommonResponse.headerMutation
  | some (.requestBody b) | some (.responseBody b) => b.response.bind CommonResponse.headerMutation
  | some (.requestTrailers t) | some (.responseTrailers t) => t.headerMutation
  | some (.immediateResponse _) | none => none

def mutations (replies : List ProcessingResponse) : List HeaderMutation :=
  replies.filterMap ProcessingResponse.headerMutation

/-- The script of a reply, which changes nothing when there is no mutation. -/
def diffPatch (K : Crates) (m : Option HeaderMutation) : Patch K.HeaderName String :=
  match m with
  | some m => mutationPatch K m
  | none => ⟨[], []⟩

theorem applyMutations_toList (m : Option HeaderMutation) (f : K.HeaderName → Option String) :
    applyMutations K m.toList f = (diffPatch K m).apply f := by
  cases m with
  | none =>
    funext n
    simp [applyMutations, diffPatch, Patch.apply, Patch.bind]
  | some m => rfl

theorem applyMutations_append (ms ms' : List HeaderMutation)
    (f : K.HeaderName → Option String) :
    applyMutations K (ms ++ ms') f = applyMutations K ms' (applyMutations K ms f) :=
  List.foldl_append

theorem mutations_append (replies replies' : List ProcessingResponse) :
    mutations (replies ++ replies') = mutations replies ++ mutations replies' :=
  List.filterMap_append

theorem mutations_responseHeaders (m : Option HeaderMutation) :
    mutations [Reply.responseHeaders m] = m.toList := by
  cases m <;> rfl

theorem mutations_responseReplies (m : Option HeaderMutation) (buf : Bytes) :
    mutations (responseReplies m buf) = m.toList := by
  cases m <;> cases buf <;> rfl

/-- The text that the builder of a header entry writes is the text that is read back. -/
theorem headerValueStr_mk (key value : String) :
    headerValueStr { key := key, value := value, rawValue := asBytes value } = value := by
  rw [headerValueStr]
  split
  · rfl
  · rw [fromUtf8_asBytes, Option.getD_some]

theorem diffPatch_eq (hK : K.Lawful) (hctx : ctx.responseHeader = some resp') :
    diffPatch K (collectResponseHeaderMutationsDiff ctx (captureOriginalHeaders resp)) =
      { remove := (removedNames (captureOriginalHeaders resp) resp'.headers).filterMap K.parseName
        set := (changedHeaders (captureOriginalHeaders resp) resp'.headers).map fun h =>
          (h.1, textOf K h.2) } := by
  rw [diff_eq hctx]
  split
  · next hempty =>
    simp only [Bool.and_eq_true, List.isEmpty_iff] at hempty
    simp [diffPatch, hempty.1, hempty.2]
  · simp [diffPatch, mutationPatch, headerValueOption, headerValueStr_mk, hK.parseName_asStr]

/-- The diff against the snapshot is a script from the old headers to the new ones. -/
theorem diff_leads (hK : K.Lawful) (hctx : ctx.responseHeader = some resp')
    (hold : Plain K resp.headers) (hnew : Plain K resp'.headers) :
    (diffPatch K (collectResponseHeaderMutationsDiff ctx (captureOriginalHeaders resp))).Leads
      (textEntries resp.headers) (textEntries resp'.headers) := by
  rw [diffPatch_eq hK hctx]
  refine ⟨hold.nodup, hnew.nodup, ?_, ?_, ?_⟩
  · rw [List.map_map]
    exact hnew.distinct.sublist (List.filter_sublist.map Prod.fst)
  · intro k
    simp only [List.mem_filterMap, mem_removedNames hK, ← mem_keys_iff_textEntries]
    constructor
    · rintro ⟨name, ⟨n, hn, hno, rfl⟩, hparse⟩
      have hnk : n = k := Option.some.inj ((hK.parseName_asStr n).symm.trans hparse)
      subst hnk
      exact ⟨hn, hno⟩
    · rintro ⟨hn, hno⟩
      exact ⟨K.asStr k, ⟨k, hn, hno, rfl⟩, hK.parseName_asStr k⟩
  · intro k t
    rw [← hold.lastText_eq_some_iff]
    simp only [textEntries, List.mem_map, mem_changedHeaders hK, Prod.mk.injEq]
    constructor
    · rintro ⟨h, ⟨hmem, hne⟩, rfl, rfl⟩
      exact ⟨⟨h, hmem, rfl, rfl⟩, hne⟩
    · rintro ⟨⟨h, hmem, rfl, rfl⟩, hne⟩
      exact ⟨h, ⟨hmem, hne⟩, rfl, rfl⟩

def isPseudo (hv : HeaderValue) : Bool := hv.key.toList.head? = some ':'

/-- The headers that are not pseudo-headers. -/
def regular (hs : List HeaderValue) : List HeaderValue := hs.filter fun hv => !isPseudo hv

/-- Regular headers that all parse, under distinct names, with values that convert to text. -/
structure PlainUpstream (K : Crates) (hs : List HeaderValue) : Prop where
  parses : ∀ hv ∈ regular hs, ∃ n v, K.parseName hv.key = some n ∧
    K.parseValue (headerValueStr hv) = some v ∧ (K.toStr v).isSome
  distinct : ((regular hs).filterMap fun hv => K.parseName hv.key).Nodup

/-- The text under each name, as Envoy has it before any mutation. -/
def upstreamMap (K : Crates) (hs : List HeaderValue) : K.HeaderName → Option String :=
  Patch.ofList ((regular hs).filterMap fun hv =>
    (K.parseName hv.key).map fun n => (n, headerValueStr hv))

def parsedEntry (K : Crates) (hv : HeaderValue) : Option (K.HeaderName × K.HeaderValue) :=
  match K.parseName hv.key, K.parseValue (headerValueStr hv) with
  | some n, some v => some (n, v)
  | _, _ => none

theorem appendEntry_of_parsed {e : K.HeaderName × K.HeaderValue} {hv : HeaderValue}
    (he : parsedEntry K hv = some e) (headers : HeaderMap K) :
    appendEntry headers hv = headers.append e.1 e.2 := by
  rw [parsedEntry] at he
  split at he
  · next name value hname hvalue =>
    cases he
    simp [appendEntry, appendParsed, hname, hvalue]
  · cases he

theorem appendEntry_of_unparsed {hv : HeaderValue} (he : parsedEntry K hv = none)
    (headers : HeaderMap K) : appendEntry headers hv = headers := by
  rw [parsedEntry] at he
  split at he
  · cases he
  · next hno =>
    rw [appendEntry, appendParsed]
    split
    · next name value hname hvalue => exact (hno name value hname hvalue).elim
    · rfl

/-- Pseudo-headers do not parse. -/
theorem filterMap_regular (hK : K.Lawful) (hs : List HeaderValue) :
    (regular hs).filterMap (parsedEntry K) = hs.filterMap (parsedEntry K) := by
  rw [regular, List.filterMap_filter]
  apply List.filterMap_congr
  intro hv _
  cases hp : isPseudo hv with
  | false => simp
  | true =>
    have hcolon : hv.key.toList.head? = some ':' := by simpa [isPseudo] using hp
    simp [parsedEntry, hK.parseName_pseudo hv.key hcolon]

/-- The loop over upstream headers keeps what parses, in order. -/
theorem iter_foldl_appendEntry (hs : List HeaderValue) (headers : HeaderMap K)
    (hn : ((headers.iter ++ hs.filterMap (parsedEntry K)).map Prod.fst).Nodup) :
    (hs.foldl appendEntry headers).iter = headers.iter ++ hs.filterMap (parsedEntry K) := by
  induction hs generalizing headers with
  | nil => simp
  | cons hv hs ih =>
    rw [List.foldl_cons]
    cases he : parsedEntry K hv with
    | none =>
      rw [List.filterMap_cons_none he] at hn ⊢
      rw [appendEntry_of_unparsed he]
      exact ih headers hn
    | some e =>
      rw [List.filterMap_cons_some he] at hn ⊢
      have hnew : e.1 ∉ headers.keys := by
        intro hk
        obtain ⟨v, hmem⟩ := Multimap.mem_keys.mp hk
        simp only [List.map_append, List.map_cons, List.nodup_middle, List.nodup_cons] at hn
        exact hn.1 (List.mem_append_left _ (List.mem_map.mpr ⟨_, hmem, rfl⟩))
      have hiter : (appendEntry headers hv).iter = headers.iter ++ [e] := by
        rw [appendEntry_of_parsed he]
        exact Multimap.iter_append_of_notMem hnew
      have hrest := ih (appendEntry headers hv) (by simpa [hiter, List.nodup_middle] using hn)
      simpa [hiter] using hrest

/-- A regular header of a plain upstream, parsed. -/
theorem PlainUpstream.parsedEntry_eq (hK : K.Lawful) {hs : List HeaderValue}
    (h : PlainUpstream K hs) {hv : HeaderValue} (hmem : hv ∈ regular hs) :
    ∃ n v, parsedEntry K hv = some (n, v) ∧ K.parseName hv.key = some n ∧
      (K.toStr v).isSome ∧ textOf K v = headerValueStr hv := by
  obtain ⟨n, v, hn, hvalue, htext⟩ := h.parses hv hmem
  obtain ⟨t, ht⟩ := Option.isSome_iff_exists.mp htext
  have hentry : parsedEntry K hv = some (n, v) := by simp [parsedEntry, hn, hvalue]
  have hread : textOf K v = t := by simp [textOf, ht]
  exact ⟨n, v, hentry, hn, htext, hread.trans (hK.toStr_parseValue hvalue ht)⟩

theorem PlainUpstream.names_eq (hK : K.Lawful) {hs : List HeaderValue} (h : PlainUpstream K hs) :
    ((regular hs).filterMap (parsedEntry K)).map Prod.fst =
      (regular hs).filterMap fun hv => K.parseName hv.key := by
  rw [List.map_filterMap]
  refine List.filterMap_congr fun hv hmem => ?_
  obtain ⟨n, v, he, hn, -, -⟩ := h.parsedEntry_eq hK hmem
  simp [he, hn]

theorem PlainUpstream.iter_eq (hK : K.Lawful) {hs : List HeaderValue} (h : PlainUpstream K hs) :
    (envoyHeadersToResponse K hs).headers.iter = (regular hs).filterMap (parsedEntry K) := by
  have hdistinct : ((hs.filterMap (parsedEntry K)).map Prod.fst).Nodup := by
    rw [← filterMap_regular hK, h.names_eq hK]
    exact h.distinct
  rw [response_headers hK.parseName_pseudo, convertedHeaders, filterMap_regular hK]
  exact iter_foldl_appendEntry hs .empty hdistinct

theorem PlainUpstream.plain (hK : K.Lawful) {hs : List HeaderValue} (h : PlainUpstream K hs) :
    Plain K (envoyHeadersToResponse K hs).headers := by
  have hiter := h.iter_eq hK
  constructor
  · rw [hiter, h.names_eq hK]
    exact h.distinct
  · intro e he
    obtain ⟨hv, hmem, hparsed⟩ := List.mem_filterMap.mp (hiter ▸ he)
    obtain ⟨n, v, heq, -, htext, -⟩ := h.parsedEntry_eq hK hmem
    obtain rfl := Option.some.inj (heq.symm.trans hparsed)
    exact htext

/-- The conversion of a plain upstream loses nothing. -/
theorem PlainUpstream.valueMap_eq (hK : K.Lawful) {hs : List HeaderValue}
    (h : PlainUpstream K hs) :
    valueMap (envoyHeadersToResponse K hs).headers = upstreamMap K hs := by
  rw [valueMap, upstreamMap, textEntries, h.iter_eq hK, List.map_filterMap]
  refine congrArg Patch.ofList (List.filterMap_congr fun hv hmem => ?_)
  obtain ⟨n, v, he, hn, -, htext⟩ := h.parsedEntry_eq hK hmem
  simp [he, hn, htext]

end ExtProc
