import ExtProc.HeaderBytes
import ExtProc.Mutations

/-! Request header mutations decode to what the filters asked for. -/
namespace ExtProc

open Utf8 (Bytes asBytes)

variable {K : Crates} {ctx : HttpFilterContext K} {m : HeaderMutation} {n : K.HeaderName}
  {bytes : K.HeaderValue → Bytes}

/-- The header entries a mutation sets. -/
def HeaderMutation.setEntries (m : HeaderMutation) : List HeaderValue :=
  m.setHeaders.filterMap HeaderValueOption.header

/-- The extra headers of one name, in any spelling. -/
def extrasUnder (K : Crates) (ctx : HttpFilterContext K) (n : K.HeaderName) :
    List (String × String) :=
  ctx.extraRequestHeaders.filter fun h => K.parseName h.1 = some n

/-- The extra names and values are legal, and a rewritten path is a URI. -/
structure LegalMutations (K : Crates) (ctx : HttpFilterContext K) : Prop where
  names : ∀ h ∈ ctx.extraRequestHeaders, (K.parseName h.1).isSome
  values : ∀ h ∈ ctx.extraRequestHeaders, (K.parseValue h.2).isSome
  path : ∀ path, ctx.rewrittenPath = some path → (K.parseUri path).isSome

/-- A request holds the extra headers and no others, and the rewritten path. -/
structure DecodesTo (bytes : K.HeaderValue → Bytes) (ctx : HttpFilterContext K)
    (request : Request K) : Prop where
  parsed : ∀ n, (request.headers.getAll n).map some =
    (extrasUnder K ctx n).map fun h => K.parseValue h.2
  texts : ∀ n, (request.headers.getAll n).map bytes =
    (extrasUnder K ctx n).map fun h => asBytes h.2
  uri : K.parseUri (ctx.rewrittenPath.getD "/") = some request.uri

def setEntry (key value : String) : HeaderValue :=
  { key := key, value := value, rawValue := asBytes value }

def extraEntries (ctx : HttpFilterContext K) : List HeaderValue :=
  ctx.extraRequestHeaders.map fun h => setEntry h.1 h.2

def pathEntries (ctx : HttpFilterContext K) : List HeaderValue :=
  ctx.rewrittenPath.toList.map fun path => setEntry ":path" path

theorem collect_eq_none_iff : collectRequestHeaderMutations ctx = none ↔
    ctx.extraRequestHeaders = [] ∧ ctx.rewrittenPath = none := by
  simp [collectRequestHeaderMutations]

theorem setEntries_of_collect (h : collectRequestHeaderMutations ctx = some m) :
    m.setEntries = extraEntries ctx ++ pathEntries ctx := by
  rw [collectRequestHeaderMutations] at h
  split at h
  · cases h
  · cases h
    cases hpath : ctx.rewrittenPath with
    | none => simp [HeaderMutation.setEntries, extraEntries, pathEntries, hpath,
        headerValueOption, setEntry]
    | some path => simp [HeaderMutation.setEntries, extraEntries, pathEntries, hpath,
        headerValueOption, setEntry]

/-- The path entry is under no name, so the values of a name are those of the extras. -/
theorem valuesUnder_setEntries (hpseudo : PseudoIllegal K) :
    valuesUnder K n (extraEntries ctx ++ pathEntries ctx) =
      (extrasUnder K ctx n).filterMap fun h => K.parseValue h.2 := by
  have hpath : K.parseName ":path" = none := hpseudo ":path" (by decide)
  have hnone : valuesUnder K n (pathEntries ctx) = [] := by
    simp [valuesUnder, pathEntries, setEntry, hpath]
  rw [valuesUnder_append, hnone, List.append_nil]
  simp [valuesUnder, extraEntries, extrasUnder, List.filter_map, setEntry, headerValueStr_mk,
    Function.comp_def]

theorem pathText_setEntries (hpseudo : PseudoIllegal K) (hlegal : LegalMutations K ctx) :
    pathText (extraEntries ctx ++ pathEntries ctx) = ctx.rewrittenPath.getD "/" := by
  have hpath : K.parseName ":path" = none := hpseudo ":path" (by decide)
  have hextras : (extraEntries ctx).filter (fun hv => hv.key = ":path") = [] := by
    rw [List.filter_eq_nil_iff]
    intro hv hmem
    obtain ⟨h, hh, rfl⟩ := List.mem_map.mp hmem
    have hname := hlegal.names h hh
    intro hkey
    have hkey' : h.1 = ":path" := of_decide_eq_true hkey
    simp [hkey', hpath] at hname
  rw [pathText, lastValue, List.filter_append, hextras, List.nil_append]
  cases hrewritten : ctx.rewrittenPath with
  | none => simp [pathEntries, hrewritten]
  | some path => simp [pathEntries, hrewritten, setEntry, headerValueStr_mk]

/-- Every extra value of a name is kept, and it has the bytes that the filter gave. -/
theorem LegalMutations.values_of_name (hlegal : LegalMutations K ctx) (hbytes : KeepsBytes K bytes)
    (n : K.HeaderName) :
    ((extrasUnder K ctx n).filterMap fun h => K.parseValue h.2).map some =
      ((extrasUnder K ctx n).map fun h => K.parseValue h.2) ∧
    ((extrasUnder K ctx n).filterMap fun h => K.parseValue h.2).map bytes =
      (extrasUnder K ctx n).map fun h => asBytes h.2 := by
  have hvalues : ∀ h ∈ extrasUnder K ctx n, ∃ v, K.parseValue h.2 = some v := by
    intro h hh
    exact Option.isSome_iff_exists.mp (hlegal.values h (List.mem_of_mem_filter hh))
  rw [List.map_filterMap, List.map_filterMap]
  constructor
  · apply List.filterMap_eq_map_iff_forall_eq_some.mpr
    intro h hh
    obtain ⟨v, hv⟩ := hvalues h hh
    simp [hv]
  · apply List.filterMap_eq_map_iff_forall_eq_some.mpr
    intro h hh
    obtain ⟨v, hv⟩ := hvalues h hh
    simp [hv, hbytes hv]

theorem decodesTo_setEntries (hpseudo : PseudoIllegal K) (hbytes : KeepsBytes K bytes)
    (hroot : K.parseUri "/" = some K.rootUri) (hlegal : LegalMutations K ctx) :
    DecodesTo bytes ctx (envoyHeadersToRequest K (extraEntries ctx ++ pathEntries ctx)) := by
  have hheaders : ∀ n, (envoyHeadersToRequest K
      (extraEntries ctx ++ pathEntries ctx)).headers.getAll n =
        (extrasUnder K ctx n).filterMap fun h => K.parseValue h.2 := by
    intro n
    rw [request_headers hpseudo, getAll_convertedHeaders]
    exact valuesUnder_setEntries hpseudo
  refine ⟨?_, ?_, ?_⟩
  · intro n
    rw [hheaders]
    exact (hlegal.values_of_name hbytes n).1
  · intro n
    rw [hheaders]
    exact (hlegal.values_of_name hbytes n).2
  · rw [request_uri, pathText_setEntries hpseudo hlegal]
    cases hpath : ctx.rewrittenPath with
    | none => simp [hroot]
    | some path =>
      obtain ⟨uri, huri⟩ := Option.isSome_iff_exists.mp (hlegal.path path hpath)
      simp [huri]

/-- There is a mutation when there is something to send, and it decodes to what was asked for. -/
theorem request_mutations_decode (hpseudo : PseudoIllegal K) (hbytes : KeepsBytes K bytes)
    (hroot : K.parseUri "/" = some K.rootUri) (hlegal : LegalMutations K ctx) :
    (collectRequestHeaderMutations ctx = none ↔
      ctx.extraRequestHeaders = [] ∧ ctx.rewrittenPath = none) ∧
    ∀ m, collectRequestHeaderMutations ctx = some m →
      DecodesTo bytes ctx (envoyHeadersToRequest K m.setEntries) := by
  refine ⟨collect_eq_none_iff, ?_⟩
  intro m hm
  rw [setEntries_of_collect hm]
  exact decodesTo_setEntries hpseudo hbytes hroot hlegal

section Rewrite

/-- Two spellings of one name, an empty value between them, and a path. -/
def askingContext : HttpFilterContext httpCrates :=
  { buildFilterContext { headers := .empty, method := "GET", uri := "/" } with
    extraRequestHeaders := [("X-A", "1"), ("x-b", ""), ("x-a", "2")]
    rewrittenPath := some "/new" }

theorem askingContext_legal : LegalMutations httpCrates askingContext where
  names := by decide
  values := by decide
  path := by
    intro path h
    cases h
    decide

def askedMutation : HeaderMutation where
  setHeaders := [headerValueOption "X-A" "1", headerValueOption "x-b" "",
    headerValueOption "x-a" "2", headerValueOption ":path" "/new"]
  removeHeaders := []

theorem asked_headers_decode :
    collectRequestHeaderMutations askingContext = some askedMutation ∧
      DecodesTo Subtype.val askingContext
        (envoyHeadersToRequest httpCrates askedMutation.setEntries) :=
  ⟨rfl, (request_mutations_decode httpCrates_lawful.parseName_pseudo httpCrates_keepsBytes
    (by decide) askingContext_legal).2 askedMutation rfl⟩

end Rewrite

end ExtProc
