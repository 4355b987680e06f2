import ExtProc.Http

/-! What the two converters make of a header list. -/
namespace ExtProc

variable {K : Crates} {l l' : List HeaderValue} {hv : HeaderValue}

section Loop
variable {α β γ : Type} {step : β → α → β}

/-- A variable that some elements overwrite holds what the last of them wrote. -/
theorem foldl_lastWrite (proj : β → γ) {writes : α → Option γ}
    (h : ∀ b a, proj (step b a) = (writes a).getD (proj b)) (l : List α) (b : β) :
    proj (l.foldl step b) = (l.filterMap writes).getLast?.getD (proj b) := by
  induction l generalizing b with
  | nil => rfl
  | cons a l ih =>
    rw [List.foldl_cons, ih, h]
    cases hw : writes a with
    | none => rw [List.filterMap_cons_none hw, Option.getD_none]
    | some c => rw [List.filterMap_cons_some hw, List.getLast?_cons, Option.getD_some,
        Option.getD_some]

end Loop

/-- The decoded values of the entries with a name, where the value parses. -/
def valuesUnder (K : Crates) (n : K.HeaderName) (l : List HeaderValue) : List K.HeaderValue :=
  (l.filter fun hv => K.parseName hv.key = some n).filterMap fun hv =>
    K.parseValue (headerValueStr hv)

theorem valuesUnder_append (n : K.HeaderName) (l l' : List HeaderValue) :
    valuesUnder K n (l ++ l') = valuesUnder K n l ++ valuesUnder K n l' := by
  rw [valuesUnder, List.filter_append, List.filterMap_append, valuesUnder, valuesUnder]

/-- The decoded value of the last entry with a key. -/
def lastValue (key : String) (l : List HeaderValue) : Option String :=
  (l.filter fun hv => hv.key = key).getLast?.map headerValueStr

/-- The other list reorders the entries, but none of one name, and none of one key. -/
structure Reordered (K : Crates) (l l' : List HeaderValue) : Prop where
  perm : l.Perm l'
  names : ∀ n, (l.filter fun hv => K.parseName hv.key = some n) =
    l'.filter fun hv => K.parseName hv.key = some n
  keys : ∀ key, (l.filter fun hv => hv.key = key) = l'.filter fun hv => hv.key = key

/-- The documented law of header names that keeps pseudo-headers out of the maps. -/
def PseudoIllegal (K : Crates) : Prop := ∀ s, s.toList.head? = some ':' → K.parseName s = none

/-- An entry joins the map under its own name. -/
def appendEntry (m : HeaderMap K) (hv : HeaderValue) : HeaderMap K :=
  appendParsed m hv.key (headerValueStr hv)

theorem appendEntry_of_pseudo (hpseudo : PseudoIllegal K) (hkey : hv.key.toList.head? = some ':')
    (m : HeaderMap K) : appendEntry m hv = m := by
  rw [appendEntry, appendParsed, hpseudo hv.key hkey]

theorem requestStep_headerMap (hpseudo : PseudoIllegal K) (parts : RequestParts K)
    (hv : HeaderValue) : (requestStep parts hv).headerMap = appendEntry parts.headerMap hv := by
  by_cases hmethod : hv.key = ":method"
  · rw [requestStep, if_pos hmethod, appendEntry_of_pseudo hpseudo (by rw [hmethod]; rfl)]
  · by_cases hpath : hv.key = ":path"
    · rw [requestStep, if_neg hmethod, if_pos hpath,
        appendEntry_of_pseudo hpseudo (by rw [hpath]; rfl)]
    · by_cases hother : hv.key = ":authority" ∨ hv.key = ":scheme"
      · have hkey : hv.key.toList.head? = some ':' := by
          rcases hother with he | he <;> rw [he] <;> rfl
        rw [requestStep, if_neg hmethod, if_neg hpath, if_pos hother,
          appendEntry_of_pseudo hpseudo hkey]
      · rw [requestStep, if_neg hmethod, if_neg hpath, if_neg hother, appendEntry]

theorem responseStep_headerMap (hpseudo : PseudoIllegal K) (parts : ResponseParts K)
    (hv : HeaderValue) : (responseStep parts hv).headerMap = appendEntry parts.headerMap hv := by
  by_cases hstatus : hv.key = ":status"
  · rw [responseStep, if_pos hstatus, appendEntry_of_pseudo hpseudo (by rw [hstatus]; rfl)]
  · rw [responseStep, if_neg hstatus, appendEntry]

/-- The map of a loop over appended entries. -/
theorem getAll_foldl_appendEntry (n : K.HeaderName) (l : List HeaderValue) (m : HeaderMap K) :
    (l.foldl appendEntry m).getAll n =
      m.getAll n ++ valuesUnder K n l := by
  induction l generalizing m with
  | nil => exact (List.append_nil _).symm
  | cons hv l ih =>
    rw [List.foldl_cons, ih]
    have hone : (appendEntry m hv).getAll n =
        m.getAll n ++ valuesUnder K n [hv] := by
      rw [appendEntry, appendParsed]
      cases hname : K.parseName hv.key with
      | none => simp [valuesUnder, hname]
      | some name =>
        cases hvalue : K.parseValue (headerValueStr hv) with
        | none => by_cases he : name = n <;> simp [valuesUnder, hname, hvalue, he]
        | some value =>
          simp only [Multimap.getAll_append]
          by_cases he : name = n
          · simp [valuesUnder, hname, hvalue, he]
          · simp [valuesUnder, hname, he, Ne.symm he]
    have hsplit : valuesUnder K n (hv :: l) = valuesUnder K n [hv] ++ valuesUnder K n l :=
      valuesUnder_append n [hv] l
    rw [hone, hsplit, List.append_assoc]

/-- The map both converters build. -/
def convertedHeaders (K : Crates) (l : List HeaderValue) : HeaderMap K :=
  l.foldl appendEntry .empty

theorem getAll_convertedHeaders (n : K.HeaderName) (l : List HeaderValue) :
    (convertedHeaders K l).getAll n = valuesUnder K n l :=
  getAll_foldl_appendEntry n l .empty

theorem request_headers (hpseudo : PseudoIllegal K) (l : List HeaderValue) :
    (envoyHeadersToRequest K l).headers = convertedHeaders K l := by
  have hloop : l.foldl appendEntry (RequestParts.headerMap ⟨K.get, "/", .empty⟩) =
      (l.foldl requestStep ⟨K.get, "/", .empty⟩).headerMap :=
    List.foldl_hom RequestParts.headerMap fun parts hv =>
      (requestStep_headerMap hpseudo parts hv).symm
  exact hloop.symm

theorem response_headers (hpseudo : PseudoIllegal K) (l : List HeaderValue) :
    (envoyHeadersToResponse K l).headers = convertedHeaders K l := by
  have hloop : l.foldl appendEntry (ResponseParts.headerMap ⟨K.statusOk, .empty⟩) =
      (l.foldl responseStep ⟨K.statusOk, .empty⟩).headerMap :=
    List.foldl_hom ResponseParts.headerMap fun parts hv =>
      (responseStep_headerMap hpseudo parts hv).symm
  exact hloop.symm

/-- What an entry writes to the variable of one pseudo-header. -/
def writes {γ : Type} (key : String) (f : String → γ) (hv : HeaderValue) : Option γ :=
  if hv.key = key then some (f (headerValueStr hv)) else none

theorem getLast?_filterMap_writes {γ : Type} (key : String) (f : String → γ)
    (l : List HeaderValue) : (l.filterMap (writes key f)).getLast? = (lastValue key l).map f := by
  have hwrites : l.filterMap (writes key f) =
      (l.filter fun hv => hv.key = key).map fun hv => f (headerValueStr hv) := by
    induction l with
    | nil => rfl
    | cons hv l ih => by_cases hkey : hv.key = key <;> simp [writes, hkey, ih]
  rw [hwrites, List.getLast?_map, lastValue, Option.map_map]
  rfl

theorem requestStep_method (parts : RequestParts K) (hv : HeaderValue) :
    (requestStep parts hv).method =
      (writes ":method" (fun val => (K.parseMethod val).getD K.get) hv).getD parts.method := by
  by_cases hmethod : hv.key = ":method"
  · simp [requestStep, writes, hmethod]
  · rw [requestStep, writes, if_neg hmethod, if_neg hmethod]
    split
    · rfl
    · split <;> rfl

theorem requestStep_path (parts : RequestParts K) (hv : HeaderValue) :
    (requestStep parts hv).path = (writes ":path" id hv).getD parts.path := by
  by_cases hpath : hv.key = ":path"
  · simp [requestStep, writes, hpath]
  · rw [requestStep, writes, if_neg hpath, if_neg hpath]
    split
    · rfl
    · split <;> rfl

theorem responseStep_status (parts : ResponseParts K) (hv : HeaderValue) :
    (responseStep parts hv).status =
      (writes ":status" (fun val => ((parseU16 val).bind K.statusFromU16).getD K.statusOk) hv).getD
        parts.status := by
  by_cases hstatus : hv.key = ":status"
  · simp [responseStep, writes, hstatus]
  · rw [responseStep, writes, if_neg hstatus, if_neg hstatus]
    rfl

theorem request_method (l : List HeaderValue) : (envoyHeadersToRequest K l).method =
    ((lastValue ":method" l).bind K.parseMethod).getD K.get := by
  have hlast := foldl_lastWrite RequestParts.method requestStep_method l ⟨K.get, "/", .empty⟩
  rw [getLast?_filterMap_writes] at hlast
  rw [envoyHeadersToRequest, hlast]
  cases lastValue ":method" l <;> rfl

/-- The text that is parsed as the URI. -/
def pathText (l : List HeaderValue) : String := (lastValue ":path" l).getD "/"

theorem request_uri (l : List HeaderValue) : (envoyHeadersToRequest K l).uri =
    (K.parseUri (pathText l)).getD K.rootUri := by
  have hlast := foldl_lastWrite RequestParts.path requestStep_path l
    ⟨K.get, "/", .empty⟩
  rw [getLast?_filterMap_writes, Option.map_id] at hlast
  rw [envoyHeadersToRequest, hlast]
  rfl

theorem response_status (l : List HeaderValue) : (envoyHeadersToResponse K l).status =
    ((lastValue ":status" l).bind fun val => (parseU16 val).bind K.statusFromU16).getD
      K.statusOk := by
  have hlast := foldl_lastWrite ResponseParts.status responseStep_status l ⟨K.statusOk, .empty⟩
  rw [getLast?_filterMap_writes] at hlast
  rw [envoyHeadersToResponse, hlast]
  cases lastValue ":status" l <;> rfl

/-- The maps hold the regular headers, and the other parts come from the last entry of a
pseudo-header or from a default. -/
structure Converted (K : Crates) (l : List HeaderValue) : Prop where
  values : ∀ n, (envoyHeadersToRequest K l).headers.getAll n = valuesUnder K n l
  agree : (envoyHeadersToResponse K l).headers = (envoyHeadersToRequest K l).headers
  method : (envoyHeadersToRequest K l).method =
    ((lastValue ":method" l).bind K.parseMethod).getD K.get
  uri : (envoyHeadersToRequest K l).uri = (K.parseUri (pathText l)).getD K.rootUri
  status : (envoyHeadersToResponse K l).status =
    ((lastValue ":status" l).bind fun val => (parseU16 val).bind K.statusFromU16).getD K.statusOk

/-- Both converters make the same of two lists. -/
structure ConvertedAlike (K : Crates) (l l' : List HeaderValue) : Prop where
  requestHeaders :
    (envoyHeadersToRequest K l).headers.Same (envoyHeadersToRequest K l').headers
  responseHeaders :
    (envoyHeadersToResponse K l).headers.Same (envoyHeadersToResponse K l').headers
  method : (envoyHeadersToRequest K l).method = (envoyHeadersToRequest K l').method
  uri : (envoyHeadersToRequest K l).uri = (envoyHeadersToRequest K l').uri
  status : (envoyHeadersToResponse K l).status = (envoyHeadersToResponse K l').status

theorem Reordered.lastValue (h : Reordered K l l') (key : String) :
    ExtProc.lastValue key l = ExtProc.lastValue key l' := by
  rw [ExtProc.lastValue, ExtProc.lastValue, h.keys key]

theorem Reordered.headers (h : Reordered K l l') :
    (convertedHeaders K l).Same (convertedHeaders K l') := by
  intro n
  rw [getAll_convertedHeaders, getAll_convertedHeaders, valuesUnder, valuesUnder, h.names n]

/-- The conversion of every header list is exact, and a reordering that keeps the entries of each
name in order changes nothing. -/
theorem conversion_exact (hpseudo : PseudoIllegal K) (l : List HeaderValue) :
    Converted K l ∧ ∀ l', Reordered K l l' → ConvertedAlike K l l' := by
  constructor
  · refine ⟨fun n => ?_, ?_, request_method l, request_uri l, response_status l⟩
    · rw [request_headers hpseudo, getAll_convertedHeaders]
    · rw [request_headers hpseudo, response_headers hpseudo]
  · intro l' h
    refine ⟨?_, ?_, ?_, ?_, ?_⟩
    · rw [request_headers hpseudo, request_headers hpseudo]
      exact h.headers
    · rw [response_headers hpseudo, response_headers hpseudo]
      exact h.headers
    · rw [request_method, request_method, h.lastValue]
    · rw [request_uri, request_uri, pathText, pathText, h.lastValue]
    · rw [response_status, response_status, h.lastValue]

section Folding

/-- A name in two spellings around pseudo-headers, the later path malformed. -/
def foldedHeaders : List HeaderValue :=
  [⟨"X-A", "1", []⟩, ⟨":path", "/a", []⟩, ⟨"x-a", "2", []⟩, ⟨":path", "a b", []⟩]

theorem folded_conversion :
    Converted httpCrates foldedHeaders ∧
      ∀ l', Reordered httpCrates foldedHeaders l' → ConvertedAlike httpCrates foldedHeaders l' :=
  conversion_exact httpCrates_lawful.parseName_pseudo foldedHeaders

end Folding

end ExtProc
