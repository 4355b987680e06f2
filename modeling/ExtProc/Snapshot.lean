import ExtProc.Http
import ExtProc.Outcomes

/-! The snapshot of the response headers and what a diff against it can see. -/
namespace ExtProc

variable {K : Crates} {headers headers' : HeaderMap K} {resp resp' : Response K}
  {ctx : HttpFilterContext K} {n : K.HeaderName}

theorem asStr_injective (hK : K.Lawful) : Function.Injective K.asStr := by
  intro m n h
  have hparse : some m = some n := by
    simpa only [hK.parseName_asStr] using congrArg K.parseName h
  exact Option.some.inj hparse

/-- The text of the last value of a name. -/
def lastText (K : Crates) (headers : HeaderMap K) (n : K.HeaderName) : Option String :=
  (headers.getAll n).getLast?.map (textOf K)

theorem lookup_captureOriginalHeaders (hK : K.Lawful) (resp : Response K) (n : K.HeaderName) :
    (captureOriginalHeaders resp).lookup (K.asStr n) = lastText K resp.headers n := by
  have hfold := Keyed.lookup_foldl_insert (g := textOf K) (asStr_injective hK) resp.headers.iter n ∅
  rw [captureOriginalHeaders, hfold, AList.lookup_empty, Option.or_none]
  rfl

theorem mem_keys_captureOriginalHeaders (resp : Response K) (k : String) :
    k ∈ (captureOriginalHeaders resp).keys ↔ ∃ n ∈ resp.headers.keys, k = K.asStr n := by
  rw [captureOriginalHeaders, Keyed.mem_keys_foldl_insert, AList.keys_empty]
  simp only [List.not_mem_nil, or_false, Multimap.mem_keys]
  constructor
  · rintro ⟨⟨n, v⟩, hmem, rfl⟩
    exact ⟨n, ⟨v, hmem⟩, rfl⟩
  · rintro ⟨n, ⟨v, hmem⟩, rfl⟩
    exact ⟨(n, v), hmem, rfl⟩

/-- The entries a diff writes: new names, and values with another text. -/
def changedHeaders (orig : HashMap String String) (headers : HeaderMap K) :
    List (K.HeaderName × K.HeaderValue) :=
  headers.iter.filter fun h => orig.lookup (K.asStr h.1) ≠ some (textOf K h.2)

/-- The names a diff removes. -/
def removedNames (orig : HashMap String String) (headers : HeaderMap K) : List String :=
  orig.keys.filter fun k => !headerContainsKey headers k

theorem filter_eq_changedHeaders (orig : HashMap String String)
    {f : K.HeaderName × K.HeaderValue → Bool}
    (hf : ∀ h, f h = true ↔ orig.lookup (K.asStr h.1) ≠ some (textOf K h.2)) :
    headers.iter.filter f = changedHeaders orig headers := by
  refine List.filter_congr fun h _ => ?_
  rw [Bool.eq_iff_iff, hf, decide_eq_true_iff]

theorem diff_eq (hctx : ctx.responseHeader = some resp') (orig : HashMap String String) :
    collectResponseHeaderMutationsDiff ctx orig =
      if (changedHeaders orig resp'.headers).isEmpty && (removedNames orig resp'.headers).isEmpty
      then none
      else some
        { setHeaders := (changedHeaders orig resp'.headers).map fun h =>
            headerValueOption (K.asStr h.1) (textOf K h.2)
          removeHeaders := removedNames orig resp'.headers } := by
  rw [collectResponseHeaderMutationsDiff, hctx]
  simp only [Option.bind_eq_bind, Option.bind_some, List.isEmpty_map]
  rw [filter_eq_changedHeaders orig]
  · rfl
  · intro h
    cases orig.lookup (K.asStr h.1) <;> simp

theorem mem_changedHeaders (hK : K.Lawful) {h : K.HeaderName × K.HeaderValue} :
    h ∈ changedHeaders (captureOriginalHeaders resp) headers' ↔
      h ∈ headers'.iter ∧ lastText K resp.headers h.1 ≠ some (textOf K h.2) := by
  rw [changedHeaders, List.mem_filter, lookup_captureOriginalHeaders hK, decide_eq_true_iff]

theorem mem_removedNames (hK : K.Lawful) {k : String} :
    k ∈ removedNames (captureOriginalHeaders resp) headers' ↔
      ∃ n ∈ resp.headers.keys, n ∉ headers'.keys ∧ k = K.asStr n := by
  rw [removedNames, List.mem_filter, mem_keys_captureOriginalHeaders]
  constructor
  · rintro ⟨⟨n, hn, rfl⟩, hno⟩
    refine ⟨n, hn, ?_, rfl⟩
    simpa [headerContainsKey, hK.parseName_asStr, Multimap.containsKey] using hno
  · rintro ⟨n, hn, hno, rfl⟩
    refine ⟨⟨n, hn, rfl⟩, ?_⟩
    simpa [headerContainsKey, hK.parseName_asStr, Multimap.containsKey] using hno

/-- No diff: every name stayed, and every value reads as the last one of its name did. -/
theorem diff_eq_none_iff (hK : K.Lawful) (hctx : ctx.responseHeader = some resp') :
    collectResponseHeaderMutationsDiff ctx (captureOriginalHeaders resp) = none ↔
      (∀ n ∈ resp.headers.keys, n ∈ resp'.headers.keys) ∧
        ∀ n, ∀ v ∈ resp'.headers.getAll n, lastText K resp.headers n = some (textOf K v) := by
  rw [diff_eq hctx]
  constructor
  · intro hnone
    have hempty : changedHeaders (captureOriginalHeaders resp) resp'.headers = [] ∧
        removedNames (captureOriginalHeaders resp) resp'.headers = [] := by
      split at hnone
      · next hnil => simpa using hnil
      · cases hnone
    constructor
    · intro n hn
      by_contra hno
      have hmem := (mem_removedNames hK).mpr ⟨n, hn, hno, rfl⟩
      simp [hempty.2] at hmem
    · intro n v hv
      by_contra hchanged
      have hmem := (mem_changedHeaders (h := (n, v)) hK).mpr
        ⟨Multimap.mem_getAll.mp hv, hchanged⟩
      simp [hempty.1] at hmem
  · rintro ⟨hkept, hsame⟩
    have hchanged : changedHeaders (captureOriginalHeaders resp) resp'.headers = [] := by
      refine List.eq_nil_iff_forall_not_mem.mpr ?_
      rintro ⟨n, v⟩ hmem
      obtain ⟨hiter, hne⟩ := (mem_changedHeaders hK).mp hmem
      exact hne (hsame n v (Multimap.mem_getAll.mpr hiter))
    have hremoved : removedNames (captureOriginalHeaders resp) resp'.headers = [] := by
      refine List.eq_nil_iff_forall_not_mem.mpr ?_
      intro k hmem
      obtain ⟨n, hn, hno, -⟩ := (mem_removedNames hK).mp hmem
      exact hno (hkept n hn)
    simp [hchanged, hremoved]

/-- When nothing changed, all values of a name read alike; when something changed, a name is gone
or some value reads otherwise than the last value its name had. -/
structure TellsApart (K : Crates) (headers headers' : HeaderMap K) : Prop where
  same : headers.Same headers' →
    ∀ n, ∀ v ∈ headers.getAll n, ∀ w ∈ headers.getAll n, textOf K v = textOf K w
  different : ¬ headers.Same headers' →
    (∃ n ∈ headers.keys, n ∉ headers'.keys) ∨
      ∃ n, ∃ v ∈ headers'.getAll n, ∀ w, (headers.getAll n).getLast? = some w →
        textOf K w ≠ textOf K v

theorem lastText_ne_iff {t : String} :
    lastText K headers n ≠ some t ↔
      ∀ w, (headers.getAll n).getLast? = some w → textOf K w ≠ t := by
  simp [lastText]

/-- Of values that read alike, the last one reads like each. -/
theorem lastText_eq_iff :
    (∀ v ∈ headers.getAll n, lastText K headers n = some (textOf K v)) ↔
      ∀ v ∈ headers.getAll n, ∀ w ∈ headers.getAll n, textOf K v = textOf K w := by
  constructor
  · intro h v hv w hw
    exact Option.some.inj ((h v hv).symm.trans (h w hw))
  · intro h v hv
    obtain ⟨w, hw⟩ : ∃ w, (headers.getAll n).getLast? = some w := by
      cases hl : (headers.getAll n).getLast? with
      | some w => exact ⟨w, rfl⟩
      | none =>
        have hnil := List.getLast?_eq_none_iff.mp hl
        simp [hnil] at hv
    rw [lastText, hw, Option.map_some, h w (List.mem_of_getLast? hw) v hv]

/-- Whether an empty diff says that nothing changed depends on what the snapshot can see. -/
theorem diff_none_iff_same_iff (hK : K.Lawful) (hctx : ctx.responseHeader = some resp') :
    (collectResponseHeaderMutationsDiff ctx (captureOriginalHeaders resp) = none ↔
        resp.headers.Same resp'.headers) ↔
      TellsApart K resp.headers resp'.headers := by
  rw [diff_eq_none_iff hK hctx]
  by_cases hsame : resp.headers.Same resp'.headers
  · have hkeys : ∀ n ∈ resp.headers.keys, n ∈ resp'.headers.keys := fun n => hsame.mem_keys.mp
    simp only [hsame, iff_true]
    constructor
    · rintro ⟨-, hread⟩
      refine ⟨fun _ n => lastText_eq_iff.mp ?_, fun hno => (hno hsame).elim⟩
      rw [hsame n]
      exact hread n
    · intro happart
      refine ⟨hkeys, fun n => ?_⟩
      rw [← hsame n]
      exact lastText_eq_iff.mpr (happart.same hsame n)
  · simp only [hsame, iff_false]
    constructor
    · intro hdiff
      refine ⟨fun hs => (hsame hs).elim, fun _ => ?_⟩
      by_cases hkept : ∀ n ∈ resp.headers.keys, n ∈ resp'.headers.keys
      · right
        by_contra hno
        refine hdiff ⟨hkept, fun n v hv => ?_⟩
        by_contra hread
        exact hno ⟨n, v, hv, lastText_ne_iff.mp hread⟩
      · left
        by_contra hno
        exact hkept fun n hn => by_contra fun hgone => hno ⟨n, hn, hgone⟩
    · rintro happart ⟨hkept, hread⟩
      rcases happart.different hsame with ⟨n, hn, hno⟩ | ⟨n, v, hv, hne⟩
      · exact hno (hkept n hn)
      · exact lastText_ne_iff.mpr hne (hread n v hv)

section Cookies

def cookieHeader (value : String) : HeaderValue := ⟨"set-cookie", value, []⟩

def cookieName : httpCrates.HeaderName := ⟨"set-cookie", by decide⟩

/-- A response that sets the given cookies. -/
def cookieResponse (values : List String) : Response httpCrates :=
  envoyHeadersToResponse httpCrates (values.map cookieHeader)

/-- The context behind hooks that leave the given response. -/
def holding (resp : Response httpCrates) : HttpFilterContext httpCrates :=
  responseCtx requested plainRequest resp

theorem dropped_cookie_seen :
    collectResponseHeaderMutationsDiff (holding (cookieResponse []))
        (captureOriginalHeaders (cookieResponse ["a=1"])) = none ↔
      (cookieResponse ["a=1"]).headers.Same (cookieResponse []).headers := by
  refine (diff_none_iff_same_iff httpCrates_lawful rfl).mpr ⟨?_, ?_⟩
  · intro hsame
    cases hsame cookieName
  · intro hdiff
    exact Or.inl ⟨cookieName, List.mem_singleton_self _, List.not_mem_nil⟩

/-- Two cookies left alone cause a mutation, and a dropped first cookie causes none. -/
theorem repeated_cookie_diff :
    collectResponseHeaderMutationsDiff (holding (cookieResponse ["a=1", "b=2"]))
        (captureOriginalHeaders (cookieResponse ["a=1", "b=2"])) =
        some ⟨[headerValueOption "set-cookie" "a=1"], []⟩ ∧
      collectResponseHeaderMutationsDiff (holding (cookieResponse ["b=2"]))
        (captureOriginalHeaders (cookieResponse ["a=1", "b=2"])) = none ∧
      ¬ (cookieResponse ["a=1", "b=2"]).headers.Same (cookieResponse ["b=2"]).headers := by
  refine ⟨by decide, by decide, ?_⟩
  intro hsame
  have hlength := congrArg List.length (hsame cookieName)
  revert hlength
  decide

end Cookies

end ExtProc
