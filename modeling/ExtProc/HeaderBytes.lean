import ExtProc.Conversion

/-! Which header bytes survive the conversion. -/
namespace ExtProc

open Utf8 (Bytes fromUtf8 asBytes fromUtf8_asBytes eq_asBytes_of_fromUtf8)

variable {K : Crates} {l : List HeaderValue} {hv : HeaderValue} {n : K.HeaderName}
  {bytes : K.HeaderValue → Bytes}

/-- The documented law of header values: a parsed value is the bytes of its text. -/
def KeepsBytes (K : Crates) (bytes : K.HeaderValue → Bytes) : Prop :=
  ∀ {s v}, K.parseValue s = some v → bytes v = asBytes s

/-- The value bytes Envoy sent in an entry. -/
def transmitted (hv : HeaderValue) : Bytes :=
  if hv.rawValue.isEmpty then asBytes hv.value else hv.rawValue

/-- A map holds the transmitted bytes of an entry under a name. -/
def SeesBytes (bytes : K.HeaderValue → Bytes) (n : K.HeaderName) (hv : HeaderValue)
    (headers : HeaderMap K) : Prop :=
  ∃ v ∈ headers.getAll n, bytes v = transmitted hv

instance (headers : HeaderMap K) : Decidable (SeesBytes bytes n hv headers) :=
  inferInstanceAs (Decidable (∃ v ∈ _, _))

/-- The bytes are UTF-8 text, and the text parses as a header value. -/
def ParsesAsText (K : Crates) (bs : Bytes) : Prop :=
  ∃ text, fromUtf8 bs = some text ∧ (K.parseValue text).isSome

theorem asBytes_headerValueStr (h : (fromUtf8 (transmitted hv)).isSome) :
    asBytes (headerValueStr hv) = transmitted hv := by
  by_cases hraw : hv.rawValue.isEmpty
  · simp [headerValueStr, transmitted, hraw]
  · obtain ⟨text, htext⟩ := Option.isSome_iff_exists.mp h
    have hdecoded : fromUtf8 hv.rawValue = some text := by
      simpa [transmitted, hraw] using htext
    have hbytes := eq_asBytes_of_fromUtf8 hdecoded
    simp [headerValueStr, transmitted, hraw, hdecoded, ← hbytes]

theorem headerValueStr_of_utf8 {text : String} (h : fromUtf8 (transmitted hv) = some text) :
    headerValueStr hv = text := by
  have hbytes := asBytes_headerValueStr (Option.isSome_of_mem h)
  have hdecoded := fromUtf8_asBytes (headerValueStr hv)
  simpa [hbytes, h] using hdecoded.symm

theorem mem_valuesUnder {v : K.HeaderValue} : v ∈ valuesUnder K n l ↔
    ∃ hv ∈ l, K.parseName hv.key = some n ∧ K.parseValue (headerValueStr hv) = some v := by
  simp [valuesUnder, and_assoc]

/-- Only text is ever parsed, so the bytes of a value decode to a text that parses. -/
theorem parsesAsText_of_mem (hbytes : KeepsBytes K bytes) {v : K.HeaderValue}
    (h : v ∈ valuesUnder K n l) : ParsesAsText K (bytes v) := by
  obtain ⟨hv, -, -, hparse⟩ := mem_valuesUnder.mp h
  refine ⟨headerValueStr hv, ?_, ?_⟩
  · simp [hbytes hparse, fromUtf8_asBytes]
  · simp [hparse]

theorem seesBytes_convertedHeaders_iff (hbytes : KeepsBytes K bytes) (hmem : hv ∈ l)
    (hname : K.parseName hv.key = some n) :
    SeesBytes bytes n hv (convertedHeaders K l) ↔ ParsesAsText K (transmitted hv) := by
  constructor
  · intro h
    obtain ⟨v, hv', heq⟩ := h
    have hunder : v ∈ valuesUnder K n l := by simpa [getAll_convertedHeaders] using hv'
    have hparses := parsesAsText_of_mem hbytes hunder
    rw [heq] at hparses
    exact hparses
  · intro h
    obtain ⟨text, hdecoded, hparses⟩ := h
    obtain ⟨v, hparse⟩ := Option.isSome_iff_exists.mp hparses
    have htext : K.parseValue (headerValueStr hv) = some v := by
      rw [headerValueStr_of_utf8 hdecoded]
      exact hparse
    refine ⟨v, ?_, ?_⟩
    · rw [getAll_convertedHeaders]
      exact mem_valuesUnder.mpr ⟨hv, hmem, hname, htext⟩
    · calc bytes v = asBytes text := hbytes hparse
        _ = transmitted hv := (eq_asBytes_of_fromUtf8 hdecoded).symm

/-- The filters see the bytes of an entry exactly when these are text that parses. -/
theorem header_bytes_seen_iff (hpseudo : PseudoIllegal K) (hbytes : KeepsBytes K bytes)
    (hmem : hv ∈ l) (hname : K.parseName hv.key = some n) :
    (SeesBytes bytes n hv (envoyHeadersToRequest K l).headers ↔
      ParsesAsText K (transmitted hv)) ∧
    (SeesBytes bytes n hv (envoyHeadersToResponse K l).headers ↔
      ParsesAsText K (transmitted hv)) := by
  have hconverted := seesBytes_convertedHeaders_iff hbytes hmem hname
  constructor
  · simpa [request_headers hpseudo] using hconverted
  · simpa [response_headers hpseudo] using hconverted

section Bytes

theorem httpCrates_keepsBytes : KeepsBytes httpCrates Subtype.val := by
  intro s v h
  simp only [Http.parseValue] at h
  split at h
  · cases h
    rfl
  · cases h

def xa : httpCrates.HeaderName := ⟨"x-a", by decide⟩

/-- An entry whose bytes are legal in a header but no UTF-8 text. -/
def latin : HeaderValue := ⟨"x-a", "", [0xFF]⟩

/-- The same name in another spelling, with a raw value. -/
def raw : HeaderValue := ⟨"X-A", "fallback", asBytes "raw"⟩

theorem latin_byte_lost :
    httpCrates.parseName latin.key = some xa ∧
      (transmitted latin).all Http.isLegalByte = true ∧
      ¬ SeesBytes Subtype.val xa latin (envoyHeadersToRequest httpCrates [latin]).headers ∧
      ¬ SeesBytes Subtype.val xa latin (envoyHeadersToResponse httpCrates [latin]).headers := by
  decide

theorem raw_bytes_seen :
    (SeesBytes Subtype.val xa raw (envoyHeadersToRequest httpCrates [latin, raw]).headers ↔
      ParsesAsText httpCrates (transmitted raw)) ∧
    (SeesBytes Subtype.val xa raw (envoyHeadersToResponse httpCrates [latin, raw]).headers ↔
      ParsesAsText httpCrates (transmitted raw)) :=
  header_bytes_seen_iff httpCrates_lawful.parseName_pseudo httpCrates_keepsBytes
    (by decide) (by decide)

end Bytes

end ExtProc
