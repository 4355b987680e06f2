import ExtProc.Server

/-! An instance of the crates' interface: header names and values as the `http` crate documents
them, and just enough of methods, URIs and status codes to run the server on concrete messages. -/
namespace ExtProc.Http

open Utf8 (Bytes asBytes fromUtf8 fromUtf8_asBytes)

def isTokenChar (c : Char) : Bool :=
  c.isAlphanum || "!#$%&'*+-.^_`|~".toList.contains c

/-- Header names are non-empty lower case tokens of at most 65535 bytes. -/
def LegalName (s : String) : Prop :=
  s.toList ≠ [] ∧ s.toList.length ≤ 65535 ∧
    s.toList.all (fun c => isTokenChar c && c.toLower == c) = true

instance (s : String) : Decidable (LegalName s) := inferInstanceAs (Decidable (_ ∧ _ ∧ _))

theorem LegalName.of_mem {s : String} {c : Char} (h : LegalName s) (hc : c ∈ s.toList) :
    isTokenChar c = true ∧ c.toLower = c := by
  have hchar := List.all_eq_true.mp h.2.2 c hc
  simpa using hchar

def lower (s : String) : String := String.ofList (s.toList.map Char.toLower)

def parseName (s : String) : Option {s : String // LegalName s} :=
  if h : LegalName (lower s) then some ⟨lower s, h⟩ else none

/-- Tabs, and every byte from 0x20 up but DEL. -/
def isLegalByte (b : UInt8) : Bool := (0x20 ≤ b && b != 0x7F) || b == 0x09

def isVisibleAscii (b : UInt8) : Bool := (0x20 ≤ b && b < 0x7F) || b == 0x09

abbrev ValueBytes := {bytes : Bytes // bytes.all isLegalByte = true}

def parseValue (s : String) : Option ValueBytes :=
  if h : (asBytes s).all isLegalByte = true then some ⟨asBytes s, h⟩ else none

def toStr (v : ValueBytes) : Option String :=
  if v.val.all isVisibleAscii then fromUtf8 v.val else none

end Http

abbrev httpCrates : Crates where
  HeaderName := {s : String // Http.LegalName s}
  HeaderValue := Http.ValueBytes
  Method := String
  Uri := String
  StatusCode := UInt16
  IpAddr := String
  BodyDoneIndex := Unit
  BodyMode := Unit
  FilterResultEntry := Unit
  HealthRegistry := Unit
  KvStores := Unit
  Upstream := Unit
  parseName := Http.parseName
  asStr n := n.val
  parseValue := Http.parseValue
  toStr := Http.toStr
  parseMethod s := if !s.isEmpty && s.toList.all Http.isTokenChar then some s else none
  get := "GET"
  parseUri s := if s.toList.head? = some '/' then some s else none
  rootUri := "/"
  statusFromU16 code := if 100 ≤ code ∧ code < 1000 then some code else none
  statusOk := 200
  parseIpAddr _ := none
  streamMode := ()

theorem lower_of_legalName {s : String} (h : Http.LegalName s) : Http.lower s = s := by
  have hmap : s.toList.map Char.toLower = s.toList.map id :=
    List.map_congr_left fun c hc => (h.of_mem hc).2
  rw [Http.lower, hmap, List.map_id, String.ofList_toList]

theorem httpCrates_lawful : httpCrates.Lawful where
  parseName_asStr := by
    rintro ⟨s, h⟩
    have hl := lower_of_legalName h
    simp [Http.parseName, hl, h]
  parseName_pseudo := by
    intro s hs
    obtain ⟨cs, hcs⟩ : ∃ cs, s.toList = ':' :: cs := by
      cases hl : s.toList with
      | nil => simp [hl] at hs
      | cons c cs =>
        rw [hl, List.head?_cons, Option.some.injEq] at hs
        exact ⟨cs, by rw [hs]⟩
    have hillegal : ¬ Http.LegalName (Http.lower s) := by
      intro hlegal
      have hcolon := (hlegal.of_mem (c := ':') (by simp [Http.lower, hcs])).1
      revert hcolon
      decide
    exact dif_neg hillegal
  toStr_parseValue := by
    intro s t v hp ht
    simp only [Http.parseValue] at hp
    split at hp
    · cases hp
      simp only [Http.toStr] at ht
      split at ht
      · rw [Utf8.fromUtf8_asBytes] at ht
        exact (Option.some.inj ht).symm
      · cases ht
    · cases hp

/-- The pipeline that changes nothing and lets everything pass. -/
def passAll : FilterPipeline httpCrates where
  executeHttpRequest ctx := ⟨ctx, .ok .«continue»⟩
  executeHttpRequestBody ctx body _ := ⟨ctx, body, .ok .«continue»⟩
  executeHttpResponse ctx := ⟨ctx, ctx.responseHeader.getD ⟨.empty, 200⟩, .ok .«continue»⟩
  executeHttpResponseBody ctx body _ := ⟨ctx, body, .ok .«continue»⟩

theorem passAll_continues : passAll.Continues := by
  intro c
  cases c <;> rfl

def plainRequest : Request httpCrates := envoyHeadersToRequest httpCrates []

def plainResponse : Response httpCrates := envoyHeadersToResponse httpCrates []

/-- A stream whose request had no headers. -/
def requested : StreamState httpCrates := { request := some plainRequest }

end ExtProc
