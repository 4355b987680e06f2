import Mathlib.Data.List.AList
import ExtProc.Multimap
import ExtProc.Utf8

/-! The types the server moves between Envoy and the filters. -/
namespace ExtProc

open Utf8 (Bytes)

/-- What the server uses of the `http` and `praxis_filter` crates without looking inside:
their types, the parsers of header names, header values, methods, URIs and status codes with
the fallbacks the adapter names, and the parser of IP addresses. -/
structure Crates where
  HeaderName : Type
  HeaderValue : Type
  Method : Type
  Uri : Type
  StatusCode : Type
  IpAddr : Type
  BodyDoneIndex : Type
  BodyMode : Type
  FilterResultEntry : Type
  HealthRegistry : Type
  KvStores : Type
  Upstream : Type
  [decEqHeaderName : DecidableEq HeaderName]
  parseName : String → Option HeaderName
  asStr : HeaderName → String
  parseValue : String → Option HeaderValue
  /-- `HeaderValue::to_str`, which refuses a value that is not visible ASCII. -/
  toStr : HeaderValue → Option String
  parseMethod : String → Option Method
  get : Method
  parseUri : String → Option Uri
  rootUri : Uri
  statusFromU16 : UInt16 → Option StatusCode
  statusOk : StatusCode
  parseIpAddr : String → Option IpAddr
  streamMode : BodyMode

attribute [instance] Crates.decEqHeaderName

/-- The documented laws of header names and values the adapter leans on. -/
structure Crates.Lawful (K : Crates) : Prop where
  parseName_asStr : ∀ n, K.parseName (K.asStr n) = some n
  parseName_pseudo : ∀ s, s.toList.head? = some ':' → K.parseName s = none
  toStr_parseValue : ∀ {s t v}, K.parseValue s = some v → K.toStr v = some t → t = s

abbrev HeaderMap (K : Crates) := Multimap K.HeaderName K.HeaderValue

/-- `std::collections::HashMap`, in one of the orders it may iterate in. -/
abbrev HashMap (α β : Type) := AList fun _ : α => β

structure Request (K : Crates) where
  headers : HeaderMap K
  method : K.Method
  uri : K.Uri

structure Response (K : Crates) where
  headers : HeaderMap K
  status : K.StatusCode

/-- Envoy's header entry; `raw_value` carries the bytes when it is not empty. -/
structure HeaderValue where
  key : String
  value : String
  rawValue : Bytes
  deriving DecidableEq, Repr

structure HttpHeaders where
  headers : Option (List HeaderValue)
  endOfStream : Bool
  deriving DecidableEq, Repr

structure HttpBody where
  body : Bytes
  endOfStream : Bool
  deriving DecidableEq, Repr

structure HttpTrailers where
  trailers : Option (List HeaderValue)
  deriving DecidableEq, Repr

/-- `processing_request::Request`. -/
inductive Message where
  | requestHeaders (headers : HttpHeaders)
  | requestBody (body : HttpBody)
  | responseHeaders (headers : HttpHeaders)
  | responseBody (body : HttpBody)
  | requestTrailers (trailers : HttpTrailers)
  | responseTrailers (trailers : HttpTrailers)
  deriving DecidableEq, Repr

structure HeaderValueOption where
  header : Option HeaderValue
  deriving DecidableEq, Repr

structure HeaderMutation where
  setHeaders : List HeaderValueOption
  removeHeaders : List String
  deriving DecidableEq, Repr

/-- `body_mutation::Mutation`. -/
inductive BodyMutation.Mutation where
  | body (bytes : Bytes)
  | clearBody (clear : Bool)
  deriving DecidableEq, Repr

structure BodyMutation where
  mutation : Option BodyMutation.Mutation
  deriving DecidableEq, Repr

inductive ResponseStatus where
  | «continue»
  | continueAndReplace
  deriving DecidableEq, Repr

structure CommonResponse where
  status : ResponseStatus
  headerMutation : Option HeaderMutation := none
  bodyMutation : Option BodyMutation := none
  deriving DecidableEq, Repr

structure HeadersResponse where
  response : Option CommonResponse
  deriving DecidableEq, Repr

structure BodyResponse where
  response : Option CommonResponse
  deriving DecidableEq, Repr

structure TrailersResponse where
  headerMutation : Option HeaderMutation
  deriving DecidableEq, Repr

structure HttpStatus where
  code : Int32
  deriving DecidableEq

structure GrpcStatus where
  status : UInt32
  deriving DecidableEq

structure ImmediateResponse where
  status : Option HttpStatus
  headers : Option HeaderMutation
  body : String
  grpcStatus : Option GrpcStatus
  details : String
  deriving DecidableEq

/-- `processing_response::Response`. -/
inductive ProcessingResponse.Response where
  | requestHeaders (headers : HeadersResponse)
  | responseHeaders (headers : HeadersResponse)
  | requestBody (body : BodyResponse)
  | responseBody (body : BodyResponse)
  | requestTrailers (trailers : TrailersResponse)
  | responseTrailers (trailers : TrailersResponse)
  | immediateResponse (imm : ImmediateResponse)
  deriving DecidableEq

structure ProcessingResponse where
  response : Option ProcessingResponse.Response
  deriving DecidableEq

inductive Code where
  | aborted
  | resourceExhausted
  | internal
  deriving DecidableEq, Repr

structure Status where
  code : Code
  message : String
  deriving DecidableEq, Repr

namespace Status

def aborted (message : String) : Status := ⟨.aborted, message⟩

def resourceExhausted (message : String) : Status := ⟨.resourceExhausted, message⟩

def internal (message : String) : Status := ⟨.internal, message⟩

end Status

structure Rejection where
  status : UInt16
  headers : List (String × String)
  body : Option Bytes
  deriving DecidableEq

/-- Every action but `Reject` is treated alike. -/
inductive FilterAction where
  | «continue»
  | reject (rejection : Rejection)
  deriving DecidableEq

/-- A filter error, as the text it prints. -/
abbrev FilterError := String

/-- The context the hooks read and write, less the clock reading `request_start`. -/
structure HttpFilterContext (K : Crates) where
  bodyDoneIndices : List K.BodyDoneIndex
  branchIterations : HashMap String UInt32
  clientAddr : Option K.IpAddr
  cluster : Option String
  downstreamTls : Bool
  executedFilterIndices : List Bool
  extraRequestHeaders : List (String × String)
  filterMetadata : HashMap String String
  filterResults : List K.FilterResultEntry
  healthRegistry : Option K.HealthRegistry
  kvStores : Option K.KvStores
  request : Request K
  requestBodyBytes : UInt64
  requestBodyMode : K.BodyMode
  responseBodyBytes : UInt64
  responseBodyMode : K.BodyMode
  responseHeader : Option (Response K)
  responseHeadersModified : Bool
  rewrittenPath : Option String
  selectedEndpointIndex : Option Nat
  upstream : Option K.Upstream

/-- What `execute_http_request` leaves. -/
structure HookRun (K : Crates) where
  ctx : HttpFilterContext K
  result : Except FilterError FilterAction

/-- What a body hook leaves. -/
structure BodyHookRun (K : Crates) where
  ctx : HttpFilterContext K
  body : Option Bytes
  result : Except FilterError FilterAction

/-- What `execute_http_response` leaves. The response behind the `&mut` that the handler lent
to the context is `lent`; the context may have let go of it or hold another one. -/
structure ResponseHookRun (K : Crates) where
  ctx : HttpFilterContext K
  lent : Response K
  result : Except FilterError FilterAction

/-- A filter pipeline: four hooks, each an arbitrary function of the context and the body. -/
structure FilterPipeline (K : Crates) where
  executeHttpRequest : HttpFilterContext K → HookRun K
  executeHttpRequestBody : HttpFilterContext K → Option Bytes → Bool → BodyHookRun K
  executeHttpResponse : HttpFilterContext K → ResponseHookRun K
  executeHttpResponseBody : HttpFilterContext K → Option Bytes → Bool → BodyHookRun K

/-- One invocation of a hook, with what it was given. -/
inductive HookCall (K : Crates) where
  | executeHttpRequest (ctx : HttpFilterContext K)
  | executeHttpRequestBody (ctx : HttpFilterContext K) (body : Option Bytes) (endOfStream : Bool)
  | executeHttpResponse (ctx : HttpFilterContext K)
  | executeHttpResponseBody (ctx : HttpFilterContext K) (body : Option Bytes) (endOfStream : Bool)

variable {K : Crates}

/-- The context a hook starts with. -/
def HookCall.ctx : HookCall K → HttpFilterContext K
  | .executeHttpRequest ctx => ctx
  | .executeHttpRequestBody ctx _ _ => ctx
  | .executeHttpResponse ctx => ctx
  | .executeHttpResponseBody ctx _ _ => ctx

namespace FilterPipeline

/-- The context a hook leaves. -/
def left (p : FilterPipeline K) : HookCall K → HttpFilterContext K
  | .executeHttpRequest ctx => (p.executeHttpRequest ctx).ctx
  | .executeHttpRequestBody ctx body eos => (p.executeHttpRequestBody ctx body eos).ctx
  | .executeHttpResponse ctx => (p.executeHttpResponse ctx).ctx
  | .executeHttpResponseBody ctx body eos => (p.executeHttpResponseBody ctx body eos).ctx

/-- What a hook returns. -/
def result (p : FilterPipeline K) : HookCall K → Except FilterError FilterAction
  | .executeHttpRequest ctx => (p.executeHttpRequest ctx).result
  | .executeHttpRequestBody ctx body eos => (p.executeHttpRequestBody ctx body eos).result
  | .executeHttpResponse ctx => (p.executeHttpResponse ctx).result
  | .executeHttpResponseBody ctx body eos => (p.executeHttpResponseBody ctx body eos).result

/-- Every hook continues, whatever it is given. -/
def Continues (p : FilterPipeline K) : Prop := ∀ c, p.result c = .ok .«continue»

end FilterPipeline

end ExtProc
