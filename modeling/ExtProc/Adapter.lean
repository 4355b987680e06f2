import ExtProc.Types

/-! Translation between Envoy types and filter types. -/
namespace ExtProc

open Utf8 (Bytes fromUtf8 fromUtf8Lossy asBytes)

variable {K : Crates}

/-- The text of a header entry, `raw_value` first. -/
def headerValueStr (hv : HeaderValue) : String :=
  if hv.rawValue.isEmpty then hv.value
  else (fromUtf8 hv.rawValue).getD hv.value

/-- A regular header joins the map when its name and its value parse. -/
def appendParsed (headers : HeaderMap K) (key val : String) : HeaderMap K :=
  match K.parseName key, K.parseValue val with
  | some name, some value => headers.append name value
  | _, _ => headers

/-- The variables of the loop of `envoy_headers_to_request`. -/
structure RequestParts (K : Crates) where
  method : K.Method
  path : String
  headerMap : HeaderMap K

def requestStep (parts : RequestParts K) (hv : HeaderValue) : RequestParts K :=
  let val := headerValueStr hv
  if hv.key = ":method" then { parts with method := (K.parseMethod val).getD K.get }
  else if hv.key = ":path" then { parts with path := val }
  else if hv.key = ":authority" ∨ hv.key = ":scheme" then parts
  else { parts with headerMap := appendParsed parts.headerMap hv.key val }

def envoyHeadersToRequest (K : Crates) (headers : List HeaderValue) : Request K :=
  let parts := headers.foldl requestStep { method := K.get, path := "/", headerMap := .empty }
  { headers := parts.headerMap
    method := parts.method
    uri := (K.parseUri parts.path).getD K.rootUri }

/-- `str::parse::<u16>`: decimal digits behind an optional plus sign. -/
def parseU16 (s : String) : Option UInt16 :=
  let digits := match s.toList with
    | '+' :: rest => rest
    | cs => cs
  if digits.isEmpty || !digits.all Char.isDigit then none
  else
    let n := digits.foldl (fun n c => 10 * n + (c.toNat - '0'.toNat)) 0
    if n < 65536 then some (UInt16.ofNat n) else none

/-- The variables of the loop of `envoy_headers_to_response`. -/
structure ResponseParts (K : Crates) where
  status : K.StatusCode
  headerMap : HeaderMap K

def responseStep (parts : ResponseParts K) (hv : HeaderValue) : ResponseParts K :=
  let val := headerValueStr hv
  if hv.key = ":status" then
    { parts with status := ((parseU16 val).bind K.statusFromU16).getD K.statusOk }
  else { parts with headerMap := appendParsed parts.headerMap hv.key val }

def envoyHeadersToResponse (K : Crates) (headers : List HeaderValue) : Response K :=
  let parts := headers.foldl responseStep { status := K.statusOk, headerMap := .empty }
  { headers := parts.headerMap
    status := parts.status }

/-- `str::trim` on header text, where spaces and tabs are the only white space. -/
def trim (cs : List Char) : List Char :=
  ((cs.dropWhile Char.isWhitespace).reverse.dropWhile Char.isWhitespace).reverse

/-- `HeaderMap::get` with a textual name. -/
def headerGet (headers : HeaderMap K) (key : String) : Option K.HeaderValue :=
  (K.parseName key).bind headers.get

def extractClientAddr (request : Request K) : Option K.IpAddr := do
  let v ← headerGet request.headers "x-forwarded-for"
  let s ← K.toStr v
  K.parseIpAddr (String.ofList (trim (s.toList.takeWhile (· ≠ ','))))

def buildFilterContext (request : Request K) : HttpFilterContext K where
  bodyDoneIndices := []
  branchIterations := ∅
  clientAddr := extractClientAddr request
  cluster := none
  downstreamTls := false
  executedFilterIndices := []
  extraRequestHeaders := []
  filterMetadata := ∅
  filterResults := []
  healthRegistry := none
  kvStores := none
  request := request
  requestBodyBytes := 0
  requestBodyMode := K.streamMode
  responseBodyBytes := 0
  responseBodyMode := K.streamMode
  responseHeader := none
  responseHeadersModified := false
  rewrittenPath := none
  selectedEndpointIndex := none
  upstream := none

def headerValueOption (key value : String) : HeaderValueOption where
  header := some { key := key, value := value, rawValue := asBytes value }

def collectRequestHeaderMutations (ctx : HttpFilterContext K) : Option HeaderMutation :=
  let hasExtras := !ctx.extraRequestHeaders.isEmpty
  let hasRewrite := ctx.rewrittenPath.isSome
  if !hasExtras && !hasRewrite then none
  else
    let extras := ctx.extraRequestHeaders.map fun h => headerValueOption h.1 h.2
    let setHeaders := match ctx.rewrittenPath with
      | some path => extras ++ [headerValueOption ":path" path]
      | none => extras
    some { setHeaders := setHeaders, removeHeaders := [] }

/-- `HeaderMap::contains_key` with a textual name. -/
def headerContainsKey (headers : HeaderMap K) (key : String) : Bool :=
  match K.parseName key with
  | some name => headers.containsKey name
  | none => false

/-- `value.to_str().unwrap_or_default()`. -/
def textOf (K : Crates) (value : K.HeaderValue) : String := (K.toStr value).getD ""

/-- The mutation that leads from the snapshot to the response headers the context holds. -/
def collectResponseHeaderMutationsDiff (ctx : HttpFilterContext K)
    (originalHeaders : HashMap String String) : Option HeaderMutation := do
  let resp ← ctx.responseHeader
  let changed := resp.headers.iter.filter fun h =>
    match originalHeaders.lookup (K.asStr h.1) with
    | some orig => orig ≠ textOf K h.2
    | none => true
  let setHeaders := changed.map fun h => headerValueOption (K.asStr h.1) (textOf K h.2)
  let removeHeaders := originalHeaders.keys.filter fun k => !headerContainsKey resp.headers k
  if setHeaders.isEmpty && removeHeaders.isEmpty then none
  else some { setHeaders := setHeaders, removeHeaders := removeHeaders }

def rejectionHeadersToMutation (headers : List (String × String)) : HeaderMutation where
  setHeaders := headers.map fun h => headerValueOption h.1 h.2
  removeHeaders := []

def rejectionToImmediate (rejection : Rejection) : ImmediateResponse where
  status := some { code := Int32.ofNat rejection.status.toNat }
  headers := if rejection.headers.isEmpty then none
    else some (rejectionHeadersToMutation rejection.headers)
  body := (rejection.body.map fromUtf8Lossy).getD ""
  grpcStatus := none
  details := ""

end ExtProc
