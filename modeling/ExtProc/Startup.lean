import ExtProc.Config

/-! Startup: the command line, the configuration file, the listen addresses and TLS. -/
namespace ExtProc

open Utf8 (Bytes)

variable {FilterEntry : Type}

inductive TlsMode where
  | selfSigned
  | provided
  | none
  deriving DecidableEq, Repr

structure TlsConfig where
  mode : TlsMode := .none
  certPath : Option String := none
  keyPath : Option String := none
  deriving DecidableEq, Repr

structure ServerConfig where
  grpcAddress : String := "0.0.0.0:50051"
  healthAddress : String := "0.0.0.0:50052"
  metricsAddress : String := "0.0.0.0:9090"
  tls : TlsConfig := {}
  deriving DecidableEq, Repr

/-- The whole of `ExtProcConfig`. -/
structure ServedConfig (P : PipelineCrates FilterEntry) extends ExtProcConfig P where
  server : ServerConfig := {}

structure Cli where
  config : String := "praxis-extproc.yaml"
  grpcAddress : Option String := none
  healthAddress : Option String := none
  metricsAddress : Option String := none
  validate : Bool := false
  deriving DecidableEq, Repr

/-- What startup uses of the file system, the YAML and address parsers and the certificate
generator. Their errors are the texts they print. -/
structure Host (P : PipelineCrates FilterEntry) where
  SocketAddr : Type
  Identity : Type
  registry : P.FilterRegistry
  readToString : String → Except String String
  read : String → Except String Bytes
  fromYaml : String → Except String (ServedConfig P)
  parseSocketAddr : String → Except String SocketAddr
  /-- The certificate and the key for `localhost`, in PEM. -/
  generateSimpleSelfSigned : Except String (Bytes × Bytes)
  fromPem : Bytes → Bytes → Identity

/-- What the boxed error of `run` may hold. -/
inductive StartError where
  | error (e : Error)
  | addr (message : String)
  | transport (message : String)
  deriving DecidableEq, Repr

variable {P : PipelineCrates FilterEntry}

def buildSelfSigned (H : Host P) : Except Error (Option H.Identity) := do
  let (certPem, keyPem) ← H.generateSimpleSelfSigned.mapError fun e =>
    .config ("self-signed cert: " ++ e)
  return some (H.fromPem certPem keyPem)

def readPem (H : Host P) (path : String) : Except Error Bytes :=
  (H.read path).mapError fun e => .config ("read " ++ path ++ ": " ++ e)

def buildProvided (H : Host P) (cfg : TlsConfig) : Except Error (Option H.Identity) := do
  let some certPath := cfg.certPath
    | throw (.config "tls.cert_path required for provided mode")
  let some keyPath := cfg.keyPath
    | throw (.config "tls.key_path required for provided mode")
  let certPem ← readPem H certPath
  let keyPem ← readPem H keyPath
  return some (H.fromPem certPem keyPem)

def buildTlsConfig (H : Host P) (cfg : TlsConfig) : Except Error (Option H.Identity) :=
  match cfg.mode with
  | .none => .ok none
  | .selfSigned => buildSelfSigned H
  | .provided => buildProvided H cfg

def loadConfig (H : Host P) (path : String) : Except Error (ServedConfig P) := do
  let content ← (H.readToString path).mapError fun e => .config (path ++ ": " ++ e)
  (H.fromYaml content).mapError .config

def parseAddr (H : Host P) (cliOverride : Option String) (configDefault : String) :
    Except StartError H.SocketAddr :=
  (H.parseSocketAddr (cliOverride.getD configDefault)).mapError .addr

structure Addresses (H : Host P) where
  grpc : H.SocketAddr
  health : H.SocketAddr
  metrics : H.SocketAddr

def resolveAddresses (H : Host P) (cli : Cli) (cfg : ServedConfig P) :
    Except StartError (Addresses H) := do
  let grpc ← parseAddr H cli.grpcAddress cfg.server.grpcAddress
  let health ← parseAddr H cli.healthAddress cfg.server.healthAddress
  let metrics ← parseAddr H cli.metricsAddress cfg.server.metricsAddress
  return { grpc, health, metrics }

/-- What `start_services` is given. -/
structure Launch (H : Host P) where
  addrs : Addresses H
  pipeline : P.FilterPipeline
  tls : TlsConfig

/-- `run`, up to where the services start; there is nothing to start when it only validates. -/
def run (H : Host P) (cli : Cli) : Except StartError (Option (Launch H)) := do
  let cfg ← (loadConfig H cli.config).mapError .error
  let pipeline ← (buildPipeline P cfg.toExtProcConfig H.registry).mapError .error
  if cli.validate then
    return none
  let addrs ← resolveAddresses H cli cfg
  return some { addrs, pipeline, tls := cfg.server.tls }

section Except
variable {ε ε' α β : Type} {x : Except ε α}

/-- A fallible program that succeeds went through its first step. -/
theorem bind_eq_ok {f : α → Except ε β} {b : β} (h : x >>= f = .ok b) :
    ∃ a, x = .ok a ∧ f a = .ok b := by
  cases x with
  | error e => cases h
  | ok a => exact ⟨a, rfl, h⟩

theorem mapError_eq_ok {f : ε → ε'} {a : α} (h : x.mapError f = .ok a) : x = .ok a := by
  cases x with
  | error e => cases h
  | ok b =>
    cases h
    rfl

end Except

/-- The identity that a TLS mode asks for. -/
inductive Configured (H : Host P) (cfg : TlsConfig) : Option H.Identity → Prop
  | none (hmode : cfg.mode = .none) : Configured H cfg none
  | selfSigned {cert key : Bytes} (hmode : cfg.mode = .selfSigned)
      (hgen : H.generateSimpleSelfSigned = .ok (cert, key)) :
      Configured H cfg (some (H.fromPem cert key))
  | provided {certPath keyPath : String} {cert key : Bytes} (hmode : cfg.mode = .provided)
      (hcert : cfg.certPath = some certPath) (hkey : cfg.keyPath = some keyPath)
      (hreadCert : H.read certPath = .ok cert) (hreadKey : H.read keyPath = .ok key) :
      Configured H cfg (some (H.fromPem cert key))

variable {H : Host P} {cfg : TlsConfig} {tls : Option H.Identity}

theorem configured_of_buildSelfSigned (hmode : cfg.mode = .selfSigned)
    (h : buildSelfSigned H = .ok tls) : Configured H cfg tls := by
  rw [buildSelfSigned] at h
  obtain ⟨⟨cert, key⟩, hgen, h⟩ := bind_eq_ok h
  cases h
  exact .selfSigned hmode (mapError_eq_ok hgen)

theorem configured_of_buildProvided (hmode : cfg.mode = .provided)
    (h : buildProvided H cfg = .ok tls) : Configured H cfg tls := by
  rw [buildProvided] at h
  cases hcert : cfg.certPath with
  | none =>
    rw [hcert] at h
    cases h
  | some certPath =>
    cases hkey : cfg.keyPath with
    | none =>
      rw [hcert, hkey] at h
      cases h
    | some keyPath =>
      rw [hcert, hkey] at h
      obtain ⟨cert, hreadCert, h⟩ := bind_eq_ok h
      obtain ⟨key, hreadKey, h⟩ := bind_eq_ok h
      cases h
      exact .provided hmode hcert hkey (mapError_eq_ok hreadCert) (mapError_eq_ok hreadKey)

theorem configured_of_build (h : buildTlsConfig H cfg = .ok tls) : Configured H cfg tls := by
  rw [buildTlsConfig] at h
  cases hmode : cfg.mode with
  | none =>
    rw [hmode] at h
    cases h
    exact .none hmode
  | selfSigned =>
    rw [hmode] at h
    exact configured_of_buildSelfSigned hmode h
  | provided =>
    rw [hmode] at h
    exact configured_of_buildProvided hmode h

section Provided

/-- Filters that are known by their names only. -/
def namedFilters : PipelineCrates String where
  FilterRegistry := Unit
  FilterPipeline := List String
  InsecureOptions := Bool
  allowUnboundedBody := id
  buildWithChains entries _ _ := .ok entries
  applyBodyLimits pipeline _ _ _ := .ok pipeline
  applyInsecureOptions pipeline _ := pipeline

def providedTls : TlsConfig where
  mode := .provided
  certPath := some "cert.pem"
  keyPath := some "key.pem"

/-- A host whose configuration file names a certificate and a key that are there. -/
def providedHost : Host namedFilters where
  SocketAddr := String
  Identity := Bytes × Bytes
  registry := ()
  readToString path := if path = "praxis-extproc.yaml" then .ok "server: tls" else .error "not found"
  read path :=
    if path = "cert.pem" then .ok [1] else if path = "key.pem" then .ok [2] else .error "not found"
  fromYaml _ :=
    .ok { filterChains := [], insecureOptions := false, server := { tls := providedTls } }
  parseSocketAddr text := if text.isEmpty then .error "invalid socket address syntax" else .ok text
  generateSimpleSelfSigned := .ok ([3], [4])
  fromPem cert key := (cert, key)

def providedLaunch : Launch providedHost where
  addrs := { grpc := "0.0.0.0:50051", health := "0.0.0.0:50052", metrics := "0.0.0.0:9090" }
  pipeline := ([] : List String)
  tls := providedTls

end Provided

end ExtProc
