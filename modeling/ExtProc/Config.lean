import Mathlib.Data.Finset.Insert
import Mathlib.Data.Finset.Lattice.Lemmas
import ExtProc.Types

/-! The configuration, and the pipeline that is built from it. -/
namespace ExtProc

/-- A named chain of filter entries. -/
structure FilterChainConfig (FilterEntry : Type) where
  name : String
  filters : List FilterEntry

/-- What `build_pipeline` uses of the `praxis_filter` and `praxis_core` crates without looking
inside. Their errors are the texts they print. -/
structure PipelineCrates (FilterEntry : Type) where
  FilterRegistry : Type
  FilterPipeline : Type
  InsecureOptions : Type
  allowUnboundedBody : InsecureOptions → Bool
  buildWithChains : List FilterEntry → FilterRegistry → HashMap String (List FilterEntry) →
    Except String FilterPipeline
  applyBodyLimits : FilterPipeline → Option Nat → Option Nat → Bool → Except String FilterPipeline
  applyInsecureOptions : FilterPipeline → InsecureOptions → FilterPipeline

/-- `crate::error::Error`, less the transport errors of `tonic`. -/
inductive Error where
  | config (message : String)
  | pipeline (message : String)
  deriving DecidableEq, Repr

variable {FilterEntry : Type}

/-- The fields of `ExtProcConfig` the pipeline is built from. -/
structure ExtProcConfig (P : PipelineCrates FilterEntry) where
  filterChains : List (FilterChainConfig FilterEntry)
  insecureOptions : P.InsecureOptions

/-- The loop of `validate_chain_names`, with the names it has seen. -/
def validateFrom (seen : Finset String) :
    List (FilterChainConfig FilterEntry) → Except Error Unit
  | [] => .ok ()
  | chain :: chains =>
    if chain.name ∈ seen then .error (.config ("duplicate filter chain name: " ++ chain.name))
    else validateFrom (insert chain.name seen) chains

def validateChainNames (chains : List (FilterChainConfig FilterEntry)) : Except Error Unit :=
  validateFrom ∅ chains

def flattenChains (chains : List (FilterChainConfig FilterEntry)) : List FilterEntry :=
  chains.flatMap fun c => c.filters

def buildPipeline (P : PipelineCrates FilterEntry) (config : ExtProcConfig P)
    (registry : P.FilterRegistry) : Except Error P.FilterPipeline := do
  validateChainNames config.filterChains
  let chains := Keyed.collect (config.filterChains.map fun c => (c.name, c.filters))
  let entries := flattenChains config.filterChains
  let pipeline ← (P.buildWithChains entries registry chains).mapError .pipeline
  let pipeline ← (P.applyBodyLimits pipeline none none
    (P.allowUnboundedBody config.insecureOptions)).mapError .pipeline
  return P.applyInsecureOptions pipeline config.insecureOptions

end ExtProc
