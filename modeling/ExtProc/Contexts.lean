import ExtProc.Conversion
import ExtProc.HookOrder
import ExtProc.Paths

/-! The context a hook starts with: all of it, from the messages and the filter state kept. -/
namespace ExtProc

open Utf8 (Bytes)

variable {K : Crates} {p : FilterPipeline K} {s s' : StreamState K} {m : Message}
  {ctx ctx' : HttpFilterContext K} {o : Outcome K} {c : HookCall K} {request : Request K}
  {events first : List (Event K)} {pre post : List (Turn K)} {t : Turn K}
  {l : List HeaderValue}

/-- The same with the filter state and the response of a response phase, and nothing else. -/
def HttpFilterContext.resumed (ctx : HttpFilterContext K) (kept : FilterState)
    (resp : Option (Response K)) : HttpFilterContext K :=
  { ctx with
    branchIterations := kept.branchIterations
    executedFilterIndices := kept.executedFilterIndices
    filterMetadata := kept.filterMetadata
    responseHeader := resp }

/-- The first hook of a response pipeline gets the response context of its state. -/
def StartsOn (s : StreamState K) (ctx : HttpFilterContext K) : Prop :=
  ∃ request resp, s.request = some request ∧ s.response = some resp ∧
    ctx = responseCtx s request resp

theorem RequestRun.starts (h : RequestRun p s o s') (hcall : o.calls.head? = some c) :
    ∃ request, s.request = some request ∧ c.ctx = buildFilterContext request := by
  cases h with
  | noRequest hq => cases hcall
  | failed hq he | rejected hq hr | bodyFailed hq hc hb | bodyRejected hq hc hb
  | done hq hc hb =>
    cases hcall
    exact ⟨_, hq, rfl⟩

theorem HeaderRun.starts (h : HeaderRun p s o s') (hcall : o.calls.head? = some c) :
    StartsOn s c.ctx := by
  cases h with
  | noRequest hq | noResponse hq hp => cases hcall
  | failed hq hp he | rejected hq hp hr | done hq hp hc =>
    cases hcall
    exact ⟨_, _, hq, hp, rfl⟩

theorem HeaderHook.starts {buffered : StreamState K}
    {res : Except Status (HttpFilterContext K × Option ImmediateResponse)}
    (hf : HeaderHook p s ctx ctx' first) (hb : BodyRun p .response ctx' buffered res events s')
    (hcall : (callsOf (first ++ events)).head? = some c) : c.ctx = ctx := by
  cases hf with
  | ran hx hc =>
    cases hcall
    rfl
  | skipped hx =>
    cases hb with
    | skipped hb => cases hcall
    | failed hne he | rejected hne hr | continued hne hc =>
      cases hcall
      rfl

theorem ResponseRun.starts (h : ResponseRun p s o s') (hcall : o.calls.head? = some c) :
    StartsOn s c.ctx := by
  cases h with
  | noRequest hq | noResponse hq hp => cases hcall
  | failed hq hp hx he | rejected hq hp hx hr =>
    cases hcall
    exact ⟨_, _, hq, hp, rfl⟩
  | bodyFailed hq hp hf hb | bodyRejected hq hp hf hb | done hq hp hf hb =>
    exact ⟨_, _, hq, hp, hf.starts hb hcall⟩

/-- The first hook of a message gets a context built from the request and, in a response phase, the
filter state and the response of its state. -/
theorem HandleRun.starts (h : HandleRun p s m o s') (hcall : o.calls.head? = some c) :
    ∃ request, (openedBy K m).or s.request = some request ∧
      c.ctx = if m.isResponsePhase then
          (buildFilterContext request).resumed s.filterState ((convertedBy K m).or s.response)
        else buildFilterContext request := by
  cases h with
  | requestOpened he | chunkRefused side hover | chunkKept side he | trailers side t =>
    cases hcall
  | requestEnded he hrun => exact hrun.starts hcall
  | responseOpened he hrun =>
    obtain ⟨request, resp, hq, hp, hctx⟩ := hrun.starts hcall
    cases hp
    exact ⟨request, hq, hctx⟩
  | responseEnded he hrun =>
    obtain ⟨request, resp, hq, hp, hctx⟩ := hrun.starts hcall
    cases hp
    exact ⟨request, hq, hctx⟩
  | bodyEnded side hcap he hrun =>
    cases hrun with
    | request hrun => exact hrun.starts hcall
    | response hrun =>
      obtain ⟨request, resp, hq, hp, hctx⟩ := hrun.starts hcall
      have hresponse : s.response = some resp := hp
      refine ⟨request, hq, hctx.trans ?_⟩
      rw [hresponse]
      rfl

section Addressed

end Addressed

end ExtProc
