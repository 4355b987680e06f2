import ExtProc.Chunks
import ExtProc.FilterState
import ExtProc.Interleaving

/-! What the messages of one side leave alone, and body chunks of both sides in any order. -/
namespace ExtProc

open Utf8 (Bytes)

variable {K : Crates} {p : FilterPipeline K} {s s' : StreamState K} {m : Message} {side : Side}
  {ctx : HttpFilterContext K} {o : Outcome K} {cs ds : List Bytes} {zs zs' : List Message}

/-- The fields of the request side are as they were. -/
structure SameRequestSide (s s' : StreamState K) : Prop where
  request : s'.request = s.request
  requestBody : s'.requestBody = s.requestBody
  executedFilterIndices : s'.executedFilterIndices = s.executedFilterIndices
  branchIterations : s'.branchIterations = s.branchIterations
  filterMetadata : s'.filterMetadata = s.filterMetadata

/-- The fields of the response side are as they were. -/
structure SameResponseSide (s s' : StreamState K) : Prop where
  response : s'.response = s.response
  responseBody : s'.responseBody = s.responseBody
  responseFiltersExecuted : s'.responseFiltersExecuted = s.responseFiltersExecuted

/-- What a message must leave alone: the other side, or everything. -/
def Undisturbed (s : StreamState K) (m : Message) (s' : StreamState K) : Prop :=
  match m with
  | .requestHeaders _ | .requestBody _ => SameResponseSide s s'
  | .responseHeaders _ | .responseBody _ => SameRequestSide s s'
  | .requestTrailers _ | .responseTrailers _ => s' = s

theorem SameResponseSide.setRequest {request : Request K} :
    SameResponseSide s (s.setRequest request) := ⟨rfl, rfl, rfl⟩

theorem SameRequestSide.setResponse {resp : Response K} :
    SameRequestSide s (s.setResponse resp) := ⟨rfl, rfl, rfl, rfl, rfl⟩

theorem SameResponseSide.setBody {b : Bytes} : SameResponseSide s (s.setBody .request b) :=
  ⟨rfl, rfl, rfl⟩

theorem SameRequestSide.setBody {b : Bytes} : SameRequestSide s (s.setBody .response b) :=
  ⟨rfl, rfl, rfl, rfl, rfl⟩

theorem BodyRun.sameRequestSide
    {res : Except Status (HttpFilterContext K × Option ImmediateResponse)}
    {events : List (Event K)} (h : BodyRun p .response ctx s.takeResponse res events s') :
    SameRequestSide s s' := by
  obtain ⟨b, rfl⟩ := h.exists_setBody
  exact ⟨rfl, rfl, rfl, rfl, rfl⟩

theorem RequestRun.sameResponseSide (h : RequestRun p s o s') : SameResponseSide s s' := by
  obtain ⟨-, hresponse, hbody, hexecuted⟩ := h.frame
  exact ⟨hresponse, hbody, hexecuted⟩

theorem ResponseRun.sameRequestSide (h : ResponseRun p s o s') : SameRequestSide s s' := by
  cases h with
  | noRequest hq => exact ⟨rfl, rfl, rfl, rfl, rfl⟩
  | noResponse hq hp => exact ⟨rfl, rfl, rfl, rfl, rfl⟩
  | failed hq hp hx he => exact ⟨rfl, rfl, rfl, rfl, rfl⟩
  | rejected hq hp hx hr => exact ⟨rfl, rfl, rfl, rfl, rfl⟩
  | bodyFailed hq hp hf hb | bodyRejected hq hp hf hb | done hq hp hf hb =>
    exact hb.sameRequestSide

theorem HeaderRun.sameRequestSide (h : HeaderRun p s o s') : SameRequestSide s s' := by
  cases h <;> exact ⟨rfl, rfl, rfl, rfl, rfl⟩

theorem SameResponseSide.trans {t : StreamState K} (h : SameResponseSide s t)
    (h' : SameResponseSide t s') : SameResponseSide s s' :=
  ⟨h'.response.trans h.response, h'.responseBody.trans h.responseBody,
    h'.responseFiltersExecuted.trans h.responseFiltersExecuted⟩

theorem SameRequestSide.trans {t : StreamState K} (h : SameRequestSide s t)
    (h' : SameRequestSide t s') : SameRequestSide s s' :=
  ⟨h'.request.trans h.request, h'.requestBody.trans h.requestBody,
    h'.executedFilterIndices.trans h.executedFilterIndices,
    h'.branchIterations.trans h.branchIterations, h'.filterMetadata.trans h.filterMetadata⟩

theorem HandleRun.undisturbed (h : HandleRun p s m o s') : Undisturbed s m s' := by
  cases h with
  | requestOpened he => exact SameResponseSide.setRequest
  | requestEnded he hrun => exact SameResponseSide.setRequest.trans hrun.sameResponseSide
  | responseOpened he hrun => exact SameRequestSide.setResponse.trans hrun.sameRequestSide
  | responseEnded he hrun => exact SameRequestSide.setResponse.trans hrun.sameRequestSide
  | chunkRefused side hover =>
    cases side
    · exact ⟨rfl, rfl, rfl⟩
    · exact ⟨rfl, rfl, rfl, rfl, rfl⟩
  | chunkKept side he =>
    cases side
    · exact SameResponseSide.setBody
    · exact SameRequestSide.setBody
  | bodyEnded side hcap he hrun =>
    cases hrun with
    | request hrun => exact SameResponseSide.setBody.trans hrun.sameResponseSide
    | response hrun => exact SameRequestSide.setBody.trans hrun.sameRequestSide
  | trailers side t => cases side <;> rfl

/-- Chunks with more to come, one of each side, do not interfere. -/
theorem openChunks_independent (c d : Bytes) :
    (server p).Independent (bodyMessage .request ⟨c, false⟩) (bodyMessage .response ⟨d, false⟩) := by
  have hstep : ∀ (s : StreamState K) side (b : Bytes),
      (server p).step s (bodyMessage side ⟨b, false⟩) =
        if maxBodyAccumulation < (s.body side).length + b.length then (⟨.error bodyTooLarge, []⟩, s)
        else (silent, s.setBody side (s.body side ++ b)) := by
    intro s side b
    exact (handle_bodyMessage _).trans (by simp [silent])
  have hother : ∀ (s : StreamState K) (b : Bytes),
      (s.setBody .request b).body .response = s.body .response ∧
        (s.setBody .response b).body .request = s.body .request := fun s b => ⟨rfl, rfl⟩
  have hswap : ∀ (s : StreamState K) (b b' : Bytes),
      (s.setBody .request b).setBody .response b' = (s.setBody .response b').setBody .request b :=
    fun s b b' => rfl
  constructor <;> intro s <;> simp only [hstep] <;>
    by_cases hc : maxBodyAccumulation < (s.body .request).length + c.length <;>
    by_cases hd : maxBodyAccumulation < (s.body .response).length + d.length <;>
    simp [hc, hd, hother, hswap]

theorem silent_of_accepted {c : Bytes}
    (h : (server p).fails ((server p).step s (bodyMessage side ⟨c, false⟩)).1 = false) :
    ((server p).step s (bodyMessage side ⟨c, false⟩)).1 = silent := by
  have hturn : (server p).step s (bodyMessage side ⟨c, false⟩) = _ := handle_bodyMessage _
  rw [hturn] at h ⊢
  split
  · next hover => simp [hover, server, Except.isOk, Except.toBool] at h
  · rfl

/-- Accepted chunks with more to come get no reply and invoke no hook. -/
theorem replies_of_accepted (hopen : ∀ z ∈ zs, ∃ side c, z = bodyMessage side ⟨c, false⟩)
    (hs : (server p).Accepts s zs) :
    (server p).replies s zs = List.replicate zs.length silent := by
  induction zs generalizing s with
  | nil => rfl
  | cons z zs ih =>
    obtain ⟨side, c, rfl⟩ := hopen z List.mem_cons_self
    obtain ⟨hz, hrest⟩ := Machine.accepts_cons.mp hs
    have htail := ih (fun z hz => hopen z (List.mem_cons_of_mem _ hz)) hrest
    rw [Machine.replies_cons hz, htail, silent_of_accepted hz]
    rfl

theorem mem_openMessages {z : Message} (hz : z ∈ openMessages side cs) :
    ∃ c, z = bodyMessage side ⟨c, false⟩ := by
  obtain ⟨c, -, rfl⟩ := List.mem_map.mp hz
  exact ⟨c, rfl⟩

theorem open_of_interleaves
    (hz : Interleaves (openMessages .request cs) (openMessages .response ds) zs) :
    ∀ z ∈ zs, ∃ side c, z = bodyMessage side ⟨c, false⟩ := by
  intro z hmem
  rcases hz.mem hmem with hmem | hmem
  · exact ⟨_, mem_openMessages hmem⟩
  · exact ⟨_, mem_openMessages hmem⟩

/-- Every message leaves the other side alone, and body chunks of both sides, with more to come,
may be woven in any way. -/
theorem sides_undisturbed (p : FilterPipeline K) (s : StreamState K) :
    (∀ m, Undisturbed s m (handle p s m).2) ∧
      ∀ cs ds zs zs', Interleaves (openMessages .request cs) (openMessages .response ds) zs →
        Interleaves (openMessages .request cs) (openMessages .response ds) zs' →
        (server p).Accepts s zs →
          (server p).Accepts s zs' ∧ (server p).final s zs' = (server p).final s zs ∧
            (server p).replies s zs' = (server p).replies s zs ∧
            ∀ o ∈ (server p).replies s zs, o = silent := by
  refine ⟨fun m => (handle_run p s m).undisturbed, ?_⟩
  intro cs ds zs zs' hz hz' hs
  have hindependent : ∀ x ∈ openMessages .request cs, ∀ y ∈ openMessages .response ds,
      (server p).Independent x y := by
    intro x hx y hy
    obtain ⟨c, rfl⟩ := mem_openMessages hx
    obtain ⟨d, rfl⟩ := mem_openMessages hy
    exact openChunks_independent c d
  obtain ⟨hs', hfinal⟩ := Machine.interleavings_agree hz hz' hindependent hs
  have hreplies := replies_of_accepted (open_of_interleaves hz) hs
  have hreplies' := replies_of_accepted (open_of_interleaves hz') hs'
  have hlength : zs'.length = zs.length := hz'.length.trans hz.length.symm
  refine ⟨hs', hfinal, ?_, ?_⟩
  · rw [hreplies, hreplies', hlength]
  · intro o ho
    exact List.eq_of_mem_replicate (hreplies ▸ ho)

end ExtProc
