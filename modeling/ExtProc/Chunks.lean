import ExtProc.Outcomes

/-! Bodies that arrive in chunks. -/
namespace ExtProc

open Utf8 (Bytes)

variable {K : Crates} {p : FilterPipeline K} {s s' : StreamState K} {side : Side} {c : Bytes}
  {cs : List Bytes} {o : Outcome K} {headers : Option (List HeaderValue)}

/-- No reply, and no hook invoked. -/
def silent : Outcome K := ⟨.ok [], []⟩

@[simp] theorem invoked_silent (n : Nat) :
    invoked (List.replicate n (silent : Outcome K)) = [] := by
  induction n with
  | zero => rfl
  | succ n ih => exact ih

@[simp] theorem sent_silent (n : Nat) : sent (List.replicate n (silent : Outcome K)) = [] := by
  induction n with
  | zero => rfl
  | succ n ih => exact ih

theorem ne_nil_of_flatten (h : cs.flatten ≠ []) : cs ≠ [] := by
  rintro rfl
  exact h rfl

theorem handle_openChunk (hcap : (s.body side).length + c.length ≤ maxBodyAccumulation) :
    handle p s (bodyMessage side ⟨c, false⟩) = (silent, s.setBody side (s.body side ++ c)) := by
  rw [handle_bodyMessage, if_neg (by simpa using hcap)]
  rfl

theorem handle_lastChunk (hcap : (s.body side).length + c.length ≤ maxBodyAccumulation) :
    handle p s (bodyMessage side ⟨c, true⟩) =
      runHandler (sidePipeline p side) (s.setBody side (s.body side ++ c)) := by
  rw [handle_bodyMessage, if_neg (by simpa using hcap)]
  rfl

/-- Chunks with more to come are kept, in order, and nothing else happens. -/
theorem open_run (hcap : (s.body side).length + cs.flatten.length ≤ maxBodyAccumulation) :
    (server p).replies s (openMessages side cs) = List.replicate cs.length silent ∧
      (server p).final s (openMessages side cs) = s.setBody side (s.body side ++ cs.flatten) := by
  induction cs generalizing s with
  | nil =>
    refine ⟨rfl, ?_⟩
    simp [openMessages]
  | cons c cs ih =>
    simp only [List.flatten_cons, List.length_append] at hcap
    have hstep : handle p s (bodyMessage side ⟨c, false⟩) =
        (silent, s.setBody side (s.body side ++ c)) := handle_openChunk (by omega)
    have hrest : ((s.setBody side (s.body side ++ c)).body side).length + cs.flatten.length ≤
        maxBodyAccumulation := by
      simp only [setBody_body, List.length_append]
      omega
    obtain ⟨hreplies, hfinal⟩ := ih hrest
    constructor
    · refine (replies_of_answered hstep rfl).trans ?_
      exact congrArg (List.cons silent) hreplies
    · refine (final_of_answered hstep rfl).trans (hfinal.trans ?_)
      simp

theorem ok_of_mem_open
    (hcap : (s.body side).length + cs.flatten.length ≤ maxBodyAccumulation)
    (ho : o ∈ (server p).replies s (openMessages side cs)) : (server p).fails o = false := by
  rw [(open_run hcap).1] at ho
  obtain rfl := List.eq_of_mem_replicate ho
  rfl

/-- A body in chunks: silence up to the last chunk, then the pipeline on the whole body. -/
theorem body_run (hne : cs ≠ [])
    (hcap : (s.body side).length + cs.flatten.length ≤ maxBodyAccumulation) :
    (server p).replies s (bodyMessages side cs) =
        List.replicate (cs.length - 1) silent ++
          [(runHandler (sidePipeline p side) (s.setBody side (s.body side ++ cs.flatten))).1] ∧
      (server p).final s (bodyMessages side cs) =
        (runHandler (sidePipeline p side) (s.setBody side (s.body side ++ cs.flatten))).2 := by
  obtain ⟨init, last, rfl⟩ := (List.eq_nil_or_concat cs).resolve_left hne
  rw [List.concat_eq_append] at hcap ⊢
  rw [List.flatten_concat, List.length_append] at hcap
  have hinit : (s.body side).length + init.flatten.length ≤ maxBodyAccumulation := by omega
  obtain ⟨hreplies, hfinal⟩ := open_run (p := p) hinit
  have hlast : (server p).step (s.setBody side (s.body side ++ init.flatten))
      (bodyMessage side ⟨last, true⟩) = runHandler (sidePipeline p side)
        (s.setBody side (s.body side ++ (init ++ [last]).flatten)) := by
    refine (handle_lastChunk ?_).trans ?_
    · simp only [setBody_body, List.length_append]
      omega
    · simp
  have hok := fun o => ok_of_mem_open (p := p) (o := o) hinit
  rw [bodyMessages_append]
  constructor
  · rw [Machine.replies_append hok, hreplies, hfinal, Machine.replies_singleton, hlast]
    simp
  · rw [Machine.final_append_of_replies hok, hfinal, Machine.final_singleton, hlast]

/-- A side whose headers are answered and whose body ends with its last chunk. -/
theorem closed_run {replies : List ProcessingResponse}
    (hstep : handle p s (headersMessage side ⟨headers, false⟩) = (o, s'))
    (hok : o.replies = .ok replies) (hbuf : s'.body side = []) (hne : cs ≠ [])
    (hcap : cs.flatten.length ≤ maxBodyAccumulation) :
    (server p).replies s (closedStream side headers cs) =
        o :: (List.replicate (cs.length - 1) silent ++
          [(runHandler (sidePipeline p side) (s'.setBody side cs.flatten)).1]) ∧
      (server p).final s (closedStream side headers cs) =
        (runHandler (sidePipeline p side) (s'.setBody side cs.flatten)).2 := by
  have hbody : (s'.body side).length + cs.flatten.length ≤ maxBodyAccumulation := by
    simpa [hbuf] using hcap
  obtain ⟨hreplies, hfinal⟩ := body_run (p := p) hne hbody
  simp only [hbuf, List.nil_append] at hreplies hfinal
  constructor
  · refine (replies_of_answered hstep hok).trans ?_
    exact congrArg (List.cons o) hreplies
  · exact (final_of_answered hstep hok).trans hfinal

/-- A side whose headers are answered and whose body ends with trailers: no hook from then on. -/
theorem trailed_run {replies : List ProcessingResponse} (trailers : HttpTrailers)
    (hstep : handle p s (headersMessage side ⟨headers, false⟩) = (o, s'))
    (hok : o.replies = .ok replies) (hbuf : s'.body side = [])
    (hcap : cs.flatten.length ≤ maxBodyAccumulation) :
    (server p).replies s (trailedStream side headers cs trailers) =
      o :: (List.replicate cs.length silent ++ [⟨.ok [trailersReply side], []⟩]) := by
  have hbody : (s'.body side).length + cs.flatten.length ≤ maxBodyAccumulation := by
    simpa [hbuf] using hcap
  have hopen := fun o => ok_of_mem_open (p := p) (o := o) hbody
  have hlast : ∀ u, ((server p).step u (trailersMessage side trailers)).1 =
      ⟨.ok [trailersReply side], []⟩ := by
    intro u
    cases side <;> rfl
  refine (replies_of_answered hstep hok).trans (congrArg (List.cons o) ?_)
  rw [Machine.replies_append hopen, (open_run hbody).1, Machine.replies_singleton, hlast]

end ExtProc
