import ExtProc.Trailers

/-! The cap on accumulated bodies, however the bodies are cut. -/
namespace ExtProc

open Utf8 (Bytes)

variable {K : Crates} {p : FilterPipeline K} {s s' : StreamState K} {side : Side} {c : Bytes}
  {cs cs' : List Bytes} {o : Outcome K} {ctx : HttpFilterContext K} {events : List (Event K)}
  {headers : Option (List HeaderValue)} {pre post : List (Turn K)} {t : Turn K}

def Exhausted (o : Outcome K) : Prop :=
  ∃ st, o.replies = .error st ∧ st.code = .resourceExhausted

/-- The turn of one chunk: the buffer holds the chunks before it, within the cap, and the chunk is
refused when it joins them beyond the cap. -/
structure ChunkTurn (side : Side) (seen : List Bytes) (c : Bytes) (rest : List Bytes)
    (t : Turn K) : Prop where
  message : t.message = bodyMessage side ⟨c, rest.isEmpty⟩
  buffer : t.before.body side = seen.flatten
  bounded : seen.flatten.length ≤ maxBodyAccumulation
  refused : Exhausted t.reply ↔ maxBodyAccumulation < (seen ++ [c]).flatten.length

/-- The turns of a body in chunks: it is refused exactly when it is longer than the cap, a refused
chunk changes nothing, and the body hook gets the whole body or is not invoked. -/
structure Capped (side : Side) (cs : List Bytes) (turns : List (Turn K)) : Prop where
  chunks : ∀ pre t post, turns = pre ++ t :: post →
    ∃ seen c rest, cs = seen ++ c :: rest ∧ seen.length = pre.length ∧ ChunkTurn side seen c rest t
  refused : (∃ t ∈ turns, Exhausted t.reply) ↔ maxBodyAccumulation < cs.flatten.length
  unchanged : ∀ t ∈ turns, Exhausted t.reply → t.after = t.before ∧ t.reply.calls = []
  noHook : maxBodyAccumulation < cs.flatten.length → ∀ t ∈ turns, t.reply.calls = []
  wholeBody : ∀ t ∈ turns, ∀ ctx b eos, .executeBody side ctx b eos ∈ t.reply.calls →
    b = some cs.flatten ∧ eos = true

theorem BodyRun.error_code {st : Status} (h : BodyRun p side ctx s (.error st) events s') :
    st.code = .internal := by
  cases h
  rfl

theorem not_exhausted_of_internal {st : Status} {log : List (Event K)}
    (h : st.code = .internal) : ¬ Exhausted (K := K) ⟨.error st, log⟩ := by
  rintro ⟨st', hst, hcode⟩
  obtain rfl := Except.error.inj hst
  simp [h] at hcode

theorem not_exhausted_of_ok {replies : List ProcessingResponse} {log : List (Event K)} :
    ¬ Exhausted (K := K) ⟨.ok replies, log⟩ := by
  rintro ⟨st, hst, -⟩
  cases hst

/-- The pipelines of both sides fail for other reasons only. -/
theorem SideRun.not_exhausted (h : SideRun p s side o s') : ¬ Exhausted o := by
  cases h with
  | request h =>
    cases h with
    | noRequest hq | failed hq he => exact not_exhausted_of_internal rfl
    | bodyFailed hq hc hb => exact not_exhausted_of_internal hb.error_code
    | rejected hq hr | bodyRejected hq hc hb | done hq hc hb => exact not_exhausted_of_ok
  | response h =>
    cases h with
    | noRequest hq | noResponse hq hp | failed hq hp hx he => exact not_exhausted_of_internal rfl
    | bodyFailed hq hp hf hb => exact not_exhausted_of_internal hb.error_code
    | rejected hq hp hx hr | bodyRejected hq hp hf hb | done hq hp hf hb =>
      exact not_exhausted_of_ok

theorem handle_refusedChunk {b : HttpBody}
    (hover : maxBodyAccumulation < (s.body side).length + b.body.length) :
    handle p s (bodyMessage side b) = (⟨.error bodyTooLarge, []⟩, s) :=
  (handle_bodyMessage b).trans (if_pos hover)

theorem chunk_exhausted_iff (b : HttpBody) : Exhausted (handle p s (bodyMessage side b)).1 ↔
    maxBodyAccumulation < (s.body side).length + b.body.length := by
  by_cases hover : maxBodyAccumulation < (s.body side).length + b.body.length
  · rw [handle_refusedChunk hover]
    exact iff_of_true ⟨_, rfl, rfl⟩ hover
  · refine iff_of_false ?_ hover
    rw [handle_bodyMessage, if_neg hover]
    cases hb : b.endOfStream with
    | false => exact not_exhausted_of_ok
    | true =>
      obtain ⟨o, s', hrun, hside⟩ := sidePipeline_run p side (s.setBody side (s.body side ++ b.body))
      simp only [if_true, hrun]
      exact hside.not_exhausted

/-- The body hook of a side gets the buffer. -/
theorem SideRun.bodyCall {b : Option Bytes} {eos : Bool} (h : SideRun p s side o s')
    (hmem : .executeBody side ctx b eos ∈ o.calls) : b = some (s.body side) ∧ eos = true := by
  cases h with
  | request h =>
    obtain ⟨request, -, hc | hc⟩ := h.mem_calls hmem
    · cases hc
    · cases hc
      exact ⟨rfl, rfl⟩
  | response h =>
    obtain ⟨request, resp, -, -, ⟨-, hc⟩ | ⟨ctx', hc⟩⟩ := h.mem_calls hmem
    · cases hc
    · cases hc
      exact ⟨rfl, rfl⟩

theorem openChunk_calls : (handle p s (bodyMessage side ⟨c, false⟩)).1.calls = [] := by
  rw [handle_bodyMessage]
  split <;> rfl

theorem chunk_calls {b : HttpBody} {ctx : HttpFilterContext K} {body : Option Bytes} {eos : Bool}
    (hmem : .executeBody side ctx body eos ∈ (handle p s (bodyMessage side b)).1.calls) :
    b.endOfStream = true ∧ body = some (s.body side ++ b.body) ∧ eos = true := by
  by_cases hover : maxBodyAccumulation < (s.body side).length + b.body.length
  · rw [handle_refusedChunk hover] at hmem
    cases hmem
  · rw [handle_bodyMessage, if_neg hover] at hmem
    cases hb : b.endOfStream with
    | false =>
      simp only [hb] at hmem
      cases hmem
    | true =>
      obtain ⟨o, s', hrun, hside⟩ := sidePipeline_run p side (s.setBody side (s.body side ++ b.body))
      simp only [hb, if_true, hrun] at hmem
      have hcall := hside.bodyCall hmem
      rw [setBody_body] at hcall
      exact ⟨rfl, hcall⟩

theorem bodyMessages_cons (side : Side) (c : Bytes) (cs : List Bytes) :
    bodyMessages side (c :: cs) = bodyMessage side ⟨c, cs.isEmpty⟩ :: bodyMessages side cs := by
  cases cs <;> rfl

/-- A chunk with more to come that does not end the stream joined the buffer. -/
theorem after_openChunk
    (hok : (server p).fails ((server p).turn s (bodyMessage side ⟨c, false⟩)).reply = false) :
    (s.body side).length + c.length ≤ maxBodyAccumulation ∧
      ((server p).turn s (bodyMessage side ⟨c, false⟩)).after =
        s.setBody side (s.body side ++ c) := by
  by_cases hover : maxBodyAccumulation < (s.body side).length + c.length
  · have hturn : ((server p).turn s (bodyMessage side ⟨c, false⟩)).reply = ⟨.error bodyTooLarge, []⟩ :=
      congrArg Prod.fst (handle_refusedChunk hover)
    rw [hturn] at hok
    cases hok
  · refine ⟨by omega, ?_⟩
    exact congrArg Prod.snd (handle_openChunk (by omega))

/-- Each turn of a body in chunks finds the chunks before it in the buffer. -/
theorem chunk_turn (hcap : (s.body side).length ≤ maxBodyAccumulation)
    (h : (server p).run s (bodyMessages side cs) = pre ++ t :: post) :
    ∃ seen c rest, cs = seen ++ c :: rest ∧ seen.length = pre.length ∧
      t = (server p).turn (s.setBody side (s.body side ++ seen.flatten))
        (bodyMessage side ⟨c, rest.isEmpty⟩) ∧
      (s.body side).length + seen.flatten.length ≤ maxBodyAccumulation := by
  induction pre generalizing s cs with
  | nil =>
    cases cs with
    | nil => cases h
    | cons c cs =>
      rw [bodyMessages_cons] at h
      obtain ⟨rfl, -⟩ := Machine.run_cons_eq_cons h
      exact ⟨[], c, cs, rfl, rfl, by simp, by simpa using hcap⟩
  | cons u pre ih =>
    cases cs with
    | nil => cases h
    | cons c cs =>
      rw [bodyMessages_cons] at h
      obtain ⟨rfl, hrest | ⟨hok, hrest⟩⟩ := Machine.run_cons_eq_cons h
      · simp at hrest
      · cases cs with
        | nil => simp [bodyMessages] at hrest
        | cons d ds =>
          obtain ⟨hfits, hafter⟩ := after_openChunk hok
          simp only [List.isEmpty_cons] at hrest
          rw [hafter] at hrest
          have hnext : ((s.setBody side (s.body side ++ c)).body side).length ≤
              maxBodyAccumulation := by
            simpa using hfits
          obtain ⟨seen, c', rest, hcs, hlen, ht, hbound⟩ := ih hnext hrest
          refine ⟨c :: seen, c', rest, by rw [hcs, List.cons_append], by simp [hlen], ?_, ?_⟩
          · simpa using ht
          · simp only [setBody_body, List.length_append] at hbound
            simp only [List.flatten_cons, List.length_append]
            omega

/-- A body beyond the cap: silence, and then the refusal. -/
theorem over_run (hcap : (s.body side).length ≤ maxBodyAccumulation)
    (hover : maxBodyAccumulation < (s.body side).length + cs.flatten.length) :
    ∃ n, (server p).replies s (bodyMessages side cs) =
      List.replicate n silent ++ [⟨.error bodyTooLarge, []⟩] := by
  induction cs generalizing s with
  | nil =>
    simp only [List.flatten_nil, List.length_nil] at hover
    omega
  | cons c cs ih =>
    simp only [List.flatten_cons, List.length_append] at hover
    rw [bodyMessages_cons]
    by_cases hchunk : maxBodyAccumulation < (s.body side).length + c.length
    · exact ⟨0, replies_of_refused (handle_refusedChunk hchunk) rfl⟩
    · cases cs with
      | nil =>
        simp only [List.flatten_nil, List.length_nil] at hover
        omega
      | cons d ds =>
        have hstep : handle p s (bodyMessage side ⟨c, false⟩) =
            (silent, s.setBody side (s.body side ++ c)) := handle_openChunk (by omega)
        have hbody : ((s.setBody side (s.body side ++ c)).body side).length =
            (s.body side).length + c.length := by simp
        obtain ⟨n, hrest⟩ := ih (s := s.setBody side (s.body side ++ c)) (by omega) (by omega)
        refine ⟨n + 1, (replies_of_answered hstep rfl).trans ?_⟩
        exact congrArg (List.cons silent) hrest

/-- What a body in chunks ends with, which its cuts do not show. -/
theorem last_reply (hne : cs ≠ []) (hcap : (s.body side).length ≤ maxBodyAccumulation) :
    ((server p).replies s (bodyMessages side cs)).getLast? =
      some (if maxBodyAccumulation < (s.body side).length + cs.flatten.length then
          ⟨.error bodyTooLarge, []⟩
        else (runHandler (sidePipeline p side) (s.setBody side (s.body side ++ cs.flatten))).1) := by
  by_cases hover : maxBodyAccumulation < (s.body side).length + cs.flatten.length
  · obtain ⟨n, hrun⟩ := over_run (p := p) hcap hover
    rw [if_pos hover, hrun]
    simp
  · have hfits : (s.body side).length + cs.flatten.length ≤ maxBodyAccumulation := by omega
    have hrun := (body_run (p := p) hne hfits).1
    rw [if_neg hover, hrun]
    simp

theorem chunkTurn (hbuf : s.body side = [])
    (h : (server p).run s (bodyMessages side cs) = pre ++ t :: post) :
    ∃ seen c rest, cs = seen ++ c :: rest ∧ seen.length = pre.length ∧
      ChunkTurn side seen c rest t ∧
      t = (server p).turn (s.setBody side seen.flatten) (bodyMessage side ⟨c, rest.isEmpty⟩) := by
  have hcap : (s.body side).length ≤ maxBodyAccumulation := by simp [hbuf]
  obtain ⟨seen, c, rest, hcs, hlen, ht, hbound⟩ := chunk_turn hcap h
  rw [hbuf, List.nil_append] at ht
  rw [hbuf, List.length_nil, Nat.zero_add] at hbound
  have hreply : t.reply =
      (handle p (s.setBody side seen.flatten) (bodyMessage side ⟨c, rest.isEmpty⟩)).1 :=
    congrArg Machine.Turn.reply ht
  refine ⟨seen, c, rest, hcs, hlen, ⟨?_, ?_, hbound, ?_⟩, ht⟩
  · exact congrArg Machine.Turn.message ht
  · have hbefore : t.before = s.setBody side seen.flatten := congrArg Machine.Turn.before ht
    rw [hbefore, setBody_body]
  · rw [hreply, chunk_exhausted_iff, setBody_body, List.flatten_concat, List.length_append]

theorem capped_body (hbuf : s.body side = []) :
    Capped side cs ((server p).run s (bodyMessages side cs)) where
  chunks pre t post h := by
    obtain ⟨seen, c, rest, hcs, hlen, hturn, -⟩ := chunkTurn hbuf h
    exact ⟨seen, c, rest, hcs, hlen, hturn⟩
  refused := by
    constructor
    · rintro ⟨t, ht, hexhausted⟩
      obtain ⟨pre, post, h⟩ := List.append_of_mem ht
      obtain ⟨seen, c, rest, rfl, -, hturn, -⟩ := chunkTurn hbuf h
      have hover := hturn.refused.mp hexhausted
      simp only [List.flatten_append, List.flatten_cons, List.flatten_nil, List.length_append,
        List.length_nil] at hover ⊢
      omega
    · intro hover
      have hcap : (s.body side).length ≤ maxBodyAccumulation := by simp [hbuf]
      have hlong : maxBodyAccumulation < (s.body side).length + cs.flatten.length := by
        simpa only [hbuf, List.length_nil, Nat.zero_add] using hover
      obtain ⟨n, hrun⟩ := over_run (p := p) hcap hlong
      have hmem : (⟨.error bodyTooLarge, []⟩ : Outcome K) ∈
          (server p).replies s (bodyMessages side cs) := by simp [hrun]
      obtain ⟨t, ht, hreply⟩ := List.mem_map.mp hmem
      exact ⟨t, ht, hreply ▸ ⟨_, rfl, rfl⟩⟩
  unchanged t ht hexhausted := by
    obtain ⟨pre, post, h⟩ := List.append_of_mem ht
    obtain ⟨seen, c, rest, -, -, hturn, rfl⟩ := chunkTurn hbuf h
    have hover := (chunk_exhausted_iff _).mp hexhausted
    have hstep := handle_refusedChunk (p := p) hover
    exact ⟨congrArg Prod.snd hstep, congrArg (fun r => Outcome.calls r.1) hstep⟩
  noHook hover t ht := by
    obtain ⟨pre, post, h⟩ := List.append_of_mem ht
    obtain ⟨seen, c, rest, rfl, -, -, rfl⟩ := chunkTurn hbuf h
    cases rest with
    | nil =>
      have hchunk : maxBodyAccumulation <
          ((s.setBody side seen.flatten).body side).length + c.length := by
        simpa only [setBody_body, List.flatten_concat, List.length_append] using hover
      have hstep : handle p (s.setBody side seen.flatten) (bodyMessage side ⟨c, true⟩) = _ :=
        handle_refusedChunk hchunk
      exact congrArg (fun r => Outcome.calls r.1) hstep
    | cons d ds => exact openChunk_calls
  wholeBody t ht ctx b eos hmem := by
    obtain ⟨pre, post, h⟩ := List.append_of_mem ht
    obtain ⟨seen, c, rest, rfl, -, hturn, rfl⟩ := chunkTurn hbuf h
    obtain ⟨hend, hb, heos⟩ := chunk_calls hmem
    obtain rfl : rest = [] := by simpa using hend
    rw [setBody_body] at hb
    exact ⟨by simp [hb], heos⟩

/-- Headers that open a body, once they are answered. -/
theorem opened_headers (hready : Ready side s)
    (hheaders : side = .response → ContinuesAtHeaderTime p s headers) :
    ∃ o s' replies, handle p s (headersMessage side ⟨headers, false⟩) = (o, s') ∧
      o.replies = .ok replies ∧ s'.body side = [] := by
  cases side with
  | request =>
    obtain rfl : s = .new := hready
    exact ⟨_, _, _, handle_requestHeaders _, rfl, rfl⟩
  | response =>
    obtain ⟨o, s', hstep, hhead⟩ := openedResponse_run p s headers
    obtain ⟨request, hq, hc⟩ := hheaders rfl
    obtain ⟨replies, hok⟩ := (hhead.ok_iff hq rfl).mpr hc
    obtain ⟨-, -, hbody, -⟩ := hhead.done_of_ok hq rfl hok
    have hempty : s.responseBody = [] := hready.responseBody
    exact ⟨o, s', replies, hstep, hok, hbody.trans hempty⟩

/-- The cap is exact on both sides, and only the length of the body decides. -/
theorem body_cap_exact (hready : Ready side s)
    (hheaders : side = .response → ContinuesAtHeaderTime p s headers) (cs : List Bytes) :
    Capped side cs ((server p).run s (closedStream side headers cs)).tail ∧
      ∀ cs', cs ≠ [] → cs' ≠ [] → cs'.flatten = cs.flatten →
        ((server p).replies s (closedStream side headers cs')).getLast? =
          ((server p).replies s (closedStream side headers cs)).getLast? := by
  obtain ⟨o, s', replies, hstep, hok, hbuf⟩ := opened_headers hready hheaders
  have hcap : (s'.body side).length ≤ maxBodyAccumulation := by simp [hbuf]
  constructor
  · have hturn : (server p).turn s (headersMessage side ⟨headers, false⟩) = ⟨s, _, o, s'⟩ :=
      congrArg (fun r => Machine.Turn.mk s _ r.1 r.2) hstep
    have hgoes : (server p).fails
        ((server p).turn s (headersMessage side ⟨headers, false⟩)).reply = false := by
      rw [hturn]
      exact server_ok_of_replies hok
    rw [closedStream, Machine.run_cons_of_ok hgoes, List.tail_cons, hturn]
    exact capped_body hbuf
  · intro cs' hne hne' hsame
    have hlast : ∀ ds : List Bytes, ds ≠ [] →
        ((server p).replies s (closedStream side headers ds)).getLast? =
          ((server p).replies s' (bodyMessages side ds)).getLast? := by
      intro ds hds
      have hreplies : (server p).replies s (closedStream side headers ds) =
          o :: (server p).replies s' (bodyMessages side ds) := replies_of_answered hstep hok
      rw [hreplies, List.getLast?_cons, last_reply hds hcap, Option.getD_some]
    rw [hlast cs hne, hlast cs' hne', last_reply hne hcap, last_reply hne' hcap, hsame]

/-- A body of two bytes on each side, in two chunks or any others. -/
theorem two_chunks_capped :
    (Capped .request [[1], [2]] ((server passAll).run .new
        (closedStream .request none [[1], [2]])).tail ∧
      ∀ cs', [[1], [2]] ≠ ([] : List Bytes) → cs' ≠ [] → cs'.flatten = [1, 2] →
        ((server passAll).replies .new (closedStream .request none cs')).getLast? =
          ((server passAll).replies .new (closedStream .request none [[1], [2]])).getLast?) ∧
    Capped .response [[1], [2]] ((server passAll).run requested
        (closedStream .response none [[1], [2]])).tail ∧
      ∀ cs', [[1], [2]] ≠ ([] : List Bytes) → cs' ≠ [] → cs'.flatten = [1, 2] →
        ((server passAll).replies requested (closedStream .response none cs')).getLast? =
          ((server passAll).replies requested
            (closedStream .response none [[1], [2]])).getLast? := by
  have hrequest : Side.request = .response → ContinuesAtHeaderTime passAll .new none := by
    intro hside
    cases hside
  have hresponse : Side.response = .response → ContinuesAtHeaderTime passAll requested none :=
    fun _ => ⟨_, rfl, rfl⟩
  have hnew : Ready .request (StreamState.new : StreamState httpCrates) := rfl
  have hdone : Ready .response requested := ⟨⟨rfl, rfl, rfl⟩, _, rfl⟩
  exact ⟨body_cap_exact hnew hrequest [[1], [2]], body_cap_exact hdone hresponse [[1], [2]]⟩

end ExtProc
