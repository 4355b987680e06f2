import ExtProc.Dialogue
import ExtProc.Duplex
import ExtProc.Inline

/-! Envoy carries out what it receives, in every order of its steps and the server's. -/
namespace ExtProc

open Utf8 (Bytes)

variable {K : Crates} {p : FilterPipeline K} {s : StreamState K} {m : Message} {side : Side}
  {reply : ProcessingResponse} {replies : List ProcessingResponse} {item : Outbound}
  {items items' : List Outbound} {hs rs : List HeaderValue} {h r : Option (List HeaderValue)}
  {B C D : Bytes} {ms ms' rest : List Message} {w : Verdict}

/-- The side a reply is about. -/
def ProcessingResponse.sideOf (reply : ProcessingResponse) : Option Side :=
  match reply.response with
  | some (.requestHeaders _) | some (.requestBody _) => some .request
  | some (.responseHeaders _) | some (.responseBody _) => some .response
  | _ => none

def Outbound.verdict : Outbound → Option Verdict
  | .ok reply => reply.verdict
  | .error st => some (.failed st)

/-- The two messages of an exchange as Envoy passes them on, and what ended it early. -/
structure Relay (K : Crates) where
  passed : Side → Passed K
  verdict : Option Verdict

namespace Relay

/-- The messages as they came. -/
def start (hs : List HeaderValue) (C : Bytes) (rs : List HeaderValue) (D : Bytes) : Relay K where
  passed
    | .request => ⟨some (pathText hs), upstreamMap K hs, C⟩
    | .response => ⟨none, upstreamMap K rs, D⟩
  verdict := none

def put (v : Relay K) (side : Side) (message : Passed K) : Relay K :=
  { v with passed := Function.update v.passed side message }

/-- Envoy carries out a reply on the message of its side. -/
def carryOut (v : Relay K) (reply : ProcessingResponse) : Relay K :=
  match reply.sideOf with
  | some side => v.put side ((v.passed side).mutate reply)
  | none => v

/-- Envoy receives an item; behind a verdict it cares for none. -/
def receive (v : Relay K) (item : Outbound) : Relay K :=
  match v.verdict, item with
  | some _, _ => v
  | none, .ok reply => { v.carryOut reply with verdict := reply.verdict }
  | none, .error st => { v with verdict := some (.failed st) }

def receiveAll (v : Relay K) (items : List Outbound) : Relay K := items.foldl receive v

end Relay

section Receive
variable {v : Relay K} {message message' : Passed K} {other : Side}

@[simp] theorem put_verdict : (v.put side message).verdict = v.verdict := rfl
@[simp] theorem put_passed_self : (v.put side message).passed side = message :=
  Function.update_self _ _ _
@[simp] theorem put_put : (v.put side message).put side message' = v.put side message' :=
  congrArg (Relay.mk · v.verdict) (Function.update_idem _ _ _)
@[simp] theorem put_self : v.put side (v.passed side) = v :=
  congrArg (Relay.mk · v.verdict) (Function.update_eq_self _ _)

theorem put_passed_of_ne (hside : other ≠ side) :
    (v.put side message).passed other = v.passed other := Function.update_of_ne hside _ _

theorem receiveAll_append :
    v.receiveAll (items ++ items') = (v.receiveAll items).receiveAll items' := List.foldl_append

theorem verdict_receive : (v.receive item).verdict = v.verdict.or item.verdict := by
  rcases v with ⟨passed, verdict⟩
  cases verdict with
  | some w => cases item <;> rfl
  | none => cases item <;> rfl

/-- The first verdict among the items is the one Envoy goes by. -/
theorem verdict_receiveAll :
    (v.receiveAll items).verdict = v.verdict.or (items.findSome? Outbound.verdict) := by
  induction items generalizing v with
  | nil => exact (Option.or_none).symm
  | cons item items ih =>
    have hfirst : ([item] ++ items).findSome? Outbound.verdict =
        item.verdict.or (items.findSome? Outbound.verdict) := by
      rw [List.findSome?_append]
      cases hv : item.verdict <;> simp [hv]
    have hrest : (v.receiveAll (item :: items)).verdict = _ := @ih (v.receive item)
    rw [hrest, verdict_receive, Option.or_assoc, ← hfirst]
    rfl

theorem verdict_of_side (hside : reply.sideOf = some side) : reply.verdict = none := by
  rcases reply with ⟨_ | response⟩
  · cases hside
  · cases response with
    | immediateResponse imm => cases hside
    | _ => rfl

/-- Replies about one side are carried out on its message, one after the other. -/
theorem receiveAll_side (hv : v.verdict = none)
    (hside : ∀ reply ∈ replies, reply.sideOf = some side) :
    v.receiveAll (replies.map .ok) =
      v.put side (replies.foldl Passed.mutate (v.passed side)) := by
  induction replies generalizing v with
  | nil =>
    rw [List.foldl_nil, put_self]
    rfl
  | cons reply replies ih =>
    have hfirst := hside reply List.mem_cons_self
    have hreceive : v.receive (.ok reply) = v.put side ((v.passed side).mutate reply) := by
      simp [Relay.receive, hv, Relay.carryOut, hfirst, verdict_of_side hfirst, Relay.put]
    have hrest := @ih (v.receive (.ok reply)) (by rw [hreceive, put_verdict, hv]) fun reply' hmem =>
      hside reply' (List.mem_cons_of_mem _ hmem)
    refine hrest.trans ?_
    rw [hreceive, put_put, put_passed_self, List.foldl_cons]

/-- Replies that are not about a side leave its message alone. -/
theorem passed_receiveAll (hside : ∀ reply, .ok reply ∈ items → reply.sideOf ≠ some side) :
    (v.receiveAll items).passed side = v.passed side := by
  induction items generalizing v with
  | nil => rfl
  | cons item items ih =>
    have hrest : (v.receiveAll (item :: items)).passed side = (v.receive item).passed side :=
      @ih (v.receive item) fun reply hmem => hside reply (List.mem_cons_of_mem _ hmem)
    rw [hrest]
    rcases v with ⟨passed, verdict⟩
    cases verdict with
    | some w => rfl
    | none =>
      cases item with
      | error st => rfl
      | ok reply =>
        have hfirst := hside reply List.mem_cons_self
        simp only [Relay.receive, Relay.carryOut]
        cases hreply : reply.sideOf with
        | none => rfl
        | some other =>
          refine put_passed_of_ne ?_
          rintro rfl
          exact hfirst hreply

end Receive

@[simp] theorem messagesOf_inboundOf : messagesOf (inboundOf ms) = ms := by
  induction ms with
  | nil => rfl
  | cons m ms ih => exact congrArg (List.cons m) ih

@[simp] theorem transportFailure_inboundOf : transportFailure (inboundOf ms) = none := by
  induction ms with
  | nil => rfl
  | cons m ms ih => exact ih

theorem isLast_eq : item.isLast = item.verdict.isSome := by
  rcases item with st | ⟨_ | response⟩
  · rfl
  · rfl
  · cases response <;> rfl

theorem expected_inboundOf (ms : List Message) : expected p s (inboundOf ms) =
    (sent ((server p).replies s ms)).map .ok ++
      (((server p).replies s ms).findSome? Outcome.status?).toList.map .error := by
  rw [expected, failure, outcomes, messagesOf_inboundOf, transportFailure_inboundOf,
    Option.or_none]

/-- The first verdict among the items is the first on the stream. -/
theorem verdict_expected :
    (expected p s (inboundOf ms)).findSome? Outbound.verdict =
      settled ((server p).replies s ms) := by
  rw [expected_inboundOf]
  induction ms generalizing s with
  | nil => rfl
  | cons m ms ih =>
    obtain ⟨o, s', hstep⟩ : ∃ o s', handle p s m = (o, s') := ⟨_, _, rfl⟩
    cases ho : o.replies with
    | error st =>
      rw [replies_of_refused hstep ho, settled_singleton, sent_cons]
      simp [Outcome.sent, Outcome.status?, Outcome.verdict, Outbound.verdict, ho]
    | ok replies =>
      have hstatus : o.status? = none := by
        rw [Outcome.status?, ho]
      have hverdict : (o.sent.map Except.ok).findSome? Outbound.verdict = o.verdict := by
        rw [Outcome.sent, Outcome.verdict, ho, List.findSome?_map]
        rfl
      have hsettled : settled (o :: (server p).replies s' ms) =
          o.verdict.or (settled ((server p).replies s' ms)) := by
        rw [← settled_singleton, ← settled_append]
        rfl
      rw [replies_of_answered hstep ho, sent_cons, List.map_append, List.append_assoc,
        List.findSome?_append, hverdict, List.findSome?_cons, hstatus, hsettled, ← @ih s']

theorem status_of_verdict {o : Outcome K} (h : o.verdict = none) : o.status? = none := by
  rcases o with ⟨replies | replies, log⟩
  · cases h
  · rfl

/-- Without a verdict there is no status either. -/
theorem expected_of_settled (hnone : settled ((server p).replies s ms) = none) :
    expected p s (inboundOf ms) = (sent ((server p).replies s ms)).map .ok := by
  have hstatus : ((server p).replies s ms).findSome? Outcome.status? = none := by
    refine List.findSome?_eq_none_iff.mpr ?_
    intro o ho
    exact status_of_verdict (List.findSome?_eq_none_iff.mp hnone o ho)
  rw [expected_inboundOf, hstatus]
  exact List.append_nil _

/-- The items of messages that are all answered come first. -/
theorem expected_append (hok : ∀ o ∈ (server p).replies s ms, (server p).fails o = false) :
    expected p s (inboundOf (ms ++ rest)) = (sent ((server p).replies s ms)).map .ok ++
      expected p ((server p).final s ms) (inboundOf rest) := by
  have hstatus : ((server p).replies s ms).findSome? Outcome.status? = none := by
    refine List.findSome?_eq_none_iff.mpr ?_
    intro o ho
    cases hreplies : o.replies with
    | ok replies => rw [Outcome.status?, hreplies]
    | error st =>
      have hfails := hok o ho
      rw [server_fails_of_status hreplies] at hfails
      cases hfails
  rw [expected_inboundOf, expected_inboundOf, Machine.replies_append hok, sent_append,
    List.map_append, List.findSome?_append, hstatus, List.append_assoc]
  rfl

theorem Answers.sideOf (h : Answers m reply) : reply.sideOf = some m.sideOf ∨
    reply.verdict ≠ none ∨ ∃ side t, m = trailersMessage side t := by
  cases h with
  | requestOpened he | responseOpened he hm => exact Or.inl rfl
  | @headers m side mutation hclose hm =>
    left
    rw [sideOf_of_closes hclose]
    cases side <;> rfl
  | @body m side mutation body hclose hbody hm =>
    left
    rw [sideOf_of_closes hclose]
    cases side <;> rfl
  | rejected hclose rejection => exact Or.inr (Or.inl (Option.some_ne_none _))
  | trailers side t => exact Or.inr (Or.inr ⟨side, t, rfl⟩)

/-- Every reply answers one of the messages. -/
theorem answers_of_mem_sent (hreply : reply ∈ sent ((server p).replies s ms)) :
    ∃ m ∈ ms, Answers m reply := by
  induction ms generalizing s with
  | nil => cases hreply
  | cons m ms ih =>
    have hrun := handle_run p s m
    obtain ⟨o, s', hstep⟩ : ∃ o s', handle p s m = (o, s') := ⟨_, _, rfl⟩
    rw [hstep] at hrun
    cases ho : o.replies with
    | error st =>
      rw [replies_of_refused hstep ho, sent_cons, Outcome.sent, ho] at hreply
      cases hreply
    | ok replies =>
      rw [replies_of_answered hstep ho, sent_cons, List.mem_append, Outcome.sent, ho] at hreply
      rcases hreply with hfirst | hrest
      · refine ⟨m, List.mem_cons_self, ?_⟩
        have hanswers := hrun.answers ho
        cases hchunk : m.isOpenChunk with
        | true =>
          rw [hchunk, if_pos rfl] at hanswers
          rw [hanswers] at hfirst
          cases hfirst
        | false =>
          rw [hchunk, if_neg Bool.false_ne_true] at hanswers
          obtain ⟨reply', rfl, hreply'⟩ := hanswers
          obtain rfl := List.mem_singleton.mp hfirst
          exact hreply'
      · obtain ⟨m', hmem, hm'⟩ := ih hrest
        exact ⟨m', List.mem_cons_of_mem _ hmem, hm'⟩

/-- Messages about one side, none of them trailers. -/
def OneSided (side : Side) (ms : List Message) : Prop :=
  ∀ m ∈ ms, m.sideOf = side ∧ ∀ other t, m ≠ trailersMessage other t

theorem oneSided_bodyMessages (side : Side) (cs : List Bytes) :
    OneSided side (bodyMessages side cs) := by
  have hbody : ∀ b : HttpBody, (bodyMessage side b).sideOf = side ∧
      ∀ other t, bodyMessage side b ≠ trailersMessage other t := by
    intro b
    refine ⟨sideOf_bodyMessage, ?_⟩
    intro other t
    cases side <;> cases other <;> exact Message.noConfusion
  induction cs with
  | nil =>
    intro m hm
    cases hm
  | cons c cs ih =>
    intro m hm
    cases cs with
    | nil =>
      obtain rfl := List.mem_singleton.mp hm
      exact hbody _
    | cons d cs =>
      rcases List.mem_cons.mp hm with rfl | hm
      · exact hbody _
      · exact ih m hm

theorem Carries.oneSided (hms : Carries side h B ms) : OneSided side ms := by
  have hheaders : ∀ headers : HttpHeaders, (headersMessage side headers).sideOf = side ∧
      ∀ other t, headersMessage side headers ≠ trailersMessage other t := by
    intro headers
    refine ⟨sideOf_headersMessage, ?_⟩
    intro other t
    cases side <;> cases other <;> exact Message.noConfusion
  cases hms with
  | headersOnly =>
    intro m hm
    obtain rfl := List.mem_singleton.mp hm
    exact hheaders _
  | chunked hbody hcap =>
    intro m hm
    rcases List.mem_cons.mp hm with rfl | hm
    · exact hheaders _
    · exact oneSided_bodyMessages side _ m hm

/-- A reply to messages of one side is about it, or tells of a verdict. -/
theorem OneSided.sideOf (hms : OneSided side ms)
    (hreply : reply ∈ sent ((server p).replies s ms)) :
    reply.sideOf = some side ∨ reply.verdict ≠ none := by
  obtain ⟨m, hm, hanswers⟩ := answers_of_mem_sent hreply
  obtain ⟨hside, htrailers⟩ := hms m hm
  rcases hanswers.sideOf with habout | hverdict | ⟨other, t, hm⟩
  · left
    rw [habout, hside]
  · exact Or.inr hverdict
  · exact (htrailers other t hm).elim

theorem verdict_of_settled {os : List (Outcome K)} (hnone : settled os = none)
    (hreply : reply ∈ sent os) : reply.verdict = none := by
  obtain ⟨o, ho, hmem⟩ := List.mem_flatMap.mp hreply
  have hverdict := List.findSome?_eq_none_iff.mp hnone o ho
  rw [Outcome.sent] at hmem
  rw [Outcome.verdict] at hverdict
  cases hreplies : o.replies with
  | error st =>
    rw [hreplies] at hmem
    cases hmem
  | ok replies =>
    rw [hreplies] at hmem hverdict
    exact List.findSome?_eq_none_iff.mp hverdict reply hmem

section Exchange
variable {v : Relay K} {other : Side} {window : Nat} {d : Dialogue K}

/-- Without a verdict, the replies to the messages of one side are carried out on it. -/
theorem receiveAll_settled (hms : OneSided side ms)
    (hnone : settled ((server p).replies s ms) = none) (hv : v.verdict = none) :
    v.receiveAll ((sent ((server p).replies s ms)).map .ok) =
      v.put side ((v.passed side).mutateAll ((server p).replies s ms)) := by
  refine receiveAll_side hv ?_
  intro reply hreply
  refine (hms.sideOf hreply).resolve_right ?_
  intro hverdict
  exact hverdict (verdict_of_settled hnone hreply)

/-- Whatever comes of the messages of one side leaves the other alone. -/
theorem passed_expected (hms : OneSided other ms) (hside : side ≠ other) :
    (v.receiveAll (expected p s (inboundOf ms))).passed side = v.passed side := by
  refine passed_receiveAll ?_
  intro reply hmem habout
  rw [expected_inboundOf, List.mem_append] at hmem
  rcases hmem with hmem | hmem
  · obtain ⟨reply', hreply, heq⟩ := List.mem_map.mp hmem
    obtain rfl := Except.ok.inj heq
    rcases hms.sideOf hreply with hother | hverdict
    · exact hside (Option.some.inj (habout.symm.trans hother))
    · exact hverdict (verdict_of_side habout)
  · obtain ⟨st, -, heq⟩ := List.mem_map.mp hmem
    cases heq

theorem OneSided.of_prefix (hms : OneSided side ms') (h : ms <+: ms') : OneSided side ms :=
  fun m hm => hms m (h.subset hm)

/-- An Envoy that is cut short has received a verdict. -/
theorem exists_verdict (hreceived : d.task.received = expected p .new (inboundOf d.sent))
    (hlast : ∃ item ∈ d.task.received, item.isLast = true) :
    ∃ w, settled ((server p).replies .new d.sent) = some w := by
  obtain ⟨item, hmem, hlast⟩ := hlast
  rw [isLast_eq] at hlast
  rw [← verdict_expected, ← hreceived]
  exact Option.isSome_iff_exists.mp (List.findSome?_isSome_iff.mpr ⟨item, hmem, hlast⟩)

/-- What Envoy sent decides the exchange, be it all or not. -/
theorem settled_sent (hreq : Carries .request h C ms) (hresp : Carries .response r D ms')
    (hreceived : d.task.received = expected p .new (inboundOf d.sent))
    (hsent : d.sent = ms ++ ms' ∨
      d.sent <+: ms ++ ms' ∧ ∃ item ∈ d.task.received, item.isLast = true) :
    settled ((server p).replies .new d.sent) =
      exchangeVerdict p (h.getD []) C (r.getD []) D := by
  rw [← settled_exchange hreq hresp]
  rcases hsent with hwhole | ⟨⟨unsent, hunsent⟩, hlast⟩
  · rw [hwhole]
  · obtain ⟨w, hw⟩ := exists_verdict hreceived hlast
    have hbegins : (server p).replies .new d.sent <+: (server p).replies .new (ms ++ ms') :=
      hunsent ▸ Machine.replies_prefix
    rw [hw, settled_of_prefix hbegins hw]

/-- Behind a request without a verdict Envoy went on to the response. -/
theorem exists_rest (hreq : Carries .request h C ms)
    (hnone : requestVerdict p (h.getD []) C = none)
    (hreceived : d.task.received = expected p .new (inboundOf d.sent))
    (hsent : d.sent = ms ++ ms' ∨
      d.sent <+: ms ++ ms' ∧ ∃ item ∈ d.task.received, item.isLast = true) :
    ∃ rest, d.sent = ms ++ rest ∧ rest <+: ms' := by
  rcases hsent with hwhole | ⟨hbegins, hlast⟩
  · exact ⟨ms', hwhole, List.prefix_rfl⟩
  · rcases List.prefix_or_prefix_of_prefix hbegins (List.prefix_append ms ms') with
      ⟨unsent, hshort⟩ | ⟨rest, hrest⟩
    · obtain ⟨w, hw⟩ := exists_verdict hreceived hlast
      have hreplies : (server p).replies .new d.sent <+: (server p).replies .new ms :=
        hshort ▸ Machine.replies_prefix
      have hsettled := settled_of_prefix hreplies hw
      rw [request_settled hreq, hnone] at hsettled
      cases hsettled
    · refine ⟨rest, hrest.symm, ?_⟩
      rw [← hrest] at hbegins
      exact (List.prefix_append_right_inj ms).mp hbegins

/-- Envoy and the server, in every order of their steps, make of an exchange what the hooks make of
the whole messages. Wherever neither can go on, Envoy has received the verdict of the first hook
that does not continue, or none; the request it passes on, if the request hooks gave no verdict, is
what they make of it, and so is the response, if no hook gave one, provided that the replies can
tell what the hooks did. -/
theorem dialogue_settled (hK : K.Lawful) (hwindow : 0 < window) (hreq : Carries .request h C ms)
    (hresp : Carries .response r D ms')
    (hreach : Steps.Reaches (DialogueStep p window) (.start (ms ++ ms')) d)
    (hstuck : Steps.Stuck (DialogueStep p window) d) :
    ((Relay.start (h.getD []) C (r.getD []) D : Relay K).receiveAll d.task.received).verdict =
        exchangeVerdict p (h.getD []) C (r.getD []) D ∧
      (requestVerdict p (h.getD []) C = none → ExpressibleRequest p (h.getD []) C →
        ((Relay.start (h.getD []) C (r.getD []) D : Relay K).receiveAll
          d.task.received).passed .request = filteredRequest p (h.getD []) C) ∧
      (exchangeVerdict p (h.getD []) C (r.getD []) D = none → p.EditsInPlace →
        ExpressibleResponse p (filterRequest p (h.getD []) C).1
          (envoyHeadersToRequest K (h.getD [])) (r.getD []) D →
        ((Relay.start (h.getD []) C (r.getD []) D : Relay K).receiveAll
          d.task.received).passed .response =
          filteredResponse p (filterRequest p (h.getD []) C).1
            (envoyHeadersToRequest K (h.getD [])) (r.getD []) D) := by
  obtain ⟨hreceived, hsent⟩ := stuck_received hwindow (reached_sound hreach) hstuck
  have hsettled := settled_sent hreq hresp hreceived hsent
  have hfirst : requestVerdict p (h.getD []) C = none →
      settled ((server p).replies .new ms) = none := (request_settled hreq).trans
  refine ⟨?_, ?_, ?_⟩
  · rw [verdict_receiveAll, hreceived, verdict_expected, hsettled]
    rfl
  · intro hnone hexp
    obtain ⟨rest, hrest, hbegins⟩ := exists_rest hreq hnone hreceived hsent
    rw [hreceived, hrest, expected_append (requestPassed hreq hnone).ok, receiveAll_append,
      passed_expected (hresp.oneSided.of_prefix hbegins) (by decide),
      receiveAll_settled hreq.oneSided (hfirst hnone) rfl, put_passed_self]
    exact request_filtered hK.parseName_pseudo hreq hnone hexp
  · intro hnone hedit hexp
    obtain ⟨hrequest, hresponse⟩ := Option.or_eq_none_iff.mp hnone
    have hpassed := requestPassed hreq hrequest
    have hsecond := (response_settled hpassed.request hpassed.filterState hpassed.done
      hresp).trans hresponse
    have hwhole : d.sent = ms ++ ms' := by
      refine hsent.resolve_right ?_
      rintro ⟨-, hlast⟩
      obtain ⟨w, hw⟩ := exists_verdict hreceived hlast
      rw [hsettled, hnone] at hw
      cases hw
    rw [hreceived, hwhole, expected_append hpassed.ok, receiveAll_append,
      receiveAll_settled hreq.oneSided (hfirst hrequest) rfl, expected_of_settled hsecond,
      receiveAll_settled hresp.oneSided hsecond rfl, put_passed_self, put_passed_of_ne (by decide)]
    exact response_filtered hK hedit hpassed.done hpassed.request hpassed.filterState hresp
      hresponse hexp

end Exchange

section Rewriting

/-- A request and a response with bodies, the request body in two chunks. -/
def taggedScript : List Message :=
  closedStream .request none [[1], [2]] ++ closedStream .response (some upstreamHtml) [[3]]

/-- An Envoy that waits for each reply, and a server that rewrites the request. -/
theorem rewriting_relayed : ∃ d : Dialogue httpCrates,
    Steps.Reaches (DialogueStep rewriting 1) (.start taggedScript) d ∧
      ((Relay.start [] [1, 2] upstreamHtml [3] : Relay httpCrates).receiveAll
        d.task.received).passed .request = filteredRequest rewriting [] [1, 2] ∧
      ((Relay.start [] [1, 2] upstreamHtml [3] : Relay httpCrates).receiveAll
        d.task.received).passed .response =
          filteredResponse rewriting (filterRequest rewriting [] [1, 2]).1 plainRequest
            upstreamHtml [3] := by
  have hreq : Carries .request none [1, 2] (closedStream .request none [[1], [2]]) :=
    @Carries.chunked _ _ [[1], [2]] (List.cons_ne_nil _ _) (by decide)
  have hresp : Carries .response (some upstreamHtml) [3]
      (closedStream .response (some upstreamHtml) [[3]]) :=
    @Carries.chunked _ _ [[3]] (List.cons_ne_nil _ _) (by decide)
  obtain ⟨d, hreach, hstuck⟩ := Steps.exists_stuck
    (fun a d d' (hstep : DialogueStep rewriting 1 a d d') => hstep.rank_lt) (.start taggedScript)
  have hsettled := dialogue_settled httpCrates_lawful Nat.one_pos hreq hresp hreach hstuck
  exact ⟨d, hreach, hsettled.2.1 rfl rewriting_expressibleRequest,
    hsettled.2.2 rfl rewriting_editsInPlace rewriting_expressibleResponse⟩

end Rewriting

end ExtProc
