import ExtProc.Machine
import ExtProc.Server

/-! A stream: messages handled one after another until one fails. -/
namespace ExtProc

open Exec (exec)
open Utf8 (Bytes)

variable {K : Crates}

/-- What handling one message shows: the replies or the status that ends the stream, and the
hook calls and counter increments in order. -/
structure Outcome (K : Crates) where
  replies : Except Status (List ProcessingResponse)
  log : List (Event K)

def runHandler (x : Handler K (List ProcessingResponse)) (s : StreamState K) :
    Outcome K × StreamState K :=
  let ran := exec x ⟨s, []⟩
  ({ replies := ran.1, log := ran.2.log }, ran.2.state)

def handle (p : FilterPipeline K) (s : StreamState K) (m : Message) : Outcome K × StreamState K :=
  runHandler (dispatchRequest p m) s

/-- The stream as a machine; a status ends it. -/
def server (p : FilterPipeline K) : Machine (StreamState K) Message (Outcome K) where
  step := handle p
  fails o := !o.replies.isOk

theorem server_ok_of_replies {p : FilterPipeline K} {o : Outcome K}
    {replies : List ProcessingResponse} (ho : o.replies = .ok replies) :
    (server p).fails o = false := by
  simp [server, ho, Except.isOk, Except.toBool]

theorem server_fails_of_status {p : FilterPipeline K} {o : Outcome K} {st : Status}
    (ho : o.replies = .error st) : (server p).fails o = true := by
  simp [server, ho, Except.isOk, Except.toBool]

section Step
variable {p : FilterPipeline K} {s s' : StreamState K} {m : Message} {ms : List Message}
  {o : Outcome K} {replies : List ProcessingResponse} {st : Status}

/-- A message that is answered: the stream goes on in the state it left. -/
theorem replies_of_answered (hstep : handle p s m = (o, s')) (ho : o.replies = .ok replies) :
    (server p).replies s (m :: ms) = o :: (server p).replies s' ms := by
  have hturn : (server p).step s m = (o, s') := hstep
  have hgoes : (server p).fails ((server p).step s m).1 = false := by
    simpa only [hturn] using server_ok_of_replies ho
  have hreplies : (server p).replies s (m :: ms) = ((server p).step s m).1 ::
      (server p).replies ((server p).step s m).2 ms := Machine.replies_cons hgoes
  simpa only [hturn] using hreplies

theorem final_of_answered (hstep : handle p s m = (o, s')) (ho : o.replies = .ok replies) :
    (server p).final s (m :: ms) = (server p).final s' ms := by
  have hturn : (server p).step s m = (o, s') := hstep
  have hgoes : (server p).fails ((server p).step s m).1 = false := by
    simpa only [hturn] using server_ok_of_replies ho
  have hfinal : (server p).final s (m :: ms) =
      (server p).final ((server p).step s m).2 ms := Machine.final_cons hgoes
  simpa only [hturn] using hfinal

/-- A message that fails is the last one. -/
theorem replies_of_refused (hstep : handle p s m = (o, s')) (ho : o.replies = .error st) :
    (server p).replies s (m :: ms) = [o] := by
  have hturn : (server p).step s m = (o, s') := hstep
  have hstops : (server p).fails ((server p).step s m).1 = true := by
    simpa only [hturn] using server_fails_of_status ho
  have hreplies : (server p).replies s (m :: ms) = [((server p).step s m).1] :=
    Machine.replies_cons_of_fails hstops
  simpa only [hturn] using hreplies

end Step

/-- One handled message. -/
abbrev Turn (K : Crates) := Machine.Turn (StreamState K) Message (Outcome K)

def Event.call? : Event K → Option (HookCall K)
  | .hook call => some call
  | .recordImmediateResponse => none

/-- The hooks invoked, in order. -/
def callsOf (log : List (Event K)) : List (HookCall K) := log.filterMap Event.call?

def Outcome.calls (o : Outcome K) : List (HookCall K) := callsOf o.log

@[simp] theorem callsOf_nil : callsOf ([] : List (Event K)) = [] := rfl
@[simp] theorem callsOf_hook (c : HookCall K) (log : List (Event K)) :
    callsOf (.hook c :: log) = c :: callsOf log := rfl
@[simp] theorem callsOf_record (log : List (Event K)) :
    callsOf (.recordImmediateResponse :: log) = callsOf log := rfl
@[simp] theorem callsOf_append (log log' : List (Event K)) :
    callsOf (log ++ log') = callsOf log ++ callsOf log' := List.filterMap_append
@[simp] theorem calls_mk (replies : Except Status (List ProcessingResponse))
    (log : List (Event K)) : Outcome.calls ⟨replies, log⟩ = callsOf log := rfl

/-- The hooks a stream invoked, in order. -/
def invoked (os : List (Outcome K)) : List (HookCall K) := os.flatMap Outcome.calls

def Outcome.sent (o : Outcome K) : List ProcessingResponse :=
  match o.replies with
  | .ok replies => replies
  | .error _ => []

/-- The replies a stream got, in order. -/
def sent (os : List (Outcome K)) : List ProcessingResponse := os.flatMap Outcome.sent

section Transcripts
variable {o : Outcome K}

@[simp] theorem invoked_nil : invoked ([] : List (Outcome K)) = [] := rfl
@[simp] theorem invoked_cons (os : List (Outcome K)) :
    invoked (o :: os) = o.calls ++ invoked os := rfl
@[simp] theorem invoked_append (os os' : List (Outcome K)) :
    invoked (os ++ os') = invoked os ++ invoked os' := List.flatMap_append
@[simp] theorem sent_mk (replies : List ProcessingResponse) (log : List (Event K)) :
    Outcome.sent ⟨.ok replies, log⟩ = replies := rfl
@[simp] theorem sent_nil : sent ([] : List (Outcome K)) = [] := rfl
@[simp] theorem sent_cons (os : List (Outcome K)) : sent (o :: os) = o.sent ++ sent os := rfl
@[simp] theorem sent_append (os os' : List (Outcome K)) :
    sent (os ++ os') = sent os ++ sent os' := List.flatMap_append

end Transcripts

def headersMessage (side : Side) (headers : HttpHeaders) : Message :=
  match side with
  | .request => .requestHeaders headers
  | .response => .responseHeaders headers

def bodyMessage (side : Side) (body : HttpBody) : Message :=
  match side with
  | .request => .requestBody body
  | .response => .responseBody body

def trailersMessage (side : Side) (trailers : HttpTrailers) : Message :=
  match side with
  | .request => .requestTrailers trailers
  | .response => .responseTrailers trailers

def trailersReply : Side → ProcessingResponse
  | .request => Reply.requestTrailers
  | .response => Reply.responseTrailers

/-- The messages of a body that goes on behind them. -/
def openMessages (side : Side) (chunks : List Bytes) : List Message :=
  chunks.map fun c => bodyMessage side { body := c, endOfStream := false }

/-- The messages of a whole body: the last one, and no other, ends the stream. -/
def bodyMessages (side : Side) : List Bytes → List Message
  | [] => []
  | [c] => [bodyMessage side { body := c, endOfStream := true }]
  | c :: cs => bodyMessage side { body := c, endOfStream := false } :: bodyMessages side cs

/-- Headers and a body that its last chunk ends. -/
def closedStream (side : Side) (headers : Option (List HeaderValue)) (chunks : List Bytes) :
    List Message :=
  headersMessage side { headers := headers, endOfStream := false } :: bodyMessages side chunks

/-- Headers and a body that trailers end. -/
def trailedStream (side : Side) (headers : Option (List HeaderValue)) (chunks : List Bytes)
    (trailers : HttpTrailers) : List Message :=
  headersMessage side { headers := headers, endOfStream := false } ::
    (openMessages side chunks ++ [trailersMessage side trailers])

theorem bodyMessages_append (side : Side) (cs : List Bytes) (c : Bytes) :
    bodyMessages side (cs ++ [c]) =
      openMessages side cs ++ [bodyMessage side { body := c, endOfStream := true }] := by
  induction cs with
  | nil => rfl
  | cons d cs ih =>
    cases cs with
    | nil => rfl
    | cons e cs => simpa [bodyMessages, openMessages] using ih

end ExtProc
