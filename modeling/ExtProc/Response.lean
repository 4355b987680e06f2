import ExtProc.Types
import ExtProc.WhileLoop

/-! Builders for `ProcessingResponse` messages, and the chunking of bodies. -/
namespace ExtProc.Reply

open Utf8 (Bytes)

def requestHeaders (mutation : Option HeaderMutation) : ProcessingResponse where
  response := some (.requestHeaders
    { response := some { status := .«continue», headerMutation := mutation } })

def responseHeaders (mutation : Option HeaderMutation) : ProcessingResponse where
  response := some (.responseHeaders
    { response := some { status := .«continue», headerMutation := mutation } })

/-- A body mutation that replaces the body by the given bytes. -/
def makeBodyMutation (data : Bytes) : BodyMutation where
  mutation := some (.body data)

def wrapBodyResponse (common : CommonResponse) (isRequest : Bool) : ProcessingResponse where
  response := some <|
    if isRequest then .requestBody { response := some common }
    else .responseBody { response := some common }

def bodyResponses (body : Option Bytes) (mutation : Option HeaderMutation) (isRequest : Bool) :
    List ProcessingResponse :=
  let bodyMutation := (body.filter fun b => !b.isEmpty).map makeBodyMutation
  let common : CommonResponse :=
    { status := .«continue», headerMutation := mutation, bodyMutation := bodyMutation }
  [wrapBodyResponse common isRequest]

def requestBody (body : Option Bytes) (mutation : Option HeaderMutation) :
    List ProcessingResponse :=
  bodyResponses body mutation true

def responseBody (body : Option Bytes) (mutation : Option HeaderMutation) :
    List ProcessingResponse :=
  bodyResponses body mutation false

def requestTrailers : ProcessingResponse where
  response := some (.requestTrailers { headerMutation := none })

def responseTrailers : ProcessingResponse where
  response := some (.responseTrailers { headerMutation := none })

def immediate (imm : ImmediateResponse) : ProcessingResponse where
  response := some (.immediateResponse imm)

/-- `BODY_CHUNK_LIMIT`, 62 KiB. -/
def bodyChunkLimit : Nat := 63488

/-- `slice::get` with a range, which refuses a range out of bounds. -/
def sliceGet (data : Bytes) (start stop : Nat) : Option Bytes :=
  if start ≤ stop ∧ stop ≤ data.length then some ((data.drop start).take (stop - start)) else none

/-- The variables of the loop of `chunk_body`. -/
structure Chunking where
  chunks : List (Bytes × Bool)
  offset : Nat

/-- The end of the range that starts at the offset. -/
def chunkEnd (data : Bytes) (offset : Nat) : Nat := min (offset + bodyChunkLimit) data.length

/-- One pass of the loop of `chunk_body`. -/
def chunkStep (data : Bytes) (c : Chunking) : Chunking :=
  let stop := chunkEnd data c.offset
  let eos := stop == data.length
  let chunks := match sliceGet data c.offset stop with
    | some slice => c.chunks ++ [(slice, eos)]
    | none => c.chunks
  { chunks := chunks, offset := stop }

def chunkLoop (data : Bytes) : WhileLoop Chunking where
  guard c := c.offset < data.length
  body := chunkStep data
  measure c := data.length - c.offset
  decreases := by
    intro c hc
    have hlt : c.offset < data.length := of_decide_eq_true hc
    simp only [chunkStep, chunkEnd, bodyChunkLimit]
    omega

def chunkBody (data : Bytes) : List (Bytes × Bool) :=
  if data.isEmpty then [(data, true)]
  else ((chunkLoop data).run { chunks := [], offset := 0 }).chunks

end ExtProc.Reply
