import ExtProc.Stream

/-! The stream loop: inbound items in, replies out on a channel whose consumer may close it. -/
namespace ExtProc

open Exec (Prog exec exec_bind)

variable {K : Crates}

structure ProcessingRequest where
  request : Option Message
  deriving DecidableEq, Repr

/-- An item of the inbound stream; a transport error is the text it prints. -/
abbrev Inbound := Except String ProcessingRequest

/-- An item of the reply channel. -/
abbrev Outbound := Except Status ProcessingResponse

/-- What happens on a stream, in order. -/
inductive LoopEvent (K : Crates) where
  | handler (event : Event K)
  | put (item : Outbound)
  | foundClosed
  | recordRequest

/-- The stream state, how many items the channel takes before its consumer closes it (`none` when
it stays open), and what happened so far. -/
structure Session (K : Crates) where
  state : StreamState K
  room : Option Nat
  log : List (LoopEvent K)

abbrev Loop (K : Crates) (α : Type) := Prog (Session K) Status α

namespace Loop

def get : Loop K (Session K) := MonadState.get

def modify (f : Session K → Session K) : Loop K Unit := modifyThe (Session K) f

def emit (e : LoopEvent K) : Loop K Unit := modify fun w => { w with log := w.log ++ [e] }

/-- `tx.send(item).await`, and whether the channel took the item. -/
def send (item : Outbound) : Loop K Bool := do
  match (← get).room with
  | some 0 =>
    emit .foundClosed
    return false
  | some (n + 1) =>
    modify fun w => { w with room := some n }
    emit (.put item)
    return true
  | none =>
    emit (.put item)
    return true

/-- A handler, run on the stream state. -/
def handle {α : Type} (x : Handler K α) : Loop K α := do
  let w ← get
  let ran := exec x ⟨w.state, []⟩
  modify fun w => { w with state := ran.2.state, log := w.log ++ ran.2.log.map .handler }
  match ran.1 with
  | .ok a => return a
  | .error e => throw e

end Loop

/-- The loop over the replies to one message; it stops when the channel is closed. -/
def sendResponses : List ProcessingResponse → Loop K Bool
  | [] => return true
  | resp :: responses => do
    if ← Loop.send (.ok resp) then sendResponses responses
    else return false

def processMessages (pipeline : FilterPipeline K) : List Inbound → Loop K Unit
  | [] => return
  | .error e :: _ => throw (Status.internal e)
  | .ok msg :: inbound =>
    match msg.request with
    | none => processMessages pipeline inbound
    | some req => do
      let responses ← Loop.handle (dispatchRequest pipeline req)
      if ← sendResponses responses then processMessages pipeline inbound

def handleStream (pipeline : FilterPipeline K) (inbound : List Inbound) : Loop K Unit := do
  Loop.modify fun w => { w with state := .new }
  let result ← tryCatch (Except.ok <$> processMessages pipeline inbound) fun e =>
    pure (Except.error e)
  Loop.emit .recordRequest
  match result with
  | .ok () => return
  | .error e => throw e

/-- The task that `process` spawns; a status is reported as the last item. -/
def process (pipeline : FilterPipeline K) (inbound : List Inbound) : Loop K Unit :=
  tryCatch (handleStream pipeline inbound) fun e => do
    let _ ← Loop.send (.error e)

section Exec
variable {w : Session K}

@[simp] theorem exec_loopGet : exec Loop.get w = (.ok w, w) := rfl

@[simp] theorem exec_loopModify (f : Session K → Session K) :
    exec (Loop.modify f) w = (.ok (), f w) := rfl

@[simp] theorem exec_loopEmit (e : LoopEvent K) :
    exec (Loop.emit e) w = (.ok (), { w with log := w.log ++ [e] }) := rfl

/-- A message on the stream state, as the machine of the stream handles it. -/
theorem exec_loopHandle (p : FilterPipeline K) (m : Message) :
    exec (Loop.handle (dispatchRequest p m)) w =
      ((handle p w.state m).1.replies,
        { w with
          state := (handle p w.state m).2
          log := w.log ++ (handle p w.state m).1.log.map .handler }) := by
  simp only [Loop.handle, exec_bind, exec_loopGet, exec_loopModify, handle, runHandler]
  cases (exec (dispatchRequest p m) ⟨w.state, []⟩).1 <;> rfl

end Exec

end ExtProc
