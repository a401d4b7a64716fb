import GrpcLite.Client.Stream

/-!
# The operations of a client stream

What an application does with a `ClientStream`, from any thread and from inside the stream's
callbacks.  Each operation works under the stream's mutex and wakes the channel's event loop.  A
send encodes its frame between two critical sections, so it is two actions here and any other
action may come between them.
-/

namespace GrpcLite.Client

open Prog

inductive StreamError where
  | streamClosed
  | sendClosed
  | messageTooLarge
  | compressionNotConfigured
  | outboundBufferLimitExceeded
  | wouldBlock
  | bufferLimitExceeded
  | frame (err : FrameError)
  | outOfMemory
  | nativeFailure
  | callbackFailure
  | deadlineCancellationFailed
  deriving DecidableEq, Repr

inductive AppAction where
  | sendBegin (payload : Bytes) (compression : Compression)
  | sendCommit (index : ℕ)
  | closeSend
  | cancel
  | resumeReceive
  | release
  deriving DecidableEq, Repr

/-- One run of a callback: what is done on the stream while it runs and what it returns. -/
structure HandlerRun where
  actions : List AppAction := []
  action : ReceiveAction := .continueReceiving
  deriving DecidableEq, Repr

/-- The choices of the environment still to come: whether each fallible external call fails, what
other threads do whenever the loop takes the stream's mutex, and the callbacks.  A list that is
used up answers with no failure, no action and `otherwise`. -/
structure Env where
  faults : List Bool := []
  others : List (List AppAction) := []
  callbacks : List HandlerRun := []
  otherwise : HandlerRun := {}
  deriving DecidableEq, Repr

inductive Callback where
  | headers (initial : List Entry)
  | message (payload : Bytes) (compression : Compression)
  | remoteEnd
  | writable
  | terminal (outcome : Outcome) (trailing : List Entry)
  deriving DecidableEq, Repr

def Callback.isTerminal : Callback → Bool
  | .terminal _ _ => true
  | _ => false

/-- What happens in the life of the stream: a callback starts, the application releases its
handle, from inside a callback or not, the loop gives up ownership, and the record is freed. -/
inductive Mark where
  | callback (kind : Callback)
  | released (inside : Bool)
  | loopReleased
  | destroyed
  deriving DecidableEq, Repr

namespace Mark

def isCallback : Mark → Bool
  | .callback _ => true
  | _ => false

def isTerminal : Mark → Bool
  | .callback kind => kind.isTerminal
  | _ => false

def isReleased : Mark → Bool
  | .released _ => true
  | _ => false

def message : Mark → Option Bytes
  | .callback (.message payload _) => some payload
  | _ => none

end Mark

/-- What has happened on the stream.  `accepted` are the frames of accepted sends, `sendClosed` says
that `clientStreamCloseSend` was accepted, `produced` are the bytes handed to nghttp2, `received`
the bytes of its DATA frames, `refused` says that the decoder refused a chunk, `callbackFailed` that
a callback for one of its frames failed, and `decoded` are the messages it decoded.  `cancelledAt`
counts the messages delivered when the first cancel took effect, `sweeps` lists the outcome recorded
so far whenever the end of the connection ends the stream, and `overtaking` what other threads do
between the two checks that precede the delivery of the last queued message of a closed stream. -/
structure Log where
  marks : List Mark := []
  accepted : List Bytes := []
  sendClosed : Bool := false
  produced : Bytes := []
  received : Bytes := []
  refused : Bool := false
  callbackFailed : Bool := false
  decoded : List Bytes := []
  connectionCredit : ℕ := 0
  streamCredit : ℕ := 0
  cancelledAt : Option ℕ := none
  sweeps : List (Option Status) := []
  overtaking : List AppAction := []
  woken : Bool := false
  deriving DecidableEq, Repr

def Log.delivered (log : Log) : List Bytes := log.marks.filterMap Mark.message

/-- One client stream with the parts of its channel that it uses.  `registered` says that
`stream_states` has the stream and `mapped` that `streams` has it under its id, and `reconnect`
is `allow_initial_offline` of the reconnect options, if there are any. -/
structure World where
  stream : ClientStreamState
  registered : Bool := true
  mapped : Bool := false
  connection : ConnectionState := .active
  stopping : Bool := false
  reconnect : Option Bool := none
  everActive : Bool := true
  maxResponseHeaderListSize : ℕ := 64 * 1024
  sending : List (Bytes × Compression) := []
  inCallback : Bool := false
  gzip : Gzip
  env : Env := {}
  log : Log := {}

abbrev ClientM := EStateM StreamError World

def modifyStream (f : ClientStreamState → ClientStreamState) : ClientM Unit :=
  modify fun w => { w with stream := f w.stream }

def modifyLog (f : Log → Log) : ClientM Unit :=
  modify fun w => { w with log := f w.log }

def mark (event : Mark) : ClientM Unit :=
  modifyLog fun log => { log with marks := log.marks ++ [event] }

/-- Whether the next fallible external call fails. -/
def drawFault : ClientM Bool := do
  match (← get).env.faults with
  | [] => pure false
  | fails :: rest =>
    modify fun w => { w with env := { w.env with faults := rest } }
    pure fails

/-- A fallible external call: an allocation or a call into nghttp2. -/
def external (error : StreamError) : ClientM Unit := do
  let fails ← drawFault
  ensure (¬fails) error

/-- The wake list has the stream only while the loop owns it. -/
def wakeClientStreamLocked : ClientM Unit := do
  let w ← get
  when (w.stream.loopOwned ∧ w.registered) <|
    modifyStream fun s => { s with wakeQueued := true }

/-- The check that opens the critical sections of the operations. -/
def checkOpenLocked : ClientM Unit := do
  let s := (← get).stream
  ensure (s.loopOwned ∧ s.appOwned ∧ ¬s.appReleased ∧ ¬s.cancelRequested ∧ ¬s.terminal)
    .streamClosed

def checkSendLocked : ClientM Unit := do
  checkOpenLocked
  ensure (← get).stream.sendOpen .sendClosed

def checkOutboundCapacityLocked (encodedSize : ℕ) : ClientM Unit := do
  let s := (← get).stream
  ensure (encodedSize ≤ s.limits.maxOutboundBufferSize) .outboundBufferLimitExceeded
  when (s.limits.maxOutboundBufferSize - s.outboundBuffered < encodedSize) do
    modifyStream fun s => { s with backpressureRequested := true }
    throw .wouldBlock

def sendBegin (payload : Bytes) (compression : Compression) : ClientM Unit := do
  let w ← get
  ensure (payload.length ≤ w.stream.limits.maxMessageSize) .messageTooLarge
  ensure (compression = .identity ∨ compression = w.stream.requestCompression)
    .compressionNotConfigured
  checkSendLocked
  when (compression = .identity) <|
    match checkedAdd payload.length Frame.headerSize with
    | none => throw .messageTooLarge
    | some encodedSize => checkOutboundCapacityLocked encodedSize
  external .outOfMemory
  match Frame.encodeWithCompression w.gzip payload compression with
  | .error err => throw (.frame err)
  | .ok encoded => modify fun w => { w with sending := w.sending ++ [(encoded, compression)] }

/-- `clientStreamSend` from the second time it takes the mutex. -/
def sendCommit (encoded : Bytes) : ClientM Unit := do
  checkSendLocked
  checkOutboundCapacityLocked encoded.length
  external .outOfMemory
  modify fun w => { w with
    stream := { w.stream with
      outbound := w.stream.outbound ++ [{ frameBytes := encoded }]
      outboundBuffered := w.stream.outboundBuffered + encoded.length }
    log := { w.log with accepted := w.log.accepted ++ [encoded] } }
  wakeClientStreamLocked

def clientStreamCloseSend : ClientM Unit := do
  checkSendLocked
  modify fun w => { w with
    stream := { w.stream with sendOpen := false }
    log := { w.log with sendClosed := true } }
  wakeClientStreamLocked

def clientStreamCancel : ClientM Unit := do
  let s := (← get).stream
  when (s.loopOwned ∧ s.appOwned ∧ ¬s.appReleased ∧ ¬s.terminal) do
    modify fun w => { w with
      stream := { w.stream with cancelRequested := true }
      log := { w.log with
        cancelledAt := some (w.log.cancelledAt.getD w.log.delivered.length) } }
    wakeClientStreamLocked

def clientStreamResumeReceive : ClientM Unit := do
  checkOpenLocked
  modifyStream fun s => { s with resumeRequested := true }
  wakeClientStreamLocked

def destroy : ClientM Unit := mark .destroyed

/-- A release by another thread than the loop's waits until no callback runs. -/
def clientStreamRelease (inside : Bool) : ClientM Unit := do
  when (inside ∨ ¬(← get).inCallback) do
    let loopOwned := (← get).stream.loopOwned
    modifyStream fun s => { s with appOwned := false, appReleased := true, cancelRequested := true }
    mark (.released inside)
    when loopOwned wakeClientStreamLocked
    when (¬loopOwned) destroy

def appAction (inside : Bool) : AppAction → ClientM Unit
  | .sendBegin payload compression => sendBegin payload compression
  | .sendCommit index => do
    match (← get).sending[index]? with
    | none => pure ()
    | some send =>
      modify fun w => { w with sending := w.sending.eraseIdx index }
      sendCommit send.1
  | .closeSend => clientStreamCloseSend
  | .cancel => clientStreamCancel
  | .resumeReceive => clientStreamResumeReceive
  | .release => clientStreamRelease inside

/-- One operation of an application that still has its handle; a failed one leaves its caller an
error. -/
def perform (inside : Bool) (action : AppAction) : ClientM Unit := do
  when (← get).stream.appOwned (tryCatch (appAction inside action) fun _ => pure ())

def performAll (inside : Bool) : List AppAction → ClientM Unit
  | [] => pure ()
  | action :: rest => do
    perform inside action
    performAll inside rest

/-- The loop takes the stream's mutex: other threads may have acted before. -/
def lock : ClientM Unit := do
  match (← get).env.others with
  | [] => pure ()
  | next :: rest =>
    modify fun w => { w with env := { w.env with others := rest } }
    performAll false next

def runCallback (kind : Callback) : ClientM ReceiveAction := do
  mark (.callback kind)
  modify fun w => { w with inCallback := true }
  let env := (← get).env
  let run := env.callbacks.headD env.otherwise
  modify fun w => { w with env := { w.env with callbacks := w.env.callbacks.tail } }
  performAll true run.actions
  modify fun w => { w with inCallback := false }
  pure run.action

end GrpcLite.Client
