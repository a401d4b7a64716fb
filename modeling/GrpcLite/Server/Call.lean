import GrpcLite.Server.Stream

/-!
# The command interface of a server call

The thread-safe operations that an application performs on one streaming call through a retained
`ServerCall` or a borrowed `ServerStream`.  Each one checks the stream under the server lock and
appends a command that the reactor carries out later.  A send encodes its frame between two
critical sections, so it is two actions here and any other action may come between them.
-/

namespace GrpcLite.Server

open Prog

inductive CommandAction where
  | initialMetadata (entries : List Entry) (compression : Compression)
  | send (bytes : Bytes)
  | finish (status : Status) (trailing : Option (List Entry))
  | resumeReceive
  deriving DecidableEq, Repr

def CommandAction.isInitialMetadata : CommandAction → Bool
  | .initialMetadata _ _ => true
  | _ => false

def CommandAction.isSend : CommandAction → Bool
  | .send _ => true
  | _ => false

def CommandAction.isFinish : CommandAction → Bool
  | .finish _ _ => true
  | _ => false

inductive CallError where
  | callClosed
  | streamFinished
  | initialMetadataRequired
  | initialMetadataNotExplicit
  | initialMetadataAlreadySent
  | compressionNotAccepted
  | responseCompressionNotEnabled
  | outboundBufferLimitExceeded
  | wouldBlock
  | messageTooLarge
  | receiveNotPaused
  | invalidMetadataKey
  | invalidMetadataValue
  | outOfMemory
  | notifyFailed
  | nativeFailure
  | callbackFailure
  deriving DecidableEq, Repr

inductive Handle where
  | retained
  | borrowed
  deriving DecidableEq, Repr

/-- An operation of the application on the call, or on the context a handler callback is given. -/
inductive AppAction where
  | sendBegin (handle : Handle) (payload : Bytes) (compression : Compression)
  | sendCommit (index : ℕ)
  | sendInitialMetadata (entries : List Entry) (compression : Compression)
  | callFinish (status : Status) (trailing : List Entry)
  | streamFinish (status : Status)
  | resumeReceive (handle : Handle)
  | abort
  | contextCompression (compression : Compression)
  | contextInitialMetadata (entry : Entry)
  | contextTrailingMetadata (entry : Entry)
  deriving DecidableEq, Repr

structure SendInProgress where
  handle : Handle
  encoded : Bytes
  compression : Compression
  deriving DecidableEq, Repr

/-- One run of a handler callback: what it does and how it returns. -/
structure HandlerRun where
  actions : List AppAction := []
  fails : Bool := false
  action : ReceiveAction := .continueReceiving
  deriving DecidableEq, Repr

/-- The choices of the environment still to come: whether each fallible external call fails,
what other threads do whenever the reactor takes the server lock, whether a command of another
stream closes the connection before the next command of this one, and the handler's callbacks.
A list that is used up answers with no failure, no action and `otherwise`. -/
structure Env where
  faults : List Bool := []
  others : List (List AppAction) := []
  interrupts : List Bool := []
  callbacks : List HandlerRun := []
  otherwise : HandlerRun := {}
  deriving DecidableEq, Repr

inductive Callback where
  | start
  | message (payload : Bytes)
  | remoteEnd
  | writable
  | cancel
  | terminal
  deriving DecidableEq, Repr

/-- What passes between the call and its application: an operation with its error, if any, a
callback, or that one of the flags was set that `isCancelled` and `isTerminal` read. -/
inductive Exchange where
  | operation (action : AppAction) (error : Option CallError)
  | callback (kind : Callback)
  | cancelled
  | terminal
  deriving DecidableEq, Repr

inductive StatusOrigin where
  | initial
  | finish
  | failure
  deriving DecidableEq, Repr

/-- The trailers handed to nghttp2, with the DATA bytes handed over before them. -/
structure Trailers where
  status : Status
  metadata : List Entry
  origin : StatusOrigin
  sentBefore : Bytes
  deriving DecidableEq, Repr

inductive ResetCode where
  | internalError
  | cancel
  deriving DecidableEq, Repr

/-- An accepted send, with the encoding of the response headers submitted before it. -/
structure AcceptedSend where
  frame : Bytes
  compression : Compression
  headers : Option Compression
  deriving DecidableEq, Repr

/-- Where trailing metadata comes from: an entry list given to `finish`, or the context. -/
inductive TrailerSource where
  | given
  | context
  deriving DecidableEq, Repr

/-- An event that ends the call and copies trailing metadata for its trailers.  `context` is what
the context holds then, and `complete` says that all the entries were copied. -/
structure Termination where
  event : StatusOrigin
  source : TrailerSource
  entries : List Entry
  context : List Entry
  complete : Bool
  deriving DecidableEq, Repr

/-- What has happened on the call: the frames of accepted sends in acceptance order, how many of
them an accepted finish follows, the trailing metadata that the handler has set, in order, the
frames handed over completely, the DATA bytes handed over, and what was submitted to nghttp2.
`cut` says that a deadline has expired inside a frame.  `failure` is a response without messages to
a request that was refused.  `received` are the request bytes, the credits what nghttp2 was told to
give back for them, and `callbackFailed` says that a callback of nghttp2 has failed. -/
structure Log where
  exchanges : List Exchange := []
  accepted : List Bytes := []
  sends : List AcceptedSend := []
  finishAccepted : Option ℕ := none
  trailingSet : List (TrailerSource × Entry) := []
  terminations : List Termination := []
  completed : List Bytes := []
  sent : Bytes := []
  cut : Bool := false
  headers : Option (Compression × List Entry) := none
  failure : Option Status := none
  trailers : Option Trailers := none
  reset : Option ResetCode := none
  received : Bytes := []
  connectionCredit : ℕ := 0
  streamCredit : ℕ := 0
  callbackFailed : Bool := false
  deriving DecidableEq, Repr

/-- What must not happen: an unsigned counter falls below zero, a connection is gone while a command
still refers to its stream, a command is carried out for a stream that was destroyed, or a stream is
destroyed a second time, before it was retired or while commands refer to it. -/
inductive Violation where
  | reservation
  | gauge
  | references
  | referencedAtClose
  | usedAfterDestroy
  | destroyed
  deriving DecidableEq, Repr

/-- One stream with the parts of its connection and reactor that it uses.  `commands` are the
stream's commands in `stream_commands` and `batch` those of a swapped-out batch that are not yet
carried out.  `registered` says that the connection's map has the stream, `closing` and `session`
belong to the connection and `shutdown` says that the server was asked to stop.  `gauge` is the
reactor's gauge of reserved bytes, and `destroyed` counts how often the stream was destroyed. -/
structure World where
  stream : Stream := {}
  commands : List CommandAction := []
  batch : List CommandAction := []
  sending : List SendInProgress := []
  registered : Bool := true
  closing : Bool := false
  session : Bool := true
  shutdown : Bool := false
  limits : BufferLimits := {}
  maxRequestSize : ℕ := 4 * 1024 * 1024
  gzip : Gzip
  gauge : ℕ := 0
  destroyed : ℕ := 0
  violations : List Violation := []
  env : Env := {}
  origin : StatusOrigin := .initial
  log : Log := {}

def World.contextTrailing (w : World) : List Entry :=
  (w.stream.streaming.map (·.context.trailingMetadata)).getD []

/-- The violation, unless the condition holds that excludes it. -/
def violation (ok : Prop) [Decidable ok] (kind : Violation) : List Violation :=
  if ok then [] else [kind]

/-- The reservation of `length` bytes, in the stream and in the gauge. -/
def World.reserve (w : World) (length : ℕ) : World :=
  { w with
    stream := { w.stream with
      outboundReservedBytes := w.stream.outboundReservedBytes + length }
    gauge := w.gauge + length }

def World.unreserve (w : World) (length : ℕ) : World :=
  { w with
    stream := { w.stream with
      outboundReservedBytes := w.stream.outboundReservedBytes - length }
    gauge := w.gauge - length
    violations := w.violations ++
      violation (length ≤ w.stream.outboundReservedBytes) .reservation ++
      violation (length ≤ w.gauge) .gauge }

theorem World.unreserve_reserve (w : World) (length : ℕ) :
    (w.reserve length).unreserve length = w := by
  simp [World.reserve, World.unreserve, violation]

/-- `count` commands of the stream are dropped. -/
def World.unreference (w : World) (count : ℕ) : World :=
  { w with
    stream := { w.stream with commandRefs := w.stream.commandRefs - count }
    violations := w.violations ++ violation (count ≤ w.stream.commandRefs) .references }

abbrev CallM := EStateM CallError World

def modifyStream (f : Stream → Stream) : CallM Unit :=
  modify fun w => { w with stream := f w.stream }

/-- A fallible external call: an allocation, a notification or a call into nghttp2. -/
def external (error : CallError) : CallM Unit := do
  match (← get).env.faults with
  | [] => pure ()
  | fails :: rest =>
    modify fun w => { w with env := { w.env with faults := rest } }
    ensure (¬fails) error

variable {w : World} {Q : Unit → World → Prop} {E : CallError → World → Prop}

theorem external_wp {error : CallError}
    (hok : ∀ faults, Q () { w with env := { w.env with faults := faults } })
    (hfail : ∀ faults, E error { w with env := { w.env with faults := faults } }) :
    wp (external error) Q E w := by
  unfold external
  rw [wp_get_bind]
  split
  · exact hok w.env.faults
  · rw [wp_modify_bind, wp_ensure]
    exact ⟨fun _ => hok _, fun _ => hfail _⟩

def enqueueStreamCommandLocked (command : CommandAction) : CallM Unit := do
  let notify := (← get).commands.isEmpty
  external .outOfMemory
  modify fun w => { w with
    commands := w.commands ++ [command]
    stream := { w.stream with commandRefs := w.stream.commandRefs + 1 } }
  when notify <| tryCatch (external .notifyFailed) fun err => do
    modify fun w => { w.unreference 1 with commands := w.commands.dropLast }
    throw err

theorem enqueueStreamCommandLocked_wp {command : CommandAction} (hok : ∀ faults, Q () { w with
      commands := w.commands ++ [command]
      stream := { w.stream with commandRefs := w.stream.commandRefs + 1 }
      env := { w.env with faults := faults } })
    (hfail : ∀ error faults, error ≠ .wouldBlock →
      E error { w with env := { w.env with faults := faults } }) :
    wp (enqueueStreamCommandLocked command) Q E w := by
  unfold enqueueStreamCommandLocked
  rw [wp_get_bind, wp_bind]
  refine external_wp (fun faults => ?_) (fun faults => hfail _ faults nofun)
  rw [wp_modify_bind, wp_when]
  refine ⟨fun _ => ?_, fun _ => hok faults⟩
  rw [wp_tryCatch]
  refine external_wp (fun faults' => hok faults') (fun faults' => ?_)
  rw [wp_modify_bind, wp_throw]
  have hrolledBack := hfail .notifyFailed faults' nofun
  simpa [World.unreference, violation] using hrolledBack

def cloneMetadata : List Entry → CallM Unit
  | [] => pure ()
  | entry :: rest => do
    ensure (isApplicationKey entry.key) .invalidMetadataKey
    ensure (isBinaryKey entry.key || isValidAsciiValue entry.value) .invalidMetadataValue
    external .outOfMemory
    cloneMetadata rest

def serverCallSendInitialMetadata (entries : List Entry) (compression : Compression) :
    CallM Unit := do
  cloneMetadata entries
  let target := (← get).stream
  ensure (target.streamingActive ∧ ¬target.finishQueued ∧ ¬target.transportClosed) .callClosed
  ensure ((target.streaming.map (·.handler.initialMetadataMode)) = some .explicit)
    .initialMetadataNotExplicit
  ensure (¬target.responseHeadersQueued) .initialMetadataAlreadySent
  modifyStream fun s => { s with
    responseHeadersQueued := true
    responseCompression :=
      if s.acceptsResponseGzip ∧ compression = .gzip then .gzip else .identity }
  tryCatch (enqueueStreamCommandLocked (.initialMetadata entries compression)) fun err => do
    modifyStream fun s => { s with responseHeadersQueued := false, responseCompression :=
      .identity }
    throw err

def checkRetainedSendLocked (target : Stream) (compression : Compression) : CallM Unit := do
  ensure (target.streamingActive ∧ ¬target.finishQueued ∧ ¬target.transportClosed) .callClosed
  ensure target.responseHeadersQueued .initialMetadataRequired
  ensure (compression = .gzip → target.acceptsResponseGzip) .compressionNotAccepted
  ensure (¬((target.streaming.map (·.handler.initialMetadataMode)) = some .explicit ∧
    compression = .gzip ∧ target.responseCompression ≠ .gzip)) .responseCompressionNotEnabled

def checkBorrowedSendLocked (target : Stream) (compression : Compression) : CallM Unit := do
  let explicit := (target.streaming.map (·.handler.initialMetadataMode)) = some .explicit
  ensure (target.streamingActive ∧ ¬target.finishQueued) .streamFinished
  ensure (¬(explicit ∧ ¬target.responseHeadersQueued)) .initialMetadataRequired
  ensure (¬(explicit ∧ compression = .gzip ∧ target.responseCompression ≠ .gzip))
    .responseCompressionNotEnabled

def checkSendLocked (handle : Handle) (target : Stream) (compression : Compression) :
    CallM Unit :=
  match handle with
  | .retained => checkRetainedSendLocked target compression
  | .borrowed => checkBorrowedSendLocked target compression

def checkOutboundCapacityLocked (encodedSize : ℕ) : CallM Unit := do
  let w ← get
  let limit := w.limits.maxOutboundBufferSize
  let reserved := w.stream.outboundReservedBytes
  ensure (encodedSize ≤ limit) .outboundBufferLimitExceeded
  when (limit < reserved ∨ limit - reserved < encodedSize) do
    modifyStream fun s => { s with writableRequested := true }
    throw .wouldBlock

/-- `serverCallSend` and `streamSend` up to the encoded frame. -/
def sendBegin (handle : Handle) (payload : Bytes) (compression : Compression) : CallM Unit := do
  let w ← get
  ensure (payload.length ≤ w.limits.maxMessageSize) .messageTooLarge
  when (handle = .borrowed) <|
    ensure (compression = .gzip → w.stream.acceptsResponseGzip) .compressionNotAccepted
  checkSendLocked handle w.stream compression
  when (compression = .identity) <|
    match checkedAdd payload.length Frame.headerSize with
    | none => throw .messageTooLarge
    | some encodedSize => checkOutboundCapacityLocked encodedSize
  external .outOfMemory
  match Frame.encodeWithCompression w.gzip payload compression with
  | .error _ => throw .messageTooLarge
  | .ok encoded =>
    modify fun w => { w with sending := w.sending ++ [⟨handle, encoded, compression⟩] }

def enqueueSend (encoded : Bytes) : CallM Unit := do
  modify fun w => w.reserve encoded.length
  tryCatch (enqueueStreamCommandLocked (.send encoded)) fun err => do
    modify fun w => w.unreserve encoded.length
    throw err
  modify fun w => { w with log := { w.log with accepted := w.log.accepted ++ [encoded] } }

def recordSend (send : SendInProgress) : CallM Unit :=
  modify fun w => { w with log := { w.log with
    sends := w.log.sends ++ [⟨send.encoded, send.compression, w.log.headers.map Prod.fst⟩] } }

/-- `serverCallSend` and `streamSend` from the second time they take the lock. -/
def sendCommit (send : SendInProgress) : CallM Unit := do
  checkSendLocked send.handle (← get).stream send.compression
  checkOutboundCapacityLocked send.encoded.length
  let noteGzip := when (send.compression = .gzip)
    (modifyStream fun s => { s with responseGzipRequested := true })
  match send.handle with
  | .retained => do
    enqueueSend send.encoded
    noteGzip
    recordSend send
  | .borrowed => do
    noteGzip
    enqueueSend send.encoded
    recordSend send

def enqueueFinish (status : Status) (trailing : Option (List Entry)) : CallM Unit := do
  modifyStream fun s => { s with finishQueued := true }
  tryCatch (enqueueStreamCommandLocked (.finish status trailing)) fun err => do
    modifyStream fun s => { s with finishQueued := false }
    throw err
  modify fun w => { w with log := { w.log with
    finishAccepted := some w.log.accepted.length
    trailingSet := w.log.trailingSet ++ (trailing.getD []).map (.given, ·) } }

def serverCallFinish (status : Status) (trailing : List Entry) : CallM Unit := do
  when (status.message ≠ []) (external .outOfMemory)
  cloneMetadata trailing
  let target := (← get).stream
  ensure (target.streamingActive ∧ ¬target.finishQueued ∧ ¬target.transportClosed) .callClosed
  ensure target.responseHeadersQueued .initialMetadataRequired
  enqueueFinish status (some trailing)

def streamFinish (status : Status) : CallM Unit := do
  when (status.message ≠ []) (external .outOfMemory)
  let target := (← get).stream
  ensure (target.streamingActive ∧ ¬target.finishQueued) .streamFinished
  ensure (¬((target.streaming.map (·.handler.initialMetadataMode)) = some .explicit ∧
    ¬target.responseHeadersQueued)) .initialMetadataRequired
  enqueueFinish status none

/-- `serverCallResumeReceive` and `streamResumeReceive` after their own checks. -/
def queueResume : CallM Unit := do
  let target := (← get).stream
  if target.resumeQueued ∨ target.resumeRequested then pure ()
  else if ¬target.receivePaused then do
    ensure target.messageCallbackActive .receiveNotPaused
    modifyStream fun s => { s with resumeRequested := true }
  else do
    modifyStream fun s => { s with resumeQueued := true }
    tryCatch (enqueueStreamCommandLocked .resumeReceive) fun err => do
      modifyStream fun s => { s with resumeQueued := false }
      throw err

def resumeReceive (handle : Handle) : CallM Unit := do
  let target := (← get).stream
  match handle with
  | .retained =>
    ensure (target.streamingActive ∧ ¬target.finishQueued ∧ ¬target.transportClosed) .callClosed
  | .borrowed => ensure target.streamingActive .streamFinished
  queueResume

def serverCallAbort : CallM Unit := do
  let target := (← get).stream
  when (target.streamingActive ∧ ¬target.transportClosed ∧ ¬target.forceAbortRequested) <|
    modifyStream fun s => { s with forceAbortRequested := true, finishQueued := true }

def modifyContext (f : ServerContext → ServerContext) : CallM Unit :=
  modifyStream fun s =>
    { s with streaming := s.streaming.map fun st => { st with context := f st.context } }

/-- `addTrailingMetadata` of the context, which a started call has. -/
def addTrailingMetadata (entry : Entry) : CallM Unit := do
  modifyContext fun context =>
    { context with trailingMetadata := context.trailingMetadata ++ [entry] }
  when (← get).stream.streaming.isSome <|
    modify fun w => { w with log := { w.log with
      trailingSet := w.log.trailingSet ++ [(.context, entry)] } }

def appAction : AppAction → CallM Unit
  | .sendBegin handle payload compression => sendBegin handle payload compression
  | .sendCommit index => do
    match (← get).sending[index]? with
    | none => pure ()
    | some send =>
      modify fun w => { w with sending := w.sending.eraseIdx index }
      sendCommit send
  | .sendInitialMetadata entries compression => serverCallSendInitialMetadata entries compression
  | .callFinish status trailing => serverCallFinish status trailing
  | .streamFinish status => streamFinish status
  | .resumeReceive handle => resumeReceive handle
  | .abort => serverCallAbort
  | .contextCompression compression =>
    modifyContext fun context => { context with responseCompression := compression }
  | .contextInitialMetadata entry =>
    modifyContext fun context =>
      { context with initialMetadata := context.initialMetadata ++ [entry] }
  | .contextTrailingMetadata entry => addTrailingMetadata entry

def World.noted (w : World) (exchange : Exchange) : World :=
  { w with log := { w.log with exchanges := w.log.exchanges ++ [exchange] } }

def note (exchange : Exchange) : CallM Unit :=
  modify fun w => { w with log := { w.log with exchanges := w.log.exchanges ++ [exchange] } }

/-- One operation; a failed one leaves its caller an error. -/
def perform (action : AppAction) : CallM Unit :=
  tryCatch
    (do appAction action
        note (.operation action none))
    fun error => note (.operation action (some error))

def appActions : List AppAction → CallM Unit
  | [] => pure ()
  | action :: rest => do
    perform action
    appActions rest

end GrpcLite.Server
