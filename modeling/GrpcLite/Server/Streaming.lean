import GrpcLite.Lib.Run
import GrpcLite.Server.Call

/-!
# The reactor's side of a streaming call

Everything the reactor does to one streaming call: it starts it, delivers request messages to
the handler, carries out the queued commands, hands response bytes to nghttp2, and ends the call
by its trailers, by a failure, by its deadline, by a forced abort or with its connection.

nghttp2 enters as events.  The headers of a request come before its data, and no data comes after
the end of the request.  nghttp2 reads response data only while the stream has a data provider,
that is after the response headers were submitted and before the provider signalled the end of
its data, and not once a reset of the stream is queued or the connection is being closed.
-/

namespace GrpcLite.Server

open Prog

/-- Taking the server lock: other threads may have run critical sections of their own. -/
def lock : CallM Unit := do
  match (← get).env.others with
  | [] => pure ()
  | actions :: rest =>
    modify fun w => { w with env := { w.env with others := rest } }
    appActions actions

def callback (kind : Callback) : CallM HandlerRun := do
  note (.callback kind)
  match (← get).env.callbacks with
  | [] => do pure (← get).env.otherwise
  | run :: rest =>
    modify fun w => { w with env := { w.env with callbacks := rest } }
    appActions run.actions
    pure run

def modifyStreaming (f : StreamingState → StreamingState) : CallM Unit :=
  modifyStream fun s => { s with streaming := s.streaming.map f }

def removeStreamDeadline : CallM Unit :=
  modifyStream fun s => { s with deadlineEntry := none }

/-! ## Reservations and the end of a call -/

def releaseOutboundReservation (length : ℕ) (notifyWritable : Bool) : CallM Unit := do
  lock
  modify fun w => w.unreserve length
  let w ← get
  let s := w.stream
  when (notifyWritable ∧ s.writableRequested ∧ s.streamingActive ∧ ¬s.finishQueued ∧
      ¬s.transportClosed ∧ s.outboundReservedBytes ≤ w.limits.maxOutboundBufferSize / 2) do
    modifyStream fun s => { s with writableRequested := false }
    when (s.streaming.isSome) do
      let _ ← callback .writable

def queuedSendBytes (commands : List CommandAction) : ℕ :=
  (commands.map fun
    | .send bytes => bytes.length
    | _ => 0).sum

def discardStreamCommands : CallM Unit := do
  lock
  modify fun w => { (w.unreference w.commands.length).unreserve (queuedSendBytes w.commands) with
    commands := [] }

def clearOutbound : CallM ℕ := do
  match (← get).stream.streaming with
  | none => pure 0
  | some streaming =>
    modifyStreaming fun st => { st with outbound := [] }
    pure (streaming.outbound.map fun item => item.bytes.length - item.offset).sum

/-- How both ways of stopping a call at once drop what was not handed over. -/
def dropResponse : CallM Unit := do
  discardStreamCommands
  let reserved ← clearOutbound
  releaseOutboundReservation reserved false

def cancelStreaming (reason : TerminalReason) : CallM Unit := do
  when ((← get).stream.streaming.isSome) do
    removeStreamDeadline
    lock
    when (¬(← get).stream.cancelCalled) do
      modifyStream fun s => { s with
        cancelCalled := true
        terminalReason := if s.terminalReason = .completed then reason else s.terminalReason
        callControl := s.callControl.map fun control => { control with cancelled := true }
        streamingActive := false
        finishQueued := true
        receivePaused := false
        resumeQueued := false
        resumeRequested := false
        messageCallbackActive := false }
      when ((← get).stream.callControl.isSome) (note .cancelled)
      dropResponse
      let _ ← callback .cancel

def connectionTerminalReason : CallM TerminalReason := do
  lock
  pure (if (← get).shutdown then .serverShutdown else .transportError)

/-- The part of closing a connection that concerns one of its streams. -/
def cancelUnfinished : CallM Unit := do
  let s := (← get).stream
  when (s.streaming.isSome ∧ ¬s.trailerSubmitted) do
    cancelStreaming (← connectionTerminalReason)

/-- `Connection.close`, as far as this stream is concerned. -/
def closeConnection : CallM Unit := do
  when (¬(← get).closing) do
    modify fun w => { w with closing := true }
    when (← get).registered cancelUnfinished

def setStatus (code : Code) (text : String) : CallM Unit := do
  when (ascii text ≠ []) (external .outOfMemory)
  modify fun w => { w with
    origin := .failure
    stream := { w.stream with responseStatus := .init code text } }

def setOwnedStatus (status : Status) : CallM Unit :=
  modify fun w => { w with
    origin := .finish
    stream := { w.stream with responseStatus := status } }

def copyMetadataEntries : List Entry → CallM Unit
  | [] => pure ()
  | entry :: rest => do
    ensure (isApplicationKey entry.key) .invalidMetadataKey
    ensure (isBinaryKey entry.key || isValidAsciiValue entry.value) .invalidMetadataValue
    external .outOfMemory
    modifyStream fun s => { s with trailingMetadata := s.trailingMetadata ++ [entry] }
    copyMetadataEntries rest

def recordTermination (event : StatusOrigin) (source : TrailerSource) (entries : List Entry)
    (complete : Bool) : CallM Unit :=
  modify fun w => { w with log := { w.log with
    terminations := w.log.terminations ++
      [⟨event, source, entries, w.contextTrailing, complete⟩] } }

/-- Copying the trailing metadata of a call that `event` ends. -/
def copyTrailers (event : StatusOrigin) (source : TrailerSource) (entries : List Entry) :
    CallM Unit :=
  tryCatch
    (do copyMetadataEntries entries
        recordTermination event source entries true)
    fun err => do
      recordTermination event source entries false
      throw err

def copyStreamingTrailers (event : StatusOrigin) : CallM Unit := do
  match (← get).stream.streaming with
  | none => pure ()
  | some streaming => copyTrailers event .context streaming.context.trailingMetadata

/-! ## Submissions to nghttp2 -/

def isReservedResponseHeader (name : Bytes) : Bool :=
  name == ascii "content-type" || name == ascii "grpc-encoding" ||
    name == ascii "grpc-accept-encoding" || name == ascii "grpc-status" ||
    name == ascii "grpc-message"

def isReservedTrailer (name : Bytes) : Bool :=
  name == ascii "grpc-status" || name == ascii "grpc-message"

def submitStreamingResponse (initialMetadata : List Entry) : CallM Unit := do
  external .outOfMemory
  external .nativeFailure
  modify fun w => { w with log := { w.log with
    headers := some (w.stream.responseCompression,
      initialMetadata.filter fun entry => !isReservedResponseHeader entry.key) } }

/-- Resuming a deferred data provider changes nothing that the stream sees. -/
def resumeStreamingResponse : CallM Unit := pure ()

def submitTrailers : CallM Unit := do
  external .outOfMemory
  external .nativeFailure
  modify fun w => { w with log := { w.log with
    trailers := some
      { status := w.stream.responseStatus
        metadata := w.stream.trailingMetadata.filter fun entry => !isReservedTrailer entry.key
        origin := w.origin
        sentBefore := w.log.sent } } }

def submitReset (code : ResetCode) : CallM Unit := do
  external .nativeFailure
  modify fun w => { w with
    stream := { w.stream with resetSubmitted := true }
    log := { w.log with reset := some code } }

def submitStreamingFailureReset : CallM Unit := do
  let w ← get
  when (w.stream.resetAfterTrailers ∧ ¬w.stream.resetSubmitted ∧ w.session) (submitReset .cancel)

def submitFailureTrailers : CallM Unit := do
  tryCatch (copyStreamingTrailers .failure) fun _ => pure ()
  if (← get).stream.responseHeadersSubmitted then resumeStreamingResponse
  else when (← get).session do
    lock
    modifyStream fun s => { s with
      responseCompression := .identity
      responseHeadersQueued := true
      responseHeadersSubmitted := true }
    tryCatch
      (do submitStreamingResponse []
          resumeStreamingResponse)
      fun _ => closeConnection

def failStreaming (code : Code) (text : String) : CallM Unit := do
  when ((← get).stream.streaming.isSome) do
    removeStreamDeadline
    lock
    modifyStream fun s => { s with
      streamingActive := false
      responseFinished := true
      finishQueued := true
      resetAfterTrailers := true
      terminalReason := if s.terminalReason = .completed then .localError else s.terminalReason }
    if (← get).stream.trailerSubmitted then
      tryCatch submitStreamingFailureReset fun _ => pure ()
    else
      let set ← tryCatch (do setStatus code text; pure true) fun _ => do
        closeConnection
        pure false
      when set submitFailureTrailers

def forceAbortStreaming : CallM Unit := do
  lock
  let s := (← get).stream
  let active := s.forceAbortRequested ∧ s.streamingActive ∧ ¬s.transportClosed
  modifyStream fun s => { s with forceAbortRequested := false }
  when active do
    modifyStream fun s => { s with
      streamingActive := false
      responseFinished := true
      finishQueued := true
      receivePaused := false
      resumeQueued := false
      resetAfterTrailers := true
      terminalReason := .localError }
    removeStreamDeadline
    dropResponse
    if (← get).session then
      tryCatch (submitReset .internalError) fun _ => closeConnection
    else closeConnection

/-! ## Request messages -/

inductive Delivery where
  | stopped
  | exhausted
  | again
  deriving DecidableEq, Repr

def failDecoding : FrameError → CallM Unit
  | .messageTooLarge => failStreaming .resourceExhausted "request message too large"
  | _ => failStreaming .invalidArgument "malformed streaming request"

/-- `external` as a choice: whether an allocation made inside a library call fails. -/
def drawFault : CallM Bool :=
  tryCatch (do external .outOfMemory; pure false) fun _ => pure true

theorem drawFault_wp {w : World} {Q : Bool → World → Prop} {E : CallError → World → Prop}
    (hok : ∀ oom faults, Q oom { w with env := { w.env with faults := faults } }) :
    wp drawFault Q E w := by
  unfold drawFault
  rw [wp_tryCatch, wp_bind]
  exact external_wp (fun faults => hok false faults) (fun faults => hok true faults)

def deliverMessage (message : Frame.DecodedMessage) : CallM Delivery := do
  modifyStreaming fun st => { st with context := { st.context with
    requestCompression := if message.compressed then .gzip else .identity } }
  lock
  let s := (← get).stream
  if ¬s.streamingActive ∨ s.receivePaused then pure .stopped
  else do
    modifyStream fun s => { s with messageCallbackActive := true }
    let run ← callback (.message message.payload)
    lock
    modifyStream fun s => { s with messageCallbackActive := false }
    if run.fails then do
      modifyStream fun s => { s with resumeRequested := false }
      failStreaming .internal "handler failed"
      pure .stopped
    else do
      let s := (← get).stream
      let pausing := run.action = .pause ∧ ¬s.resumeRequested
      modifyStream fun t => { t with
        resumeRequested := false
        receivePaused := t.receivePaused || (s.streamingActive && pausing) }
      if ¬s.streamingActive ∨ pausing then pure .stopped else pure .again

def deliverNext : CallM Delivery := do
  lock
  let w ← get
  if ¬w.stream.streamingActive ∨ w.stream.receivePaused then pure .stopped
  else match w.stream.streaming with
    | none => pure .stopped
    | some streaming => do
      let oom ← drawFault
      match Frame.Decoder.nextMessage w.gzip streaming.decoder oom with
      | (.error err, _) => do
        failDecoding err
        pure .stopped
      | (.ok none, _) => pure .exhausted
      | (.ok (some message), decoder) => do
        modifyStreaming fun st => { st with decoder := decoder }
        deliverMessage message

def completeStreamingRemoteEnd : CallM Unit := do
  match (← get).stream.streaming with
  | none => pure ()
  | some streaming =>
    when (¬streaming.remoteEndCalled) do
      match streaming.decoder.finish with
      | .error _ => failStreaming .invalidArgument "malformed streaming request"
      | .ok _ =>
        modifyStreaming fun st => { st with remoteEndCalled := true }
        let run ← callback .remoteEnd
        when run.fails (failStreaming .internal "handler failed")

/-- The loop of `deliverStreamingMessages`; a message takes at least its five header bytes from
the decoder, so one round for each buffered byte and one more are enough. -/
def deliverRounds : ℕ → CallM Unit
  | 0 => pure ()
  | rounds + 1 => do
    match ← deliverNext with
    | .stopped => pure ()
    | .again => deliverRounds rounds
    | .exhausted =>
      when ((← get).stream.streaming.any (·.remoteEndReceived)) completeStreamingRemoteEnd

def deliverStreamingMessages : CallM Unit := do
  match (← get).stream.streaming with
  | none => pure ()
  | some streaming => deliverRounds (streaming.decoder.bufferedBytes + 1)

/-- Whether the chunk was taken. -/
def receiveStreamingData (bytes : Bytes) : CallM Bool := do
  match (← get).stream.streaming with
  | none => pure false
  | some streaming =>
    lock
    if ¬(← get).stream.streamingActive then pure false
    else do
      let oom ← drawFault
      let limit := (← get).limits.maxInboundBufferSize
      let (result, decoder) := streaming.decoder.feedBounded bytes limit oom
      modifyStreaming fun st => { st with decoder := decoder }
      match result with
      | .error .bufferLimitExceeded => do
        failStreaming .resourceExhausted "request message too large"
        pure false
      | .error _ => do
        failStreaming .invalidArgument "malformed streaming request"
        pure false
      | .ok _ => do
        deliverStreamingMessages
        pure true

def consumeConnection (length : ℕ) : CallM Unit := do
  external .nativeFailure
  modify fun w => { w with log := { w.log with
    connectionCredit := w.log.connectionCredit + length } }

def consumeStream (length : ℕ) : CallM Unit := do
  external .nativeFailure
  modify fun w => { w with log := { w.log with streamCredit := w.log.streamCredit + length } }

/-- The branch of `onDataChunk` for a call with a streaming handler. -/
def onStreamingData (bytes : Bytes) : CallM Unit := do
  let copied ← receiveStreamingData bytes
  tryCatch (consumeConnection bytes.length) fun _ => throw .callbackFailure
  let s := (← get).stream
  when (copied ∧ s.streamingActive) <|
    if s.receivePaused then
      match checkedAdd s.deferredStreamCredit bytes.length with
      | none => throw .callbackFailure
      | some credit => modifyStream fun s => { s with deferredStreamCredit := credit }
    else tryCatch (consumeStream bytes.length) fun _ => throw .callbackFailure

def wireMessageLimit (maxMessageSize : ℕ) : ℕ :=
  match checkedAdd (maxMessageSize / 8) 1024 with
  | none => maxU64
  | some overhead => match checkedAdd overhead Frame.headerSize with
    | none => maxU64
    | some totalOverhead => (checkedAdd maxMessageSize totalOverhead).getD maxU64

/-- The branch for a request without a streaming handler: the body is collected until the request
is answered. -/
def onRequestBody (bytes : Bytes) : CallM Unit := do
  let w ← get
  when (¬w.stream.responded) <|
    if wireMessageLimit w.maxRequestSize - w.stream.requestBody.length < bytes.length then
      modifyStream fun s => { s with requestTooLarge := true }
    else do
      tryCatch (external .outOfMemory) fun _ => throw .callbackFailure
      modifyStream fun s => { s with requestBody := s.requestBody ++ bytes }
  tryCatch
    (do consumeConnection bytes.length
        consumeStream bytes.length)
    fun _ => throw .callbackFailure

def onDataChunk (bytes : Bytes) : CallM Unit := do
  modify fun w => { w with log := { w.log with received := w.log.received ++ bytes } }
  if (← get).stream.streaming.isSome then onStreamingData bytes else onRequestBody bytes

def receiveStreamingEnd : CallM Unit := do
  match (← get).stream.streaming with
  | none => pure ()
  | some streaming =>
    when (¬streaming.remoteEndReceived) do
      modifyStreaming fun st => { st with remoteEndReceived := true }
      deliverStreamingMessages

/-! ## Commands -/

def processInitialMetadata (entries : List Entry) (compression : Compression) : CallM Unit := do
  lock
  let s := (← get).stream
  when (s.streamingActive ∧ ¬s.transportClosed ∧ ¬s.responseHeadersSubmitted) do
    modifyStream fun s => { s with
      responseCompression :=
        if s.acceptsResponseGzip ∧ compression = .gzip then .gzip else .identity
      responseHeadersSubmitted := true }
    when (s.streaming.isSome ∧ (← get).session) <|
      tryCatch (submitStreamingResponse entries) fun _ => closeConnection

def processSend (bytes : Bytes) : CallM Unit := do
  lock
  let s := (← get).stream
  if ¬(s.streamingActive ∧ ¬s.transportClosed) ∨ s.streaming.isNone then
    releaseOutboundReservation bytes.length false
  else do
    let oom ← drawFault
    if oom then do
      releaseOutboundReservation bytes.length false
      failStreaming .internal "response allocation failed"
    else do
      modifyStreaming fun st => { st with outbound := st.outbound ++ [⟨bytes, 0⟩] }
      resumeStreamingResponse

def processFinish (status : Status) (trailing : Option (List Entry)) : CallM Unit := do
  lock
  let s := (← get).stream
  when (s.streamingActive ∧ ¬s.transportClosed) do
    modifyStream fun s => { s with responseFinished := true }
    when s.streaming.isSome do
      setOwnedStatus status
      let copy := match trailing with
        | some entries => copyTrailers .finish .given entries
        | none => copyStreamingTrailers .finish
      tryCatch copy fun _ =>
        tryCatch (setStatus .internal "metadata allocation failed") fun _ => closeConnection
      resumeStreamingResponse

def processResumeReceive : CallM Unit := do
  lock
  let s := (← get).stream
  let active : Bool := s.streamingActive ∧ ¬s.transportClosed
  modifyStream fun s =>
    { s with resumeQueued := false, receivePaused := s.receivePaused && !active }
  when active do
    deliverStreamingMessages
    lock
    let s := (← get).stream
    when (¬s.receivePaused ∧ ¬s.transportClosed ∧ s.streamingActive ∧ s.deferredStreamCredit ≠ 0) <|
      tryCatch
        (do consumeStream s.deferredStreamCredit
            modifyStream fun s => { s with deferredStreamCredit := 0 })
        fun _ => closeConnection

def processStreamCommand : CommandAction → CallM Unit
  | .initialMetadata entries compression => processInitialMetadata entries compression
  | .send bytes => processSend bytes
  | .finish status trailing => processFinish status trailing
  | .resumeReceive => processResumeReceive

def destroyStream : CallM Unit :=
  modify fun w => { w.unreserve w.stream.outboundReservedBytes with
    destroyed := w.destroyed + 1
    violations := (w.unreserve w.stream.outboundReservedBytes).violations ++ violation
      (w.stream.transportClosed ∧ w.stream.commandRefs = 0 ∧ w.destroyed = 0) .destroyed }

/-- `rest` is what is left of the batch. -/
def releaseStreamCommand (rest : List CommandAction) : CallM Unit := do
  lock
  modify fun w => { w.unreference 1 with batch := rest }
  let s := (← get).stream
  when (s.transportClosed ∧ s.commandRefs = 0) destroyStream

/-- The commands of other streams before the next one of this stream. -/
def otherCommands : CallM Unit := do
  match (← get).env.interrupts with
  | [] => pure ()
  | closes :: rest =>
    modify fun w => { w with env := { w.env with interrupts := rest } }
    when closes closeConnection

def processNext (command : CommandAction) (rest : List CommandAction) : CallM Unit := do
  otherCommands
  modify fun w => { w with
    violations := w.violations ++ violation (w.destroyed = 0) .usedAfterDestroy }
  processStreamCommand command
  releaseStreamCommand rest

/-- The loop of `processStreamCommands` over the batch it swapped out. -/
def processBatch : List CommandAction → CallM Unit
  | [] => pure ()
  | command :: rest => do
    processNext command rest
    processBatch rest

def processForcedServerCallAborts : CallM Unit := do
  lock
  when (← get).stream.forceAbortRequested forceAbortStreaming

def takeStreamCommands : CallM (List CommandAction) := do
  processForcedServerCallAborts
  lock
  let commands := (← get).commands
  modify fun w => { w with commands := [], batch := commands }
  pure commands

def processStreamCommands : CallM Unit := do
  let commands ← takeStreamCommands
  processBatch commands

/-! ## Response data -/

def finishResponseData : CallM Unit := do
  when (¬(← get).stream.trailerSubmitted) do
    modifyStream fun s => { s with trailerSubmitted := true }
    tryCatch submitTrailers fun _ => throw .callbackFailure

def readStreamingResponseData (outputLength : ℕ) : CallM Unit := do
  match (← get).stream.streaming with
  | none => throw .callbackFailure
  | some streaming =>
    match streaming.outbound with
    | item :: rest => do
      let length := min item.remaining.length outputLength
      let next : OutboundMessage := { item with offset := item.offset + length }
      modifyStreaming fun st => { st with outbound := next :: rest }
      modify fun w => { w with
        log := { w.log with sent := w.log.sent ++ item.remaining.take length } }
      releaseOutboundReservation length true
      when (next.offset = next.bytes.length) do
        modifyStreaming fun st => { st with outbound := st.outbound.tail }
        modify fun w => { w with
          log := { w.log with completed := w.log.completed ++ [next.bytes] } }
      let s := (← get).stream
      when ((s.streaming.all (·.outbound.isEmpty)) ∧ s.responseFinished) finishResponseData
    | [] => when (← get).stream.responseFinished finishResponseData

def onFrameSent : CallM Unit := do
  let s := (← get).stream
  when (s.resetAfterTrailers ∧ ¬s.resetSubmitted) <|
    tryCatch (submitReset .cancel) fun _ => throw .callbackFailure

/-! ## Start, close and deadline -/

def notifyServerCallTerminal : CallM Unit := do
  match (← get).stream.callControl with
  | none => pure ()
  | some control =>
    when (¬control.terminal) do
      modifyStream fun s => { s with callControl := some { control with terminal := true } }
      note .terminal
      when ((← get).stream.streaming.isSome) do
        let _ ← callback .terminal
    modifyStream fun s => { s with callControl := none }

/-- Whether the stream was destroyed. -/
def retireStream : CallM Bool := do
  removeStreamDeadline
  lock
  modifyStream fun s => { s with transportClosed := true, streamingActive := false }
  discardStreamCommands
  lock
  let destroy : Bool := (← get).stream.commandRefs = 0
  notifyServerCallTerminal
  when destroy destroyStream
  pure destroy

/-- `onStreamClose`; `noError` says that nghttp2 reports `NGHTTP2_NO_ERROR`. -/
def onStreamClose (noError : Bool) : CallM Unit := do
  when (← get).registered do
    modify fun w => { w with registered := false }
    let s := (← get).stream
    when (s.streaming.isSome ∧ (¬noError ∨ ¬s.trailerSubmitted)) <|
      cancelStreaming
        (if s.resetAfterTrailers ∧ s.resetSubmitted then s.terminalReason else .peerCancelled)
    let _ ← retireStream

/-- `finishCloseIfReady`, as far as this stream is concerned. -/
def finishConnectionClose : CallM Unit := do
  when (← get).registered do
    cancelUnfinished
    modify fun w => { w with session := false }
    cancelUnfinished
    modify fun w => { w with registered := false }
    let retired ← retireStream
    modify fun w => { w with violations := w.violations ++ violation retired .referencedAtClose }

def expireDeadlines (now : ℕ) : CallM Unit := do
  let w ← get
  match w.stream.deadlineEntry with
  | none => pure ()
  | some expiresAt =>
    when (expiresAt ≤ now) do
      removeStreamDeadline
      when (w.stream.deadline = some expiresAt ∧ ¬w.closing ∧ w.session ∧
          w.stream.streaming.isSome ∧ w.stream.streamingActive) do
        cancelStreaming .deadlineExceeded
        failStreaming .deadlineExceeded "deadline exceeded"

/-- `submitFailure`: the response of a request that is refused has no messages. -/
def submitFailure (code : Code) (text : String) : CallM Unit := do
  removeStreamDeadline
  tryCatch
    (do setStatus code text
        external .outOfMemory
        external .nativeFailure
        modify fun w => { w with log := { w.log with failure := some w.stream.responseStatus } })
    fun _ => closeConnection

/-- The request is accepted: the handler is started and, unless it sends them itself, the
response headers are submitted.  No other thread has a handle of the call before `callback
.start`, so the first critical section is not a `lock`. -/
def acceptRequest (handler : ServerHandler) (requestCompression : Compression) : CallM Unit := do
  let limits := (← get).limits
  modifyStream fun s => { s with
    callControl := some {}
    streaming := some
      { handler := handler
        decoder := { maxMessageSize := limits.maxMessageSize, compression := requestCompression }
        context :=
          { deadline := s.deadline
            requestCompression := requestCompression
            requestMetadata := s.requestMetadata.entries } } }
  modifyStream fun s => { s with
    streamingActive := true
    receivePaused := handler.receiveInitiallyPaused
    responseHeadersQueued := handler.initialMetadataMode = .automaticAfterStart }
  let run ← callback .start
  if run.fails then failStreaming .internal "handler failed"
  else when (handler.initialMetadataMode = .automaticAfterStart) do
    lock
    modifyStream fun s => { s with
      responseCompression :=
        if s.acceptsResponseGzip ∧ (s.streaming.any (·.context.responseCompression = .gzip) ∨
          s.responseGzipRequested) then .gzip else .identity
      responseHeadersQueued := true
      responseHeadersSubmitted := true }
    let initialMetadata := ((← get).stream.streaming.map (·.context.initialMetadata)).getD []
    tryCatch (submitStreamingResponse initialMetadata) fun _ => closeConnection

def startStreaming (now : ℕ) (handler : ServerHandler) : CallM Unit := do
  modifyStream fun s => { s with responded := true }
  let s := (← get).stream
  if s.headerTooLarge then submitFailure .resourceExhausted "request too large"
  else if s.timeoutInvalid then submitFailure .invalidArgument "invalid grpc-timeout"
  else if s.requestMetadataInvalid then submitFailure .invalidArgument "invalid request metadata"
  else if s.deadline.any (· ≤ now) then submitFailure .deadlineExceeded "deadline exceeded"
  else if ¬s.methodPost then submitFailure .unimplemented "POST required"
  else if ¬s.contentTypeGrpc then submitFailure .invalidArgument "invalid content-type"
  else match s.requestCompression with
    | none => submitFailure .unimplemented "request compression is not supported"
    | some requestCompression => do
      let copied ← tryCatch (do cloneMetadata s.requestMetadata.entries; pure true)
        fun _ => pure false
      if ¬copied then submitFailure .internal "metadata allocation failed"
      else do
        let oom ← drawFault
        if oom then submitFailure .internal "call allocation failed"
        else acceptRequest handler requestCompression

/-! ## Events -/

inductive Event where
  | app (action : AppAction)
  | shutdown
  | start (now : ℕ) (handler : ServerHandler)
  | data (bytes : Bytes)
  | remoteEnd
  | commands
  | read (outputLength : ℕ)
  | trailersSent
  | expire (now : ℕ)
  | streamClose (noError : Bool)
  | connectionClose
  | connectionClosed
  deriving DecidableEq, Repr

/-- nghttp2 has a data provider of the stream that it may read from. -/
def World.readable (w : World) : Bool :=
  w.registered && !w.closing && w.session && w.log.headers.isSome && !w.stream.trailerSubmitted &&
    !w.stream.resetSubmitted

/-- A callback of nghttp2 that fails makes the reactor close the connection. -/
def nativeCallback (x : CallM Unit) : CallM Unit :=
  tryCatch x fun _ => do
    modify fun w => { w with log := { w.log with callbackFailed := true } }
    closeConnection

def handleEvent (w : World) : Event → CallM Unit
  | .app action => perform action
  | .shutdown => modify fun w => { w with shutdown := true }
  | .start now handler =>
    when (w.registered ∧ ¬w.stream.responded ∧ w.log.received = []) (startStreaming now handler)
  | .data bytes => when (w.registered ∧ ¬w.stream.streaming.any (·.remoteEndReceived))
      (nativeCallback (onDataChunk bytes))
  | .remoteEnd => when w.registered receiveStreamingEnd
  | .commands => processStreamCommands
  | .read outputLength => when w.readable (nativeCallback (readStreamingResponseData outputLength))
  | .trailersSent => when (w.registered ∧ ¬w.closing ∧ w.log.trailers.isSome)
      (nativeCallback onFrameSent)
  | .expire now => expireDeadlines now
  | .streamClose noError => onStreamClose noError
  | .connectionClose => closeConnection
  | .connectionClosed => when w.closing finishConnectionClose

def World.outbound (w : World) : List OutboundMessage :=
  (w.stream.streaming.map (·.outbound)).getD []

def World.expires (w : World) (now : ℕ) : Bool :=
  w.stream.deadlineEntry.any (fun expiresAt =>
      expiresAt ≤ now ∧ w.stream.deadline = some expiresAt) && !w.closing && w.session &&
    w.stream.streaming.isSome && w.stream.streamingActive

/-- The deadline of an active call expires while its first outbound frame is partly handed over. -/
def World.cutsFrame (w : World) : Event → Bool
  | .expire now => w.expires now && w.outbound.head?.any (0 < ·.offset)
  | _ => false

/-- The history notes an event that cuts a frame. -/
def World.marked (w : World) (cuts : Bool) : World :=
  { w with log := { w.log with cut := w.log.cut || cuts } }

def step (w : World) (event : Event) : World :=
  exec (handleEvent w event) (w.marked (w.cutsFrame event))

/-- The states before the rounds over a batch, and the one after the last. -/
def batchStates : List CommandAction → World → List World
  | [], w => [w]
  | command :: rest, w => w :: batchStates rest (exec (processNext command rest) w)

/-- The states between two commands of the batch that an event carries out. -/
def World.between (w : World) : Event → List World
  | .commands => batchStates (exec takeStreamCommands w).batch (exec takeStreamCommands w)
  | _ => []

/-- The states that a run passes through, between two events or two commands of a batch. -/
def World.states (w : World) : List Event → List World
  | [] => [w]
  | event :: rest => w :: w.between event ++ (step w event).states rest

end GrpcLite.Server
