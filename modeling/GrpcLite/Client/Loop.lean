import GrpcLite.Lib.Run
import GrpcLite.Client.Calls
import GrpcLite.Client.Headers

/-!
# The channel's event loop on one stream

The functions of `channel.zig` that the event loop runs for a client stream: its wakes, the
callbacks of nghttp2, the deadline heap, and the ends of the connection.  Other threads act
whenever the loop takes the stream's mutex.
-/

namespace GrpcLite.Client

open Prog

/-! ## Callbacks and the end of the stream -/

def callbacksEnabled : ClientM Bool := do
  lock
  pure (← get).stream.enabled

/-- The callback mutex is taken right before the stream's, so one point stands for both. -/
def beginClientCallback : ClientM Bool := callbacksEnabled

def beginTerminalCallback : ClientM Bool := do
  lock
  let s := (← get).stream
  pure (s.appOwned && !s.appReleased)

def invokeCallback (registered : Bool) (kind : Callback) : ClientM Unit := do
  when registered do
    if ← beginClientCallback then
      let _ ← runCallback kind

def invokeWritableCallback : ClientM Unit := do
  invokeCallback (← get).stream.callbacks.onWritable .writable

def invokeHeadersCallback : ClientM Unit := do
  let s := (← get).stream
  invokeCallback s.callbacks.onHeaders (.headers s.initialMetadata)

def invokeMessageCallback (payload : Bytes) (compression : Compression) :
    ClientM (Option ReceiveAction) := do
  if ← beginClientCallback then some <$> runCallback (.message payload compression)
  else pure none

def removeStreamDeadline : ClientM Unit :=
  modifyStream fun s => { s with deadlineEntry := none }

def invokeTerminalCallback (outcome : Outcome) : ClientM Unit := do
  if ← beginTerminalCallback then
    let _ ← runCallback (.terminal outcome (← get).stream.trailingMetadata)

def terminalizeStream (outcome : Outcome) : ClientM Unit := do
  when (← get).stream.loopOwned removeStreamDeadline
  lock
  let s := (← get).stream
  when (¬s.terminal) do
    modifyStream fun s => { s with terminal := true }
    when (s.appOwned ∧ ¬s.appReleased) (invokeTerminalCallback outcome)

def releaseStreamLoopOwnership : ClientM Unit := do
  lock
  modify fun w => { w with
    stream := { w.stream with deadlineEntry := none, wakeQueued := false, loopOwned := false }
    registered := false }
  mark .loopReleased
  when (¬(← get).stream.appOwned) destroy

def notifyRemoteEnd : ClientM Unit := do
  let s := (← get).stream
  when (s.remoteEndSeen ∧ ¬s.remoteEndCalled) do
    modifyStream fun s => { s with remoteEndCalled := true }
    invokeCallback s.callbacks.onRemoteEnd .remoteEnd

def finalizeClientStream : ClientM Unit := do
  notifyRemoteEnd
  let s := (← get).stream
  let oom ← if (finalOutcome s false).fromTrailers ∧ s.grpcMessage.isSome then drawFault
    else pure false
  terminalizeStream (finalOutcome s oom)

/-- The stream ends with a status that its channel gives it. -/
def giveUp (code : Code) (reason : String) : ClientM Unit := do
  terminalizeStream ⟨.init code reason, false⟩
  releaseStreamLoopOwnership

/-! ## The end of the connection -/

def World.canReconnect (w : World) : Bool :=
  match w.reconnect with
  | none => false
  | some allowInitialOffline => w.everActive || allowInitialOffline

def noteSweep : ClientM Unit := do
  let s := (← get).stream
  when (¬s.terminal) <|
    modifyLog fun log => { log with sweeps := log.sweeps ++ [s.forcedStatus] }

def beginStop (reason : String) : ClientM Unit := do
  when (¬(← get).stopping) do
    modify fun w => { w with stopping := true, connection := .closing }
    when (← get).mapped do
      modify fun w => { w with
        mapped := false
        stream := { w.stream with transportClosed := true, streamError := cancelCode } }
      noteSweep
      giveUp .unavailable reason
    when (← get).registered do
      noteSweep
      giveUp .unavailable reason

def handleTransportFailure (reason : String) : ClientM Unit := do
  let w ← get
  when (¬w.stopping ∧ w.connection ≠ .closing ∧ w.connection ≠ .backingOff) do
    if ¬w.canReconnect then beginStop reason
    else do
      modify fun w => { w with connection := .closing }
      when w.registered do
        noteSweep
        giveUp .unavailable reason
      modify fun w => { w with mapped := false }

/-! ## Received messages -/

def queueInboundMessage (decoded : Frame.DecodedMessage) : ClientM Unit := do
  let s := (← get).stream
  match checkedAdd decoded.payload.length Frame.headerSize with
  | none => throw .bufferLimitExceeded
  | some bufferedSize =>
    ensure (bufferedSize ≤ s.limits.maxInboundBufferSize - s.inboundBuffered) .bufferLimitExceeded
    external .outOfMemory
    modifyStream fun s => { s with
      inbound := s.inbound ++
        [⟨decoded.payload, if decoded.compressed then .gzip else .identity, bufferedSize⟩]
      inboundBuffered := s.inboundBuffered + bufferedSize }

def nextMessage : ClientM (Option Frame.DecodedMessage) := do
  let oom ← drawFault
  let w ← get
  match w.stream.decoder.nextMessage w.gzip oom with
  | (.error err, _) => throw (.frame err)
  | (.ok none, _) => pure none
  | (.ok (some decoded), decoder) =>
    modify fun w => { w with
      stream := { w.stream with decoder := decoder }
      log := { w.log with decoded := w.log.decoded ++ [decoded.payload] } }
    pure (some decoded)

def handDecoded (decoded : Frame.DecodedMessage) : ClientM Unit := do
  if ← callbacksEnabled then
    if (← get).stream.receivePaused then queueInboundMessage decoded
    else
      let action ← invokeMessageCallback decoded.payload
        (if decoded.compressed then .gzip else .identity)
      when (action = some .pause) (modifyStream fun s => { s with receivePaused := true })

/-- The decoding loop.  Every message takes bytes from the decoder, so as many rounds as it has
bytes are enough. -/
def decodeLoop : ℕ → ClientM Unit
  | 0 => pure ()
  | fuel + 1 => do
    match ← nextMessage with
    | none => pure ()
    | some decoded => do
      handDecoded decoded
      decodeLoop fuel

def decodeAvailableMessages : ClientM Unit := do
  decodeLoop ((← get).stream.decoder.bufferedBytes + 1)

/-- Notes what other threads do before the next critical section if the stream is closed and no
queued message is left. -/
def noteOvertaking : ClientM Unit := do
  let w ← get
  when (w.stream.transportClosed ∧ w.stream.inbound = []) <|
    modifyLog fun log => { log with overtaking := log.overtaking ++ w.env.others.headD [] }

/-- The loop over the queued messages, of which there are `fuel`. -/
def deliverQueued : ℕ → ClientM Unit
  | 0 => pure ()
  | fuel + 1 => do
    let s := (← get).stream
    match s.inbound with
    | [] => pure ()
    | item :: rest =>
      if s.receivePaused then pure ()
      else if ← callbacksEnabled then
        modifyStream fun s => { s with
          inbound := rest
          inboundBuffered := s.inboundBuffered - item.bufferedSize }
        noteOvertaking
        let action ← invokeMessageCallback item.payload item.compression
        when (action = some .pause) (modifyStream fun s => { s with receivePaused := true })
        deliverQueued fuel

def deliverInboundMessages : ClientM Unit := do
  modifyStream fun s => { s with receivePaused := false }
  deliverQueued (← get).stream.inbound.length
  when (¬(← get).stream.receivePaused) decodeAvailableMessages
  let s := (← get).stream
  when (s.transportClosed ∧ ¬s.receivePaused ∧ s.inbound = []) do
    finalizeClientStream
    releaseStreamLoopOwnership

/-! ## Wakes -/

def canReturnDeferredStreamCredit (receivePaused transportClosed : Bool) : Bool :=
  !receivePaused && !transportClosed

def returnDeferredCredit : ClientM Unit := do
  let s := (← get).stream
  when (canReturnDeferredStreamCredit s.receivePaused s.transportClosed ∧
      s.deferredStreamCredit ≠ 0) do
    external .nativeFailure
    modify fun w => { w with
      stream := { w.stream with deferredStreamCredit := 0 }
      log := { w.log with streamCredit := w.log.streamCredit + w.stream.deferredStreamCredit } }

def cancelStatus : Status := .init .cancelled "stream cancelled"

/-- The reset of a cancelled stream; one that its application released has no use for a status. -/
def resetCancelled (released : Bool) : ClientM Unit := do
  when (¬(← get).stream.rstSubmitted) do
    when (¬released) (modifyStream (·.setForcedStreamStatus cancelStatus))
    external .nativeFailure
    modifyStream fun s => { s with rstSubmitted := true }

/-- `processClientStreamCommands` on a stream that the transport has not closed. -/
def processOpenCommands (cancelRequested released resumeData resumeReceive : Bool) :
    ClientM Unit := do
  when cancelRequested (resetCancelled released)
  let reset := (← get).stream.rstSubmitted
  when (resumeData ∧ ¬reset) (external .nativeFailure)
  when (resumeReceive ∧ ¬reset) do
    deliverInboundMessages
    returnDeferredCredit

def processClientStreamCommands : ClientM Unit := do
  when (← get).stream.loopOwned do
    lock
    let s := (← get).stream
    let cancelRequested := s.cancelRequested || s.appReleased
    let resumeData := s.providerDeferred && (!s.outbound.isEmpty || !s.sendOpen)
    modifyStream fun s => { s with
      resumeRequested := false
      providerDeferred := s.providerDeferred && !resumeData }
    when cancelRequested removeStreamDeadline
    if s.transportClosed then
      if cancelRequested then giveUp .cancelled "stream cancelled"
      else when s.resumeRequested deliverInboundMessages
    else processOpenCommands cancelRequested s.appReleased resumeData s.resumeRequested

/-- Inserting into the heap allocates unless the stream already has an entry. -/
def deadlineHeapInsertOrUpdate (deadline : ℕ) : ClientM Unit := do
  when ((← get).stream.deadlineEntry = none) (external .outOfMemory)
  modifyStream fun s => { s with deadlineEntry := some deadline }

/-- The allocations of the header list and the request itself, to which nghttp2 gives `id`. -/
def submitClientStream (id : ℕ) : ClientM Unit := do
  external .outOfMemory
  external .nativeFailure
  modify fun w => { w with stream := { w.stream with streamId := some id }, mapped := true }

def hasExpired (deadline : Option ℕ) (now : ℕ) : Bool :=
  match deadline with
  | none => false
  | some deadline => deadline ≤ now

def insertDeadline : ClientM Unit := do
  match (← get).stream.deadline with
  | none => pure ()
  | some deadline => deadlineHeapInsertOrUpdate deadline

/-- The first wake of a stream; the answer says whether its commands are processed next. -/
def startStream (now id : ℕ) : ClientM Bool :=
  tryCatch
    (do insertDeadline
        lock
        let w ← get
        if w.stream.cancelRequested ∨ w.stream.appReleased then do
          giveUp .cancelled "stream cancelled"
          pure false
        else if hasExpired w.stream.deadline now then do
          modifyStream fun s => { s with deadlineExpired := true }
          giveUp .deadlineExceeded "deadline exceeded"
          pure false
        else if w.connection ≠ .active then do
          giveUp .unavailable "connection is unavailable"
          pure false
        else do
          submitClientStream id
          pure true)
    fun _ => do
      giveUp .unavailable "stream submission failed"
      pure false

def processStreamWake (now id : ℕ) : ClientM Unit := do
  when (← get).stream.wakeQueued do
    modify fun w => { w with
      stream := { w.stream with wakeQueued := false }
      log := { w.log with woken := true } }
    let submitted ← if (← get).stream.streamId = none then startStream now id else pure true
    when submitted <|
      tryCatch processClientStreamCommands fun _ => handleTransportFailure "stream command failed"

/-! ## Callbacks of nghttp2 -/

def readClientStreamData (outputLength : ℕ) : ClientM Unit := do
  lock
  let s := (← get).stream
  match s.outbound with
  | [] =>
    if s.sendOpen then modifyStream fun s => { s with providerDeferred := true }
    else modifyStream fun s => { s with providerEof := true }
  | item :: rest =>
    let chunk := item.remaining.take outputLength
    modifyLog fun log => { log with produced := log.produced ++ chunk }
    if item.offset + chunk.length = item.frameBytes.length then do
      modifyStream fun s => { s with
        outbound := rest
        outboundBuffered := s.outboundBuffered - item.frameBytes.length
        providerEof := s.providerEof || (rest.isEmpty && !s.sendOpen)
        backpressureRequested := false }
      when (s.backpressureRequested ∧ s.appOwned ∧ ¬s.appReleased ∧ ¬s.terminal)
        invokeWritableCallback
    else
      modifyStream fun s => { s with
        outbound := { item with offset := item.offset + chunk.length } :: rest }

def failClientStreamOnLoop (failure : Status) : ClientM Unit := do
  modifyStream (·.setForcedStreamStatus failure)
  let s := (← get).stream
  when (¬s.rstSubmitted ∧ ¬s.transportClosed) do
    external .callbackFailure
    modifyStream fun s => { s with rstSubmitted := true }

def responseHeadersTooLargeMessage : String := "received metadata size exceeds hard limit"

/-- The first local condition wins, even when the wake of a cancel has not arrived yet. -/
def headersRejection (s : ClientStreamState) : Status :=
  if s.cancelRequested ∧ ¬s.appReleased then cancelStatus
  else .init .resourceExhausted responseHeadersTooLargeMessage

def rejectClientStreamResponseHeaders : ClientM Unit := do
  modifyStream fun s => { s.resetHeaderBlock .none with responseHeadersTooLarge := true }
  lock
  modifyStream fun s => s.setForcedStreamStatus (headersRejection s)
  failClientStreamOnLoop (.init .resourceExhausted responseHeadersTooLargeMessage)

/-- The answer says whether the field is to be stored. -/
def accountResponseHeader (nameLength valueLength : ℕ) : ClientM Bool := do
  let w ← get
  let charged := accountResponseHeaderField w.stream.responseHeaderListSize nameLength valueLength
    w.maxResponseHeaderListSize
  if w.stream.responseHeadersTooLarge then pure false
  else match charged with
    | none => do
      rejectClientStreamResponseHeaders
      pure false
    | some total => do
      modifyStream fun s => { s with responseHeaderListSize := total }
      pure true

def appendResponseMetadata (name value : Bytes) : ClientM Unit := do
  let w ← get
  match Metadata.appendDecoded name value ⟨w.env.faults, w.stream.blockMetadata⟩ with
  | .ok _ metadata =>
    modify fun w => { w with
      env := { w.env with faults := metadata.allocator }
      stream := { w.stream with blockMetadata := metadata.entries } }
  | .error .outOfMemory metadata =>
    modify fun w => { w with env := { w.env with faults := metadata.allocator } }
    throw .callbackFailure
  | .error _ metadata =>
    modify fun w => { w with
      env := { w.env with faults := metadata.allocator }
      stream := { w.stream with responseMetadataInvalid := true } }

def processClientResponseMetadata (name value : Bytes) : ClientM Unit := do
  let w ← get
  let charged := preflightRetainedMetadata w.stream.retainedResponseMetadataSize name value
    w.maxResponseHeaderListSize
  if isResponseMetadata name then
    match charged with
    | .error .responseHeadersTooLarge => rejectClientStreamResponseHeaders
    | .error _ => modifyStream fun s => { s with responseMetadataInvalid := true }
    | .ok total => do
      modifyStream fun s => { s with retainedResponseMetadataSize := total }
      appendResponseMetadata name value
  else when (isMalformedResponseMetadataName name) <|
    modifyStream fun s => { s with responseMetadataInvalid := true }

def maxU16 : ℕ := 2 ^ 16 - 1

def storeResponseHeader (name value : Bytes) : ClientM Unit := do
  if name = ascii ":status" then
    modifyStream fun s => { s with httpStatus := parseUnsigned maxU16 value }
  else if name = ascii "content-type" then
    modifyStream fun s => { s with contentTypeGrpc := (ascii "application/grpc").isPrefixOf value }
  else if name = ascii "grpc-status" then
    modifyStream fun s => { s with blockGrpcStatus := some (parseGrpcStatus value) }
  else if name = ascii "grpc-message" then do
    external .callbackFailure
    modifyStream fun s => { s with blockGrpcMessage := some value }
  else if name = ascii "grpc-encoding" then
    match Compression.parse value with
    | none => modifyStream fun s => { s with responseEncodingInvalid := true }
    | some compression =>
      modifyStream fun s => { s with
        responseCompression := compression
        decoder := { s.decoder with compression := compression } }
  else processClientResponseMetadata name value

def onHeader (name value : Bytes) : ClientM Unit := do
  if ← accountResponseHeader name.length value.length then storeResponseHeader name value

def onInvalidHeader (nameLength valueLength : ℕ) : ClientM Unit := do
  let _ ← accountResponseHeader nameLength valueLength

def onBeginHeaders (kind : HeaderKind) : ClientM Unit :=
  when (kind ≠ .none) <|
    modifyStream fun s => { s.resetHeaderBlock kind with
      sawResponseHeaders := s.sawResponseHeaders || kind = .response }

def copyMetadata (initial : Bool) : List Entry → ClientM Unit
  | [] => pure ()
  | entry :: rest => do
    external .callbackFailure
    modifyStream (·.retain initial [entry])
    copyMetadata initial rest

/-- The answer says whether the block is valid. -/
def finishClientHeaderBlock (endStream : Bool) : ClientM Bool := do
  let s := (← get).stream
  let trailersOnly := s.blockKind = .response ∧ s.blockGrpcStatus.isSome
  if trailersOnly ∧ ¬endStream then do
    modifyStream fun s => { s with blockKind := .none }
    pure false
  else do
    let initial : Bool := s.blockKind = .response ∧ ¬trailersOnly
    copyMetadata initial s.blockMetadata
    modifyStream fun s => { s with
      grpcStatus := s.blockGrpcStatus.or s.grpcStatus
      grpcMessage := s.blockGrpcMessage.or s.grpcMessage
      blockGrpcMessage := none
      blockKind := .none }
    when (initial ∧ ¬s.headersCalled) do
      modifyStream fun s => { s with headersCalled := true }
      invokeHeadersCallback
    pure true

def onHeadersFrame (endStream : Bool) : ClientM Unit := do
  let valid ← finishClientHeaderBlock endStream
  when (¬valid) (failClientStreamOnLoop (.init .internal "grpc-status before end of stream"))
  when endStream (modifyStream fun s => { s with remoteEndSeen := true })

def creditConnection (length : ℕ) : ClientM Unit := do
  external .callbackFailure
  modifyLog fun log => { log with connectionCredit := log.connectionCredit + length }

/-- The stream's credit for a chunk is kept back while the application has paused. -/
def creditStream (length : ℕ) : ClientM Unit := do
  let s := (← get).stream
  if s.receivePaused then
    match checkedAdd s.deferredStreamCredit length with
    | none => throw .callbackFailure
    | some credit => modifyStream fun s => { s with deferredStreamCredit := credit }
  else do
    external .callbackFailure
    modifyLog fun log => { log with streamCredit := log.streamCredit + length }

def decodeFailure : StreamError → Status
  | .frame .messageTooLarge | .bufferLimitExceeded =>
    .init .resourceExhausted "response message too large"
  | _ => .init .internal "malformed streaming response"

def feedFailure : FrameError → Status
  | .bufferLimitExceeded => .init .resourceExhausted "inbound stream buffer is full"
  | _ => .init .internal "malformed streaming response"

/-- `onDataChunk` from the decoder's answer on. -/
def onDataFed (length : ℕ) : ClientM Unit := do
  creditConnection length
  let failure ← tryCatch (do decodeAvailableMessages; pure none) fun err => pure (some err)
  match failure with
  | some err => failClientStreamOnLoop (decodeFailure err)
  | none => creditStream length

def onDataChunk (data : Bytes) : ClientM Unit := do
  modifyLog fun log => { log with received := log.received ++ data }
  let s := (← get).stream
  if s.responseHeadersTooLarge then creditConnection data.length
  else do
    let oom ← drawFault
    match s.decoder.feedBounded data (s.limits.maxInboundBufferSize - s.inboundBuffered) oom with
    | (.error err, decoder) => do
      modify fun w => { w with
        stream := { w.stream with decoder := decoder }
        log := { w.log with refused := true } }
      failClientStreamOnLoop (feedFailure err)
      creditConnection data.length
    | (.ok _, decoder) => do
      modifyStream fun s => { s with decoder := decoder }
      onDataFed data.length

def closeOutcome (s : ClientStreamState) (errorCode now : ℕ) : ClientStreamState :=
  if s.cancelRequested ∧ ¬s.appReleased then
    s.setForcedStreamStatus cancelStatus
  else if errorCode = cancelCode ∧ hasExpired s.deadline now then
    { s.setForcedStreamStatus (.init .deadlineExceeded "deadline exceeded") with
      deadlineExpired := true }
  else s

/-- `onStreamClose` once it has seen whether the stream was cancelled or released. -/
def settleClose (errorCode now : ℕ) : ClientM Unit := do
  modifyStream (closeOutcome · errorCode now)
  let s := (← get).stream
  when (s.terminal ∨ s.forcedStatus.isSome ∨ s.appReleased ∨ (¬s.receivePaused ∧ s.inbound = [])) do
    finalizeClientStream
    releaseStreamLoopOwnership

def onStreamClose (errorCode now : ℕ) : ClientM Unit := do
  modify fun w => { w with
    mapped := false
    stream := { w.stream with
      deadlineEntry := none
      transportClosed := true
      streamError := errorCode } }
  lock
  modifyStream fun s => { s with sendOpen := false }
  settleClose errorCode now

/-! ## Deadlines and GOAWAY -/

def expireDeadlines (now : ℕ) : ClientM Unit := do
  match (← get).stream.deadlineEntry with
  | none => pure ()
  | some expiry =>
    when (expiry ≤ now) do
      removeStreamDeadline
      let s := (← get).stream
      when (s.deadline = some expiry ∧ ¬s.deadlineExpired ∧ ¬s.terminal ∧ s.loopOwned) do
        modifyStream fun s => { s with deadlineExpired := true }
        if s.streamId = none ∨ s.transportClosed then giveUp .deadlineExceeded "deadline exceeded"
        else when (← get).mapped do
          modifyStream (·.setForcedStreamStatus (.init .deadlineExceeded "deadline exceeded"))
          when (¬s.rstSubmitted) do
            external .deadlineCancellationFailed
            modifyStream fun s => { s with rstSubmitted := true }

def goAwayRejectsStream (streamId : Option ℕ) (lastStreamId : ℕ) : Bool :=
  match streamId with
  | none => true
  | some id => lastStreamId < id

def goAwayStatus : Status := .init .unavailable "connection received GOAWAY"

/-- The loop of `terminalizeStreamsForGoAway` over the active streams. -/
def terminalizeActiveForGoAway (lastStreamId : ℕ) : ClientM Unit := do
  let w ← get
  when (w.mapped ∧ goAwayRejectsStream w.stream.streamId lastStreamId) do
    modifyStream (·.setForcedStreamStatus goAwayStatus)
    terminalizeStream ⟨w.stream.forcedStatus.getD goAwayStatus, false⟩
    when (¬(← get).stream.rstSubmitted) do
      external .callbackFailure
      modifyStream fun s => { s with rstSubmitted := true }

/-- The loop of `terminalizeStreamsForGoAway` over the streams that are not submitted. -/
def terminalizePendingForGoAway : ClientM Unit := do
  let w ← get
  when (w.registered ∧ w.stream.streamId = none)
    (giveUp .unavailable "connection received GOAWAY")

def terminalizeStreamsForGoAway (lastStreamId : ℕ) : ClientM Unit := do
  terminalizeActiveForGoAway lastStreamId
  terminalizePendingForGoAway

def onGoAway (lastStreamId : ℕ) : ClientM Unit := do
  when ((← get).connection = .active) do
    modify fun w => { w with connection := .draining }
    terminalizeStreamsForGoAway lastStreamId

/-! ## Runs -/

/-- What happens next to the stream.  A frame, a close or a data request of nghttp2 concerns this
stream; `connection` stands for the setup and the replacement of connections, which the channel
does only while no stream is mapped. -/
inductive Event where
  | app (action : AppAction)
  | wake (now id : ℕ)
  | read (outputLength : ℕ)
  | beginHeaders (kind : HeaderKind)
  | header (name value : Bytes)
  | invalidHeader (nameLength valueLength : ℕ)
  | headersFrame (endStream : Bool)
  | data (bytes : Bytes)
  | endStream
  | streamClose (errorCode now : ℕ)
  | expire (now : ℕ)
  | goAway (lastStreamId : ℕ)
  | transportFailure (reason : String)
  | stop (reason : String)
  | connection (next : ConnectionState)
  deriving DecidableEq, Repr

def failCallback : ClientM Unit := do
  modifyLog fun log => { log with callbackFailed := true }
  handleTransportFailure "HTTP/2 connection failed"

/-- A callback of nghttp2 on the stream found under its id. -/
def onMapped (x : ClientM Unit) : ClientM Unit := do
  when (← get).mapped (tryCatch x fun _ => failCallback)

def changeConnection (next : ConnectionState) : ClientM Unit := do
  let w ← get
  when (¬w.mapped ∧ ¬w.stopping ∧ next ≠ .draining) <|
    modify fun w => { w with
      connection := next
      everActive := w.everActive || next = .active }

def handleEvent : Event → ClientM Unit
  | .app action => perform false action
  | .wake now id => processStreamWake now id
  | .read outputLength => onMapped (readClientStreamData outputLength)
  | .beginHeaders kind => onMapped (onBeginHeaders kind)
  | .header name value => onMapped (onHeader name value)
  | .invalidHeader nameLength valueLength => onMapped (onInvalidHeader nameLength valueLength)
  | .headersFrame endStream => onMapped (onHeadersFrame endStream)
  | .data bytes => onMapped (onDataChunk bytes)
  | .endStream => onMapped (modifyStream fun s => { s with remoteEndSeen := true })
  | .streamClose errorCode now => onMapped (onStreamClose errorCode now)
  | .expire now => tryCatch (expireDeadlines now) fun _ => beginStop "deadline cancellation failed"
  | .goAway lastStreamId =>
    tryCatch (onGoAway lastStreamId) fun _ => handleTransportFailure "HTTP/2 connection failed"
  | .transportFailure reason => handleTransportFailure reason
  | .stop reason => beginStop reason
  | .connection next => changeConnection next

def step (w : World) (event : Event) : World := exec (handleEvent event) w

/-- The frames of an OK response with the given bytes of DATA, for a request that has been ended,
and the close that follows them. -/
def answer (data : Bytes) : List Event :=
  [.wake 0 1, .app .closeSend, .wake 0 1, .read 100,
    .beginHeaders .response, .header (ascii ":status") (ascii "200"),
    .header (ascii "content-type") (ascii "application/grpc"), .headersFrame false,
    .data data, .beginHeaders .trailers, .header (ascii "grpc-status") (ascii "0"),
    .headersFrame true, .streamClose noError 0]

/-- The stream as `openStream` returns it, on a channel in any state but the stopped ones. -/
structure World.IsOpened (w : World) : Prop where
  stream : w.stream = .init w.stream.callbacks w.stream.limits w.stream.requestCompression
    w.stream.deadline
  registered : w.registered
  unmapped : w.mapped = false
  running : w.stopping = false
  idle : w.inCallback = false
  unsent : w.sending = []
  log : w.log = {}

end GrpcLite.Client
