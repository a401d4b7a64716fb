import GrpcLite.Client.Loop
import GrpcLite.Client.Operational

/-!
# One unary call

`Operation` of `channel.zig` and what the channel's event loop does with it: the call waits until
the connection is active, its request is submitted to nghttp2, the callbacks of nghttp2 collect
the response, and `finish` reports one outcome to the caller.
-/

namespace GrpcLite.Client

open Prog

/-- Where the channel keeps a call: in the list `enqueue` appends to, in the waiting list, in
`operations` under its stream id, or nowhere.  A call is lost when a request of a later session
takes its entry in `operations`. -/
inductive Place where
  | pending
  | waiting
  | mapped
  | detached
  | lost
  deriving DecidableEq, Repr

def Place.kept : Place → Bool
  | .pending | .waiting | .mapped => true
  | .detached | .lost => false

structure Operation where
  path : Bytes := []
  requestFrame : Bytes := []
  requestOffset : ℕ := 0
  requestMetadata : List Entry := []
  requestCompression : Compression := .identity
  maxResponseSize : ℕ
  deadline : Option ℕ := none
  deadlineEntry : Option ℕ := none
  timeoutHeader : Bytes := []
  streamId : Option ℕ := none
  finished : Bool := false
  operationalActive : Bool := true
  operationalPending : Bool := true
  outcomeSet : Bool := false
  deadlineExpired : Bool := false
  responseCode : Code := .unknown
  responseMessage : Bytes := []
  responsePayload : Option Bytes := none
  responseCompression : Compression := .identity
  responseEncodingInvalid : Bool := false
  responseMetadataInvalid : Bool := false
  responseBody : Bytes := []
  responseTooLarge : Bool := false
  responseHeaderListSize : ℕ := 0
  retainedResponseMetadataSize : ℕ := 0
  responseHeadersTooLarge : Bool := false
  responseHeaderResetSubmitted : Bool := false
  sawResponseHeaders : Bool := false
  httpStatus : Option ℕ := none
  contentTypeGrpc : Bool := false
  grpcStatus : Option ℕ := none
  grpcMessage : Option Bytes := none
  initialMetadata : List Entry := []
  trailingMetadata : List Entry := []
  blockKind : HeaderKind := .none
  blockMetadata : List Entry := []
  blockGrpcStatus : Option ℕ := none
  blockGrpcMessage : Option Bytes := none
  deriving DecidableEq, Repr

/-- What a finished call gives its caller, as a `call.Result` or in `on_complete`. -/
structure Completion where
  status : Status
  payload : Bytes
  responseCompression : Compression
  initialMetadata : List Entry
  trailingMetadata : List Entry
  deriving DecidableEq, Repr

/-- What has happened to the call: the header lists of the requests submitted for it, the bytes of
its request handed to nghttp2, the bytes of its DATA frames with the credit returned for them,
whether a callback for one of its frames failed, and what its caller was given. -/
structure OperationLog where
  submitted : List (List (Bytes × Bytes)) := []
  produced : Bytes := []
  endSent : Bool := false
  received : Bytes := []
  connectionCredit : ℕ := 0
  streamCredit : ℕ := 0
  callbackFailed : Bool := false
  completions : List Completion := []
  deriving DecidableEq, Repr

/-- One unary call with the parts of its channel that it uses.  `orphaned` says that the session it
was submitted to is gone, and `faults` which of the next fallible external calls fail. -/
structure OperationWorld where
  operation : Operation
  place : Place := .pending
  orphaned : Bool := false
  connection : ConnectionState := .active
  stopping : Bool := false
  reconnect : Option Bool := none
  everActive : Bool := true
  tls : Bool := false
  authority : Bytes := []
  userAgent : Bytes := []
  maxResponseHeaderListSize : ℕ := 64 * 1024
  stats : OperationalStats := {}
  gzip : Gzip
  faults : List Bool := []
  log : OperationLog := {}

abbrev OperationM := EStateM StreamError OperationWorld

namespace Operation

def modifyOperation (f : Operation → Operation) : OperationM Unit :=
  modify fun w => { w with operation := f w.operation }

def modifyLog (f : OperationLog → OperationLog) : OperationM Unit :=
  modify fun w => { w with log := f w.log }

def modifyStats (f : OperationalStats → OperationalStats) : OperationM Unit :=
  modify fun w => { w with stats := f w.stats }

/-- Whether the next fallible external call fails. -/
def drawFault : OperationM Bool := do
  match (← get).faults with
  | [] => pure false
  | fails :: rest =>
    modify fun w => { w with faults := rest }
    pure fails

def external (error : StreamError) : OperationM Unit := do
  let fails ← drawFault
  ensure (¬fails) error

/-! ## The outcome -/

def record (op : Operation) (outcome : Status) : Operation :=
  { op with responseMessage := outcome.message, responseCode := outcome.code, outcomeSet := true }

def setOutcome (outcome : Status) : OperationM Unit := do
  when (¬(← get).operation.outcomeSet) do
    external .outOfMemory
    modifyOperation (·.record outcome)

def trySetOutcome (outcome : Status) : OperationM Unit :=
  tryCatch (setOutcome outcome) fun _ => pure ()

def setStaticOutcome (outcome : Status) : OperationM Unit := do
  when (¬(← get).operation.outcomeSet) (modifyOperation (·.record outcome))

def endOperationalPending : OperationM Unit := do
  when (← get).operation.operationalPending do
    modifyOperation fun op => { op with operationalPending := false }
    modifyStats (·.subtract .pendingUnaryCalls 1)

def completion (op : Operation) : Completion :=
  { status := ⟨op.responseCode, op.responseMessage⟩
    payload := op.responsePayload.getD []
    responseCompression := op.responseCompression
    initialMetadata := op.initialMetadata
    trailingMetadata := op.trailingMetadata }

def finish : OperationM Unit := do
  modifyOperation fun op => { op with finished := true }
  endOperationalPending
  let op := (← get).operation
  when op.operationalActive do
    modifyOperation fun op => { op with operationalActive := false }
    modifyStats (·.terminal .activeUnaryCalls op.responseCode)
  modifyLog fun log => { log with completions := log.completions ++ [op.completion] }

/-- The call ends with a status that its channel gives it, unless it has one. -/
def giveUp (code : Code) (reason : String) : OperationM Unit := do
  trySetOutcome (.init code reason)
  finish

/-! ## The response -/

def resetHeaderBlock (op : Operation) (kind : HeaderKind) : Operation :=
  { op with
    blockMetadata := []
    blockGrpcMessage := none
    blockGrpcStatus := none
    blockKind := kind }

def retain (op : Operation) (trailing : Bool) (entries : List Entry) : Operation :=
  { op with
    trailingMetadata := if trailing then op.trailingMetadata ++ entries else op.trailingMetadata
    initialMetadata := if trailing then op.initialMetadata else op.initialMetadata ++ entries }

def copyMetadata (trailing : Bool) : List Entry → OperationM Unit
  | [] => pure ()
  | entry :: rest => do
    external .callbackFailure
    modifyOperation (·.retain trailing [entry])
    copyMetadata trailing rest

/-- The answer says whether the block is valid. -/
def finishHeaderBlock (endStream : Bool) : OperationM Bool := do
  let op := (← get).operation
  let trailersOnly := op.blockKind = .response ∧ op.blockGrpcStatus.isSome
  if trailersOnly ∧ ¬endStream then do
    modifyOperation fun op => { op with blockKind := .none }
    pure false
  else do
    let trailing : Bool := op.blockKind = .trailers ∨ trailersOnly
    copyMetadata trailing op.blockMetadata
    modifyOperation fun op => { op with
      grpcStatus := op.blockGrpcStatus.or op.grpcStatus
      grpcMessage := op.blockGrpcMessage.or op.grpcMessage
      blockGrpcMessage := none
      blockKind := .none }
    pure true

/-- The checks of `finalize` before the status of the peer counts. -/
def responseStatus (op : Operation) : Except Status ℕ :=
  if ¬op.sawResponseHeaders then .error (.init .unknown "missing response headers")
  else match op.httpStatus with
    | none => .error (.init .unknown "missing HTTP status")
    | some httpStatus =>
      if httpStatus ≠ 200 then .error (.init (httpStatusCode httpStatus) "HTTP request failed")
      else if ¬op.contentTypeGrpc then .error (.init .unknown "invalid gRPC content-type")
      else match op.grpcStatus with
        | none => .error (.init .unknown "missing grpc-status")
        | some grpcStatus =>
          if op.responseEncodingInvalid then
            .error (.init .unimplemented "response compression is not supported")
          else if op.responseTooLarge then
            .error (.init .resourceExhausted "response message too large")
          else .ok grpcStatus

def decodeGrpcMessage : OperationM (Option Bytes) := do
  match (← get).operation.grpcMessage with
  | none => pure (some [])
  | some encoded =>
    let fails ← drawFault
    pure (if fails then none else some (Message.decode encoded))

def decodeResponse : OperationM (Except FrameError Bytes) := do
  let feedFails ← drawFault
  let nextFails ← drawFault
  let extraFails ← drawFault
  let w ← get
  pure (Frame.decodeUnaryWithCompression w.gzip w.operation.responseBody
    w.operation.maxResponseSize w.operation.responseCompression
    [feedFails, nextFails, extraFails])

def unaryFailure : FrameError → Status
  | .messageTooLarge => .init .resourceExhausted "response message too large"
  | _ => .init .internal "malformed unary response"

def settle : OperationM Unit := do
  trySetOutcome (.init .unknown "response failed")
  finish

def finalizeStatus (grpcStatus : ℕ) : OperationM Unit := do
  match ← decodeGrpcMessage with
  | none => giveUp .unknown "invalid grpc-message"
  | some text =>
    if Code.fromInt grpcStatus ≠ .ok then do
      trySetOutcome ⟨.fromInt grpcStatus, text⟩
      settle
    else
      match ← decodeResponse with
      | .error err => do
        trySetOutcome (unaryFailure err)
        finish
      | .ok payload => do
        modifyOperation fun op => { op with
          responsePayload := some payload
          responseCompression := if op.responseBody.head? = some 1 then .gzip else .identity }
        trySetOutcome ⟨.ok, text⟩
        settle

def finalize (streamError : ℕ) : OperationM Unit := do
  let op := (← get).operation
  if op.outcomeSet then finish
  else if streamError ≠ noError then do
    trySetOutcome (streamErrorStatus streamError)
    finish
  else
    match op.responseStatus with
    | .error failure => do
      trySetOutcome failure
      settle
    | .ok grpcStatus => finalizeStatus grpcStatus

/-! ## Callbacks of nghttp2 -/

def readRequestData (outputLength : ℕ) : OperationM Unit :=
  modify fun w =>
    let chunk := (w.operation.requestFrame.drop w.operation.requestOffset).take outputLength
    let offset := w.operation.requestOffset + chunk.length
    { w with
      operation := { w.operation with requestOffset := offset }
      log := { w.log with
        produced := w.log.produced ++ chunk
        endSent := w.log.endSent || offset = w.operation.requestFrame.length } }

def headersTooLarge : Status :=
  .init .resourceExhausted "received metadata size exceeds hard limit"

def rejectOperationResponseHeaders : OperationM Unit := do
  modifyOperation fun op => { op.resetHeaderBlock .none with responseHeadersTooLarge := true }
  setStaticOutcome headersTooLarge
  when (¬(← get).operation.responseHeaderResetSubmitted) do
    external .callbackFailure
    modifyOperation fun op => { op with responseHeaderResetSubmitted := true }

/-- The answer says whether the field is to be stored. -/
def accountResponseHeader (nameLength valueLength : ℕ) : OperationM Bool := do
  let w ← get
  let charged := accountResponseHeaderField w.operation.responseHeaderListSize nameLength
    valueLength w.maxResponseHeaderListSize
  if w.operation.responseHeadersTooLarge then pure false
  else match charged with
    | none => do
      rejectOperationResponseHeaders
      pure false
    | some total => do
      modifyOperation fun op => { op with responseHeaderListSize := total }
      pure true

def appendResponseMetadata (name value : Bytes) : OperationM Unit := do
  let w ← get
  match Metadata.appendDecoded name value ⟨w.faults, w.operation.blockMetadata⟩ with
  | .ok _ metadata =>
    modify fun w => { w with
      faults := metadata.allocator
      operation := { w.operation with blockMetadata := metadata.entries } }
  | .error .outOfMemory metadata =>
    modify fun w => { w with faults := metadata.allocator }
    throw .callbackFailure
  | .error _ metadata =>
    modify fun w => { w with
      faults := metadata.allocator
      operation := { w.operation with responseMetadataInvalid := true } }

def processResponseMetadata (name value : Bytes) : OperationM Unit := do
  let w ← get
  let charged := preflightRetainedMetadata w.operation.retainedResponseMetadataSize name value
    w.maxResponseHeaderListSize
  if isResponseMetadata name then
    match charged with
    | .error .responseHeadersTooLarge => rejectOperationResponseHeaders
    | .error _ => modifyOperation fun op => { op with responseMetadataInvalid := true }
    | .ok total => do
      modifyOperation fun op => { op with retainedResponseMetadataSize := total }
      appendResponseMetadata name value
  else when (isMalformedResponseMetadataName name) <|
    modifyOperation fun op => { op with responseMetadataInvalid := true }

def storeResponseHeader (name value : Bytes) : OperationM Unit := do
  if name = ascii ":status" then
    modifyOperation fun op => { op with httpStatus := parseUnsigned maxU16 value }
  else if name = ascii "content-type" then
    modifyOperation fun op =>
      { op with contentTypeGrpc := (ascii "application/grpc").isPrefixOf value }
  else if name = ascii "grpc-status" then
    modifyOperation fun op => { op with blockGrpcStatus := some (parseGrpcStatus value) }
  else if name = ascii "grpc-message" then do
    external .callbackFailure
    modifyOperation fun op => { op with blockGrpcMessage := some value }
  else if name = ascii "grpc-encoding" then
    match Compression.parse value with
    | none => modifyOperation fun op => { op with responseEncodingInvalid := true }
    | some compression => modifyOperation fun op => { op with responseCompression := compression }
  else processResponseMetadata name value

def onHeader (name value : Bytes) : OperationM Unit := do
  if ← accountResponseHeader name.length value.length then storeResponseHeader name value

def onInvalidHeader (nameLength valueLength : ℕ) : OperationM Unit := do
  let _ ← accountResponseHeader nameLength valueLength

def onBeginHeaders (kind : HeaderKind) : OperationM Unit :=
  when (kind ≠ .none) <|
    modifyOperation fun op => { op.resetHeaderBlock kind with
      sawResponseHeaders := op.sawResponseHeaders || kind = .response }

def blockFailure (valid : Bool) : Status :=
  .init .internal
    (if valid then "invalid response metadata" else "grpc-status before end of stream")

def onHeadersFrame (endStream : Bool) : OperationM Unit := do
  let valid ← finishHeaderBlock endStream
  let op := (← get).operation
  when ((¬valid ∨ op.responseMetadataInvalid) ∧ ¬op.outcomeSet) do
    setOutcome (blockFailure valid)
    when (¬endStream) (external .callbackFailure)

def wireMessageLimit (maxMessageSize : ℕ) : ℕ :=
  match checkedAdd (maxMessageSize / 8) 1024 with
  | none => maxU64
  | some overhead =>
    match checkedAdd overhead Frame.headerSize with
    | none => maxU64
    | some totalOverhead => (checkedAdd maxMessageSize totalOverhead).getD maxU64

def creditConnection (length : ℕ) : OperationM Unit := do
  external .callbackFailure
  modifyLog fun log => { log with connectionCredit := log.connectionCredit + length }

def creditStream (length : ℕ) : OperationM Unit := do
  external .callbackFailure
  modifyLog fun log => { log with streamCredit := log.streamCredit + length }

def collectBody (data : Bytes) : OperationM Unit := do
  let op := (← get).operation
  if wireMessageLimit op.maxResponseSize - op.responseBody.length < data.length then
    modifyOperation fun op => { op with responseTooLarge := true }
  else do
    external .callbackFailure
    modifyOperation fun op => { op with responseBody := op.responseBody ++ data }

def onDataChunk (data : Bytes) : OperationM Unit := do
  modifyLog fun log => { log with received := log.received ++ data }
  if (← get).operation.responseHeadersTooLarge then creditConnection data.length
  else do
    collectBody data
    creditConnection data.length
    creditStream data.length

/-- The loop takes the call out of the place where it keeps it. -/
def detach : OperationM Unit :=
  modify fun w => { w with
    place := .detached
    operation := { w.operation with deadlineEntry := none } }

def onStreamClose (errorCode : ℕ) : OperationM Unit := do
  detach
  finalize errorCode

/-! ## Submission -/

def deadlineHeapInsertOrUpdate (deadline : ℕ) : OperationM Unit := do
  when ((← get).operation.deadlineEntry = none) (external .outOfMemory)
  modifyOperation fun op => { op with deadlineEntry := some deadline }

def insertDeadline : OperationM Unit := do
  match (← get).operation.deadline with
  | none => pure ()
  | some deadline => deadlineHeapInsertOrUpdate deadline

/-- A new call enters the waiting list and the deadline heap. -/
def appendWaitingOperation : OperationM Unit := do
  modify fun w => { w with place := .waiting }
  tryCatch insertDeadline fun _ => do
    modify fun w => { w with place := .detached }
    giveUp .unavailable "request submission failed"

def requestHeaders (w : OperationWorld) : List (Bytes × Bytes) :=
  [(ascii ":method", ascii "POST"), (ascii ":scheme", ascii (if w.tls then "https" else "http")),
    (ascii ":path", w.operation.path),
    (ascii ":authority", w.authority),
    (ascii "content-type", ascii "application/grpc"),
    (ascii "te", ascii "trailers"),
    (ascii "grpc-encoding", w.operation.requestCompression.name),
    (ascii "grpc-accept-encoding", ascii "identity,gzip"),
    (ascii "user-agent", w.userAgent)] ++
  (if w.operation.timeoutHeader.isEmpty then []
    else [(ascii "grpc-timeout", w.operation.timeoutHeader)]) ++
  w.operation.requestMetadata.map Entry.header

/-- The allocations of the header list and the request itself, to which nghttp2 gives `id`. -/
def submitOperation (id : ℕ) : OperationM Unit := do
  external .outOfMemory
  external .nativeFailure
  modify fun w => { w with
    place := .mapped
    orphaned := false
    operation := { w.operation with streamId := some id }
    log := { w.log with submitted := w.log.submitted ++ [requestHeaders w] } }

def startOperation (now id : ℕ) : OperationM Unit := do
  modify fun w => { w with place := .detached }
  let op := (← get).operation
  if hasExpired op.deadline now then do
    modifyOperation fun op => { op with deadlineEntry := none, deadlineExpired := true }
    giveUp .deadlineExceeded "deadline exceeded"
  else do
    modifyOperation fun op => { op with
      timeoutHeader := (op.deadline.map fun deadline => formatTimeout (deadline - now)).getD
        op.timeoutHeader }
    endOperationalPending
    tryCatch (submitOperation id) fun _ => do
      modifyOperation fun op => { op with deadlineEntry := none }
      giveUp .unavailable "request submission failed"

def processPending (now id : ℕ) : OperationM Unit := do
  when ((← get).place = .pending) appendWaitingOperation
  let w ← get
  when (w.connection = .active ∧ w.place = .waiting) (startOperation now id)

/-! ## Deadlines and the end of the connection -/

def expireDeadlines (now : ℕ) : OperationM Unit := do
  match (← get).operation.deadlineEntry with
  | none => pure ()
  | some expiry =>
    when (expiry ≤ now) do
      modifyOperation fun op => { op with deadlineEntry := none }
      let w ← get
      when (w.operation.deadline = some expiry ∧ ¬w.operation.deadlineExpired) do
        if w.place = .waiting then do
          modify fun w => { w with place := .detached }
          modifyOperation fun op => { op with deadlineExpired := true }
          giveUp .deadlineExceeded "deadline exceeded"
        else when (w.place = .mapped) do
          modifyOperation fun op => { op with deadlineExpired := true }
          trySetOutcome (.init .deadlineExceeded "deadline exceeded")
          external .deadlineCancellationFailed

def canReconnect (w : OperationWorld) : Bool :=
  match w.reconnect with
  | none => false
  | some allowInitialOffline => w.everActive || allowInitialOffline

def beginStop (reason : String) : OperationM Unit := do
  when (¬(← get).stopping) do
    modify fun w => { w with stopping := true, connection := .closing }
    when (← get).place.kept do
      detach
      giveUp .unavailable reason

def handleTransportFailure (reason : String) : OperationM Unit := do
  let w ← get
  when (¬w.stopping ∧ w.connection ≠ .closing ∧ w.connection ≠ .backingOff) do
    if ¬canReconnect w then beginStop reason
    else do
      modify fun w => { w with connection := .closing }
      when (w.place = .mapped) do
        detach
        giveUp .unavailable reason

/-- `failConnectionCandidate` when the plaintext that came with the end of the TLS handshake cannot
be read.  The activation has submitted the waiting calls by then, and their entries in `operations`
outlive the session. -/
def failConnectionCandidate (reason : String) : OperationM Unit := do
  let w ← get
  when (¬w.stopping ∧ w.tls ∧ w.connection = .active) do
    if ¬canReconnect w then beginStop reason
    else modify fun w => { w with
      connection := .closing
      orphaned := w.orphaned || w.place = .mapped }

/-- `putAssumeCapacity` for another call, to which a later session has given the same stream id. -/
def overwriteEntry : OperationM Unit := do
  let w ← get
  when (w.place = .mapped ∧ w.orphaned ∧ w.connection = .active) <|
    modify fun w => { w with place := .lost }

def onGoAway : OperationM Unit := do
  when ((← get).connection = .active) <|
    modify fun w => { w with connection := .draining }

/-! ## Runs -/

/-- What happens next to the call.  A frame, a close or a data request of nghttp2 concerns its
stream; `connection` stands for the setup and the replacement of connections, which the channel
does only while no call is mapped, or after `candidateFailed`. -/
inductive Event where
  | process (now id : ℕ)
  | read (outputLength : ℕ)
  | beginHeaders (kind : HeaderKind)
  | header (name value : Bytes)
  | invalidHeader (nameLength valueLength : ℕ)
  | headersFrame (endStream : Bool)
  | data (bytes : Bytes)
  | streamClose (errorCode : ℕ)
  | expire (now : ℕ)
  | goAway
  | transportFailure (reason : String)
  | stop (reason : String)
  | connection (next : ConnectionState)
  | candidateFailed (reason : String)
  | overwrite
  deriving DecidableEq, Repr

def failCallback : OperationM Unit := do
  modifyLog fun log => { log with callbackFailed := true }
  handleTransportFailure "HTTP/2 connection failed"

/-- A callback of nghttp2 on the call found under its stream id. -/
def onMapped (x : OperationM Unit) : OperationM Unit := do
  when ((← get).place = .mapped) (tryCatch x fun _ => failCallback)

def changeConnection (next : ConnectionState) : OperationM Unit := do
  let w ← get
  when ((w.place ≠ .mapped ∨ w.orphaned) ∧ ¬w.stopping ∧ next ≠ .draining) <|
    modify fun w => { w with
      connection := next
      everActive := w.everActive || next = .active }

def handleEvent : Event → OperationM Unit
  | .process now id => processPending now id
  | .read outputLength => onMapped (readRequestData outputLength)
  | .beginHeaders kind => onMapped (onBeginHeaders kind)
  | .header name value => onMapped (onHeader name value)
  | .invalidHeader nameLength valueLength => onMapped (onInvalidHeader nameLength valueLength)
  | .headersFrame endStream => onMapped (onHeadersFrame endStream)
  | .data bytes => onMapped (onDataChunk bytes)
  | .streamClose errorCode => onMapped (onStreamClose errorCode)
  | .expire now => tryCatch (expireDeadlines now) fun _ => beginStop "deadline cancellation failed"
  | .goAway => onGoAway
  | .transportFailure reason => handleTransportFailure reason
  | .stop reason => beginStop reason
  | .connection next => changeConnection next
  | .candidateFailed reason => failConnectionCandidate reason
  | .overwrite => overwriteEntry

def step (w : OperationWorld) (event : Event) : OperationWorld := exec (handleEvent event) w

end Operation

structure OperationWorld.IsEnqueued (w : OperationWorld) : Prop where
  operation : w.operation = {
    path := w.operation.path
    requestFrame := w.operation.requestFrame
    requestMetadata := w.operation.requestMetadata
    requestCompression := w.operation.requestCompression
    maxResponseSize := w.operation.maxResponseSize
    deadline := w.operation.deadline }
  place : w.place = .pending
  running : w.stopping = false
  log : w.log = {}

end GrpcLite.Client
