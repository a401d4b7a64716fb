import GrpcLite.Server.Stream
import GrpcLite.Wire.Message

/-!
# The channel's record of one client stream

`ClientStreamState` of `channel.zig`, without its pointers: `impl` is null exactly when the loop
has given up ownership, and the entry in the channel's deadline heap is replaced by its expiry.
-/

namespace GrpcLite.Client

export Server (BufferLimits ReceiveAction)

inductive ConnectionState where
  | resolving
  | connecting
  | handshaking
  | active
  | draining
  | backingOff
  | closing
  deriving DecidableEq, Repr

inductive HeaderKind where
  | none
  | response
  | trailers
  deriving DecidableEq, Repr

structure OutboundMessage where
  frameBytes : Bytes
  offset : ℕ := 0
  deriving DecidableEq, Repr

def OutboundMessage.remaining (item : OutboundMessage) : Bytes := item.frameBytes.drop item.offset

structure InboundMessage where
  payload : Bytes
  compression : Compression
  bufferedSize : ℕ
  deriving DecidableEq, Repr

/-- Which of the optional callbacks the application registered. -/
structure ClientCallbacks where
  onHeaders : Bool := true
  onRemoteEnd : Bool := true
  onWritable : Bool := true
  deriving DecidableEq, Repr

def noError : ℕ := 0

def cancelCode : ℕ := 8

def enhanceYourCalm : ℕ := 11

/-- `outbound` and `inbound` hold the items from their heads on, and `streamId` is `none` before
the request is submitted. -/
structure ClientStreamState where
  callbacks : ClientCallbacks := {}
  limits : BufferLimits := {}
  requestCompression : Compression := .identity
  deadline : Option ℕ := none
  deadlineEntry : Option ℕ := none
  appOwned : Bool := true
  loopOwned : Bool := true
  appReleased : Bool := false
  terminal : Bool := false
  sendOpen : Bool := true
  cancelRequested : Bool := false
  resumeRequested : Bool := false
  backpressureRequested : Bool := false
  outbound : List OutboundMessage := []
  outboundBuffered : ℕ := 0
  streamId : Option ℕ := none
  wakeQueued : Bool := false
  providerDeferred : Bool := false
  providerEof : Bool := false
  rstSubmitted : Bool := false
  deadlineExpired : Bool := false
  receivePaused : Bool := false
  deferredStreamCredit : ℕ := 0
  inbound : List InboundMessage := []
  inboundBuffered : ℕ := 0
  decoder : Frame.Decoder
  responseCompression : Compression := .identity
  responseEncodingInvalid : Bool := false
  responseMetadataInvalid : Bool := false
  responseHeaderListSize : ℕ := 0
  retainedResponseMetadataSize : ℕ := 0
  responseHeadersTooLarge : Bool := false
  sawResponseHeaders : Bool := false
  headersCalled : Bool := false
  remoteEndSeen : Bool := false
  remoteEndCalled : Bool := false
  transportClosed : Bool := false
  streamError : ℕ := noError
  httpStatus : Option ℕ := none
  contentTypeGrpc : Bool := false
  grpcStatus : Option ℕ := none
  grpcMessage : Option Bytes := none
  initialMetadata : List Entry := []
  trailingMetadata : List Entry := []
  blockKind : HeaderKind := .none
  blockMetadata : List Entry := []
  blockGrpcStatus : Option ℕ := none
  blockGrpcMessage : Option Bytes := none
  forcedStatus : Option Status := none
  deriving DecidableEq, Repr

namespace ClientStreamState

/-- `ClientStreamState.init` and the first wake that `openStream` queues. -/
def init (callbacks : ClientCallbacks) (limits : BufferLimits) (sendCompression : Compression)
    (deadline : Option ℕ) : ClientStreamState :=
  { callbacks := callbacks
    limits := limits
    requestCompression := sendCompression
    deadline := deadline
    wakeQueued := true
    decoder := { maxMessageSize := limits.maxMessageSize, compression := .identity } }

def enabled (s : ClientStreamState) : Bool :=
  s.appOwned && !s.appReleased && !s.cancelRequested && !s.terminal

def resetHeaderBlock (s : ClientStreamState) (kind : HeaderKind) : ClientStreamState :=
  { s with
    blockMetadata := []
    blockGrpcMessage := none
    blockGrpcStatus := none
    blockKind := kind }

def setForcedStreamStatus (s : ClientStreamState) (value : Status) : ClientStreamState :=
  { s with forcedStatus := some (s.forcedStatus.getD value) }

def retain (s : ClientStreamState) (initial : Bool) (entries : List Entry) : ClientStreamState :=
  { s with
    initialMetadata := if initial then s.initialMetadata ++ entries else s.initialMetadata
    trailingMetadata := if initial then s.trailingMetadata else s.trailingMetadata ++ entries }

end ClientStreamState

def httpStatusCode (httpStatus : ℕ) : Code :=
  match httpStatus with
  | 400 => .internal
  | 401 => .unauthenticated
  | 403 => .permissionDenied
  | 404 => .unimplemented
  | 429 | 502 | 503 | 504 => .unavailable
  | _ => .unknown

def streamErrorStatus (errorCode : ℕ) : Status :=
  if errorCode = cancelCode then .init .cancelled "stream cancelled"
  else if errorCode = enhanceYourCalm then .init .resourceExhausted "stream rejected by peer"
  else .init .unavailable "stream closed"

/-- A status to report; `fromTrailers` says that its code is the peer's `grpc-status`. -/
structure Outcome where
  status : Status
  fromTrailers : Bool := false
  deriving DecidableEq, Repr

/-- What `finalizeClientStream` reports for a stream that the transport has closed.  `oom` says
whether decoding the status message fails. -/
def finalOutcome (s : ClientStreamState) (oom : Bool) : Outcome :=
  match s.forcedStatus with
  | some forced => ⟨forced, false⟩
  | none =>
    if s.streamError ≠ noError then ⟨streamErrorStatus s.streamError, false⟩
    else if ¬s.sawResponseHeaders then ⟨.init .unknown "missing response headers", false⟩
    else match s.httpStatus with
      | none => ⟨.init .unknown "missing HTTP status", false⟩
      | some httpStatus =>
        if httpStatus ≠ 200 then ⟨.init (httpStatusCode httpStatus) "HTTP request failed", false⟩
        else if ¬s.contentTypeGrpc then ⟨.init .unknown "invalid gRPC content-type", false⟩
        else match s.grpcStatus with
          | none => ⟨.init .unknown "missing grpc-status", false⟩
          | some grpcStatus =>
            if s.responseEncodingInvalid then
              ⟨.init .unimplemented "response compression is not supported", false⟩
            else if s.responseMetadataInvalid then
              ⟨.init .internal "invalid response metadata", false⟩
            else match s.decoder.finish with
              | .error _ => ⟨.init .internal "malformed streaming response", false⟩
              | .ok _ =>
                match s.grpcMessage with
                | none => ⟨⟨.fromInt grpcStatus, []⟩, true⟩
                | some encoded =>
                  if oom then ⟨.init .unknown "invalid grpc-message", false⟩
                  else ⟨⟨.fromInt grpcStatus, Message.decode encoded⟩, true⟩

end GrpcLite.Client
