import GrpcLite.Wire.Metadata
import GrpcLite.Wire.Frame

/-!
# The server's record of one stream

`Stream` and `StreamingState` of `server.zig`.  Pointers to shared objects are replaced by what
this stream reads through them: its entry in the reactor's deadline heap and the flags of its
`ServerCallControl`.
-/

namespace GrpcLite.Server

inductive TerminalReason where
  | completed
  | peerCancelled
  | deadlineExceeded
  | serverShutdown
  | transportError
  | localError
  deriving DecidableEq, Repr

inductive InitialMetadataMode where
  | automaticAfterStart
  | explicit
  deriving DecidableEq, Repr

inductive ReceiveAction where
  | continueReceiving
  | pause
  deriving DecidableEq, Repr

structure BufferLimits where
  maxMessageSize : ℕ := 4 * 1024 * 1024
  maxInboundBufferSize : ℕ := 8 * 1024 * 1024
  maxOutboundBufferSize : ℕ := 8 * 1024 * 1024
  deriving DecidableEq, Repr

structure ServerHandler where
  initialMetadataMode : InitialMetadataMode := .automaticAfterStart
  receiveInitiallyPaused : Bool := false
  deriving DecidableEq, Repr

structure OutboundMessage where
  bytes : Bytes
  offset : ℕ := 0
  deriving DecidableEq, Repr

namespace OutboundMessage

def remaining (item : OutboundMessage) : Bytes := item.bytes.drop item.offset

end OutboundMessage

structure ServerContext where
  deadline : Option ℕ := none
  requestCompression : Compression := .identity
  responseCompression : Compression := .identity
  requestMetadata : List Entry := []
  initialMetadata : List Entry := []
  trailingMetadata : List Entry := []
  deriving DecidableEq, Repr

/-- `outbound` holds the items from `outbound_head` on. -/
structure StreamingState where
  handler : ServerHandler
  decoder : Frame.Decoder
  context : ServerContext := {}
  outbound : List OutboundMessage := []
  remoteEndReceived : Bool := false
  remoteEndCalled : Bool := false
  deriving DecidableEq, Repr

structure ServerCallControl where
  cancelled : Bool := false
  terminal : Bool := false
  deriving DecidableEq, Repr

/-- `deadlineEntry` is the expiry of the stream's entry in the deadline heap, present exactly
when `deadline_heap_index` is set. -/
structure Stream where
  allocator : List Bool := []
  path : Option Bytes := none
  methodPost : Bool := false
  contentTypeGrpc : Bool := false
  requestCompression : Option Compression := some .identity
  acceptsResponseGzip : Bool := false
  responseCompression : Compression := .identity
  timeoutSeen : Bool := false
  timeoutInvalid : Bool := false
  deadline : Option ℕ := none
  deadlineEntry : Option ℕ := none
  requestMetadataInvalid : Bool := false
  headerTooLarge : Bool := false
  requestTooLarge : Bool := false
  responded : Bool := false
  trailerSubmitted : Bool := false
  headerBytes : ℕ := 0
  requestBody : Bytes := []
  requestMetadata : Metadata := {}
  trailingMetadata : List Entry := []
  responseStatus : Status := ⟨.ok, []⟩
  streaming : Option StreamingState := none
  streamingActive : Bool := false
  responseFinished : Bool := false
  finishQueued : Bool := false
  receivePaused : Bool := false
  resumeQueued : Bool := false
  resumeRequested : Bool := false
  messageCallbackActive : Bool := false
  deferredStreamCredit : ℕ := 0
  responseGzipRequested : Bool := false
  responseHeadersQueued : Bool := false
  responseHeadersSubmitted : Bool := false
  outboundReservedBytes : ℕ := 0
  writableRequested : Bool := false
  cancelCalled : Bool := false
  terminalReason : TerminalReason := .completed
  callControl : Option ServerCallControl := none
  resetAfterTrailers : Bool := false
  resetSubmitted : Bool := false
  commandRefs : ℕ := 0
  transportClosed : Bool := false
  forceAbortRequested : Bool := false
  deriving DecidableEq, Repr

end GrpcLite.Server
