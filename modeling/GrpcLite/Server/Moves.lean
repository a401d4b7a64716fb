import GrpcLite.Server.Streaming
import Mathlib.Logic.Relation

/-!
# The moves of a streaming call

Everything that happens to a streaming call is a sequence of single changes.  `AppMove` are those
the application makes through the call, `StopMove` those with which the reactor stops a call, and
`Move` all of them, each with what is known when it is made.  A property of the call is proved by a
case split over the moves.  `Hand` is what the reactor remembers between two moves of one event; it
exists for these proofs only.
-/

namespace GrpcLite.Server

open Prog

def Stream.isExplicit (s : Stream) : Prop :=
  (s.streaming.map (·.handler.initialMetadataMode)) = some .explicit

instance (s : Stream) : Decidable s.isExplicit := inferInstanceAs (Decidable (_ = _))

/-- The compression that a request for `compression` leads to. -/
def Stream.negotiate (s : Stream) (compression : Compression) : Compression :=
  if s.acceptsResponseGzip ∧ compression = .gzip then .gzip else .identity

/-- The compression of response headers that are submitted after the start. -/
def Stream.automaticCompression (s : Stream) : Compression :=
  if s.acceptsResponseGzip ∧ (s.streaming.any (·.context.responseCompression = .gzip) ∨
    s.responseGzipRequested) then .gzip else .identity

/-- What both ways of sending check before a frame is queued. -/
structure Stream.SendAllowed (s : Stream) (compression : Compression) : Prop where
  active : s.streamingActive
  unfinished : s.finishQueued = false
  queued : s.isExplicit → s.responseHeadersQueued
  encoding : s.isExplicit → compression = .gzip → s.responseCompression = .gzip

/-- A send was refused for lack of room, and there is something that can make room. -/
def Stream.Blocked (s : Stream) : Prop := s.writableRequested ∧ 0 < s.outboundReservedBytes

def StreamingState.addTrailing (st : StreamingState) (entry : Entry) : StreamingState :=
  { st with context := { st.context with
    trailingMetadata := st.context.trailingMetadata ++ [entry] } }

inductive AppMove (w : World) : World → Prop
  | env (env : Env) : AppMove w { w with env := env }
  | note (action : AppAction) (error : Option CallError)
      (hblocked : error = some .wouldBlock → w.stream.Blocked) :
      AppMove w (w.noted (.operation action error))
  | sendBegin (handle : Handle) (payload encoded : Bytes) (compression : Compression)
      (hencoded : Frame.encodeWithCompression w.gzip payload compression = .ok encoded)
      (haccepts : compression = .gzip → w.stream.acceptsResponseGzip) :
      AppMove w { w with sending := w.sending ++ [⟨handle, encoded, compression⟩] }
  | sendDropped (index : ℕ) : AppMove w { w with sending := w.sending.eraseIdx index }
  | blocked (hreserved : 0 < w.stream.outboundReservedBytes) :
      AppMove w { w with stream := { w.stream with writableRequested := true } }
  | gzipNoted : AppMove w { w with stream := { w.stream with responseGzipRequested := true } }
  | send (index : ℕ) (send : SendInProgress) (hsend : w.sending[index]? = some send)
      (hallowed : w.stream.SendAllowed send.compression)
      (hfits : w.stream.outboundReservedBytes + send.encoded.length ≤
        w.limits.maxOutboundBufferSize) :
      AppMove w { w with
        sending := w.sending.eraseIdx index
        commands := w.commands ++ [.send send.encoded]
        gauge := w.gauge + send.encoded.length
        stream := { w.stream with
          outboundReservedBytes := w.stream.outboundReservedBytes + send.encoded.length
          commandRefs := w.stream.commandRefs + 1
          responseGzipRequested :=
            w.stream.responseGzipRequested || decide (send.compression = .gzip) }
        log := { w.log with
          accepted := w.log.accepted ++ [send.encoded]
          sends := w.log.sends ++
            [⟨send.encoded, send.compression, w.log.headers.map Prod.fst⟩] } }
  | initialMetadata (entries : List Entry) (compression : Compression)
      (hactive : w.stream.streamingActive) (hexplicit : w.stream.isExplicit)
      (hnew : w.stream.responseHeadersQueued = false) :
      AppMove w { w with
        commands := w.commands ++ [.initialMetadata entries compression]
        stream := { w.stream with
          commandRefs := w.stream.commandRefs + 1
          responseHeadersQueued := true
          responseCompression := w.stream.negotiate compression } }
  | initialMetadataFailed (hactive : w.stream.streamingActive) (hexplicit : w.stream.isExplicit)
      (hnew : w.stream.responseHeadersQueued = false) :
      AppMove w { w with stream := { w.stream with responseCompression := .identity } }
  | finish (status : Status) (trailing : Option (List Entry)) (hactive : w.stream.streamingActive)
      (hunfinished : w.stream.finishQueued = false)
      (hqueued : w.stream.isExplicit → w.stream.responseHeadersQueued) :
      AppMove w { w with
        commands := w.commands ++ [.finish status trailing]
        stream := { w.stream with
          commandRefs := w.stream.commandRefs + 1
          finishQueued := true }
        log := { w.log with
          finishAccepted := some w.log.accepted.length
          trailingSet := w.log.trailingSet ++ (trailing.getD []).map (.given, ·) } }
  | resumeRequested (hactive : w.stream.streamingActive)
      (hcallback : w.stream.messageCallbackActive) (hopen : w.stream.receivePaused = false) :
      AppMove w { w with stream := { w.stream with resumeRequested := true } }
  | resumeQueued (hactive : w.stream.streamingActive) (hpaused : w.stream.receivePaused)
      (hnew : w.stream.resumeQueued = false) (hunrequested : w.stream.resumeRequested = false) :
      AppMove w { w with
        commands := w.commands ++ [.resumeReceive]
        stream := { w.stream with
          commandRefs := w.stream.commandRefs + 1
          resumeQueued := true } }
  | abort (hactive : w.stream.streamingActive) :
      AppMove w { w with
        stream := { w.stream with forceAbortRequested := true, finishQueued := true } }
  | context (f : ServerContext → ServerContext)
      (htrailing : ∀ context, (f context).trailingMetadata = context.trailingMetadata) :
      AppMove w { w with stream := { w.stream with
        streaming := w.stream.streaming.map fun st => { st with context := f st.context } } }
  | contextTrailing (entry : Entry) (hstarted : w.stream.streaming.isSome) :
      AppMove w { w with
        stream := { w.stream with streaming := w.stream.streaming.map (·.addTrailing entry) }
        log := { w.log with trailingSet := w.log.trailingSet ++ [(.context, entry)] } }

def World.queue (w : World) : List CommandAction := w.batch ++ w.commands

def AppMoves : World → World → Prop := Relation.ReflTransGen AppMove

/-! ## What the reactor has in hand -/

/-- What the reactor has in hand in the middle of an event: the rest of the command batch, where
`taken` says that the send at its head was passed on; reserved bytes that are being given back; that
the call is about to fail, or that `on_cancel` is due; a decoded message; the length of a chunk that
the stream's credit is due for, the part of it that the decoder does not have and the connection's
credit for it; that a resumed stream's deferred credit is due; that the stream is being retired;
that a call was stopped whose status is to be replaced; and that a call is aborted whose stream is
still to be reset. -/
structure Hand where
  batch : List CommandAction := []
  taken : Bool := false
  releasing : ℕ := 0
  failing : Bool := false
  cancelling : Bool := false
  message : Option Bytes := none
  chunk : ℕ := 0
  unfed : Bytes := []
  owed : ℕ := 0
  resuming : Bool := false
  retiring : Bool := false
  ending : Bool := false
  aborting : Bool := false

structure Config where
  hand : Hand
  world : World

def outboundBytes (outbound : List OutboundMessage) : ℕ :=
  (outbound.map fun item => item.bytes.length - item.offset).sum

/-- The commands of the batch whose frames were not passed on. -/
def Hand.held (hand : Hand) (batch : List CommandAction) : List CommandAction :=
  if hand.taken then batch.tail else batch

/-- The bytes of the outbound queue that nghttp2 has not taken. -/
def World.unsent (w : World) : ℕ := outboundBytes w.outbound

/-- The bytes of the first outbound frame that were handed over already. -/
def World.partlySent (w : World) : Bytes :=
  (w.outbound.head?.map fun item => item.bytes.take item.offset).getD []

def World.dead (w : World) : Bool := w.closing || !w.registered || w.stream.resetSubmitted

/-- Dropping the outbound queue does not cut a frame, unless the history says so. -/
def World.Uncut (w : World) : Prop := w.log.cut = true ∨ w.partlySent = []

/-- The call would be told that `reserved` bytes leave room for a send. -/
def World.Writable (w : World) (reserved : ℕ) : Prop :=
  w.stream.writableRequested ∧ w.stream.streamingActive ∧ w.stream.finishQueued = false ∧
    w.stream.transportClosed = false ∧ reserved ≤ w.limits.maxOutboundBufferSize / 2

inductive StopMove (hand : Hand) (w : World) : Config → Prop
  | app {w' : World} (hmove : AppMove w w') : StopMove hand w ⟨hand, w'⟩
  | deadline :
      StopMove hand w ⟨hand, { w with stream := { w.stream with deadlineEntry := none } }⟩
  | release (length rest : ℕ) (hheld : hand.releasing = rest + length)
      (hquiet : hand.failing ∨ ¬w.Writable (w.stream.outboundReservedBytes - length)) :
      StopMove hand w ⟨{ hand with releasing := rest }, w.unreserve length⟩
  | writable (length rest : ℕ) (hheld : hand.releasing = rest + length)
      (hwritable : w.Writable (w.stream.outboundReservedBytes - length))
      (hstarted : w.stream.streaming.isSome) :
      StopMove hand w ⟨{ hand with releasing := rest }, World.noted { w.unreserve length with
        stream := { (w.unreserve length).stream with writableRequested := false } }
        (.callback .writable)⟩
  | discard (hinactive : w.stream.streamingActive = false) (hlive : w.destroyed = 0) :
      StopMove hand w ⟨hand,
        { (w.unreference w.commands.length).unreserve (queuedSendBytes w.commands) with
          commands := [] }⟩
  | clear (hinactive : w.stream.streamingActive = false)
      (hopen : w.stream.transportClosed = false)
      (huncut : w.dead = true ∨ hand.aborting = true ∨ w.Uncut) :
      StopMove hand w ⟨{ hand with releasing := hand.releasing + w.unsent },
        { w with stream := { w.stream with
          streaming := w.stream.streaming.map fun st => { st with outbound := [] } } }⟩
  | cancel (reason : TerminalReason) (hstarted : w.stream.streaming.isSome)
      (hnew : w.stream.cancelCalled = false) (hopen : w.stream.transportClosed = false)
      (hcalm : hand.cancelling = false) (hending : w.dead = true ∨ hand.ending = true) :
      StopMove hand w ⟨{ hand with cancelling := true }, { w with stream := { w.stream with
        cancelCalled := true
        terminalReason :=
          if w.stream.terminalReason = .completed then reason else w.stream.terminalReason
        callControl := w.stream.callControl.map fun control => { control with cancelled := true }
        streamingActive := false
        finishQueued := true
        receivePaused := false
        resumeQueued := false
        resumeRequested := false
        messageCallbackActive := false } }⟩
  | cancelFlag : StopMove hand w ⟨hand, w.noted .cancelled⟩
  | cancelled (hdue : hand.cancelling) :
      StopMove hand w ⟨{ hand with cancelling := false }, w.noted (.callback .cancel)⟩
  | close : StopMove hand w ⟨hand, { w with closing := true }⟩

def StopMoves : Config → Config → Prop :=
  Relation.ReflTransGen fun c c' => StopMove c.hand c.world c'

/-- The trailing metadata that a finish command has in its trailers. -/
def World.trailingOf (w : World) : Option (List Entry) → TrailerSource × List Entry
  | some entries => (.given, entries)
  | none => (.context, w.contextTrailing)

/-- The outcome of copying `entries`: how many were copied before an allocation failed. -/
structure Copied (entries copied : List Entry) (complete : Bool) : Prop where
  isPrefix : copied <+: entries
  valid : ∀ entry ∈ copied, isApplicationKey entry.key
  whole : complete → copied = entries

def World.Unfailed (w : World) : Prop :=
  ∀ termination ∈ w.log.terminations, termination.event ≠ .failure

/-- The response headers are settled.  `outcome` are the entries that nghttp2 is given with them,
if it takes them. -/
def World.announce (w : World) (compression : Compression) (outcome : Option (List Entry)) :
    World :=
  { w with
    stream := { w.stream with
      responseCompression := compression
      responseHeadersSubmitted := true }
    log := { w.log with headers := outcome.map fun entries => (compression, entries) } }

/-- Headers that are not sent automatically after the start are sent by a command. -/
def World.Announced (w : World) : Prop :=
  w.stream.streamingActive → ¬w.stream.isExplicit → w.stream.responseHeadersSubmitted

def World.popped (w : World) (rest : List CommandAction) : World :=
  { w.unreference 1 with batch := rest }

def World.destroy (w : World) : World :=
  { w.unreserve w.stream.outboundReservedBytes with
    destroyed := w.destroyed + 1
    violations := (w.unreserve w.stream.outboundReservedBytes).violations ++ violation
      (w.stream.transportClosed ∧ w.stream.commandRefs = 0 ∧ w.destroyed = 0) .destroyed }

def World.terminated (w : World) (control : ServerCallControl) : World :=
  { w with stream := { w.stream with callControl := some { control with terminal := true } } }

/-- A change made by the reactor, or by the application while the reactor lets it. -/
inductive Move (hand : Hand) (w : World) : Config → Prop
  | stop {c : Config} (hmove : StopMove hand w c) : Move hand w c
  | shutdown : Move hand w ⟨hand, { w with shutdown := true }⟩
  | respond (hnew : w.stream.responded = false) :
      Move hand w ⟨hand, { w with stream := { w.stream with responded := true } }⟩
  | refused :
      Move hand w ⟨hand, { w with log := { w.log with failure := some w.stream.responseStatus } }⟩
  | announceAutomatic (outcome : Option (List Entry)) (hbatch : w.batch = [])
      (hactive : w.stream.streamingActive) (hautomatic : ¬w.stream.isExplicit)
      (hnew : w.stream.responseHeadersSubmitted = false) :
      Move hand w
        ⟨hand, { w with stream := { w.stream with responseHeadersQueued := true } }.announce
        w.stream.automaticCompression outcome⟩
  | announceExplicit (entries : List Entry) (compression : Compression)
      (rest : List CommandAction) (outcome : Option (List Entry))
      (hbatch : w.batch = .initialMetadata entries compression :: rest)
      (hactive : w.stream.streamingActive) (hnew : w.stream.responseHeadersSubmitted = false) :
      Move hand w ⟨hand, w.announce (w.stream.negotiate compression) outcome⟩
  | announceFailure (outcome : Option (List Entry)) (hstarted : w.stream.streaming.isSome)
      (hinactive : w.stream.streamingActive = false)
      (hnew : w.stream.responseHeadersSubmitted = false) :
      Move hand w
        ⟨hand, { w with stream := { w.stream with responseHeadersQueued := true } }.announce
        .identity outcome⟩
  | failStatus (status : Status) : Move hand w ⟨hand, { w with
      origin := .failure
      stream := { w.stream with responseStatus := status } }⟩
  | finish (status : Status) (trailing : Option (List Entry)) (rest : List CommandAction)
      (copied : List Entry) (complete : Bool)
      (hbatch : w.batch = .finish status trailing :: rest) (hactive : w.stream.streamingActive)
      (hnew : w.stream.responseFinished = false)
      (hcopied : Copied (w.trailingOf trailing).2 copied complete) :
      Move hand w ⟨hand, { w with
        origin := .finish
        stream := { w.stream with
          responseFinished := true
          responseStatus := status
          trailingMetadata := w.stream.trailingMetadata ++ copied }
        log := { w.log with terminations := w.log.terminations ++
          [⟨.finish, (w.trailingOf trailing).1, (w.trailingOf trailing).2, w.contextTrailing,
            complete⟩] } }⟩
  | fail (hstarted : w.stream.streaming.isSome) (hending : hand.ending = true) :
      Move hand w ⟨hand, { w with stream := { w.stream with
        streamingActive := false
        responseFinished := true
        finishQueued := true
        resetAfterTrailers := true
        terminalReason :=
          if w.stream.terminalReason = .completed then .localError else w.stream.terminalReason } }⟩
  | failTrailers (copied : List Entry) (complete : Bool) (hstarted : w.stream.streaming.isSome)
      (hinactive : w.stream.streamingActive = false) (hfinished : w.stream.responseFinished)
      (hopen : w.stream.trailerSubmitted = false) (hunfailed : w.Unfailed)
      (hcopied : Copied w.contextTrailing copied complete) :
      Move hand w ⟨hand, { w with
        stream := { w.stream with trailingMetadata := w.stream.trailingMetadata ++ copied }
        log := { w.log with terminations := w.log.terminations ++
          [⟨.failure, .context, w.contextTrailing, w.contextTrailing, complete⟩] } }⟩
  | reset (code : ResetCode) : Move hand w ⟨hand, { w with
      stream := { w.stream with resetSubmitted := true }
      log := { w.log with reset := some code } }⟩
  | abortSeen :
      Move hand w ⟨hand, { w with stream := { w.stream with forceAbortRequested := false } }⟩
  | unsettled : Move hand w ⟨{ hand with ending := true }, w⟩
  | settled (ending : Bool)
      (hsettled : w.dead = true ∨ w.stream.trailerSubmitted ∨ w.origin = .failure) :
      Move hand w ⟨{ hand with ending := ending }, w⟩
  | forceAbort (hactive : w.stream.streamingActive) :
      Move hand w ⟨{ hand with aborting := true }, { w with stream := { w.stream with
        streamingActive := false
        responseFinished := true
        finishQueued := true
        receivePaused := false
        resumeQueued := false
        resetAfterTrailers := true
        terminalReason := .localError } }⟩
  | aborted (aborting : Bool) (hdead : w.dead = true) :
      Move hand w ⟨{ hand with aborting := aborting }, w⟩
  | failed (hinactive : w.stream.streamingActive = false) :
      Move hand w ⟨{ hand with failing := false }, w⟩
  | allocationFailed : Move hand w ⟨{ hand with failing := true }, w⟩
  | received (bytes : Bytes) (hidle : hand.chunk = 0 ∧ hand.unfed = [] ∧ hand.owed = 0)
      (hopen : w.stream.streaming.any (·.remoteEndReceived) = false) :
      Move hand w ⟨{ hand with chunk := bytes.length, unfed := bytes, owed := bytes.length },
        { w with log := { w.log with received := w.log.received ++ bytes } }⟩
  | fed (decoder next : Frame.Decoder) (oom : Bool)
      (hdecoder : w.stream.streaming.map (·.decoder) = some decoder)
      (hactive : w.stream.streamingActive)
      (hfed : decoder.feedBounded hand.unfed w.limits.maxInboundBufferSize oom = (.ok (), next)) :
      Move hand w ⟨{ hand with unfed := [] }, { w with stream := { w.stream with
        streaming := w.stream.streaming.map fun st => { st with decoder := next } } }⟩
  | feedFailed (decoder next : Frame.Decoder) (oom : Bool) (err : FrameError)
      (hdecoder : w.stream.streaming.map (·.decoder) = some decoder)
      (hactive : w.stream.streamingActive)
      (hfed : decoder.feedBounded hand.unfed w.limits.maxInboundBufferSize oom =
        (.error err, next)) :
      Move hand w ⟨hand, { w with stream := { w.stream with
        streaming := w.stream.streaming.map fun st => { st with decoder := next } } }⟩
  | decoded (oom : Bool) (message : Frame.DecodedMessage) (decoder next : Frame.Decoder)
      (hdecoder : w.stream.streaming.map (·.decoder) = some decoder)
      (hactive : w.stream.streamingActive) (hopen : w.stream.receivePaused = false)
      (hnext : Frame.Decoder.nextMessage w.gzip decoder oom = (.ok (some message), next))
      (hfed : hand.unfed = []) (hfree : hand.message = none) :
      Move hand w ⟨{ hand with message := some message.payload }, { w with stream := { w.stream with
          streaming := w.stream.streaming.map fun st => { st with decoder := next } } }⟩
  | requestEncoding (compression : Compression) :
      Move hand w ⟨hand, { w with stream := { w.stream with
        streaming := w.stream.streaming.map fun st =>
          { st with context := { st.context with requestCompression := compression } } } }⟩
  | message (payload : Bytes) (hmessage : hand.message = some payload)
      (hactive : w.stream.streamingActive) (hopen : w.stream.receivePaused = false) :
      Move hand w ⟨{ hand with message := none }, World.noted
        { w with stream := { w.stream with messageCallbackActive := true } }
        (.callback (.message payload))⟩
  | messageFailed (hactive : w.stream.streamingActive) : Move hand w ⟨hand, { w with
      stream := { w.stream with messageCallbackActive := false, resumeRequested := false } }⟩
  | messageDone (pauses : Bool) (hactive : w.stream.streamingActive) :
      Move hand w ⟨hand, { w with stream := { w.stream with
        messageCallbackActive := false
        resumeRequested := false
        receivePaused := w.stream.receivePaused || (pauses && !w.stream.resumeRequested) } }⟩
  | remoteEndReceived : Move hand w ⟨hand, { w with stream := { w.stream with
      streaming := w.stream.streaming.map fun st => { st with remoteEndReceived := true } } }⟩
  | remoteEnd (st : StreamingState) (oom : Bool) (hstarted : w.stream.streaming = some st)
      (hactive : w.stream.streamingActive) (hopen : w.stream.receivePaused = false)
      (hreceived : st.remoteEndReceived) (hnew : st.remoteEndCalled = false)
      (hexhausted : (Frame.Decoder.nextMessage w.gzip st.decoder oom).1 = .ok none)
      (hwhole : st.decoder.finish = .ok ()) (hfed : hand.unfed = []) (hfree : hand.message = none) :
      Move hand w ⟨hand, World.noted { w with stream := { w.stream with
          streaming := w.stream.streaming.map fun st => { st with remoteEndCalled := true } } }
        (.callback .remoteEnd)⟩
  | connectionCredit :
      Move hand w ⟨{ hand with owed := 0 },
        { w with log := { w.log with connectionCredit := w.log.connectionCredit + hand.owed } }⟩
  | streamCredit (hfed : hand.unfed = []) (hactive : w.stream.streamingActive)
      (hopen : w.stream.receivePaused = false) :
      Move hand w ⟨{ hand with chunk := 0 },
        { w with log := { w.log with streamCredit := w.log.streamCredit + hand.chunk } }⟩
  | deferCredit (hfed : hand.unfed = []) (hactive : w.stream.streamingActive)
      (hpaused : w.stream.receivePaused) :
      Move hand w ⟨{ hand with chunk := 0 }, { w with stream := { w.stream with
        deferredStreamCredit := w.stream.deferredStreamCredit + hand.chunk } }⟩
  | withholdCredit (hstarted : w.stream.streaming.isSome)
      (hinactive : w.stream.streamingActive = false) :
      Move hand w ⟨{ hand with chunk := 0, unfed := [] }, w⟩
  | bodyTooLarge (hnone : w.stream.streaming = none) :
      Move hand w ⟨hand, { w with stream := { w.stream with requestTooLarge := true } }⟩
  | body (hnone : w.stream.streaming = none) :
      Move hand w ⟨hand, { w with stream := { w.stream with
        requestBody := w.stream.requestBody ++ hand.unfed } }⟩
  | requestCredit (hnone : w.stream.streaming = none) :
      Move hand w ⟨{ hand with chunk := 0, unfed := [] },
        { w with log := { w.log with streamCredit := w.log.streamCredit + hand.chunk } }⟩
  | callbackFailed (hfed : hand.unfed = [] ∨ w.stream.streamingActive = false) :
      Move hand w ⟨{ hand with chunk := 0, unfed := [], owed := 0 },
        { w with log := { w.log with callbackFailed := true } }⟩
  | take (bytes : Bytes) (rest : List CommandAction) (hbatch : w.batch = .send bytes :: rest)
      (hactive : w.stream.streamingActive) (hnew : hand.taken = false)
      (hcalm : hand.failing = false) :
      Move hand w ⟨{ hand with taken := true }, { w with stream := { w.stream with
        streaming := w.stream.streaming.map fun st =>
          { st with outbound := st.outbound ++ [⟨bytes, 0⟩] } } }⟩
  | dropSend (bytes : Bytes) (rest : List CommandAction) (hbatch : w.batch = .send bytes :: rest)
      (hnew : hand.taken = false)
      (hdropped : hand.failing = true ∨ w.stream.streamingActive = false) :
      Move hand w
        ⟨{ hand with taken := true, releasing := hand.releasing + bytes.length }, w⟩
  | resume (rest : List CommandAction) (hbatch : w.batch = .resumeReceive :: rest) :
      Move hand w ⟨{ hand with resuming := true }, { w with stream := { w.stream with
        resumeQueued := false
        receivePaused := w.stream.receivePaused &&
          !decide (w.stream.streamingActive ∧ ¬w.stream.transportClosed) } }⟩
  | returnCredit (hactive : w.stream.streamingActive) (hopen : w.stream.receivePaused = false) :
      Move hand w ⟨{ hand with resuming := false }, { w with
          stream := { w.stream with deferredStreamCredit := 0 }
          log := { w.log with
            streamCredit := w.log.streamCredit + w.stream.deferredStreamCredit } }⟩
  | resumed (hkept : w.stream.receivePaused ∨ w.stream.streamingActive = false ∨
      w.stream.deferredStreamCredit = 0 ∨ w.closing) :
      Move hand w ⟨{ hand with resuming := false }, w⟩
  | commandDone (command : CommandAction) (rest : List CommandAction)
      (hbatch : w.batch = command :: rest) (htaken : command.isSend → hand.taken)
      (hannounced : command.isInitialMetadata → w.stream.streamingActive →
        w.stream.responseHeadersSubmitted) :
      Move hand w ⟨{ hand with batch := rest, taken := false }, w.popped rest⟩
  | swap (hbatch : w.batch = []) (hannounced : w.Announced)
      (hrested : w.stream.transportClosed → w.commands = []) :
      Move hand w ⟨{ hand with batch := w.commands, taken := false },
        { w with commands := [], batch := w.commands }⟩
  | handOver (item : OutboundMessage) (rest : List OutboundMessage) (length : ℕ)
      (hreadable : w.readable)
      (hout : w.stream.streaming.map (·.outbound) = some (item :: rest))
      (hlength : length ≤ item.remaining.length) :
      Move hand w ⟨{ hand with releasing := hand.releasing + length }, { w with
        stream := { w.stream with streaming := w.stream.streaming.map fun st =>
          { st with outbound := { item with offset := item.offset + length } :: rest } }
        log := { w.log with sent := w.log.sent ++ item.remaining.take length } }⟩
  | complete (item : OutboundMessage) (rest : List OutboundMessage)
      (hout : w.stream.streaming.map (·.outbound) = some (item :: rest))
      (hwhole : item.offset = item.bytes.length) :
      Move hand w ⟨hand, { w with
        stream := { w.stream with
          streaming := w.stream.streaming.map fun st => { st with outbound := st.outbound.tail } }
        log := { w.log with completed := w.log.completed ++ [item.bytes] } }⟩
  | endOfData (hfinished : w.stream.responseFinished) (hnew : w.stream.trailerSubmitted = false)
      (hhand : hand = {}) (hlive : w.dead = false) (hdrained : w.outbound = []) :
      Move hand w ⟨hand, { w with stream := { w.stream with trailerSubmitted := true } }⟩
  | trailers (hsubmitted : w.stream.trailerSubmitted) (hnew : w.log.trailers = none) :
      Move hand w ⟨hand, { w with log := { w.log with
        trailers := some
          { status := w.stream.responseStatus
            metadata := w.stream.trailingMetadata.filter fun entry => !isReservedTrailer entry.key
            origin := w.origin
            sentBefore := w.log.sent } } }⟩
  | unregister (hregistered : w.registered) :
      Move hand w ⟨{ hand with retiring := true }, { w with registered := false }⟩
  | retire (hgone : w.registered = false) (hretiring : hand.retiring) (hbatch : w.batch = []) :
      Move hand w ⟨hand, { w with
        stream := { w.stream with transportClosed := true, streamingActive := false } }⟩
  | terminal (control : ServerCallControl) (hcontrol : w.stream.callControl = some control)
      (hnew : control.terminal = false) (hclosed : w.stream.transportClosed)
      (hstarted : w.stream.streaming.isSome) :
      Move hand w ⟨hand, ((w.terminated control).noted .terminal).noted (.callback .terminal)⟩
  | controlGone (hdone : ∀ control, w.stream.callControl = some control → control.terminal)
      (hclosed : w.stream.transportClosed) :
      Move hand w ⟨hand, { w with stream := { w.stream with callControl := none } }⟩
  | destroy (hretiring : hand.retiring) (hreleased : hand.releasing = 0)
      (hclosed : w.stream.transportClosed) (hcontrol : w.stream.callControl = none)
      (hreferences : w.stream.commandRefs = 0) :
      Move hand w ⟨{ hand with retiring := false }, w.destroy⟩
  | sessionGone : Move hand w ⟨hand, { w with session := false }⟩

def Moves : Config → Config → Prop := Relation.ReflTransGen fun c c' => Move c.hand c.world c'

def World.accept (w : World) (handler : ServerHandler) (requestCompression : Compression) : World :=
  World.noted { w with stream := { w.stream with
    callControl := some {}
    streaming := some
      { handler := handler
        decoder := { maxMessageSize := w.limits.maxMessageSize, compression := requestCompression }
        context :=
          { deadline := w.stream.deadline
            requestCompression := requestCompression
            requestMetadata := w.stream.requestMetadata.entries } }
    streamingActive := true
    receivePaused := handler.receiveInitiallyPaused
    responseHeadersQueued := handler.initialMetadataMode = .automaticAfterStart } }
      (.callback .start)

structure World.Acceptable (w : World) : Prop where
  responded : w.stream.responded
  unstarted : w.stream.streaming = none
  opened : w.stream.transportClosed = false
  idle : w.batch = []
  registered : w.registered
  unreceived : w.log.received = []

structure World.Base (w : World) : Prop where
  running : w.stream.streamingActive → w.stream.streaming.isSome ∧ w.stream.transportClosed = false
  ended : w.stream.streaming.isSome → w.stream.streamingActive = false →
    w.stream.resetAfterTrailers ∨ w.stream.cancelCalled ∨ w.stream.transportClosed
  unfailed : w.stream.streamingActive → w.Unfailed
  headersNew : w.stream.responseHeadersSubmitted = false → w.log.headers = none
  trailersNew : w.stream.trailerSubmitted = false → w.log.trailers = none
  unresponded : w.stream.responded = false → w.stream.streaming = none
  unstarted : w.stream.streaming = none → w.log.terminations = [] ∧
    w.stream.responseHeadersSubmitted = false ∧ w.stream.responseFinished = false
  empty : w.stream.streaming = none → w.queue = []
  controlled : w.stream.callControl.isSome → w.stream.streaming.isSome
  unregistered : w.stream.transportClosed → w.registered = false
  idle : w.stream.transportClosed → w.batch = []
  alive : w.stream.transportClosed = false → w.destroyed = 0
  references : w.stream.commandRefs = w.queue.length
  unqueued : w.stream.finishQueued = false →
    w.stream.responseFinished = false ∧ w.queue.countP (·.isFinish) = 0
  single : w.queue.countP (·.isFinish) ≤ 1
  finishing : w.stream.streamingActive → w.stream.responseFinished →
    (w.batch.tail ++ w.commands).countP (·.isFinish) = 0

/-! ## The outbound queue -/

section Outbound

variable {w : World} {outbound : List OutboundMessage}

theorem outbound_of_map (hout : w.stream.streaming.map (·.outbound) = some outbound) :
    w.outbound = outbound := by
  unfold World.outbound
  rw [hout, Option.getD_some]

theorem map_outbound (hstarted : w.stream.streaming.isSome) :
    w.stream.streaming.map (·.outbound) = some w.outbound := by
  obtain ⟨st, hst⟩ := Option.isSome_iff_exists.mp hstarted
  simp [World.outbound, hst]

theorem outbound_update (hout : w.stream.streaming.map (·.outbound) = some outbound)
    (f : StreamingState → StreamingState) (g : List OutboundMessage → List OutboundMessage)
    (hf : ∀ st, (f st).outbound = g st.outbound) :
    World.outbound { w with stream := { w.stream with streaming := w.stream.streaming.map f } } =
      g outbound := by
  refine outbound_of_map ?_
  have hmapped := congrArg (Option.map g) hout
  simpa [Function.comp_def, hf] using hmapped

theorem outbound_map (w : World) {f : StreamingState → StreamingState}
    (hf : ∀ st, (f st).outbound = st.outbound) :
    World.outbound { w with stream := { w.stream with streaming := w.stream.streaming.map f } } =
      w.outbound := by
  unfold World.outbound
  simp [Function.comp_def, hf]

theorem outbound_clear (w : World) :
    World.outbound { w with stream := { w.stream with
      streaming := w.stream.streaming.map fun st => { st with outbound := [] } } } = [] := by
  unfold World.outbound
  cases w.stream.streaming with
  | none => rfl
  | some => rfl

end Outbound

theorem started_ne_none {s : Stream} (hstarted : s.streaming.isSome) : s.streaming ≠ none :=
  Option.isSome_iff_ne_none.mp hstarted

variable {w w' : World} {hand : Hand} {c c' : Config}

theorem World.Base.started (h : w.Base) (hactive : w.stream.streamingActive) :
    w.stream.streaming.isSome := (h.running hactive).1

theorem World.Base.opened (h : w.Base) (hregistered : w.registered) :
    w.stream.transportClosed = false := by
  by_contra hclosed
  have hgone := h.unregistered (by simpa using hclosed)
  cases hregistered.symm.trans hgone

theorem World.Base.opened_of_batch (h : w.Base) {command : CommandAction}
    {rest : List CommandAction} (hbatch : w.batch = command :: rest) :
    w.stream.transportClosed = false := by
  by_contra hclosed
  have hidle := h.idle (by simpa using hclosed)
  rw [hbatch] at hidle
  cases hidle

theorem World.Base.mapStreaming (h : w.Base) (f : StreamingState → StreamingState) :
    World.Base
      { w with stream := { w.stream with streaming := w.stream.streaming.map f } } :=
  { h with
    running := fun hactive => (h.running hactive).imp_left fun hsome => by simpa using hsome
    ended := fun hsome => h.ended (by simpa using hsome)
    unresponded := fun hnew => by simp [h.unresponded hnew]
    unstarted := fun hnone => h.unstarted (by simpa using hnone)
    empty := fun hnone => h.empty (by simpa using hnone)
    controlled := fun hcontrol => by simpa using h.controlled hcontrol }

theorem countP_isFinish_concat (queue : List CommandAction) {command : CommandAction}
    (hcommand : command.isFinish = false) :
    (queue ++ [command]).countP (·.isFinish) = queue.countP (·.isFinish) := by
  simp [hcommand]

theorem World.Base.enqueue (h : w.Base) (command : CommandAction)
    (hactive : w.stream.streamingActive) (hcommand : command.isFinish = false) :
    World.Base { w with
      commands := w.commands ++ [command]
      stream := { w.stream with commandRefs := w.stream.commandRefs + 1 } } := by
  have hqueue : World.queue { w with
      commands := w.commands ++ [command]
      stream := { w.stream with commandRefs := w.stream.commandRefs + 1 } } =
      w.queue ++ [command] := (List.append_assoc ..).symm
  refine { h with
    empty := fun hnone => absurd hnone (started_ne_none (h.started hactive))
    references := ?_
    unqueued := fun hfree => ?_
    single := ?_
    finishing := fun hactive hfinished => ?_ }
  · rw [hqueue, List.length_append, ← h.references, List.length_singleton]
  · rw [hqueue, countP_isFinish_concat _ hcommand]
    exact h.unqueued hfree
  · rw [hqueue, countP_isFinish_concat _ hcommand]
    exact h.single
  · rw [← List.append_assoc, countP_isFinish_concat _ hcommand]
    exact h.finishing hactive hfinished

theorem World.Base.dequeue (h : w.Base) (batch commands : List CommandAction) (count : ℕ)
    (hcount : w.queue.length = (batch ++ commands).length + count)
    (hidle : w.stream.transportClosed → batch = []) (hqueue : (batch ++ commands).Sublist w.queue)
    (hrest : w.stream.streamingActive → (batch.tail ++ commands).Sublist
      (w.batch.tail ++ w.commands)) :
    World.Base { w.unreference count with batch := batch, commands := commands } :=
  { h with
    empty := fun hnone => List.eq_nil_of_sublist_nil (h.empty hnone ▸ hqueue)
    idle := hidle
    references := by
      show w.stream.commandRefs - count = (batch ++ commands).length
      rw [h.references, hcount, Nat.add_sub_cancel]
    unqueued := fun hfree => (h.unqueued hfree).imp_right fun hnone =>
      Nat.eq_zero_of_le_zero (hqueue.countP_le.trans hnone.le)
    single := hqueue.countP_le.trans h.single
    finishing := fun hactive hfinished =>
      Nat.eq_zero_of_le_zero ((hrest hactive).countP_le.trans (h.finishing hactive hfinished).le) }

theorem AppMove.base (hmove : AppMove w w') (h : w.Base) : w'.Base := by
  cases hmove with
  | context => exact h.mapStreaming _
  | contextTrailing => exact { h.mapStreaming _ with }
  | send index send hsend hallowed =>
    exact { h.enqueue (.send send.encoded) hallowed.active rfl with }
  | initialMetadata entries compression hactive =>
    exact { h.enqueue (.initialMetadata entries compression) hactive rfl with }
  | finish status trailing hactive hunfinished =>
    obtain ⟨hopen, hnone⟩ := h.unqueued hunfinished
    refine { h with
      empty := fun hnone => absurd hnone (started_ne_none (h.started hactive))
      references := ?_
      unqueued := nofun
      single := ?_
      finishing := fun _ hfinished => ?_ }
    · rw [World.queue, ← List.append_assoc, List.length_append, List.length_singleton]
      exact congrArg (· + 1) h.references
    · rw [World.queue, ← List.append_assoc]
      calc (w.queue ++ [CommandAction.finish status trailing]).countP (·.isFinish)
        _ = w.queue.countP (·.isFinish) + 1 := List.countP_append
        _ ≤ 1 := by rw [hnone]
    · cases hopen.symm.trans hfinished
  | resumeQueued hactive => exact { h.enqueue .resumeReceive hactive rfl with }
  | abort => exact { h with unqueued := nofun }
  | _ => exact { h with }

theorem StopMove.base (hmove : StopMove hand w c) (h : w.Base) : c.world.Base := by
  cases hmove with
  | app hmove => exact hmove.base h
  | cancel =>
    exact { h with
      running := nofun
      ended := fun _ _ => .inr (.inl rfl)
      unfailed := nofun
      controlled := fun hcontrol => h.controlled (by simpa using hcontrol)
      unqueued := nofun
      finishing := nofun }
  | discard hinactive =>
    have hempty := h.dequeue w.batch [] w.commands.length (by simp [World.queue]) h.idle
      (List.Sublist.append_left (List.nil_sublist _) _)
      fun hactive => by cases hinactive.symm.trans hactive
    exact { hempty with }
  | clear => exact h.mapStreaming _
  | _ => exact { h with }

theorem World.Base.announce (h : w.Base) (hstarted : w.stream.streaming.isSome)
    (compression : Compression) (outcome : Option (List Entry)) :
    (w.announce compression outcome).Base :=
  { h with
    headersNew := nofun
    unstarted := fun hnone => absurd hnone (started_ne_none hstarted) }

theorem Move.base (hmove : Move hand w c) (h : w.Base) : c.world.Base := by
  cases hmove with
  | stop hmove => exact hmove.base h
  | respond => exact { h with unresponded := nofun }
  | announceAutomatic outcome hbatch hactive =>
    have hqueued : World.Base
        { w with stream := { w.stream with responseHeadersQueued := true } } := { h with }
    exact hqueued.announce (h.started hactive) _ outcome
  | announceExplicit entries compression rest outcome hbatch hactive =>
    exact h.announce (h.started hactive) _ outcome
  | announceFailure outcome hstarted =>
    have hqueued : World.Base
        { w with stream := { w.stream with responseHeadersQueued := true } } := { h with }
    exact hqueued.announce hstarted _ outcome
  | finish status trailing rest copied complete hbatch hactive =>
    have hlast : (rest ++ w.commands).countP (·.isFinish) = 0 := by
      have hsingle := h.single
      rw [World.queue, hbatch, List.cons_append, List.countP_cons_of_pos rfl] at hsingle
      exact Nat.le_zero.mp (Nat.le_of_succ_le_succ hsingle)
    refine { h with
      unfailed := fun _ termination hmem => ?_
      unstarted := fun hnone => absurd hnone (started_ne_none (h.started hactive))
      unqueued := fun hfree => ?_
      finishing := fun _ _ => ?_ }
    · rcases List.mem_append.mp hmem with hmem | hmem
      · exact h.unfailed hactive termination hmem
      · rw [List.mem_singleton.mp hmem]
        exact nofun
    · have hnone := (h.unqueued hfree).2
      rw [World.queue, hbatch, List.cons_append, List.countP_cons_of_pos rfl] at hnone
      exact absurd hnone (Nat.succ_ne_zero _)
    · rw [hbatch]
      exact hlast
  | fail hstarted =>
    exact { h with
      running := nofun
      ended := fun _ _ => .inl rfl
      unfailed := nofun
      unstarted := fun hnone => absurd hnone (started_ne_none hstarted)
      unqueued := nofun
      finishing := nofun }
  | failTrailers copied complete hstarted hinactive =>
    exact { h with
      unfailed := fun hactive => by cases hinactive.symm.trans hactive
      unstarted := fun hnone => absurd hnone (started_ne_none hstarted) }
  | forceAbort hactive =>
    exact { h with
      running := nofun
      ended := fun _ _ => .inl rfl
      unfailed := nofun
      unstarted := fun hnone => absurd hnone (started_ne_none (h.started hactive))
      unqueued := nofun
      finishing := nofun }
  | fed | feedFailed | decoded | requestEncoding | remoteEndReceived | take =>
    exact h.mapStreaming _
  | remoteEnd | handOver | complete => exact { h.mapStreaming _ with }
  | commandDone command rest hbatch =>
    refine h.dequeue rest w.commands 1 ?_ (fun hclosed => ?_) ?_ fun _ => ?_
    · rw [World.queue, hbatch, List.cons_append, List.length_cons]
    · exact absurd (h.idle hclosed) (by simp [hbatch])
    · rw [World.queue, hbatch]
      exact List.sublist_cons_self _ _
    · rw [hbatch]
      exact (List.tail_sublist rest).append_right _
  | swap hbatch hannounced hrested =>
    have hswapped := h.dequeue w.commands [] 0 (by simp [World.queue, hbatch]) hrested
      (by simp [World.queue, hbatch]) fun _ => by simpa [hbatch] using List.tail_sublist w.commands
    exact { hswapped with }
  | endOfData => exact { h with trailersNew := nofun }
  | trailers hsubmitted =>
    exact { h with trailersNew := fun hfalse => by cases hsubmitted.symm.trans hfalse }
  | retire hgone hretiring hbatch =>
    exact { h with
      running := nofun
      ended := fun _ _ => .inr (.inr rfl)
      unfailed := nofun
      unregistered := fun _ => hgone
      idle := fun _ => hbatch
      alive := nofun
      finishing := nofun }
  | unregister => exact { h with unregistered := fun _ => rfl }
  | terminal control hcontrol hnew hclosed hstarted =>
    exact { h with controlled := fun _ => hstarted }
  | controlGone => exact { h with controlled := nofun }
  | destroy hretiring hreleased hclosed =>
    exact { h with alive := fun hopen => by cases hclosed.symm.trans hopen }
  | _ => exact { h with }

theorem World.Acceptable.base (hw : w.Acceptable) (h : w.Base) (handler : ServerHandler)
    (requestCompression : Compression) : (w.accept handler requestCompression).Base := by
  obtain ⟨hterminations, hheaders, hfinished⟩ := h.unstarted hw.unstarted
  exact { h with
    running := fun _ => ⟨rfl, hw.opened⟩
    ended := fun _ => nofun
    unfailed := fun _ termination hmem => by simp [World.accept, World.noted, hterminations] at hmem
    unresponded := fun hresponded => by cases hw.responded.symm.trans hresponded
    unstarted := nofun
    empty := nofun
    controlled := fun _ => rfl
    finishing := fun _ hfinished' => by cases hfinished.symm.trans hfinished' }

/-! ## What the application leaves alone -/

/-- What a handler sees of its streaming state is its own; the rest is the reactor's. -/
def World.own (w : World) : Option StreamingState :=
  w.stream.streaming.map fun st => { st with context := {} }

structure SameReactor (w w' : World) : Prop where
  batch : w'.batch = w.batch
  registered : w'.registered = w.registered
  closing : w'.closing = w.closing
  session : w'.session = w.session
  limits : w'.limits = w.limits
  gzip : w'.gzip = w.gzip
  destroyed : w'.destroyed = w.destroyed
  own : w'.own = w.own
  accepts : w'.stream.acceptsResponseGzip = w.stream.acceptsResponseGzip
  responded : w'.stream.responded = w.stream.responded
  active : w'.stream.streamingActive = w.stream.streamingActive
  paused : w'.stream.receivePaused = w.stream.receivePaused
  cancelled : w'.stream.cancelCalled = w.stream.cancelCalled
  finished : w'.stream.responseFinished = w.stream.responseFinished
  headersSubmitted : w'.stream.responseHeadersSubmitted = w.stream.responseHeadersSubmitted
  trailerSubmitted : w'.stream.trailerSubmitted = w.stream.trailerSubmitted
  transportClosed : w'.stream.transportClosed = w.stream.transportClosed
  resetSubmitted : w'.stream.resetSubmitted = w.stream.resetSubmitted
  control : w'.stream.callControl = w.stream.callControl
  deferred : w'.stream.deferredStreamCredit = w.stream.deferredStreamCredit
  terminations : w'.log.terminations = w.log.terminations
  headers : w'.log.headers = w.log.headers
  trailers : w'.log.trailers = w.log.trailers
  received : w'.log.received = w.log.received
  cut : w'.log.cut = w.log.cut

theorem SameReactor.refl (w : World) : SameReactor w w := by constructor <;> rfl

section

variable (h : SameReactor w w')

include h

theorem SameReactor.started :
    w'.stream.streaming.isSome = w.stream.streaming.isSome := by
  have hown := congrArg Option.isSome h.own
  simpa [World.own] using hown

theorem SameReactor.map_streaming {β : Type} (f : StreamingState → β)
    (hf : ∀ st, f { st with context := {} } = f st) :
    w'.stream.streaming.map f = w.stream.streaming.map f := by
  have hown := congrArg (Option.map f) h.own
  simpa [World.own, Function.comp_def, hf] using hown

theorem SameReactor.explicit :
    w'.stream.isExplicit ↔ w.stream.isExplicit := by
  unfold Stream.isExplicit
  rw [h.map_streaming (·.handler.initialMetadataMode) fun _ => rfl]

theorem SameReactor.dead : w'.dead = w.dead := by
  unfold World.dead
  rw [h.closing, h.registered, h.resetSubmitted]

theorem SameReactor.outbound : w'.outbound = w.outbound := by
  unfold World.outbound
  rw [h.map_streaming (·.outbound) fun _ => rfl]

theorem SameReactor.uncut (huncut : w.Uncut) : w'.Uncut := by
  unfold World.Uncut World.partlySent
  rw [h.cut, h.outbound]
  exact huncut

theorem SameReactor.unfailed (hunfailed : w.Unfailed) : w'.Unfailed := by
  unfold World.Unfailed
  rw [h.terminations]
  exact hunfailed

end

theorem AppMove.same {w'' : World} (hsame : SameReactor w w') (hmove : AppMove w' w'') :
    SameReactor w w'' := by
  cases hmove with
  | context | contextTrailing =>
    refine { hsame with own := ?_ }
    rw [← hsame.own]
    simp [World.own, Function.comp_def, StreamingState.addTrailing]
  | _ => exact { hsame with }

theorem AppMoves.same (h : AppMoves w w') : SameReactor w w' := by
  induction h with
  | refl => exact .refl w
  | tail _ hmove ih => exact hmove.same ih

theorem AppMoves.commands_of_inactive (h : AppMoves w w')
    (hinactive : w.stream.streamingActive = false) :
    w'.commands = w.commands ∧ w'.stream.commandRefs = w.stream.commandRefs := by
  induction h with
  | refl => exact ⟨rfl, rfl⟩
  | @tail w₁ w₂ hmoves hmove ih =>
    have hinactive₁ : w₁.stream.streamingActive = false :=
      (AppMoves.same hmoves).active.trans hinactive
    have hno : ¬w₁.stream.streamingActive := by simp [hinactive₁]
    cases hmove with
    | send index send hsend hallowed => exact absurd hallowed.active hno
    | initialMetadata entries compression hactive | finish status trailing hactive
    | resumeQueued hactive => exact absurd hactive hno
    | _ => exact ih

/-! ## What no move undoes -/

theorem isExplicit_map {s : Stream} {f : StreamingState → StreamingState}
    (hf : ∀ st, (f st).handler = st.handler) :
    Stream.isExplicit { s with streaming := s.streaming.map f } ↔ s.isExplicit := by
  unfold Stream.isExplicit
  simp [Function.comp_def, hf]

theorem StopMove.announced (hmove : StopMove hand w c) (h : w.Announced) : c.world.Announced := by
  cases hmove with
  | app hmove =>
    have hsame := hmove.same (.refl _)
    unfold World.Announced
    rwa [hsame.active, hsame.explicit, hsame.headersSubmitted]
  | cancel => exact nofun
  | clear hinactive => exact fun hactive => by cases hinactive.symm.trans hactive
  | _ => exact h

theorem Move.announced (hmove : Move hand w c) (h : w.Announced) : c.world.Announced := by
  have hmap : ∀ {f : StreamingState → StreamingState}, (∀ st, (f st).handler = st.handler) →
      w.stream.streamingActive →
      ¬Stream.isExplicit { w.stream with streaming := w.stream.streaming.map f } →
      w.stream.responseHeadersSubmitted :=
    fun hf hactive hautomatic => h hactive (mt (isExplicit_map hf).mpr hautomatic)
  cases hmove with
  | stop hmove => exact hmove.announced h
  | announceAutomatic | announceExplicit | announceFailure => exact fun _ _ => rfl
  | fail | forceAbort | retire => exact nofun
  | fed | feedFailed | decoded | requestEncoding | remoteEndReceived | remoteEnd | take | handOver
  | complete => exact hmap fun _ => rfl
  | _ => exact h

theorem Move.inactive (hmove : Move hand w c) (h : w.stream.streamingActive = false) :
    c.world.stream.streamingActive = false := by
  cases hmove with
  | stop hmove =>
    cases hmove with
    | app hmove => exact (hmove.same (.refl _)).active.trans h
    | cancel => rfl
    | _ => exact h
  | fail => rfl
  | forceAbort => rfl
  | retire => rfl
  | _ => exact h

theorem Move.started (hmove : Move hand w c) (h : w.stream.streaming.isSome) :
    c.world.stream.streaming.isSome := by
  cases hmove with
  | stop hmove =>
    cases hmove with
    | app hmove => exact (hmove.same (.refl _)).started.trans h
    | clear => simpa using h
    | _ => exact h
  | fed | feedFailed | decoded | requestEncoding | remoteEndReceived | take | handOver | complete =>
    simpa using h
  | remoteEnd => simpa [World.noted] using h
  | _ => exact h

def World.Rested (hand : Hand) (w : World) : Prop :=
  w.stream.transportClosed → hand.retiring = false → w.commands = []

theorem AppMove.commands (hmove : AppMove w w') (hinactive : w.stream.streamingActive = false) :
    w'.commands = w.commands :=
  (AppMoves.commands_of_inactive (.single hmove) hinactive).1

theorem World.Base.inactive (h : w.Base) (hclosed : w.stream.transportClosed) :
    w.stream.streamingActive = false := by
  by_contra hactive
  have hopen := (h.running (by simpa using hactive)).2
  cases hclosed.symm.trans hopen

theorem StopMove.rested (hmove : StopMove hand w c) (hbase : w.Base) (h : w.Rested hand) :
    c.world.Rested c.hand := by
  cases hmove with
  | app hmove =>
    intro hclosed hdone
    have hclosed : w.stream.transportClosed := (hmove.same (.refl _)).transportClosed ▸ hclosed
    rw [hmove.commands (hbase.inactive hclosed)]
    exact h hclosed hdone
  | discard => exact fun _ _ => rfl
  | _ => exact h

theorem Move.rested (hmove : Move hand w c) (hbase : w.Base) (h : w.Rested hand) :
    c.world.Rested c.hand := by
  cases hmove with
  | stop hmove => exact hmove.rested hbase h
  | swap => exact fun _ _ => rfl
  | unregister => exact nofun
  | retire hgone hretiring => exact fun _ hdone => by cases hretiring.symm.trans hdone
  | destroy hretiring hreleased hclosed hcontrol hreferences =>
    intro _ _
    have hempty := hbase.references.symm.trans hreferences
    exact (List.append_eq_nil_iff.mp (List.length_eq_zero_iff.mp hempty)).2
  | _ => exact h

theorem Moves.announced (h : Moves c c') (hc : c.world.Announced) : c'.world.Announced := by
  induction h with
  | refl => exact hc
  | tail _ hmove ih => exact hmove.announced ih

theorem Moves.started (h : Moves c c') (hc : c.world.stream.streaming.isSome) :
    c'.world.stream.streaming.isSome := by
  induction h with
  | refl => exact hc
  | tail _ hmove ih => exact hmove.started ih

theorem Moves.inactive (h : Moves c c') (hc : c.world.stream.streamingActive = false) :
    c'.world.stream.streamingActive = false := by
  induction h with
  | refl => exact hc
  | tail _ hmove ih => exact hmove.inactive ih

end GrpcLite.Server
