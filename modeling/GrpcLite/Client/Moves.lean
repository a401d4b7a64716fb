import GrpcLite.Client.AppMoves

/-!
# The moves of a client stream

Everything that happens to a client stream is a sequence of single changes, each with what is
known when it is made.  `Move` are the changes outside the receiving side and `AnyMove` all of
them.  Next to the moves runs an exact account of `Control`, the part of the stream and its
channel that only the loop writes and that decides what the loop does next.
-/

namespace GrpcLite.Client

open Prog

/-! ## Control -/

/-- What the loop alone writes and decides on, apart from the receiving side. -/
structure Control where
  loopOwned : Bool
  registered : Bool
  mapped : Bool
  terminal : Bool
  closed : Bool
  streamId : Option ℕ
  forced : Option Status
  rst : Bool
  deadline : Option ℕ
  entry : Option ℕ
  expired : Bool
  woken : Bool
  connection : ConnectionState
  stopping : Bool
  reconnect : Option Bool
  everActive : Bool
  deriving DecidableEq, Repr

def World.control (w : World) : Control where
  loopOwned := w.stream.loopOwned
  registered := w.registered
  mapped := w.mapped
  terminal := w.stream.terminal
  closed := w.stream.transportClosed
  streamId := w.stream.streamId
  forced := w.stream.forcedStatus
  rst := w.stream.rstSubmitted
  deadline := w.stream.deadline
  entry := w.stream.deadlineEntry
  expired := w.stream.deadlineExpired
  woken := w.log.woken
  connection := w.connection
  stopping := w.stopping
  reconnect := w.reconnect
  everActive := w.everActive

namespace Control

def terminated (c : Control) : Control :=
  { c with terminal := true, entry := if c.loopOwned then none else c.entry }

def released (c : Control) : Control :=
  { c with entry := none, loopOwned := false, registered := false }

def gaveUp (c : Control) : Control :=
  { c with terminal := true, entry := none, loopOwned := false, registered := false }

def force (c : Control) (status : Status) : Control :=
  { c with forced := some (c.forced.getD status) }

def stopped (c : Control) : Control :=
  if c.stopping then c
  else if c.mapped then
    { c.gaveUp with stopping := true, connection := .closing, mapped := false, closed := true }
  else if c.registered then { c.gaveUp with stopping := true, connection := .closing }
  else { c with stopping := true, connection := .closing }

def canReconnect (c : Control) : Bool :=
  match c.reconnect with
  | none => false
  | some allowInitialOffline => c.everActive || allowInitialOffline

def failed (c : Control) : Control :=
  if c.stopping ∨ c.connection = .closing ∨ c.connection = .backingOff then c
  else if c.canReconnect = false then c.stopped
  else if c.registered then { c.gaveUp with connection := .closing, mapped := false }
  else { c with connection := .closing, mapped := false }

theorem gaveUp_eq {c : Control} (howned : c.loopOwned) : c.terminated.released = c.gaveUp := by
  simp [terminated, released, gaveUp, howned]

end Control

/-! ## The header fields -/

/-- The fields that the response headers and the end of the response set. -/
structure HeaderPart where
  responseEncodingInvalid : Bool
  responseMetadataInvalid : Bool
  responseHeaderListSize : ℕ
  retainedResponseMetadataSize : ℕ
  sawResponseHeaders : Bool
  headersCalled : Bool
  remoteEndSeen : Bool
  remoteEndCalled : Bool
  httpStatus : Option ℕ
  contentTypeGrpc : Bool
  grpcStatus : Option ℕ
  grpcMessage : Option Bytes
  initialMetadata : List Entry
  trailingMetadata : List Entry
  blockKind : HeaderKind
  blockMetadata : List Entry
  blockGrpcStatus : Option ℕ
  blockGrpcMessage : Option Bytes

def ClientStreamState.withHeaders (s : ClientStreamState) (part : HeaderPart) :
    ClientStreamState :=
  { s with
    responseEncodingInvalid := part.responseEncodingInvalid
    responseMetadataInvalid := part.responseMetadataInvalid
    responseHeaderListSize := part.responseHeaderListSize
    retainedResponseMetadataSize := part.retainedResponseMetadataSize
    sawResponseHeaders := part.sawResponseHeaders
    headersCalled := part.headersCalled
    remoteEndSeen := part.remoteEndSeen
    remoteEndCalled := part.remoteEndCalled
    httpStatus := part.httpStatus
    contentTypeGrpc := part.contentTypeGrpc
    grpcStatus := part.grpcStatus
    grpcMessage := part.grpcMessage
    initialMetadata := part.initialMetadata
    trailingMetadata := part.trailingMetadata
    blockKind := part.blockKind
    blockMetadata := part.blockMetadata
    blockGrpcStatus := part.blockGrpcStatus
    blockGrpcMessage := part.blockGrpcMessage }

def ClientStreamState.headers (s : ClientStreamState) : HeaderPart :=
  ⟨s.responseEncodingInvalid, s.responseMetadataInvalid, s.responseHeaderListSize,
    s.retainedResponseMetadataSize, s.sawResponseHeaders,
    s.headersCalled, s.remoteEndSeen, s.remoteEndCalled, s.httpStatus, s.contentTypeGrpc,
    s.grpcStatus, s.grpcMessage, s.initialMetadata, s.trailingMetadata, s.blockKind,
    s.blockMetadata, s.blockGrpcStatus, s.blockGrpcMessage⟩

structure FlowPart where
  receivePaused : Bool
  deferredStreamCredit : ℕ
  inbound : List InboundMessage
  inboundBuffered : ℕ
  decoder : Frame.Decoder
  received : Bytes
  refused : Bool
  decoded : List Bytes
  connectionCredit : ℕ
  streamCredit : ℕ
  overtaking : List AppAction

def World.withFlow (w : World) (part : FlowPart) : World :=
  { w with
    stream := { w.stream with
      receivePaused := part.receivePaused
      deferredStreamCredit := part.deferredStreamCredit
      inbound := part.inbound
      inboundBuffered := part.inboundBuffered
      decoder := part.decoder }
    log := { w.log with
      received := part.received
      refused := part.refused
      decoded := part.decoded
      connectionCredit := part.connectionCredit
      streamCredit := part.streamCredit
      overtaking := part.overtaking } }

def World.flow (w : World) : FlowPart :=
  ⟨w.stream.receivePaused, w.stream.deferredStreamCredit, w.stream.inbound,
    w.stream.inboundBuffered, w.stream.decoder, w.log.received, w.log.refused, w.log.decoded,
    w.log.connectionCredit, w.log.streamCredit, w.log.overtaking⟩

/-! ## Moves -/

/-- The callbacks that neither carry a message nor end the stream. -/
def Callback.isNotice : Callback → Bool
  | .headers _ | .remoteEnd | .writable => true
  | _ => false

def World.marked (w : World) (event : Mark) : World :=
  { w with log := { w.log with marks := w.log.marks ++ [event] } }

/-- The outcome that is reported does not contradict the one that was recorded, unless the end of
the connection overrides it. -/
def World.Agrees (w : World) (outcome : Outcome) : Prop :=
  (∀ forced, w.stream.forcedStatus = some forced → outcome.status = forced) ∨
    w.stream.forcedStatus ∈ w.log.sweeps

/-- A stream whose trailers can be reported: everything received has been decoded and handed on. -/
structure World.Drained (w : World) : Prop where
  closed : w.stream.transportClosed
  regular : w.stream.streamError = noError
  unforced : w.stream.forcedStatus = none
  finished : w.stream.decoder.finish = .ok ()
  unpaused : w.stream.receivePaused = false
  empty : w.stream.inbound = []

/-- The recorded outcome is the old one, or a first one for a stream that has not ended. -/
def ClientStreamState.Records (s : ClientStreamState) (forced : Option Status) : Prop :=
  forced = s.forcedStatus ∨ s.forcedStatus = none ∧ s.terminal = false ∧
    ∃ status : Status, forced = some status ∧ status.code ≠ .ok

inductive Move (w : World) : World → Prop
  | app {w' : World} (hmove : AppMove w w') : Move w w'
  | swept (hlive : w.stream.terminal = false) : Move w { w with
      log := { w.log with sweeps := w.log.sweeps ++ [w.stream.forcedStatus] } }
  | notice (kind : Callback) (hkind : kind.isNotice) (henabled : w.stream.enabled) :
      Move w (w.marked (.callback kind))
  | terminate {w' : World} (hlive : w.stream.terminal = false)
      (happ : AppMoves { w with stream := { w.stream with terminal := true } } w')
      (hreleased : w'.stream.appReleased) : Move w w'
  | terminateCall {w' : World} (outcome : Outcome) (hlive : w.stream.terminal = false)
      (happ : AppMoves { w with stream := { w.stream with terminal := true } } w')
      (howned : w'.stream.appOwned) (hunreleased : w'.stream.appReleased = false)
      (hagrees : w.Agrees outcome) (hok : outcome.status.code = .ok → outcome.fromTrailers)
      (hdrained : outcome.fromTrailers → w.Drained) :
      Move w (w'.marked (.callback (.terminal outcome w'.stream.trailingMetadata)))
  | loopRelease (howned : w.stream.loopOwned) (hterminal : w.stream.terminal) : Move w { w with
      stream := { w.stream with deadlineEntry := none, wakeQueued := false, loopOwned := false }
      registered := false
      log := { w.log with
        marks := w.log.marks ++
          .loopReleased :: if w.stream.appOwned then [] else [.destroyed] } }
  | deadline (entry : Option ℕ) :
      Move w { w with stream := { w.stream with deadlineEntry := entry } }
  | submit (id : ℕ) (hnew : w.stream.streamId = none) :
      Move w { w with stream := { w.stream with streamId := some id }, mapped := true }
  | close {w' : World} (errorCode : ℕ) (hmapped : w.mapped)
      (happ : AppMoves { w with
        mapped := false
        stream := { w.stream with transportClosed := true, streamError := errorCode } } w')
      (forced : Option Status) (expired : Bool) (hforced : w.stream.Records forced)
      (hcancel : forced = none → w'.stream.cancelRequested = false ∨ w'.stream.appReleased) :
      Move w { w' with stream := { w'.stream with
        sendOpen := false, forcedStatus := forced, deadlineExpired := expired } }
  | cut (hmapped : w.mapped) : Move w { w with
      mapped := false
      stream := { w.stream with transportClosed := true, streamError := cancelCode } }
  | unmap : Move w { w with mapped := false }
  | force (status : Status) (hcode : status.code ≠ .ok)
      (hlive : w.stream.terminal = false ∨ w.stream.forcedStatus.isSome)
      (hsubmitted : w.stream.streamId.isSome) :
      Move w { w with stream := w.stream.setForcedStreamStatus status }
  | reset : Move w { w with stream := { w.stream with rstSubmitted := true } }
  | expired : Move w { w with stream := { w.stream with deadlineExpired := true } }
  | header (part : HeaderPart) : Move w { w with stream := w.stream.withHeaders part }
  | tooLarge : Move w { w with stream := { w.stream with responseHeadersTooLarge := true } }
  | encoding (compression : Compression) : Move w { w with stream := { w.stream with
      responseCompression := compression
      decoder := { w.stream.decoder with compression := compression } } }
  | deferred (hopened : w.stream.transportClosed = false) (hsubmitted : w.stream.streamId.isSome)
      (hempty : w.stream.outbound = []) (hsending : w.stream.sendOpen) :
      Move w { w with stream := { w.stream with providerDeferred := true } }
  | eof (hopened : w.stream.transportClosed = false) (hempty : w.stream.outbound = [])
      (hended : w.stream.sendOpen = false) :
      Move w { w with stream := { w.stream with providerEof := true } }
  | partly (item : OutboundMessage) (rest : List OutboundMessage) (length : ℕ)
      (howned : w.stream.loopOwned) (hqueue : w.stream.outbound = item :: rest)
      (hpart : item.offset + (item.remaining.take length).length ≠ item.frameBytes.length) :
      Move w { w with
        stream := { w.stream with outbound :=
          { item with offset := item.offset + (item.remaining.take length).length } :: rest }
        log := { w.log with produced := w.log.produced ++ item.remaining.take length } }
  | wholly (item : OutboundMessage) (rest : List OutboundMessage) (length : ℕ)
      (howned : w.stream.loopOwned) (hopened : w.stream.transportClosed = false)
      (hqueue : w.stream.outbound = item :: rest)
      (hwhole : item.offset + (item.remaining.take length).length = item.frameBytes.length) :
      Move w { w with
        stream := { w.stream with
          outbound := rest
          outboundBuffered := w.stream.outboundBuffered - item.frameBytes.length
          providerEof := w.stream.providerEof || (rest.isEmpty && !w.stream.sendOpen)
          backpressureRequested := false }
        log := { w.log with produced := w.log.produced ++ item.remaining.take length } }
  | commandsTaken : Move w { w with stream := { w.stream with
      resumeRequested := false
      providerDeferred := w.stream.providerDeferred && !(w.stream.providerDeferred &&
        (!w.stream.outbound.isEmpty || !w.stream.sendOpen)) } }
  | callbackFailed : Move w { w with log := { w.log with callbackFailed := true } }
  | connection (connection : ConnectionState) (stopping everActive : Bool) : Move w { w with
      connection := connection, stopping := stopping, everActive := everActive }

def Moves : World → World → Prop := Relation.ReflTransGen Move

/-- The stream once the loop has taken it from the wake list. -/
def World.awake (w : World) : World :=
  { w with
    stream := { w.stream with wakeQueued := false }
    log := { w.log with woken := true } }

/-- What becomes of the queue of received messages: nothing, or one joins or leaves it. -/
inductive ClientStreamState.Requeues (s : ClientStreamState) : List InboundMessage → ℕ → Prop
  | same : s.Requeues s.inbound s.inboundBuffered
  | push (item : InboundMessage) (henabled : s.enabled)
      (hsize : checkedAdd item.payload.length Frame.headerSize = some item.bufferedSize)
      (hroom : item.bufferedSize ≤ s.limits.maxInboundBufferSize - s.inboundBuffered) :
      s.Requeues (s.inbound ++ [item]) (s.inboundBuffered + item.bufferedSize)
  | pop (item : InboundMessage) (rest : List InboundMessage) (henabled : s.enabled)
      (hqueue : s.inbound = item :: rest) :
      s.Requeues rest (s.inboundBuffered - item.bufferedSize)

inductive AnyMove (w : World) : World → Prop
  | outer {w' : World} (hmove : Move w w') : AnyMove w w'
  | message (payload : Bytes) (compression : Compression) (henabled : w.stream.enabled) :
      AnyMove w (w.marked (.callback (.message payload compression)))
  | flow (part : FlowPart) (hqueue : w.stream.Requeues part.inbound part.inboundBuffered) :
      AnyMove w (w.withFlow part)

def AnyMoves : World → World → Prop := Relation.ReflTransGen AnyMove

variable {w w' : World}

theorem Moves.any (h : Moves w w') : AnyMoves w w' :=
  Relation.ReflTransGen.mono (fun _ _ hmove => .outer hmove) _ _ h

/-! ## What the moves rely on -/

structure World.Base (w : World) : Prop where
  unended : w.stream.terminal = false → ∀ event ∈ w.log.marks, event.isTerminal = false
  ended : w.stream.terminal → (∃ event ∈ w.log.marks, event.isTerminal) ∨ w.stream.appReleased
  owned : w.stream.appReleased = !w.stream.appOwned
  wake : w.stream.wakeQueued → w.stream.loopOwned
  failure : ∀ forced, w.stream.forcedStatus = some forced → forced.code ≠ .ok

theorem AppMove.control (hmove : AppMove w w') : w'.control = w.control := by
  cases hmove <;> rfl

theorem AppMoves.control (h : AppMoves w w') : w'.control = w.control := by
  induction h with
  | refl => rfl
  | tail _ hmove ih => exact hmove.control.trans ih

theorem mem_ownerMarks {owned : Bool} {event first : Mark}
    (hmem : event ∈ first :: if owned then [] else [Mark.destroyed]) :
    event = first ∨ event = .destroyed := by
  cases owned with
  | true => exact .inl (by simpa using hmem)
  | false => simpa using hmem

section

variable (hmove : AppMove w w')

include hmove

theorem AppMove.unended (h : ∀ event ∈ w.log.marks, event.isTerminal = false) :
    ∀ event ∈ w'.log.marks, event.isTerminal = false := by
  cases hmove with
  | release =>
    intro event hmem
    rcases List.mem_append.mp hmem with hmem | hmem
    · exact h event hmem
    · rcases mem_ownerMarks hmem with rfl | rfl <;> rfl
  | _ => exact h

theorem AppMove.ended (h : (∃ event ∈ w.log.marks, event.isTerminal) ∨ w.stream.appReleased) :
    (∃ event ∈ w'.log.marks, event.isTerminal) ∨ w'.stream.appReleased := by
  cases hmove with
  | release => exact .inr rfl
  | _ => exact h

theorem AppMove.owned (h : w.stream.appReleased = !w.stream.appOwned) :
    w'.stream.appReleased = !w'.stream.appOwned := by
  cases hmove with
  | release => rfl
  | _ => exact h

theorem AppMove.wakeOwned (h : w.stream.wakeQueued → w.stream.loopOwned) :
    w'.stream.wakeQueued → w'.stream.loopOwned := by
  have hlisted : (w.stream.wakeQueued || (w.stream.loopOwned && w.registered)) →
      w.stream.loopOwned := by
    intro hset
    cases hqueued : w.stream.wakeQueued with
    | true => exact h hqueued
    | false =>
      rw [hqueued, Bool.false_or, Bool.and_eq_true] at hset
      exact hset.1
  cases hmove with
  | send | closeSend | cancel | resume | release => exact hlisted
  | _ => exact h

theorem AppMove.base (h : w.Base) : w'.Base where
  unended hlive :=
    hmove.unended (h.unended ((congrArg Control.terminal hmove.control).symm.trans hlive))
  ended hterminal :=
    hmove.ended (h.ended ((congrArg Control.terminal hmove.control).symm.trans hterminal))
  owned := hmove.owned h.owned
  wake := hmove.wakeOwned h.wake
  failure forced hforced := h.failure forced
    ((congrArg Control.forced hmove.control).symm.trans hforced)

end

structure World.Ending (w : World) : Prop where
  terminal : w.stream.terminal
  unended : ∀ event ∈ w.log.marks, event.isTerminal = false
  owned : w.stream.appReleased = !w.stream.appOwned
  wake : w.stream.wakeQueued → w.stream.loopOwned
  failure : ∀ forced, w.stream.forcedStatus = some forced → forced.code ≠ .ok

theorem AppMoves.ending (h : AppMoves w w') (hw : w.Ending) : w'.Ending := by
  refine AppClosed.moves (fun w₁ w₂ hmove h₁ => ?_) h hw
  exact
    { terminal := (congrArg Control.terminal hmove.control).trans h₁.terminal
      unended := hmove.unended h₁.unended
      owned := hmove.owned h₁.owned
      wake := hmove.wakeOwned h₁.wake
      failure := fun forced hforced => h₁.failure forced
        ((congrArg Control.forced hmove.control).symm.trans hforced) }

theorem World.Base.ending (h : w.Base) (hlive : w.stream.terminal = false) :
    World.Ending { w with stream := { w.stream with terminal := true } } :=
  ⟨rfl, h.unended hlive, h.owned, h.wake, h.failure⟩

theorem World.Base.marked (h : w.Base) {event : Mark} (hevent : event.isTerminal = false) :
    (w.marked event).Base :=
  { h with
    unended := fun hlive =>
      List.forall_mem_append.mpr ⟨h.unended hlive, List.forall_mem_singleton.mpr hevent⟩
    ended := fun hterminal => (h.ended hterminal).imp_left fun ⟨other, hmem, hother⟩ =>
      ⟨other, List.mem_append_left _ hmem, hother⟩ }

theorem Move.base (hmove : Move w w') (h : w.Base) : w'.Base := by
  cases hmove with
  | app hmove => exact hmove.base h
  | notice kind hkind =>
    refine h.marked ?_
    cases kind <;> first | rfl | cases hkind
  | terminate hlive happ hreleased =>
    have hending := happ.ending (h.ending hlive)
    exact
      { unended := fun hlive' => by cases hending.terminal.symm.trans hlive'
        ended := fun _ => .inr hreleased
        owned := hending.owned
        wake := hending.wake
        failure := hending.failure }
  | terminateCall outcome hlive happ =>
    have hending := happ.ending (h.ending hlive)
    exact
      { unended := fun hlive' => by cases hending.terminal.symm.trans hlive'
        ended := fun _ => .inl ⟨_, List.mem_append_right _ (List.mem_singleton_self _), rfl⟩
        owned := hending.owned
        wake := hending.wake
        failure := hending.failure }
  | loopRelease howned hterminal =>
    exact
      { unended := fun hlive => by cases hterminal.symm.trans hlive
        ended := fun _ => (h.ended hterminal).imp_left fun ⟨event, hmem, hevent⟩ =>
          ⟨event, List.mem_append_left _ hmem, hevent⟩
        owned := h.owned
        wake := nofun
        failure := h.failure }
  | close errorCode hmapped happ forced expired hforced =>
    have hclosed := AppClosed.moves (fun _ _ hmove h => hmove.base h) happ { h with }
    refine { hclosed with failure := fun recorded hrecorded => ?_ }
    rcases hforced with hsame | ⟨_, _, status, hstatus, hcode⟩
    · exact h.failure recorded (hsame.symm.trans hrecorded)
    · exact Option.some.inj (hstatus.symm.trans hrecorded) ▸ hcode
  | force status hcode =>
    refine { h with failure := fun forced hforced => ?_ }
    cases hrecorded : w.stream.forcedStatus with
    | none =>
      have hnew : some status = some forced := by
        simpa [ClientStreamState.setForcedStreamStatus, hrecorded] using hforced
      exact Option.some.inj hnew ▸ hcode
    | some first =>
      have hsame : some first = some forced := by
        simpa [ClientStreamState.setForcedStreamStatus, hrecorded] using hforced
      exact h.failure forced (hrecorded.trans hsame)
  | _ => exact { h with }

theorem World.Base.awake (h : w.Base) : w.awake.Base := { h with wake := nofun }

theorem AnyMove.base (hmove : AnyMove w w') (h : w.Base) : w'.Base := by
  cases hmove with
  | outer hmove => exact hmove.base h
  | message => exact h.marked rfl
  | flow => exact { h with }

end GrpcLite.Client
