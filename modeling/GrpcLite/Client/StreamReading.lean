import GrpcLite.Wire.Framing
import GrpcLite.Client.Outcome
import GrpcLite.Client.Reading

/-!
# Reading a response on a stream

What a client stream makes of the parts of its response, whatever its application does meanwhile.
`Receiver` is computed from the response alone.  The stream follows it as long as nothing but the
response decides its end: no cancel, no quota, and no end of the connection.
-/

namespace GrpcLite.Client

open Prog

variable {w w' : World}

/-! ## Ends that the response does not decide -/

/-- The application cancelled the stream, the end of the connection ended it, it exceeded a quota,
or the application released it before it ended. -/
def World.Aborted (w : World) : Prop :=
  w.log.cancelledAt.isSome ∨ w.log.sweeps ≠ [] ∨
    (∃ status, w.stream.forcedStatus = some status ∧ status.code = .resourceExhausted) ∨
    w.stream.appReleased ∧ ∀ event ∈ w.log.marks, event.isTerminal = false

theorem aborted_app : AppClosed World.Aborted := by
  intro w w' hmove h
  rcases h with h | h | h | ⟨hreleased, hunended⟩
  · refine .inl ?_
    cases hmove with
    | cancel => rfl
    | _ => exact h
  · exact .inr (.inl (by rw [hmove.sweeps]; exact h))
  · obtain ⟨status, hforced, hcode⟩ := h
    exact .inr (.inr (.inl ⟨status, (congrArg Control.forced hmove.control).trans hforced, hcode⟩))
  · exact .inr (.inr (.inr ⟨AppMoves.released (.single hmove) hreleased, hmove.unended hunended⟩))

theorem World.Aborted.marked (h : w.Aborted) {event : Mark} (hevent : event.isTerminal = false) :
    (w.marked event).Aborted := by
  rcases h with h | h | h | ⟨hreleased, hunended⟩
  · exact .inl h
  · exact .inr (.inl h)
  · exact .inr (.inr (.inl h))
  · refine .inr (.inr (.inr ⟨hreleased, ?_⟩))
    exact List.forall_mem_append.mpr ⟨hunended, List.forall_mem_singleton.mpr hevent⟩

theorem World.Aborted.ended (h : w.Aborted) (hunreleased : w.stream.appReleased = false)
    (event : Mark) : (w.marked event).Aborted := by
  rcases h with h | h | h | ⟨hreleased, _⟩
  · exact .inl h
  · exact .inr (.inl h)
  · exact .inr (.inr (.inl h))
  · cases hreleased.symm.trans hunreleased

theorem World.Aborted.force (h : w.Aborted) (status : Status) :
    ({ w with stream := w.stream.setForcedStreamStatus status } : World).Aborted := by
  rcases h with h | h | ⟨first, hforced, hcode⟩ | h
  · exact .inl h
  · exact .inr (.inl h)
  · refine .inr (.inr (.inl ⟨first, ?_, hcode⟩))
    simp [ClientStreamState.setForcedStreamStatus, hforced]
  · exact .inr (.inr (.inr h))

theorem aborted_delivering : Delivering World.Aborted where
  app := aborted_app
  message _ _ _ h := h.marked rfl
  queue _ h := h
  decode _ _ h := h
  overtaking _ h := h
  pause h := h

theorem terminalizeStream_aborted (outcome : Outcome) :
    Ends World.Aborted (terminalizeStream outcome) := by
  unfold terminalizeStream removeStreamDeadline modifyStream
  refine .bind .get fun s => .bind (.when fun _ => .modify fun _ h => h) fun _ =>
    .bind (lock_ends aborted_app) fun _ => .bind .get fun s => .when fun _ =>
    .bind (.modify fun _ h => h) fun _ => .when fun _ w h => ?_
  unfold invokeTerminalCallback beginTerminalCallback
  rw [wp_bind]
  refine wp_ends_seq (lock_ends aborted_app w h) fun _ w₁ h₁ => ?_
  rw [wp_get_bind, wp_pure, wp_ite]
  refine ⟨fun howned => ?_, fun _ => h₁⟩
  have hunreleased : w₁.stream.appReleased = false := by
    simp only [Bool.and_eq_true, Bool.not_eq_true'] at howned
    exact howned.2
  rw [wp_get_bind, wp_bind]
  exact runCallback_wp aborted_app (h₁.ended hunreleased _)

theorem releaseStreamLoopOwnership_aborted :
    Ends World.Aborted releaseStreamLoopOwnership := by
  unfold releaseStreamLoopOwnership destroy mark modifyLog
  refine .bind (lock_ends aborted_app) fun _ => .bind (.modify fun _ h => h) fun _ =>
    .bind (.modify fun _ h => h.marked rfl) fun _ => .bind .get fun s => .when fun _ =>
    .modify fun _ h => h.marked rfl

theorem giveUp_aborted (code : Code) (reason : String) : Ends World.Aborted (giveUp code reason) :=
  .bind (terminalizeStream_aborted _) fun _ => releaseStreamLoopOwnership_aborted

theorem finalizeClientStream_aborted : Ends World.Aborted finalizeClientStream := by
  unfold finalizeClientStream notifyRemoteEnd modifyStream
  refine .bind (.bind .get fun s => .when fun _ => .bind (.modify fun _ h => h) fun _ => ?_)
    fun _ => ?_
  · exact invokeCallback_ends aborted_app _ fun _ h _ => h.marked rfl
  · refine .bind .get fun s =>
      .ite (fun _ => .bind (drawFault_ends aborted_app) fun oom => ?_) fun _ =>
      .bind (.pure _) fun oom => ?_
    · exact terminalizeStream_aborted _
    · exact terminalizeStream_aborted _

theorem noteSweep_aborted : Ends World.Aborted noteSweep := by
  unfold noteSweep modifyLog
  refine .bind .get fun s => .when fun _ => .modify fun w h => ?_
  exact .inr (.inl (List.append_ne_nil_of_right_ne_nil _ nofun))

theorem beginStop_aborted (reason : String) : Ends World.Aborted (beginStop reason) := by
  unfold beginStop
  refine .bind .get fun w => .when fun _ => .bind (.modify fun _ h => h) fun _ =>
    .bind .get fun w => ?_
  refine .bind (.when fun _ => ?_) fun _ => .bind .get fun w => .when fun _ => ?_
  · exact .bind (.modify fun _ h => h) fun _ => .bind noteSweep_aborted fun _ => giveUp_aborted _ _
  · exact .bind noteSweep_aborted fun _ => giveUp_aborted _ _

theorem handleTransportFailure_aborted (reason : String) :
    Ends World.Aborted (handleTransportFailure reason) := by
  unfold handleTransportFailure
  refine .bind .get fun w => .when fun _ => .ite (fun _ => beginStop_aborted reason) fun _ => ?_
  refine .bind (.modify fun _ h => h) fun _ => .bind (.when fun _ => ?_) fun _ =>
    .modify fun _ h => h
  exact .bind noteSweep_aborted fun _ => giveUp_aborted _ _

theorem handleTransportFailure_aborts (reason : String) (hrunning : w.stopping = false)
    (hconnected : w.connection ≠ .closing ∧ w.connection ≠ .backingOff) (hregistered : w.registered)
    (hlive : w.stream.terminal = false) :
    wp (handleTransportFailure reason) (fun _ => World.Aborted) never w := by
  have hsweep : ∀ {w₁ : World}, w₁.stream.terminal = false →
      wp (do noteSweep; giveUp .unavailable reason) (fun _ => World.Aborted) never w₁ := by
    intro w₁ hlive
    unfold noteSweep modifyLog
    rw [wp_bind, wp_get_when]
    refine ⟨fun _ => giveUp_aborted _ _ _ ?_, fun hnot => absurd (by simpa using hlive) hnot⟩
    exact .inr (.inl (List.append_ne_nil_of_right_ne_nil _ nofun))
  unfold handleTransportFailure
  rw [wp_get_when]
  refine ⟨fun _ => ?_, fun hnot => absurd ⟨by simpa using hrunning, hconnected⟩ hnot⟩
  rw [wp_ite]
  refine ⟨fun _ => ?_, fun _ => ?_⟩
  · unfold beginStop
    rw [wp_get_when]
    refine ⟨fun _ => ?_, fun hnot => absurd (by simpa using hrunning) hnot⟩
    rw [wp_modify_bind, wp_get_bind, wp_bind, wp_when]
    refine ⟨fun _ => ?_, fun _ => ?_⟩
    · rw [wp_modify_bind]
      refine wp_imp (hsweep hlive) fun _ w₂ h₂ => ?_
      refine Exits.bind .get (fun w₃ => .when fun _ => ?_) w₂ h₂
      exact .bind noteSweep_aborted fun _ => giveUp_aborted _ _
    · rw [wp_get_when]
      exact ⟨fun _ => hsweep hlive, fun hnot => absurd hregistered hnot⟩
  · rw [wp_modify_bind, wp_bind, wp_when]
    refine ⟨fun _ => ?_, fun hnot => absurd hregistered hnot⟩
    exact wp_imp (hsweep hlive) fun _ _ h' => h'

/-! ## What a stream makes of its response -/

def ClientStreamState.reading (s : ClientStreamState) : Reading where
  sawResponseHeaders := s.sawResponseHeaders
  httpStatus := s.httpStatus
  contentTypeGrpc := s.contentTypeGrpc
  grpcStatus := s.grpcStatus
  grpcMessage := s.grpcMessage
  responseCompression := s.responseCompression
  responseEncodingInvalid := s.responseEncodingInvalid
  responseMetadataInvalid := s.responseMetadataInvalid
  responseHeaderListSize := s.responseHeaderListSize
  retainedResponseMetadataSize := s.retainedResponseMetadataSize
  initialMetadata := s.initialMetadata
  trailingMetadata := s.trailingMetadata
  blockKind := s.blockKind
  blockMetadata := s.blockMetadata
  blockGrpcStatus := s.blockGrpcStatus
  blockGrpcMessage := s.blockGrpcMessage

def ClientStreamState.withReading (s : ClientStreamState) (r : Reading) : ClientStreamState :=
  { s with
    sawResponseHeaders := r.sawResponseHeaders
    httpStatus := r.httpStatus
    contentTypeGrpc := r.contentTypeGrpc
    grpcStatus := r.grpcStatus
    grpcMessage := r.grpcMessage
    responseCompression := r.responseCompression
    responseEncodingInvalid := r.responseEncodingInvalid
    responseMetadataInvalid := r.responseMetadataInvalid
    responseHeaderListSize := r.responseHeaderListSize
    retainedResponseMetadataSize := r.retainedResponseMetadataSize
    initialMetadata := r.initialMetadata
    trailingMetadata := r.trailingMetadata
    blockKind := r.blockKind
    blockMetadata := r.blockMetadata
    blockGrpcStatus := r.blockGrpcStatus
    blockGrpcMessage := r.blockGrpcMessage }

def Mark.headers : Mark → Option (List Entry)
  | .callback (.headers initial) => some initial
  | _ => none

/-- What a stream has made of its response.  The encoding of `decoder` is the one the headers have
named last, `current`. -/
structure Receiver where
  reading : Reading := {}
  decoder : Frame.Decoder
  forced : Option Status := none
  headersCalled : Bool := false
  shown : List (List Entry) := []

namespace Receiver

def current (v : Receiver) : Frame.Decoder :=
  { v.decoder with compression := v.reading.responseCompression }

def force (v : Receiver) (status : Status) : Receiver :=
  { v with forced := some (v.forced.getD status) }

def close (v : Receiver) (endStream : Bool) : Receiver :=
  if v.reading.premature endStream then
    { v with reading := v.reading.close endStream }.force
      (.init .internal "grpc-status before end of stream")
  else if v.reading.trailing ∨ v.headersCalled then
    { v with reading := v.reading.close endStream }
  else
    { v with
      reading := v.reading.close endStream
      headersCalled := true
      shown := v.shown ++ [(v.reading.close endStream).initialMetadata] }

def data (gzip : Gzip) (v : Receiver) (bytes : Bytes) : Receiver :=
  if v.forced.isSome then v
  else
    let fed := v.current.feed bytes
    match fed.drain gzip (fed.bufferedBytes + 1) with
    | .error err => v.force (decodeFailure (.frame err))
    | .ok rest => { v with decoder := rest }

/-- One part of the response; `none` if it exceeds the limits of the header fields. -/
def part (limit : ℕ) (gzip : Gzip) (v : Receiver) : Part → Option Receiver
  | .begin first => some { v with reading := v.reading.start (headerKind first) }
  | .field f => (v.reading.field limit f).map fun r => { v with reading := r }
  | .frame endStream => if v.reading.blockKind = .none then none else some (v.close endStream)
  | .data bytes => some (v.data gzip bytes)
  | .last => some v

def receive (limit : ℕ) (gzip : Gzip) (v : Receiver) (parts : List Part) : Option Receiver :=
  parts.foldlM (part limit gzip) v

/-- What the stream reports once the transport has closed it. -/
def outcome (v : Receiver) (errorCode : ℕ) : Status :=
  match v.forced with
  | some forced => forced
  | none =>
    if errorCode ≠ noError then streamErrorStatus errorCode
    else match v.reading.verdict with
      | .error status => status
      | .ok grpcStatus =>
        if v.reading.responseMetadataInvalid then .init .internal "invalid response metadata"
        else match v.decoder.finish with
          | .error _ => .init .internal "malformed streaming response"
          | .ok _ => ⟨.fromInt grpcStatus, v.reading.text⟩

end Receiver

structure Setting where
  limit : ℕ
  gzip : Gzip
  deadline : Option ℕ
  onHeaders : Bool

/-- How far a stream has got: its request is submitted, and the transport closes it with a code. -/
inductive Stage where
  | pending
  | started
  | closed (errorCode : ℕ)
  deriving DecidableEq, Repr

namespace Stage

def isPending : Stage → Bool
  | .pending => true
  | _ => false

def isStarted : Stage → Bool
  | .started => true
  | _ => false

/-- The code with which the transport has closed the stream. -/
def errorCode : Stage → Option ℕ
  | .closed errorCode => some errorCode
  | _ => none

end Stage

/-- A stream that has got so far with its response and whose application still waits for its end. -/
structure World.Sees (setting : Setting) (stage : Stage) (v : Receiver) (w : World) : Prop where
  limit : w.maxResponseHeaderListSize = setting.limit
  gzip : w.gzip = setting.gzip
  deadline : w.stream.deadline = setting.deadline
  onHeaders : w.stream.callbacks.onHeaders = setting.onHeaders
  running : w.stopping = false
  connected : w.connection = .active
  registered : w.registered
  mapped : w.mapped = stage.isStarted
  submitted : w.stream.streamId.isNone = stage.isPending
  transport : w.stream.transportClosed = stage.errorCode.isSome
  error : w.stream.streamError = stage.errorCode.getD noError
  loopOwned : w.stream.loopOwned
  appOwned : w.stream.appOwned
  unreleased : w.stream.appReleased = false
  uncancelled : w.stream.cancelRequested = false
  unended : w.stream.terminal = false
  unmarked : ∀ event ∈ w.log.marks, event.isTerminal = false
  fits : w.stream.responseHeadersTooLarge = false
  reading : w.stream.reading = v.reading
  headersCalled : w.stream.headersCalled = v.headersCalled
  forced : w.stream.forcedStatus = v.forced
  shown : setting.onHeaders → w.log.marks.filterMap Mark.headers = v.shown

/-- The stream goes on as the response says, with a decoder that meets `D`, or something else
decides its end. -/
def World.Tracks (setting : Setting) (stage : Stage) (v : Receiver) (D : Frame.Decoder → Prop)
    (w : World) : Prop :=
  w.env.faults = [] ∧ (w.Aborted ∨ w.Sees setting stage v ∧ D w.stream.decoder)

def Receiver.Holds (v : Receiver) (decoder : Frame.Decoder) : Prop :=
  v.forced = none → decoder = v.current ∧ decoder.Starved

def World.Follows (setting : Setting) (stage : Stage) (v : Receiver) : World → Prop :=
  World.Tracks setting stage v v.Holds

/-- A stream that goes on as the response says. -/
structure World.Reads (setting : Setting) (stage : Stage) (v : Receiver) (w : World) : Prop
    extends w.Sees setting stage v where
  faults : w.env.faults = []
  holds : v.Holds w.stream.decoder

section Follows

variable {setting : Setting} {stage : Stage} {v : Receiver} {D : Frame.Decoder → Prop}

theorem World.Reads.follows (h : w.Reads setting stage v) : w.Follows setting stage v :=
  ⟨h.faults, .inr ⟨h.toSees, h.holds⟩⟩

theorem World.Sees.enabled (h : w.Sees setting stage v) : w.stream.enabled := by
  simp [ClientStreamState.enabled, h.appOwned, h.unreleased, h.uncancelled, h.unended]

theorem AppMove.faults (hmove : AppMove w w') (h : w.env.faults = []) : w'.env.faults = [] := by
  cases hmove with
  | env env hfaults => exact hfaults h
  | _ => exact h

theorem AppMove.sees (hmove : AppMove w w') (h : w.Sees setting stage v) :
    w'.Aborted ∨ w'.Sees setting stage v ∧ w'.stream.decoder = w.stream.decoder := by
  cases hmove with
  | cancel => exact .inl (.inl rfl)
  | release inside howned =>
    have hmove : AppMove w _ := .release inside howned
    exact .inl (.inr (.inr (.inr ⟨rfl, hmove.unended h.unmarked⟩)))
  | _ => exact .inr ⟨{ h with }, rfl⟩

theorem tracks_app : AppClosed (World.Tracks setting stage v D) := by
  rintro w w' hmove ⟨hfaults, h⟩
  refine ⟨hmove.faults hfaults, ?_⟩
  rcases h with h | ⟨hsees, hdecoder⟩
  · exact .inl (aborted_app hmove h)
  · rcases hmove.sees hsees with h | ⟨hsees, hsame⟩
    · exact .inl h
    · exact .inr ⟨hsees, hsame ▸ hdecoder⟩

theorem World.Tracks.change (h : w.Tracks setting stage v D)
    (hfaults : w'.env.faults = w.env.faults)
    (haborted : w.Aborted → w'.Aborted)
    (hsees : w.Sees setting stage v → w'.Sees setting stage v)
    (hdecoder : w'.stream.decoder = w.stream.decoder) : w'.Tracks setting stage v D := by
  refine ⟨hfaults.trans h.1, h.2.imp haborted fun h' => ⟨hsees h'.1, ?_⟩⟩
  rw [hdecoder]
  exact h'.2

variable {event : Mark}

theorem World.Sees.marked (h : w.Sees setting stage v) (hterminal : event.isTerminal = false)
    (hheaders : event.headers = none) :
    (w.marked event).Sees setting stage v where
  __ := h
  unmarked := List.forall_mem_append.mpr ⟨h.unmarked, List.forall_mem_singleton.mpr hterminal⟩
  shown := by
    intro hregistered
    show (w.log.marks ++ [event]).filterMap Mark.headers = v.shown
    rw [List.filterMap_append, h.shown hregistered]
    simp [hheaders]

theorem World.Tracks.marked (h : w.Tracks setting stage v D) (hterminal : event.isTerminal = false)
    (hheaders : event.headers = none) : (w.marked event).Tracks setting stage v D :=
  h.change rfl (·.marked hterminal) (·.marked hterminal hheaders) rfl

theorem tracks_conveying : Conveying (World.Tracks setting stage v D) where
  app := tracks_app
  message _ _ _ h := h.marked rfl rfl
  queue _ h := h.change rfl id (fun h' => { h' with }) rfl
  overtaking _ h := h.change rfl id (fun h' => { h' with }) rfl
  pause h := h.change rfl id (fun h' => { h' with }) rfl

end Follows

/-! ## Header blocks -/

section Headers

variable {setting : Setting} {v : Receiver}

variable {E : StreamError → World → Prop} {r : Reading}

theorem drawFault_unfailing {Q : Bool → World → Prop} (hfaults : w.env.faults = [])
    (hQ : Q false w) :
    wp drawFault Q E w := by
  unfold drawFault
  rw [wp_get_bind, hfaults]
  exact hQ

variable {Q : Unit → World → Prop} {name value : Bytes} {D : Frame.Decoder → Prop}
  {failure : Status}

theorem external_unfailing {error : StreamError} (hfaults : w.env.faults = []) (hQ : Q () w) :
    wp (external error) Q E w := by
  unfold external
  rw [wp_bind]
  refine drawFault_unfailing hfaults ?_
  rw [wp_ensure]
  exact ⟨fun _ => hQ, fun h => absurd nofun h⟩

theorem World.Reads.map (h : w.Reads setting .started v) (g : Reading → Reading)
    (hg : (g v.reading).responseCompression = v.reading.responseCompression) :
    ({ w with stream := w.stream.withReading (g w.stream.reading) } : World).Reads setting .started
      { v with reading := g v.reading } where
  __ := h
  reading := congrArg g h.reading
  holds := by
    intro hnone
    unfold Receiver.current
    dsimp only
    rw [hg]
    exact h.holds hnone

theorem accountResponseHeader_unfailing {nameLength valueLength : ℕ}
    (h : w.Reads setting .started v)
    (hcharge : v.reading.charge setting.limit nameLength valueLength = some r) :
    wp (accountResponseHeader nameLength valueLength)
      (fun store w' => store = true ∧ w'.Reads setting .started { v with reading := r })
      never w := by
  unfold Reading.charge at hcharge
  obtain ⟨total, htotal, rfl⟩ := Option.map_eq_some_iff.mp hcharge
  rw [← h.reading, ← h.limit] at htotal
  unfold accountResponseHeader modifyStream
  rw [wp_get_bind, wp_ite]
  refine ⟨fun htooLarge => (by cases h.fits.symm.trans htooLarge), fun _ => ?_⟩
  rw [show accountResponseHeaderField w.stream.responseHeaderListSize nameLength valueLength
    w.maxResponseHeaderListSize = some total from htotal]
  exact ⟨rfl, h.map (fun r => { r with responseHeaderListSize := total }) rfl⟩

theorem appendResponseMetadata_unfailing (name value : Bytes) (h : w.Reads setting .started v) :
    wp (appendResponseMetadata name value)
      (fun _ w' => w'.Reads setting .started { v with reading := v.reading.addEntries name value })
      never w := by
  have happend := Metadata.appendDecoded_unfailing w.stream.blockMetadata name value
  unfold appendResponseMetadata Reading.addEntries
  rw [wp_get_bind, h.faults]
  unfold wp at happend
  cases hrun : Metadata.appendDecoded name value ⟨[], w.stream.blockMetadata⟩ with
  | ok =>
    rw [hrun] at happend
    obtain ⟨new, hnew, rfl⟩ := happend
    rw [hnew]
    exact { h.map (fun r => { r with blockMetadata := r.blockMetadata ++ new }) rfl with
      faults := rfl }
  | error err =>
    rw [hrun] at happend
    obtain ⟨herr, hmemory, rfl⟩ := happend
    rw [herr]
    have hinvalid := h.map (fun r => { r with responseMetadataInvalid := true }) rfl
    cases err with
    | outOfMemory => exact absurd rfl hmemory
    | invalidMetadataKey | invalidMetadataValue | base64 => exact { hinvalid with faults := rfl }

theorem processClientResponseMetadata_unfailing (h : w.Reads setting .started v)
    (hstore : v.reading.storeMetadata setting.limit name value = some r) :
    wp (processClientResponseMetadata name value)
      (fun _ w' => w'.Reads setting .started { v with reading := r }) never w := by
  have hretained : w.stream.retainedResponseMetadataSize =
      v.reading.retainedResponseMetadataSize := by rw [← h.reading]; rfl
  have hinvalid := h.map (fun r => { r with responseMetadataInvalid := true }) rfl
  unfold Reading.storeMetadata at hstore
  unfold processClientResponseMetadata modifyStream
  rw [wp_get_bind, wp_ite, h.limit, hretained]
  refine ⟨fun hmetadata => ?_, fun hnot => ?_⟩
  · rw [if_pos hmetadata] at hstore
    cases hpreflight : preflightRetainedMetadata v.reading.retainedResponseMetadataSize name value
      setting.limit with
    | error err =>
      rw [hpreflight] at hstore
      cases err with
      | responseHeadersTooLarge => cases hstore
      | overflow | base64 => cases hstore; exact hinvalid
    | ok total =>
      rw [hpreflight] at hstore
      cases hstore
      rw [wp_modify_bind]
      exact appendResponseMetadata_unfailing name value
        (h.map (fun r => { r with retainedResponseMetadataSize := total }) rfl)
  · rw [if_neg hnot] at hstore
    cases hstore
    rw [wp_when]
    refine ⟨fun hmalformed => ?_, fun hfine => ?_⟩
    · rw [hmalformed, Bool.or_true]
      exact hinvalid
    · rw [Bool.eq_false_iff.mpr hfine, Bool.or_false]
      exact h

theorem storeResponseHeader_unfailing (h : w.Reads setting .started v)
    (hstore : v.reading.store setting.limit name value = some r) :
    wp (storeResponseHeader name value)
      (fun _ w' => w'.Reads setting .started { v with reading := r }) never w := by
  unfold Reading.store at hstore
  unfold storeResponseHeader
  split_ifs at hstore ⊢
  · cases hstore
    exact h.map (fun r => { r with httpStatus := parseUnsigned maxU16 value }) rfl
  · cases hstore
    exact h.map
      (fun r => { r with contentTypeGrpc := (ascii "application/grpc").isPrefixOf value }) rfl
  · cases hstore
    exact h.map (fun r => { r with blockGrpcStatus := some (parseGrpcStatus value) }) rfl
  · cases hstore
    rw [wp_bind]
    refine external_unfailing h.faults ?_
    exact h.map (fun r => { r with blockGrpcMessage := some value }) rfl
  · split
    · rename_i hparse
      rw [hparse] at hstore
      cases hstore
      exact h.map (fun r => { r with responseEncodingInvalid := true }) rfl
    · rename_i compression hparse
      rw [hparse] at hstore
      cases hstore
      -- the decoder switches with the headers, and an incomplete message stays incomplete
      refine { h with reading := ?_, holds := fun hnone => ⟨?_, (h.holds hnone).2⟩ }
      · exact congrArg (fun r : Reading => { r with responseCompression := compression }) h.reading
      · show ({ w.stream.decoder with compression := compression } : Frame.Decoder) = _
        rw [(h.holds hnone).1]
        rfl
  · exact processClientResponseMetadata_unfailing h hstore

theorem onMapped_step {x : ClientM Unit} {J : World → Prop} (hmapped : w.mapped)
    (hx : wp x (fun _ => J) never w) : J (exec (onMapped x) w) := by
  refine exec_of_wp (I := J) ?_
  unfold onMapped
  rw [wp_get_when]
  refine ⟨fun _ => ?_, fun hnot => absurd hmapped hnot⟩
  rw [wp_tryCatch]
  exact wp_ends hx fun _ _ h => h

def Field.stream : Field → Event
  | .valid name value => .header name value
  | .invalid nameLength valueLength => .invalidHeader nameLength valueLength

def Part.stream : Part → Event
  | .begin first => .beginHeaders (headerKind first)
  | .field f => f.stream
  | .frame endStream => .headersFrame endStream
  | .data bytes => .data bytes
  | .last => .endStream

def Turn.stream : Turn → Event
  | .part piece => piece.stream
  | .app action => .app action
  | .wake now id => .wake now id
  | .read outputLength => .read outputLength

theorem step_field {field : Field} (h : w.Reads setting .started v)
    (hfield : v.reading.field setting.limit field = some r) :
    (step w field.stream).Reads setting .started { v with reading := r } := by
  cases field with
  | valid =>
    obtain ⟨charged, hcharged, hstore⟩ := Option.bind_eq_some_iff.mp hfield
    refine onMapped_step h.mapped ?_
    unfold onHeader
    refine wp_seq (accountResponseHeader_unfailing h hcharged) ?_
    rintro _ w' ⟨rfl, h'⟩
    exact storeResponseHeader_unfailing (v := { v with reading := charged }) h' hstore
  | invalid =>
    refine onMapped_step h.mapped ?_
    unfold onInvalidHeader
    refine wp_seq (accountResponseHeader_unfailing h hfield) ?_
    rintro _ w' ⟨_, h'⟩
    exact h'

theorem step_beginHeaders (first : Bool) (h : w.Reads setting .started v) :
    (step w (.beginHeaders (headerKind first))).Reads setting .started
      { v with reading := v.reading.start (headerKind first) } := by
  have hkind : headerKind first ≠ .none := by cases first <;> exact nofun
  refine onMapped_step h.mapped ?_
  unfold onBeginHeaders
  rw [wp_when]
  refine ⟨fun _ => h.map (Reading.start · (headerKind first)) rfl, fun hnot => absurd hkind hnot⟩

theorem copyMetadata_unfailing (initial : Bool) (entries : List Entry) (hfaults : w.env.faults = [])
    (hQ : Q () { w with stream := w.stream.retain initial entries }) :
    wp (copyMetadata initial entries) Q E w := by
  induction entries generalizing w with
  | nil =>
    have hsame : w.stream.retain initial [] = w.stream := by simp [ClientStreamState.retain]
    rw [hsame] at hQ
    exact hQ
  | cons entry rest ih =>
    unfold copyMetadata modifyStream
    rw [wp_bind]
    refine external_unfailing hfaults ?_
    rw [wp_modify_bind]
    refine ih hfaults ?_
    have hsame : (w.stream.retain initial [entry]).retain initial rest =
        w.stream.retain initial (entry :: rest) := by
      cases initial <;> simp [ClientStreamState.retain]
    rw [hsame]
    exact hQ

theorem World.Tracks.force {stage : Stage} (h : w.Tracks setting stage v D) (status : Status) :
    ({ w with stream := w.stream.setForcedStreamStatus status } : World).Follows setting stage
      (v.force status) := by
  obtain ⟨hfaults, h | ⟨hsees, _⟩⟩ := h
  · exact ⟨hfaults, .inl (h.force status)⟩
  · refine ⟨hfaults, .inr ⟨{ hsees with forced := ?_ }, nofun⟩⟩
    exact congrArg (fun forced : Option Status => some (forced.getD status)) hsees.forced

theorem failClientStreamOnLoop_follows (h : w.Tracks setting .started v D) :
    wp (failClientStreamOnLoop failure) (fun _ => World.Follows setting .started (v.force failure))
      E
      w := by
  have hforced := h.force failure
  unfold failClientStreamOnLoop modifyStream
  rw [wp_modify_bind, wp_get_when]
  refine ⟨fun _ => ?_, fun _ => hforced⟩
  rw [wp_bind]
  refine external_unfailing hforced.1 ?_
  exact hforced.change rfl id (fun h' => { h' with }) rfl

theorem failClientStreamOnLoop_aborted (hfaults : w.env.faults = []) (h : w.Aborted) :
    wp (failClientStreamOnLoop failure) (fun _ w' => w'.env.faults = [] ∧ w'.Aborted) E w := by
  have hforced := h.force failure
  unfold failClientStreamOnLoop modifyStream
  rw [wp_modify_bind, wp_get_when]
  refine ⟨fun _ => ?_, fun _ => ⟨hfaults, hforced⟩⟩
  rw [wp_bind]
  exact external_unfailing hfaults ⟨hfaults, hforced⟩

theorem invokeHeadersCallback_follows (h : w.Reads setting .started v) :
    wp invokeHeadersCallback
      (fun _ => World.Follows setting .started
        { v with shown := v.shown ++ [v.reading.initialMetadata] }) never w := by
  have hinitial : w.stream.initialMetadata = v.reading.initialMetadata := by rw [← h.reading]; rfl
  unfold invokeHeadersCallback invokeCallback beginClientCallback
  rw [wp_get_when, hinitial]
  refine ⟨fun _ => ?_, fun hunregistered => ?_⟩
  · refine wp_seq (callbacksEnabled_wp tracks_app h.follows) ?_
    rintro _ w₁ ⟨⟨hfaults, h₁⟩, rfl⟩
    rw [wp_ite]
    refine ⟨fun henabled => ?_, fun hdisabled => ?_⟩
    · rw [wp_bind]
      refine runCallback_wp tracks_app ⟨hfaults, ?_⟩
      rcases h₁ with h₁ | ⟨hsees, hholds⟩
      · exact .inl (h₁.marked rfl)
      · refine .inr ⟨{ hsees with unmarked := ?_, shown := ?_ }, hholds⟩
        · exact List.forall_mem_append.mpr ⟨hsees.unmarked, List.forall_mem_singleton.mpr rfl⟩
        · intro hregistered
          show (w₁.log.marks ++ [_]).filterMap Mark.headers = _
          rw [List.filterMap_append, hsees.shown hregistered]
          rfl
    · rcases h₁ with h₁ | ⟨hsees, _⟩
      · exact ⟨hfaults, .inl h₁⟩
      · exact absurd hsees.enabled hdisabled
  · refine ⟨h.faults, .inr ⟨{ h.toSees with shown := fun hregistered => ?_ }, h.holds⟩⟩
    exact absurd (h.onHeaders.trans hregistered) hunregistered

theorem World.Reads.called (h : w.Reads setting .started v) :
    ({ w with stream := { w.stream with headersCalled := true } } : World).Reads setting .started
      { v with headersCalled := true } :=
  { h with headersCalled := rfl }

/-- What the end of a block does before a premature one fails the stream. -/
def Receiver.closed (v : Receiver) (endStream : Bool) : Receiver :=
  if v.reading.premature endStream then { v with reading := v.reading.close endStream }
  else v.close endStream

theorem finishClientHeaderBlock_follows (endStream : Bool) (h : w.Reads setting .started v)
    (hkind : v.reading.blockKind ≠ .none) :
    wp (finishClientHeaderBlock endStream)
      (fun valid w' => valid = !v.reading.premature endStream ∧
        w'.Follows setting .started (v.closed endStream)) never w := by
  have hblock : w.stream.blockKind = v.reading.blockKind := by rw [← h.reading]; rfl
  have hstatus : w.stream.blockGrpcStatus = v.reading.blockGrpcStatus := by rw [← h.reading]; rfl
  unfold finishClientHeaderBlock modifyStream Receiver.closed
  rw [wp_get_bind, wp_ite, hblock, hstatus]
  refine ⟨fun hpremature => ?_, fun hnot => ?_⟩
  · have hpremature : v.reading.premature endStream = true := by
      simpa [Reading.premature, and_assoc] using hpremature
    rw [hpremature, if_pos rfl]
    have hclose : v.reading.close endStream = { v.reading with blockKind := .none } := by
      unfold Reading.close
      rw [if_pos hpremature]
    rw [hclose]
    exact ⟨rfl, (h.map (fun r => { r with blockKind := .none }) rfl).follows⟩
  · have hfine : v.reading.premature endStream = false := by
      simpa [Reading.premature, and_assoc] using hnot
    have hinitial : (decide (v.reading.blockKind = .response ∧
        ¬(v.reading.blockKind = .response ∧ v.reading.blockGrpcStatus.isSome))) =
          !v.reading.trailing := by
      unfold Reading.trailing
      cases hcase : v.reading.blockKind <;> cases hstatus : v.reading.blockGrpcStatus <;> simp_all
    have hclose : v.reading.close endStream = v.reading.finish := by
      unfold Reading.close
      rw [if_neg (by rw [hfine]; exact Bool.false_ne_true)]
    have hread := h.map (fun r => { r with
      initialMetadata :=
        if !v.reading.trailing then r.initialMetadata ++ r.blockMetadata else r.initialMetadata
      trailingMetadata :=
        if !v.reading.trailing then r.trailingMetadata else r.trailingMetadata ++ r.blockMetadata
      grpcStatus := r.blockGrpcStatus.or r.grpcStatus
      grpcMessage := r.blockGrpcMessage.or r.grpcMessage
      blockGrpcMessage := none
      blockKind := .none }) rfl
    have hfinish : ({ v.reading with
        initialMetadata := if !v.reading.trailing then
          v.reading.initialMetadata ++ v.reading.blockMetadata else v.reading.initialMetadata
        trailingMetadata := if !v.reading.trailing then v.reading.trailingMetadata else
          v.reading.trailingMetadata ++ v.reading.blockMetadata
        grpcStatus := v.reading.blockGrpcStatus.or v.reading.grpcStatus
        grpcMessage := v.reading.blockGrpcMessage.or v.reading.grpcMessage
        blockGrpcMessage := none
        blockKind := .none } : Reading) = v.reading.finish := by
      unfold Reading.finish
      cases v.reading.trailing <;> rfl
    rw [hfinish] at hread
    unfold Receiver.close
    rw [hfine, if_neg Bool.false_ne_true, if_neg Bool.false_ne_true, hclose, wp_bind]
    refine copyMetadata_unfailing _ _ h.faults ?_
    rw [wp_modify_bind, hinitial, wp_bind, wp_when, h.headersCalled]
    refine ⟨fun hcall => ?_, fun hcall => ⟨rfl, ?_⟩⟩
    · rw [if_neg (by simpa using hcall), wp_modify_bind]
      exact wp_imp (invokeHeadersCallback_follows hread.called) fun _ _ h' => ⟨rfl, h'⟩
    · rw [if_pos (by simpa [or_iff_not_imp_left] using hcall)]
      exact hread.follows

theorem step_headersFrame (endStream : Bool) (h : w.Reads setting .started v)
    (hkind : v.reading.blockKind ≠ .none) :
    (step w (.headersFrame endStream)).Follows setting .started (v.close endStream) := by
  refine onMapped_step h.mapped ?_
  unfold onHeadersFrame
  refine wp_seq (finishClientHeaderBlock_follows endStream h hkind) ?_
  rintro _ w₁ ⟨rfl, h₁⟩
  have hended : ∀ w₂ : World, w₂.Follows setting .started (v.close endStream) →
      wp (when endStream (modifyStream fun s => { s with remoteEndSeen := true }))
        (fun _ => World.Follows setting .started (v.close endStream)) never w₂ := by
    refine Exits.when fun _ => .modify fun w₂ h₂ => ?_
    exact h₂.change rfl id (fun h' => { h' with }) rfl
  rw [wp_bind, wp_when]
  refine ⟨fun hinvalid => ?_, fun hvalid => hended w₁ ?_⟩
  · have hpremature : v.reading.premature endStream = true := by simpa using hinvalid
    refine wp_imp (failClientStreamOnLoop_follows h₁) fun _ w₂ h₂ => hended w₂ ?_
    unfold Receiver.closed at h₂
    unfold Receiver.close
    rw [if_pos hpremature] at h₂ ⊢
    exact h₂
  · have hfine : ¬v.reading.premature endStream := by simpa using hvalid
    unfold Receiver.closed at h₁
    rw [if_neg hfine] at h₁
    exact h₁

end Headers

/-! ## Data -/

section Data

variable {setting : Setting} {stage : Stage} {v : Receiver} {D : Frame.Decoder → Prop}

theorem faultless_delivering : Delivering fun w => w.env.faults = [] where
  app _ _ hmove h := hmove.faults h
  message _ _ _ h := h
  queue _ h := h
  decode _ _ h := h
  overtaking _ h := h
  pause h := h

theorem queueInboundMessage_tracks (decoded : Frame.DecodedMessage)
    (h : w.Tracks setting stage v D) :
    wp (queueInboundMessage decoded) (fun _ => World.Tracks setting stage v D)
      (fun err w' => err = .bufferLimitExceeded ∧ w'.Tracks setting stage v D) w := by
  unfold queueInboundMessage modifyStream
  rw [wp_get_bind]
  dsimp only
  split
  · exact ⟨rfl, h⟩
  · rw [wp_bind, wp_ensure]
    refine ⟨fun _ => ?_, fun _ => ⟨rfl, h⟩⟩
    rw [wp_bind]
    exact external_unfailing h.1 (h.change rfl id (fun h' => { h' with }) rfl)

theorem handDecoded_tracks (decoded : Frame.DecodedMessage) (h : w.Tracks setting stage v D) :
    wp (handDecoded decoded) (fun _ => World.Tracks setting stage v D)
      (fun err w' => err = .bufferLimitExceeded ∧ w'.Tracks setting stage v D) w := by
  unfold handDecoded
  refine wp_seq (callbacksEnabled_wp tracks_app h) fun enabled w₁ ⟨h₁, _⟩ => ?_
  rw [wp_ite]
  refine ⟨fun _ => ?_, fun _ => h₁⟩
  rw [wp_get_bind, wp_ite]
  refine ⟨fun _ => queueInboundMessage_tracks decoded h₁, fun _ => ?_⟩
  have htracks : Conveying (World.Tracks setting stage v D) := tracks_conveying
  have hdelivered := Exits.bind
    (htracks.invokeMessageCallback decoded.payload
      (if decoded.compressed then .gzip else .identity)) fun action => htracks.pauses action
  exact wp_ends (hdelivered w₁ h₁) fun _ _ h' => h'

/-- The decoding loop does what `drain` does. -/
theorem decodeLoop_tracks {decoder : Frame.Decoder} (fuel : ℕ)
    (h : w.Tracks setting stage v (· = decoder)) :
    wp (decodeLoop fuel)
      (fun _ => World.Tracks setting stage v (.ok · = decoder.drain setting.gzip fuel))
      (fun err w' => w'.env.faults = [] ∧ (w'.Aborted ∨ w'.Sees setting stage v ∧
        (err = .bufferLimitExceeded ∨
          ∃ cause, err = .frame cause ∧ decoder.drain setting.gzip fuel = .error cause))) w := by
  induction fuel generalizing w decoder with
  | zero => exact h.imp id (Or.imp id fun h' => ⟨h'.1, congrArg Except.ok h'.2⟩)
  | succ fuel ih =>
    obtain ⟨hfaults, haborted | ⟨hsees, rfl⟩⟩ := h
    · refine wp_mono ((faultless_delivering.and aborted_delivering).decodeLoop (fuel + 1) w
        ⟨hfaults, haborted⟩) (fun _ _ h' => ⟨h'.1, .inl h'.2⟩) fun _ _ h' => ⟨h'.1, .inl h'.2⟩
    unfold decodeLoop nextMessage Frame.Decoder.drain
    rw [wp_bind, wp_bind]
    refine drawFault_unfailing hfaults ?_
    rw [wp_get_bind, hsees.gzip]
    cases hnext : w.stream.decoder.nextMessage setting.gzip false with
    | mk answer next =>
      cases answer with
      | error err => exact ⟨hfaults, .inr ⟨hsees, .inr ⟨err, rfl, rfl⟩⟩⟩
      | ok message =>
        cases message with
        | none => exact ⟨hfaults, .inr ⟨hsees, rfl⟩⟩
        | some decoded =>
          dsimp only
          rw [wp_modify_bind, wp_pure, wp_bind]
          have hdecoded : (World.Tracks setting stage v (· = next)) { w with
              stream := { w.stream with decoder := next }
              log := { w.log with decoded := w.log.decoded ++ [decoded.payload] } } :=
            ⟨hfaults, .inr ⟨{ hsees with }, rfl⟩⟩
          refine wp_mono (handDecoded_tracks decoded hdecoded) (fun _ w₁ h₁ => ih h₁) ?_
          rintro err w₁ ⟨rfl, hfaults₁, h₁⟩
          exact ⟨hfaults₁, h₁.imp id fun h' => ⟨h'.1, .inl rfl⟩⟩

theorem Receiver.force_of_isSome (h : v.forced.isSome) (status : Status) : v.force status = v := by
  obtain ⟨first, hfirst⟩ := Option.isSome_iff_exists.mp h
  unfold Receiver.force
  rw [hfirst, Option.getD_some, ← hfirst]

theorem World.Follows.exhausted {status : Status} {v' : Receiver}
    (h : w.Follows setting stage (v.force status)) (hcode : status.code = .resourceExhausted)
    (hsame : v.forced.isSome → v' = v) : w.Follows setting stage v' := by
  cases hforced : v.forced with
  | some =>
    have hsome : v.forced.isSome := by rw [hforced]; rfl
    rw [hsame hsome, ← Receiver.force_of_isSome hsome status]
    exact h
  | none =>
    refine ⟨h.1, .inl ?_⟩
    rcases h.2 with h | ⟨hsees, _⟩
    · exact h
    · refine .inr (.inr (.inl ⟨status, hsees.forced.trans ?_, hcode⟩))
      show some (v.forced.getD status) = some status
      rw [hforced]
      rfl

/-- The stream's credit for a chunk; the channel fails when what it keeps back overflows. -/
theorem creditStream_tracks (length : ℕ) (h : w.Tracks setting stage v D) :
    wp (creditStream length) (fun _ => World.Tracks setting stage v D)
      (fun _ => World.Tracks setting stage v D) w := by
  unfold creditStream modifyStream modifyLog
  rw [wp_get_bind, wp_ite]
  refine ⟨fun _ => ?_, fun _ => ?_⟩
  · split
    · exact h
    · exact h.change rfl id (fun h' => { h' with }) rfl
  · rw [wp_bind]
    refine external_unfailing h.1 ?_
    exact h.change rfl id (fun h' => { h' with }) rfl

theorem creditConnection_tracks (length : ℕ) {E : StreamError → World → Prop}
    (h : w.Tracks setting stage v D) :
    wp (creditConnection length) (fun _ => World.Tracks setting stage v D) E w := by
  unfold creditConnection modifyLog
  rw [wp_bind]
  refine external_unfailing h.1 ?_
  exact h.change rfl id (fun h' => { h' with }) rfl

variable {bytes : Bytes}

theorem Receiver.holds_data {rest : Frame.Decoder}
    (hrest : (v.current.feed bytes).drain setting.gzip ((v.current.feed bytes).bufferedBytes + 1) =
      .ok rest) : ({ v with decoder := rest } : Receiver).Holds rest := by
  refine fun _ => ⟨?_, Frame.Decoder.drain_starved hrest (Nat.lt_succ_self _)⟩
  have hcompression : rest.compression = v.reading.responseCompression :=
    (Frame.Decoder.drain_compression hrest).trans v.current.compact_compression
  unfold Receiver.current
  rw [← hcompression]

theorem onDataFed_follows (hfaults : w.env.faults = []) (hsees : w.Sees setting .started v)
    (hdecoder : v.forced = none → w.stream.decoder = v.current.feed bytes) :
    wp (onDataFed bytes.length)
      (fun _ => World.Follows setting .started (v.data setting.gzip bytes))
      (fun _ w' => ∃ v' D, w'.Tracks setting .started v' D) w := by
  have hkept : v.forced.isSome → v.data setting.gzip bytes = v := fun hsome => if_pos hsome
  have hdata : v.forced = none → v.data setting.gzip bytes =
      match w.stream.decoder.drain setting.gzip (w.stream.decoder.bufferedBytes + 1) with
      | .error err => v.force (decodeFailure (.frame err))
      | .ok rest => { v with decoder := rest } := by
    intro hnone
    unfold Receiver.data
    rw [if_neg (by rw [hnone]; exact nofun), hdecoder hnone]
  unfold onDataFed decodeAvailableMessages creditConnection modifyLog
  rw [wp_bind, wp_bind]
  refine external_unfailing hfaults ?_
  rw [wp_modify, wp_bind, wp_tryCatch, wp_bind, wp_get_bind]
  have hfed : World.Tracks setting .started v (· = w.stream.decoder) { w with log := { w.log with
      connectionCredit := w.log.connectionCredit + bytes.length } } :=
    ⟨hfaults, .inr ⟨{ hsees with }, rfl⟩⟩
  refine wp_mono (decodeLoop_tracks _ hfed) ?_ ?_
  · rintro _ w₁ h₁
    rw [wp_pure]
    refine wp_mono
      (creditStream_tracks bytes.length (?_ : w₁.Follows setting .started (v.data _ bytes)))
      (fun _ _ h' => h') fun _ _ h' => ⟨_, _, h'⟩
    refine ⟨h₁.1, h₁.2.imp id ?_⟩
    rintro ⟨hsees₁, hrest⟩
    cases hforced : v.forced with
    | some =>
      rw [hkept (by rw [hforced]; rfl)]
      exact ⟨hsees₁, fun hnone => by cases hforced.symm.trans hnone⟩
    | none =>
      have hholds := Receiver.holds_data (hdecoder hforced ▸ hrest.symm)
      rw [hdata hforced, ← show _ = w.stream.decoder.drain _ _ from hrest]
      exact ⟨{ hsees₁ with }, hholds⟩
  · rintro err w₁ ⟨hfaults₁, haborted | ⟨hsees₁, hcause⟩⟩
    · rw [wp_pure]
      exact wp_imp (failClientStreamOnLoop_aborted hfaults₁ haborted) fun _ _ h' =>
        ⟨h'.1, .inl h'.2⟩
    have htracks : w₁.Tracks setting .started v fun _ => True := ⟨hfaults₁, .inr ⟨hsees₁, trivial⟩⟩
    rw [wp_pure]
    refine wp_imp (failClientStreamOnLoop_follows htracks) fun _ w₂ h₂ => ?_
    rcases hcause with rfl | ⟨cause, rfl, hdrain⟩
    · exact h₂.exhausted rfl hkept
    · cases hforced : v.forced with
      | some =>
        have hsome : v.forced.isSome := by rw [hforced]; rfl
        rw [hkept hsome, ← Receiver.force_of_isSome hsome (decodeFailure (.frame cause))]
        exact h₂
      | none =>
        rw [hdata hforced, show w.stream.decoder.drain _ _ = _ from hdrain]
        exact h₂

theorem onDataChunk_follows (bytes : Bytes) (h : w.Reads setting .started v) :
    wp (onDataChunk bytes) (fun _ => World.Follows setting .started (v.data setting.gzip bytes))
      (fun _ w' => ∃ v' D, w'.Tracks setting .started v' D) w := by
  have hkept : v.forced.isSome → v.data setting.gzip bytes = v := fun hsome => if_pos hsome
  unfold onDataChunk modifyLog
  rw [wp_modify_bind, wp_get_bind, wp_ite]
  refine ⟨fun htooLarge => (by cases h.fits.symm.trans htooLarge), fun _ => ?_⟩
  rw [wp_bind]
  refine drawFault_unfailing h.faults ?_
  dsimp only
  rcases w.stream.decoder.feedBounded_cases bytes
    (w.stream.limits.maxInboundBufferSize - w.stream.inboundBuffered) false with
    hfull | ⟨hoom, -⟩ | hfed
  · rw [hfull]
    dsimp only
    rw [wp_modify_bind, wp_bind]
    have htracks : World.Tracks setting .started v (fun _ => True) { w with
        stream := { w.stream with decoder := w.stream.decoder }
        log := { w.log with received := w.log.received ++ bytes, refused := true } } :=
      ⟨h.faults, .inr ⟨{ h.toSees with }, trivial⟩⟩
    refine wp_ends (failClientStreamOnLoop_follows (E := never) htracks) fun _ w₁ h₁ => ?_
    exact creditConnection_tracks bytes.length (h₁.exhausted rfl hkept)
  · cases hoom
  · rw [hfed]
    dsimp only
    rw [wp_bind]
    exact onDataFed_follows h.faults { h.toSees with } fun hnone =>
      congrArg (Frame.Decoder.feed · bytes) (h.holds hnone).1

theorem failCallback_aborts (h : w.Tracks setting stage v D) :
    wp failCallback (fun _ => World.Aborted) never w := by
  unfold failCallback modifyLog
  rw [wp_modify_bind]
  rcases h.2 with h | ⟨hsees, _⟩
  · exact handleTransportFailure_aborted _ _ h
  · exact handleTransportFailure_aborts _ hsees.running
      (by rw [hsees.connected]; exact ⟨nofun, nofun⟩) hsees.registered hsees.unended

end Data

end GrpcLite.Client
