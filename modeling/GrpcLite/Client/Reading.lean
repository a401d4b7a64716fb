import GrpcLite.Client.OperationSteps

/-!
# Reading a response

What the client makes of the header blocks of a response.  `onHeader` and its companions are written
twice in `channel.zig`, for unary calls and for streams, on two records with the same fields;
`Reading` is those fields, and its functions are what both do while memory lasts and the limits are
kept.
-/

namespace GrpcLite.Client

/-- A field of a header block, or the lengths of one that nghttp2 finds invalid. -/
inductive Field where
  | valid (name value : Bytes)
  | invalid (nameLength valueLength : ℕ)
  deriving DecidableEq, Repr

/-- What nghttp2 delivers of a response, one callback at a time: the beginning, the fields and the
end of a header block, the bytes of DATA frames, and the end of the stream on one of them. -/
inductive Part where
  | begin (first : Bool)
  | field (field : Field)
  | frame (endStream : Bool)
  | data (bytes : Bytes)
  | last
  deriving DecidableEq, Repr

/-- A header block, of the category `HCAT_RESPONSE` or `HCAT_HEADERS`, or a DATA frame. -/
inductive Incoming where
  | block (first : Bool) (fields : List Field) (endStream : Bool)
  | data (bytes : Bytes) (endStream : Bool)
  deriving DecidableEq, Repr

def Incoming.parts : Incoming → List Part
  | .block first fields endStream => .begin first :: fields.map .field ++ [.frame endStream]
  | .data bytes endStream => .data bytes :: if endStream then [.last] else []

inductive Turn where
  | part (part : Part)
  | app (action : AppAction)
  | wake (now id : ℕ)
  | read (outputLength : ℕ)
  deriving DecidableEq, Repr

def Turn.response : Turn → Option Part
  | .part piece => some piece
  | _ => none

def headerKind (first : Bool) : HeaderKind := if first then .response else .trailers

structure Reading where
  sawResponseHeaders : Bool := false
  httpStatus : Option ℕ := none
  contentTypeGrpc : Bool := false
  grpcStatus : Option ℕ := none
  grpcMessage : Option Bytes := none
  responseCompression : Compression := .identity
  responseEncodingInvalid : Bool := false
  responseMetadataInvalid : Bool := false
  responseHeaderListSize : ℕ := 0
  retainedResponseMetadataSize : ℕ := 0
  initialMetadata : List Entry := []
  trailingMetadata : List Entry := []
  blockKind : HeaderKind := .none
  blockMetadata : List Entry := []
  blockGrpcStatus : Option ℕ := none
  blockGrpcMessage : Option Bytes := none
  deriving DecidableEq, Repr

namespace Reading

def start (r : Reading) (kind : HeaderKind) : Reading :=
  { r with
    sawResponseHeaders := r.sawResponseHeaders || kind = .response
    blockMetadata := []
    blockGrpcMessage := none
    blockGrpcStatus := none
    blockKind := kind }

def addEntries (r : Reading) (name value : Bytes) : Reading :=
  match Metadata.received name value with
  | .error _ => { r with responseMetadataInvalid := true }
  | .ok new => { r with blockMetadata := r.blockMetadata ++ new }

/-- A field of metadata; `none` if it exceeds the limit. -/
def storeMetadata (limit : ℕ) (r : Reading) (name value : Bytes) : Option Reading :=
  if isResponseMetadata name then
    match preflightRetainedMetadata r.retainedResponseMetadataSize name value limit with
    | .error .responseHeadersTooLarge => none
    | .error _ => some { r with responseMetadataInvalid := true }
    | .ok total => some ({ r with retainedResponseMetadataSize := total }.addEntries name value)
  else some { r with
    responseMetadataInvalid := r.responseMetadataInvalid || isMalformedResponseMetadataName name }

def store (limit : ℕ) (r : Reading) (name value : Bytes) : Option Reading :=
  if name = ascii ":status" then some { r with httpStatus := parseUnsigned maxU16 value }
  else if name = ascii "content-type" then
    some { r with contentTypeGrpc := (ascii "application/grpc").isPrefixOf value }
  else if name = ascii "grpc-status" then
    some { r with blockGrpcStatus := some (parseGrpcStatus value) }
  else if name = ascii "grpc-message" then some { r with blockGrpcMessage := some value }
  else if name = ascii "grpc-encoding" then
    match Compression.parse value with
    | none => some { r with responseEncodingInvalid := true }
    | some compression => some { r with responseCompression := compression }
  else r.storeMetadata limit name value

def charge (limit : ℕ) (r : Reading) (nameLength valueLength : ℕ) : Option Reading :=
  (accountResponseHeaderField r.responseHeaderListSize nameLength valueLength limit).map
    fun total => { r with responseHeaderListSize := total }

def field (limit : ℕ) (r : Reading) : Field → Option Reading
  | .valid name value => (r.charge limit name.length value.length).bind (·.store limit name value)
  | .invalid nameLength valueLength => r.charge limit nameLength valueLength

def fields (limit : ℕ) (r : Reading) (block : List Field) : Option Reading :=
  block.foldlM (field limit) r

/-- A status in a first block that does not end the stream. -/
def premature (r : Reading) (endStream : Bool) : Bool :=
  r.blockKind = .response ∧ r.blockGrpcStatus.isSome ∧ ¬endStream

def trailing (r : Reading) : Bool := r.blockKind = .trailers ∨ r.blockGrpcStatus.isSome

def finish (r : Reading) : Reading :=
  { r with
    initialMetadata :=
      if r.trailing then r.initialMetadata else r.initialMetadata ++ r.blockMetadata
    trailingMetadata :=
      if r.trailing then r.trailingMetadata ++ r.blockMetadata else r.trailingMetadata
    grpcStatus := r.blockGrpcStatus.or r.grpcStatus
    grpcMessage := r.blockGrpcMessage.or r.grpcMessage
    blockGrpcMessage := none
    blockKind := .none }

def close (r : Reading) (endStream : Bool) : Reading :=
  if r.premature endStream then { r with blockKind := .none } else r.finish

structure Outer where
  blockKind : HeaderKind
  sawResponseHeaders : Bool
  grpcStatus : Option ℕ
  grpcMessage : Option Bytes
  initialMetadata : List Entry
  trailingMetadata : List Entry

def outer (r : Reading) : Outer :=
  ⟨r.blockKind, r.sawResponseHeaders, r.grpcStatus, r.grpcMessage, r.initialMetadata,
    r.trailingMetadata⟩

variable {limit : ℕ} {r r' : Reading}

variable {name value : Bytes}

theorem storeMetadata_outer (h : r.storeMetadata limit name value = some r') :
    r'.outer = r.outer := by
  unfold storeMetadata at h
  split at h
  · split at h
    · cases h
    · cases h; rfl
    · cases h
      unfold addEntries
      split <;> rfl
  · cases h
    rfl

theorem store_outer (h : r.store limit name value = some r') : r'.outer = r.outer := by
  unfold store at h
  iterate 4
    split at h
    · cases h; rfl
  split at h
  · split at h
    · cases h; rfl
    · cases h; rfl
  · exact storeMetadata_outer h

theorem charge_outer {nameLength valueLength : ℕ}
    (h : r.charge limit nameLength valueLength = some r') : r'.outer = r.outer := by
  obtain ⟨total, _, rfl⟩ := Option.map_eq_some_iff.mp h
  rfl

theorem field_outer {f : Field} (h : r.field limit f = some r') : r'.outer = r.outer := by
  cases f with
  | valid =>
    obtain ⟨charged, hcharged, hstore⟩ := Option.bind_eq_some_iff.mp h
    exact (store_outer hstore).trans (charge_outer hcharged)
  | invalid => exact charge_outer h

theorem fields_outer {block : List Field} (h : r.fields limit block = some r') :
    r'.outer = r.outer := by
  unfold fields at h
  induction block generalizing r with
  | nil => cases h; rfl
  | cons f rest ih =>
    rw [List.foldlM_cons] at h
    obtain ⟨next, hfield, hrest⟩ := Option.bind_eq_some_iff.mp h
    exact (ih hrest).trans (field_outer hfield)

def block (limit : ℕ) (r : Reading) (first : Bool) (block : List Field) : Option Reading :=
  (r.start (headerKind first)).fields limit block

/-- The checks at the close of the stream that both kinds of call make in the same order. -/
def verdict (r : Reading) : Except Status ℕ :=
  if ¬r.sawResponseHeaders then .error (.init .unknown "missing response headers")
  else match r.httpStatus with
    | none => .error (.init .unknown "missing HTTP status")
    | some httpStatus =>
      if httpStatus ≠ 200 then .error (.init (httpStatusCode httpStatus) "HTTP request failed")
      else if ¬r.contentTypeGrpc then .error (.init .unknown "invalid gRPC content-type")
      else match r.grpcStatus with
        | none => .error (.init .unknown "missing grpc-status")
        | some grpcStatus =>
          if r.responseEncodingInvalid then
            .error (.init .unimplemented "response compression is not supported")
          else .ok grpcStatus

def text (r : Reading) : Bytes := (r.grpcMessage.map Message.decode).getD []

end Reading

/-! ## Unary calls -/

def Operation.reading (op : Operation) : Reading where
  sawResponseHeaders := op.sawResponseHeaders
  httpStatus := op.httpStatus
  contentTypeGrpc := op.contentTypeGrpc
  grpcStatus := op.grpcStatus
  grpcMessage := op.grpcMessage
  responseCompression := op.responseCompression
  responseEncodingInvalid := op.responseEncodingInvalid
  responseMetadataInvalid := op.responseMetadataInvalid
  responseHeaderListSize := op.responseHeaderListSize
  retainedResponseMetadataSize := op.retainedResponseMetadataSize
  initialMetadata := op.initialMetadata
  trailingMetadata := op.trailingMetadata
  blockKind := op.blockKind
  blockMetadata := op.blockMetadata
  blockGrpcStatus := op.blockGrpcStatus
  blockGrpcMessage := op.blockGrpcMessage

def Operation.withReading (op : Operation) (r : Reading) : Operation :=
  { op with
    sawResponseHeaders := r.sawResponseHeaders
    httpStatus := r.httpStatus
    contentTypeGrpc := r.contentTypeGrpc
    grpcStatus := r.grpcStatus
    grpcMessage := r.grpcMessage
    responseCompression := r.responseCompression
    responseEncodingInvalid := r.responseEncodingInvalid
    responseMetadataInvalid := r.responseMetadataInvalid
    responseHeaderListSize := r.responseHeaderListSize
    retainedResponseMetadataSize := r.retainedResponseMetadataSize
    initialMetadata := r.initialMetadata
    trailingMetadata := r.trailingMetadata
    blockKind := r.blockKind
    blockMetadata := r.blockMetadata
    blockGrpcStatus := r.blockGrpcStatus
    blockGrpcMessage := r.blockGrpcMessage }

structure Collector where
  reading : Reading := {}
  outcome : Option Status := none
  body : Bytes := []
  tooLarge : Bool := false
  deriving DecidableEq, Repr

namespace Collector

/-- The failure that `onFrameReceived` finds at the end of a block. -/
def fault (c : Collector) (endStream : Bool) : Option Status :=
  if c.reading.premature endStream ∨ c.reading.responseMetadataInvalid then
    some (Operation.blockFailure (!c.reading.premature endStream))
  else none

def close (c : Collector) (endStream : Bool) : Collector :=
  { c with
    reading := c.reading.close endStream
    outcome := c.outcome.or (c.fault endStream) }

def data (maxResponseSize : ℕ) (c : Collector) (bytes : Bytes) : Collector :=
  if Operation.wireMessageLimit maxResponseSize - c.body.length < bytes.length then
    { c with tooLarge := true }
  else { c with body := c.body ++ bytes }

/-- One part of the response; `none` if it exceeds the limits of the header fields. -/
def part (limit maxResponseSize : ℕ) (c : Collector) : Part → Option Collector
  | .begin first => some { c with reading := c.reading.start (headerKind first) }
  | .field field => (c.reading.field limit field).map fun r => { c with reading := r }
  | .frame endStream => if c.reading.blockKind = .none then none else some (c.close endStream)
  | .data bytes => some (c.data maxResponseSize bytes)
  | .last => some c

def receive (limit maxResponseSize : ℕ) (c : Collector) (parts : List Part) : Option Collector :=
  parts.foldlM (part limit maxResponseSize) c

def failed (c : Collector) (status : Status) : Completion :=
  { status := status
    payload := []
    responseCompression := c.reading.responseCompression
    initialMetadata := c.reading.initialMetadata
    trailingMetadata := c.reading.trailingMetadata }

def statusCompletion (gzip : Gzip) (maxResponseSize : ℕ) (c : Collector) (grpcStatus : ℕ) :
    Completion :=
  if Code.fromInt grpcStatus ≠ .ok then c.failed ⟨.fromInt grpcStatus, c.reading.text⟩
  else match Frame.decodeUnaryWithCompression gzip c.body maxResponseSize
      c.reading.responseCompression [false, false, false] with
    | .error err => c.failed (Operation.unaryFailure err)
    | .ok payload =>
      { c.failed ⟨.ok, c.reading.text⟩ with
        payload := payload
        responseCompression := if c.body.head? = some 1 then .gzip else .identity }

def completion (gzip : Gzip) (maxResponseSize : ℕ) (c : Collector) (errorCode : ℕ) : Completion :=
  match c.outcome with
  | some status => c.failed status
  | none =>
    if errorCode ≠ noError then c.failed (streamErrorStatus errorCode)
    else match c.reading.verdict with
      | .error status => c.failed status
      | .ok grpcStatus =>
        if c.tooLarge then c.failed (.init .resourceExhausted "response message too large")
        else c.statusCompletion gzip maxResponseSize grpcStatus

end Collector

def Field.operation : Field → Operation.Event
  | .valid name value => .header name value
  | .invalid nameLength valueLength => .invalidHeader nameLength valueLength

def Part.operation : Part → Option Operation.Event
  | .begin first => some (.beginHeaders (headerKind first))
  | .field f => some f.operation
  | .frame endStream => some (.headersFrame endStream)
  | .data bytes => some (.data bytes)
  | .last => none

def Turn.operation : Turn → Option Operation.Event
  | .part piece => piece.operation
  | .read outputLength => some (.read outputLength)
  | _ => none

/-- A submitted call that has got so far, on a channel with these limits, with enough memory. -/
structure OperationWorld.Collects (limit maxResponseSize : ℕ) (gzip : Gzip) (c : Collector)
    (w : OperationWorld) : Prop where
  place : w.place = .mapped
  faults : w.faults = []
  limit_eq : w.maxResponseHeaderListSize = limit
  gzip_eq : w.gzip = gzip
  size_eq : w.operation.maxResponseSize = maxResponseSize
  fits : w.operation.responseHeadersTooLarge = false
  reading : w.operation.reading = c.reading
  outcomeSet : w.operation.outcomeSet = c.outcome.isSome
  outcome : ∀ status, c.outcome = some status →
    w.operation.responseCode = status.code ∧ w.operation.responseMessage = status.message
  payload : w.operation.responsePayload = none
  body : w.operation.responseBody = c.body
  tooLarge : w.operation.responseTooLarge = c.tooLarge
  unreported : w.log.completions = []

variable {c : Collector} {w : OperationWorld}

theorem OperationWorld.Collects.map {limit maxResponseSize : ℕ} {gzip : Gzip}
    (h : w.Collects limit maxResponseSize gzip c) (g : Reading → Reading) :
    ({ w with operation := w.operation.withReading (g w.operation.reading) } :
      OperationWorld).Collects limit maxResponseSize gzip { c with reading := g c.reading } :=
  { h with reading := congrArg g h.reading }

namespace Operation

open Prog

variable {limit maxResponseSize : ℕ} {gzip : Gzip} {c : Collector} {w : OperationWorld}

variable {E : StreamError → OperationWorld → Prop} {Q : Unit → OperationWorld → Prop} {r : Reading}
  {outcome : Status}

theorem drawFault_unfailing {Q : Bool → OperationWorld → Prop} (hfaults : w.faults = [])
    (hQ : Q false w) : wp drawFault Q E w := by
  unfold drawFault
  rw [wp_get_bind, hfaults]
  exact hQ

theorem external_unfailing {error : StreamError} (hfaults : w.faults = []) (hQ : Q () w) :
    wp (external error) Q E w := by
  unfold external
  rw [wp_bind]
  refine drawFault_unfailing hfaults ?_
  rw [wp_ensure]
  exact ⟨fun _ => hQ, fun h => absurd nofun h⟩

variable {J : OperationWorld → Prop} {name value : Bytes} {c' : Collector}

theorem onMapped_step {x : OperationM Unit} (hplace : w.place = .mapped)
    (hx : wp x (fun _ => J) never w) : J (exec (onMapped x) w) := by
  refine exec_of_wp (I := J) ?_
  unfold onMapped
  rw [wp_get_when]
  refine ⟨fun _ => ?_, fun hnot => absurd hplace hnot⟩
  rw [wp_tryCatch]
  exact wp_ends hx fun _ _ h => h

theorem accountResponseHeader_unfailing {nameLength valueLength : ℕ}
    (h : w.Collects limit maxResponseSize gzip c)
    (hcharge : c.reading.charge limit nameLength valueLength = some r) :
    wp (accountResponseHeader nameLength valueLength)
      (fun store w' => store = true ∧ w'.Collects limit maxResponseSize gzip
        { c with reading := r })
      never w := by
  unfold Reading.charge at hcharge
  obtain ⟨total, htotal, rfl⟩ := Option.map_eq_some_iff.mp hcharge
  rw [← h.reading, ← h.limit_eq] at htotal
  unfold accountResponseHeader modifyOperation
  rw [wp_get_bind, wp_ite]
  refine ⟨fun htooLarge => (by cases h.fits.symm.trans htooLarge), fun _ => ?_⟩
  rw [show accountResponseHeaderField w.operation.responseHeaderListSize nameLength valueLength
    w.maxResponseHeaderListSize = some total from htotal]
  exact ⟨rfl, h.map fun r => { r with responseHeaderListSize := total }⟩

theorem appendResponseMetadata_unfailing (name value : Bytes)
    (h : w.Collects limit maxResponseSize gzip c) :
    wp (appendResponseMetadata name value)
      (fun _ w' => w'.Collects limit maxResponseSize gzip
        { c with reading := c.reading.addEntries name value }) never w := by
  have happend := Metadata.appendDecoded_unfailing w.operation.blockMetadata name value
  unfold appendResponseMetadata Reading.addEntries
  rw [wp_get_bind, h.faults]
  unfold wp at happend
  cases hrun : Metadata.appendDecoded name value ⟨[], w.operation.blockMetadata⟩ with
  | ok =>
    rw [hrun] at happend
    obtain ⟨new, hnew, rfl⟩ := happend
    rw [hnew]
    exact { h.map fun r => { r with blockMetadata := r.blockMetadata ++ new } with faults := rfl }
  | error err =>
    rw [hrun] at happend
    obtain ⟨herr, hmemory, rfl⟩ := happend
    rw [herr]
    have hinvalid := h.map fun r => { r with responseMetadataInvalid := true }
    cases err with
    | outOfMemory => exact absurd rfl hmemory
    | invalidMetadataKey | invalidMetadataValue | base64 => exact { hinvalid with faults := rfl }

section

variable (h : w.Collects limit maxResponseSize gzip c)

include h

theorem processResponseMetadata_unfailing
    (hstore : c.reading.storeMetadata limit name value = some r) :
    wp (processResponseMetadata name value)
      (fun _ w' => w'.Collects limit maxResponseSize gzip { c with reading := r }) never w := by
  have hretained : w.operation.retainedResponseMetadataSize =
      c.reading.retainedResponseMetadataSize := by rw [← h.reading]; rfl
  have hinvalid := h.map fun r => { r with responseMetadataInvalid := true }
  unfold Reading.storeMetadata at hstore
  unfold processResponseMetadata modifyOperation
  rw [wp_get_bind, wp_ite, h.limit_eq, hretained]
  refine ⟨fun hmetadata => ?_, fun hnot => ?_⟩
  · rw [if_pos hmetadata] at hstore
    cases hpreflight : preflightRetainedMetadata c.reading.retainedResponseMetadataSize name value
      limit with
    | error err =>
      rw [hpreflight] at hstore
      cases err with
      | responseHeadersTooLarge => cases hstore
      | overflow | base64 => cases hstore; exact hinvalid
    | ok total =>
      rw [hpreflight] at hstore
      cases hstore
      rw [wp_modify_bind]
      exact appendResponseMetadata_unfailing name value
        (h.map fun r => { r with retainedResponseMetadataSize := total })
  · rw [if_neg hnot] at hstore
    cases hstore
    rw [wp_when]
    refine ⟨fun hmalformed => ?_, fun hfine => ?_⟩
    · rw [hmalformed, Bool.or_true]
      exact hinvalid
    · rw [Bool.eq_false_iff.mpr hfine, Bool.or_false]
      exact h

theorem storeResponseHeader_unfailing (hstore : c.reading.store limit name value = some r) :
    wp (storeResponseHeader name value)
      (fun _ w' => w'.Collects limit maxResponseSize gzip { c with reading := r }) never w := by
  unfold Reading.store at hstore
  unfold storeResponseHeader
  split_ifs at hstore ⊢
  · cases hstore
    exact h.map fun r => { r with httpStatus := parseUnsigned maxU16 value }
  · cases hstore
    exact h.map fun r => { r with contentTypeGrpc := (ascii "application/grpc").isPrefixOf value }
  · cases hstore
    exact h.map fun r => { r with blockGrpcStatus := some (parseGrpcStatus value) }
  · cases hstore
    rw [wp_bind]
    refine external_unfailing h.faults ?_
    exact h.map fun r => { r with blockGrpcMessage := some value }
  · split
    · rename_i hparse
      rw [hparse] at hstore
      cases hstore
      exact h.map fun r => { r with responseEncodingInvalid := true }
    · rename_i compression hparse
      rw [hparse] at hstore
      cases hstore
      exact h.map fun r => { r with responseCompression := compression }
  · exact processResponseMetadata_unfailing h hstore

theorem step_field {field : Field} (hfield : c.reading.field limit field = some r) :
    (step w field.operation).Collects limit maxResponseSize gzip { c with reading := r } := by
  cases field with
  | valid =>
    obtain ⟨charged, hcharged, hstore⟩ := Option.bind_eq_some_iff.mp hfield
    refine onMapped_step h.place ?_
    unfold onHeader
    refine wp_seq (accountResponseHeader_unfailing h hcharged) ?_
    rintro _ w' ⟨rfl, h'⟩
    exact storeResponseHeader_unfailing (c := { c with reading := charged }) h' hstore
  | invalid =>
    refine onMapped_step h.place ?_
    unfold onInvalidHeader
    refine wp_seq (accountResponseHeader_unfailing h hfield) ?_
    rintro _ w' ⟨_, h'⟩
    exact h'

end

theorem copyMetadata_unfailing (trailing : Bool) (entries : List Entry) (hfaults : w.faults = [])
    (hQ : Q () { w with operation := w.operation.retain trailing entries }) :
    wp (copyMetadata trailing entries) Q E w := by
  induction entries generalizing w with
  | nil =>
    have hsame : w.operation.retain trailing [] = w.operation := by simp [Operation.retain]
    rw [hsame] at hQ
    exact hQ
  | cons entry rest ih =>
    unfold copyMetadata modifyOperation
    rw [wp_bind]
    refine external_unfailing hfaults ?_
    rw [wp_modify_bind]
    refine ih hfaults ?_
    have hsame : (w.operation.retain trailing [entry]).retain trailing rest =
        w.operation.retain trailing (entry :: rest) := by
      cases trailing <;> simp [Operation.retain]
    rw [hsame]
    exact hQ

theorem finishHeaderBlock_unfailing (endStream : Bool) (h : w.Collects limit maxResponseSize gzip c)
    (hkind : c.reading.blockKind ≠ .none) :
    wp (finishHeaderBlock endStream)
      (fun valid w' => valid = !c.reading.premature endStream ∧
        w'.Collects limit maxResponseSize gzip
          { c with reading := c.reading.close endStream }) never w := by
  have hblock : w.operation.blockKind = c.reading.blockKind := by rw [← h.reading]; rfl
  have hstatus : w.operation.blockGrpcStatus = c.reading.blockGrpcStatus := by rw [← h.reading]; rfl
  unfold finishHeaderBlock modifyOperation Reading.close
  rw [wp_get_bind, wp_ite, hblock, hstatus]
  refine ⟨fun hpremature => ?_, fun hnot => ?_⟩
  · have hpremature : c.reading.premature endStream = true := by
      simpa [Reading.premature, and_assoc] using hpremature
    rw [hpremature, if_pos rfl]
    exact ⟨rfl, h.map fun r => { r with blockKind := .none }⟩
  · have hfine : c.reading.premature endStream = false := by
      simpa [Reading.premature, and_assoc] using hnot
    rw [hfine, if_neg nofun, wp_bind]
    refine copyMetadata_unfailing _ _ h.faults ?_
    rw [wp_modify_bind, wp_pure]
    refine ⟨rfl, ?_⟩
    have htrailing : (decide (c.reading.blockKind = .trailers ∨
        c.reading.blockKind = .response ∧ c.reading.blockGrpcStatus.isSome)) =
          c.reading.trailing := by
      unfold Reading.trailing
      cases hcase : c.reading.blockKind <;> simp_all
    rw [htrailing]
    exact h.map fun r => { r with
      initialMetadata :=
        if c.reading.trailing then r.initialMetadata else r.initialMetadata ++ r.blockMetadata
      trailingMetadata :=
        if c.reading.trailing then r.trailingMetadata ++ r.blockMetadata else r.trailingMetadata
      grpcStatus := r.blockGrpcStatus.or r.grpcStatus
      grpcMessage := r.blockGrpcMessage.or r.grpcMessage
      blockGrpcMessage := none
      blockKind := .none }

theorem setOutcome_unfailing (outcome : Status) (h : w.Collects limit maxResponseSize gzip c) :
    wp (setOutcome outcome)
      (fun _ w' => w'.Collects limit maxResponseSize gzip
        { c with outcome := c.outcome.or (some outcome) }) never w := by
  unfold setOutcome modifyOperation
  rw [wp_get_when, h.outcomeSet]
  refine ⟨fun hunset => ?_, fun hset => ?_⟩
  · have hnone : c.outcome = none := by simpa using hunset
    rw [wp_bind]
    refine external_unfailing h.faults ?_
    rw [wp_modify, hnone]
    refine { h with outcomeSet := rfl, outcome := ?_ }
    rintro _ ⟨⟩
    exact ⟨rfl, rfl⟩
  · obtain ⟨first, hfirst⟩ : ∃ first, c.outcome = some first :=
      Option.isSome_iff_exists.mp (not_not.mp hset)
    rw [show c.outcome.or (some outcome) = c.outcome by rw [hfirst]; rfl]
    exact h

theorem step_headersFrame (endStream : Bool) (h : w.Collects limit maxResponseSize gzip c)
    (hkind : c.reading.blockKind ≠ .none) :
    (step w (.headersFrame endStream)).Collects limit maxResponseSize gzip (c.close endStream) := by
  refine onMapped_step h.place ?_
  unfold onHeadersFrame
  refine wp_seq (finishHeaderBlock_unfailing endStream h hkind) ?_
  rintro _ w' ⟨rfl, h'⟩
  have hinvalid : w'.operation.responseMetadataInvalid = c.reading.responseMetadataInvalid := by
    have hreading := congrArg Reading.responseMetadataInvalid h'.reading
    refine hreading.trans ?_
    unfold Reading.close
    split <;> rfl
  rw [wp_get_when, hinvalid, h'.outcomeSet]
  refine ⟨fun hfails => ?_, fun hfine => ?_⟩
  · have hfault : c.fault endStream =
        some (blockFailure (!c.reading.premature endStream)) := by
      unfold Collector.fault
      rw [if_pos]
      simpa using hfails.1
    refine wp_seq (setOutcome_unfailing _ h') fun _ w'' h'' => ?_
    have hclosed : w''.Collects limit maxResponseSize gzip (c.close endStream) := by
      unfold Collector.close
      rw [hfault]
      exact h''
    rw [wp_when]
    exact ⟨fun _ => external_unfailing h''.faults hclosed, fun _ => hclosed⟩
  · have hkept : c.outcome.or (c.fault endStream) = c.outcome := by
      unfold Collector.fault
      cases houtcome : c.outcome with
      | some => rfl
      | none =>
        rw [if_neg]
        · rfl
        · simpa [houtcome] using hfine
    unfold Collector.close
    rw [hkept]
    exact h'

theorem step_beginHeaders (first : Bool) (h : w.Collects limit maxResponseSize gzip c) :
    (step w (.beginHeaders (headerKind first))).Collects limit maxResponseSize gzip
      { c with reading := c.reading.start (headerKind first) } := by
  have hkind : headerKind first ≠ .none := by cases first <;> exact nofun
  refine onMapped_step h.place ?_
  unfold onBeginHeaders
  rw [wp_when]
  exact ⟨fun _ => h.map (Reading.start · (headerKind first)), fun hnot => absurd hkind hnot⟩

theorem step_data (bytes : Bytes) (h : w.Collects limit maxResponseSize gzip c) :
    (step w (.data bytes)).Collects limit maxResponseSize gzip (c.data maxResponseSize bytes) := by
  refine onMapped_step h.place ?_
  unfold onDataChunk collectBody creditConnection creditStream modifyLog modifyOperation
    Collector.data
  rw [wp_modify_bind, wp_get_bind, wp_ite]
  refine ⟨fun htooLarge => (by cases h.fits.symm.trans htooLarge), fun _ => ?_⟩
  rw [wp_bind, wp_get_bind, wp_ite]
  dsimp only
  rw [h.size_eq, h.body]
  refine ⟨fun hover => ?_, fun hfits => ?_⟩
  · rw [if_pos hover, wp_modify, wp_bind, wp_bind]
    refine external_unfailing h.faults ?_
    rw [wp_modify, wp_bind]
    refine external_unfailing h.faults ?_
    exact { h with tooLarge := rfl }
  · rw [if_neg hfits, wp_bind]
    refine external_unfailing h.faults ?_
    rw [wp_modify, wp_bind, wp_bind]
    refine external_unfailing h.faults ?_
    rw [wp_modify, wp_bind]
    refine external_unfailing h.faults ?_
    exact { h with body := congrArg (· ++ bytes) h.body }

theorem step_read (outputLength : ℕ) (h : w.Collects limit maxResponseSize gzip c) :
    (step w (.read outputLength)).Collects limit maxResponseSize gzip c := by
  refine onMapped_step h.place ?_
  unfold readRequestData
  rw [wp_modify]
  exact { h with }

theorem run_part {part : Part} (h : w.Collects limit maxResponseSize gzip c)
    (hpart : c.part limit maxResponseSize part = some c') :
    (Run.final step w part.operation.toList).Collects limit maxResponseSize gzip c' := by
  cases part with
  | begin first => cases hpart; exact step_beginHeaders first h
  | field =>
    obtain ⟨r, hfield, rfl⟩ := Option.map_eq_some_iff.mp hpart
    exact step_field h hfield
  | frame endStream =>
    unfold Collector.part at hpart
    dsimp only at hpart
    split at hpart
    · cases hpart
    · rename_i hkind
      cases hpart
      exact step_headersFrame endStream h hkind
  | data bytes => cases hpart; exact step_data bytes h
  | last => cases hpart; exact h

theorem run_turns {turns : List Turn} (h : w.Collects limit maxResponseSize gzip c)
    (hresponse : c.receive limit maxResponseSize (turns.filterMap Turn.response) = some c') :
    (Run.final step w (turns.filterMap Turn.operation)).Collects limit maxResponseSize gzip c' := by
  unfold Collector.receive at hresponse
  induction turns generalizing w c with
  | nil => cases hresponse; exact h
  | cons turn rest ih =>
    have hevents : (turn :: rest).filterMap Turn.operation =
        turn.operation.toList ++ rest.filterMap Turn.operation := by
      cases hturn : turn.operation <;> simp [hturn]
    rw [hevents, Run.final_append]
    cases turn with
    | part piece =>
      rw [show (Turn.part piece :: rest).filterMap Turn.response =
        piece :: rest.filterMap Turn.response from rfl, List.foldlM_cons] at hresponse
      obtain ⟨next, hpart, hrest⟩ := Option.bind_eq_some_iff.mp hresponse
      exact ih (run_part h hpart) hrest
    | read outputLength => exact ih (step_read outputLength h) hresponse
    | app | wake => exact ih h hresponse

/-! ### The close of the stream -/

theorem responseStatus_eq (op : Operation) :
    op.responseStatus = match op.reading.verdict with
      | .error status => .error status
      | .ok grpcStatus =>
        if op.responseTooLarge then .error (.init .resourceExhausted "response message too large")
        else .ok grpcStatus := by
  unfold responseStatus Reading.verdict
  dsimp only [reading]
  by_cases hsaw : op.sawResponseHeaders
  · cases hhttp : op.httpStatus with
    | none => simp [hsaw]
    | some httpStatus =>
      by_cases hok : httpStatus = 200
      · by_cases htype : op.contentTypeGrpc
        · cases hgrpc : op.grpcStatus with
          | none => simp [hsaw, hok, htype]
          | some =>
            by_cases hencoding : op.responseEncodingInvalid
            · simp [hsaw, hok, htype, hencoding]
            · simp [hsaw, hok, htype, hencoding]
        · simp [hsaw, hok, htype]
      · simp [hsaw, hok]
  · simp [hsaw]

/-- `finish` reports the call as it is. -/
theorem finish_reports (hunreported : w.log.completions = []) :
    wp finish (fun _ w' => w'.log.completions = [w.operation.completion]) never w := by
  cases hpending : w.operation.operationalPending <;>
    cases hactive : w.operation.operationalActive <;>
    simp [finish, endOperationalPending, modifyOperation, modifyStats, modifyLog, wp_when,
      completion, hpending, hactive, hunreported]

theorem trySetOutcome_unfailing (hfaults : w.faults = []) (hunset : w.operation.outcomeSet = false)
    (hQ : Q () { w with operation := w.operation.record outcome }) :
    wp (trySetOutcome outcome) Q E w := by
  unfold trySetOutcome setOutcome
  rw [wp_tryCatch, wp_get_when]
  refine ⟨fun _ => ?_, fun hset => absurd (by simp [hunset]) hset⟩
  rw [wp_bind]
  exact external_unfailing hfaults hQ

theorem trySetOutcome_set (hset : w.operation.outcomeSet) (hQ : Q () w) :
    wp (trySetOutcome outcome) Q E w := by
  unfold trySetOutcome setOutcome
  rw [wp_tryCatch, wp_get_when]
  exact ⟨fun hunset => absurd hset hunset, fun _ => hQ⟩

theorem record_finish_reports (hfaults : w.faults = []) (hunset : w.operation.outcomeSet = false)
    (hunreported : w.log.completions = []) :
    wp (do trySetOutcome outcome; finish)
      (fun _ w' => w'.log.completions = [(w.operation.record outcome).completion]) never w := by
  rw [wp_bind]
  exact trySetOutcome_unfailing hfaults hunset (finish_reports hunreported)

theorem record_settle_reports (hfaults : w.faults = []) (hunset : w.operation.outcomeSet = false)
    (hunreported : w.log.completions = []) :
    wp (do trySetOutcome outcome; settle)
      (fun _ w' => w'.log.completions = [(w.operation.record outcome).completion]) never w := by
  rw [wp_bind]
  refine trySetOutcome_unfailing hfaults hunset ?_
  unfold settle
  rw [wp_bind]
  exact trySetOutcome_set rfl (finish_reports hunreported)

theorem record_completion {op : Operation} (hreading : op.reading = r)
    (hpayload : op.responsePayload = none) (outcome : Status) :
    (op.record outcome).completion = Collector.failed { reading := r } outcome := by
  rw [← hreading]
  simp [completion, record, reading, hpayload, Collector.failed]

theorem decodeGrpcMessage_unfailing {Q : Option Bytes → OperationWorld → Prop}
    (hfaults : w.faults = []) (hQ : Q (some w.operation.reading.text) w) :
    wp decodeGrpcMessage Q E w := by
  unfold decodeGrpcMessage
  rw [wp_get_bind]
  have htext : w.operation.reading.text = (w.operation.grpcMessage.map Message.decode).getD [] :=
    rfl
  rw [htext] at hQ
  cases hmessage : w.operation.grpcMessage with
  | none => rw [hmessage] at hQ; exact hQ
  | some =>
    rw [hmessage] at hQ
    dsimp only
    rw [wp_bind]
    exact drawFault_unfailing hfaults hQ

theorem decodeResponse_unfailing {Q : Except FrameError Bytes → OperationWorld → Prop}
    (hfaults : w.faults = [])
    (hQ : Q (Frame.decodeUnaryWithCompression w.gzip w.operation.responseBody
      w.operation.maxResponseSize w.operation.responseCompression [false, false, false]) w) :
    wp decodeResponse Q E w := by
  unfold decodeResponse
  rw [wp_bind]
  refine drawFault_unfailing hfaults ?_
  rw [wp_bind]
  refine drawFault_unfailing hfaults ?_
  rw [wp_bind]
  exact drawFault_unfailing hfaults hQ

theorem finalizeStatus_reports (grpcStatus : ℕ)
    (hplaced : ({ w with place := .mapped } : OperationWorld).Collects limit maxResponseSize gzip c)
    (hunset : w.operation.outcomeSet = false) :
    wp (finalizeStatus grpcStatus)
      (fun _ w' => w'.log.completions = [c.statusCompletion gzip maxResponseSize grpcStatus])
      never w := by
  have hfaults : w.faults = [] := hplaced.faults
  have hunreported : w.log.completions = [] := hplaced.unreported
  have hreading : w.operation.reading = c.reading := hplaced.reading
  have hcompletion : ∀ outcome, (w.operation.record outcome).completion = c.failed outcome :=
    record_completion hreading hplaced.payload
  unfold finalizeStatus Collector.statusCompletion
  rw [wp_bind]
  refine decodeGrpcMessage_unfailing hfaults ?_
  dsimp only
  rw [wp_ite]
  refine ⟨fun hcode => ?_, fun hcode => ?_⟩
  · rw [if_pos hcode]
    refine wp_imp (record_settle_reports hfaults hunset hunreported) fun _ w' h => ?_
    rw [h, hcompletion, hreading]
  · rw [if_neg hcode, wp_bind]
    refine decodeResponse_unfailing hfaults ?_
    have hcompression : w.operation.responseCompression = c.reading.responseCompression :=
      congrArg Reading.responseCompression hreading
    rw [show w.gzip = gzip from hplaced.gzip_eq, show w.operation.responseBody =
      c.body from hplaced.body,
      show w.operation.maxResponseSize = maxResponseSize from hplaced.size_eq, hcompression]
    cases hdecoded : Frame.decodeUnaryWithCompression gzip c.body maxResponseSize
        c.reading.responseCompression [false, false, false] with
    | error err =>
      refine wp_imp (record_finish_reports hfaults hunset hunreported) fun _ w' h => ?_
      rw [h, hcompletion]
    | ok payload =>
      dsimp only
      unfold modifyOperation
      rw [wp_modify_bind]
      refine wp_imp (record_settle_reports hfaults hunset hunreported) fun _ w' h => ?_
      rw [h]
      unfold Collector.failed
      dsimp only
      rw [← hreading, ← show w.operation.responseBody = c.body from hplaced.body]
      rfl

theorem finalize_reports (errorCode : ℕ)
    (hplaced : ({ w with place := .mapped } : OperationWorld).Collects limit
      maxResponseSize gzip c) :
    wp (finalize errorCode)
      (fun _ w' => w'.log.completions = [c.completion gzip maxResponseSize errorCode]) never w := by
  have hfaults : w.faults = [] := hplaced.faults
  have hunreported : w.log.completions = [] := hplaced.unreported
  have hset : w.operation.outcomeSet = c.outcome.isSome := hplaced.outcomeSet
  have hreading : w.operation.reading = c.reading := hplaced.reading
  have hcompletion : ∀ outcome, (w.operation.record outcome).completion = c.failed outcome :=
    record_completion hreading hplaced.payload
  unfold finalize Collector.completion
  rw [wp_get_bind, wp_ite]
  cases houtcome : c.outcome with
  | some status =>
    refine ⟨fun _ => ?_, fun hnot => absurd (by rw [hset, houtcome]; rfl) hnot⟩
    refine wp_imp (finish_reports hunreported) fun _ w' h => ?_
    obtain ⟨hcode, hmessage⟩ := hplaced.outcome status houtcome
    have hsame : w.operation.completion = (w.operation.record status).completion := by
      unfold completion record
      rw [show w.operation.responseCode = status.code from hcode,
        show w.operation.responseMessage = status.message from hmessage]
    rw [h, hsame, hcompletion]
  | none =>
    have hunset : w.operation.outcomeSet = false := by rw [hset, houtcome]; rfl
    refine ⟨fun h => (by cases hunset.symm.trans h), fun _ => ?_⟩
    rw [wp_ite]
    refine ⟨fun herror => ?_, fun hok => ?_⟩
    · dsimp only
      rw [if_pos herror]
      refine wp_imp (record_finish_reports hfaults hunset hunreported) fun _ w' h => ?_
      rw [h, hcompletion]
    · dsimp only
      rw [if_neg hok, responseStatus_eq, show w.operation.reading = c.reading from hplaced.reading,
        show w.operation.responseTooLarge = c.tooLarge from hplaced.tooLarge]
      cases hverdict : c.reading.verdict with
      | error =>
        refine wp_imp (record_settle_reports hfaults hunset hunreported) fun _ w' h => ?_
        rw [h, hcompletion]
      | ok grpcStatus =>
        by_cases htoo : c.tooLarge
        · simp only [htoo, if_true]
          refine wp_imp (record_settle_reports hfaults hunset hunreported) fun _ w' h => ?_
          rw [h, hcompletion]
        · simp only [htoo]
          exact finalizeStatus_reports grpcStatus hplaced hunset

theorem step_streamClose (errorCode : ℕ) (h : w.Collects limit maxResponseSize gzip c) :
    (step w (.streamClose errorCode)).log.completions =
      [c.completion gzip maxResponseSize errorCode] := by
  refine onMapped_step
    (J := fun w' => w'.log.completions = [c.completion gzip maxResponseSize errorCode]) h.place ?_
  unfold onStreamClose detach
  rw [wp_modify_bind]
  exact finalize_reports errorCode { h with place := rfl }

/-! ### From the queue to the end -/

/-- A call that its channel has queued, on a connection with enough memory. -/
structure IsReady (w : OperationWorld) : Prop extends w.IsEnqueued where
  connected : w.connection = .active
  faults : w.faults = []

theorem IsReady.collects (h : IsReady w) :
    ({ w with place := .mapped } : OperationWorld).Collects w.maxResponseHeaderListSize
      w.operation.maxResponseSize w.gzip {} where
  place := rfl
  faults := h.faults
  limit_eq := rfl
  gzip_eq := rfl
  size_eq := rfl
  fits := by rw [h.operation]
  reading := by rw [h.operation]; rfl
  outcomeSet := by rw [h.operation]; rfl
  outcome := nofun
  payload := by rw [h.operation]
  body := by rw [h.operation]
  tooLarge := by rw [h.operation]
  unreported := by rw [h.log]

theorem insertDeadline_unfailing (hfaults : w.faults = []) (h : J w)
    (hentry : ∀ deadline, J { w with operation := { w.operation with
      deadlineEntry := some deadline } }) : wp insertDeadline (fun _ => J) never w := by
  unfold insertDeadline deadlineHeapInsertOrUpdate modifyOperation
  rw [wp_get_bind]
  dsimp only
  split
  · exact h
  · rw [wp_get_bind, wp_bind, wp_when]
    exact ⟨fun _ => external_unfailing hfaults (hentry _), fun _ => hentry _⟩

theorem startOperation_unfailing (now id : ℕ)
    (h : ({ w with place := .mapped } : OperationWorld).Collects limit maxResponseSize gzip c)
    (hdue : hasExpired w.operation.deadline now = false) :
    wp (startOperation now id) (fun _ => OperationWorld.Collects limit maxResponseSize gzip c)
      never w := by
  have hfaults : w.faults = [] := h.faults
  unfold startOperation endOperationalPending submitOperation modifyOperation modifyStats
  rw [wp_modify_bind, wp_get_bind, wp_ite]
  refine ⟨fun hexpired => (by cases hdue.symm.trans hexpired), fun _ => ?_⟩
  rw [wp_modify_bind, wp_bind, wp_get_when]
  have hsubmit : ∀ {w₁ : OperationWorld},
      ({ w₁ with place := .mapped } : OperationWorld).Collects limit maxResponseSize gzip c →
      wp (do
        external .outOfMemory
        external .nativeFailure
        modify fun w => { w with
          place := .mapped
          orphaned := false
          operation := { w.operation with streamId := some id }
          log := { w.log with submitted := w.log.submitted ++ [requestHeaders w] } })
        (fun _ => OperationWorld.Collects limit maxResponseSize gzip c) never w₁ := by
    intro w₁ h₁
    have hfaults : w₁.faults = [] := h₁.faults
    rw [wp_bind]
    refine external_unfailing hfaults ?_
    rw [wp_bind]
    exact external_unfailing hfaults { h₁ with }
  refine ⟨fun _ => ?_, fun _ => ?_⟩
  · rw [wp_modify_bind, wp_modify, wp_tryCatch]
    exact wp_ends (hsubmit { h with }) fun _ _ h' => h'
  · rw [wp_tryCatch]
    exact wp_ends (hsubmit { h with }) fun _ _ h' => h'

theorem step_process (now id : ℕ) (h : IsReady w)
    (hdue : hasExpired w.operation.deadline now = false) :
    (step w (.process now id)).Collects w.maxResponseHeaderListSize w.operation.maxResponseSize
      w.gzip {} := by
  refine exec_of_wp (I := fun w' : OperationWorld => w'.Collects w.maxResponseHeaderListSize
    w.operation.maxResponseSize w.gzip {}) ?_
  show wp (processPending now id) _ _ w
  unfold processPending appendWaitingOperation
  rw [wp_get_bind, wp_bind, wp_when]
  refine ⟨fun _ => ?_, fun hnot => absurd h.place hnot⟩
  rw [wp_modify_bind, wp_tryCatch]
  have hqueued := insertDeadline_unfailing (w := { w with place := .waiting })
    (J := fun w' => w'.place = .waiting ∧ w'.connection = .active ∧
      w'.operation.deadline = w.operation.deadline ∧
      ({ w' with place := .mapped } : OperationWorld).Collects w.maxResponseHeaderListSize
        w.operation.maxResponseSize w.gzip {}) h.faults
    ⟨rfl, h.connected, rfl, h.collects⟩
    fun deadline => ⟨rfl, h.connected, rfl, { h.collects with }⟩
  refine wp_ends hqueued fun _ w₁ h₁ => ?_
  obtain ⟨hplace, hactive, hdeadline, hcollects⟩ := h₁
  rw [wp_get_when]
  refine ⟨fun _ => ?_, fun hnot => absurd ⟨hactive, hplace⟩ hnot⟩
  exact wp_ends (startOperation_unfailing now id hcollects (hdeadline ▸ hdue)) fun _ _ h' => h'

end Operation

/-- The course of a unary call: its submission, its response, and the close of its stream. -/
structure UnaryCourse where
  now : ℕ
  id : ℕ
  turns : List Turn
  errorCode : ℕ
  deriving DecidableEq, Repr

def UnaryCourse.events (course : UnaryCourse) : List Operation.Event :=
  .process course.now course.id :: course.turns.filterMap Turn.operation ++
    [.streamClose course.errorCode]

def UnaryCourse.response (course : UnaryCourse) : List Part := course.turns.filterMap Turn.response

theorem Operation.run_course {course : UnaryCourse} (h : Operation.IsReady w)
    (hdue : hasExpired w.operation.deadline course.now = false)
    (hresponse : Collector.receive w.maxResponseHeaderListSize w.operation.maxResponseSize {}
      course.response = some c) :
    (Run.final step w course.events).log.completions =
      [c.completion w.gzip w.operation.maxResponseSize course.errorCode] := by
  unfold UnaryCourse.events
  rw [List.cons_append, Run.final_cons, Run.final_append]
  exact step_streamClose course.errorCode
    (run_turns (step_process course.now course.id h hdue) hresponse)

end GrpcLite.Client
