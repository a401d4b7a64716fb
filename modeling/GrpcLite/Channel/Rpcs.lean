import GrpcLite.Client.Operational
import GrpcLite.Lib.Pool
import GrpcLite.Server.Stream

/-!
# The RPCs of a channel

Every unary call and every stream of a channel, from the attempt to the end of its storage, with
what they share: the two admission budgets, the operational accounting and the reference count of
the allocator that owns the last two.  A step is one critical section or one fallible part of a
construction; application threads and the channel's loop interleave freely.  Which call the loop
makes when is left to the environment, so that the results hold for every use of these functions.
-/

namespace GrpcLite.Channel

open Client (Gauge OperationalStats)
open Server (BufferLimits)

/-! ## Budgets -/

/-- The limits are machine words. -/
structure Limits where
  count : ℕ
  bytes : ℕ
  count_le : count ≤ maxU64
  bytes_le : bytes ≤ maxU64

/-- `UnaryAdmission` and `StreamAdmission`, which differ in names only.  `assertionFailed` says that
an assertion of `release` has failed. -/
structure Admission where
  limits : Limits
  retained : ℕ := 0
  retainedBytes : ℕ := 0
  rejected : ℕ := 0
  assertionFailed : Bool := false

namespace Admission

def reject (a : Admission) : Admission := { a with rejected := satAdd a.rejected 1 }

def reserve (a : Admission) (bytes : ℕ) : Admission × Bool :=
  if a.limits.count ≤ a.retained ∨ a.limits.bytes - a.retainedBytes < bytes then (a.reject, false)
  else ({ a with retained := a.retained + 1, retainedBytes := a.retainedBytes + bytes }, true)

def release (a : Admission) (bytes : ℕ) : Admission :=
  { a with
    retained := a.retained - 1
    retainedBytes := a.retainedBytes - bytes
    assertionFailed := a.assertionFailed || a.retained == 0 || decide (a.retainedBytes < bytes) }

end Admission

/-- `references` counts the channel and the stream states that keep the allocator. -/
structure Shared where
  unary : Admission
  stream : Admission
  stats : OperationalStats := {}
  references : ℕ := 1

/-! ## Attempts -/

def slash : UInt8 := 47

def isValidMethodPath (path : Bytes) : Bool :=
  match path with
  | first :: rest =>
    decide (4 ≤ path.length) && first == slash &&
      match rest.dropWhile (· != slash) with
      | _ :: method =>
        !(rest.takeWhile (· != slash)).isEmpty && !method.isEmpty && !method.contains slash
      | [] => false
  | [] => false

def isReservedRequestHeader (name : Bytes) : Bool :=
  name == ascii "content-type" || name == ascii "te" || name == ascii "user-agent" ||
    (ascii "grpc-").isPrefixOf name

def isRequestMetadata (name : Bytes) : Bool :=
  isApplicationKey name && !isReservedRequestHeader name

structure UnaryCall where
  path : Bytes
  payload : Bytes
  metadata : List Entry
  maxResponseSize : ℕ
  blocking : Bool
  deriving DecidableEq, Repr

def maxU32 : ℕ := 2 ^ 32 - 1

/-- The charge of a unary call; none if it does not fit a machine word. -/
def UnaryCall.admissionBytes (call : UnaryCall) : Option ℕ := do
  let path ← checkedAdd call.path.length Frame.headerSize
  let request ← checkedAdd path call.payload.length
  call.metadata.foldlM (fun bytes entry => do
    let key ← checkedAdd bytes entry.key.length
    checkedAdd key entry.value.length) request

structure StreamCall where
  path : Bytes
  metadata : List Entry
  limits : BufferLimits
  initialStreamWindowSize : ℕ
  deriving DecidableEq, Repr

def StreamCall.isValid (call : StreamCall) : Bool :=
  isValidMethodPath call.path && call.limits.maxMessageSize != 0 &&
    (match checkedAdd call.limits.maxMessageSize 5 with
      | none => false
      | some minimumWireSize =>
        decide (minimumWireSize ≤ call.limits.maxInboundBufferSize) &&
          decide (minimumWireSize ≤ call.limits.maxOutboundBufferSize)) &&
    decide (call.initialStreamWindowSize ≤ call.limits.maxInboundBufferSize)

def StreamCall.admissionBytes (call : StreamCall) : Option ℕ :=
  checkedAdd call.limits.maxInboundBufferSize call.limits.maxOutboundBufferSize

inductive Allocation where
  | create
  | path
  | frame
  deriving DecidableEq, Repr

/-- Where an attempt has got to: nothing was reserved, it is being built, it is built, the channel
has accepted it, it is finished, or its storage is gone. -/
inductive Stage where
  | refused
  | building (allocations : List Allocation) (metadata : List Entry)
  | built
  | live
  | done
  | freed
  deriving DecidableEq, Repr

/-- The storage of an attempt: it has been reserved and not been given back. -/
def Stage.isStored : Stage → Bool
  | .refused | .freed => false
  | .building _ _ | .built | .live | .done => true

/-- One step of a construction that fails at an allocation or at a metadata entry. -/
def Stage.build (fails : Bool) : Stage → Option Stage
  | .building (_ :: allocations) metadata =>
    if fails then none else some (.building allocations metadata)
  | .building [] (entry :: metadata) =>
    if !isRequestMetadata entry.key || fails then none else some (.building [] metadata)
  | .building [] [] => some .built
  | stage => some stage

/-- An `Operation`.  From `accepted` on it is history: whether the channel took the call, whether
its submission has started, the status code it was counted under, and how often its charge was
reserved and released. -/
structure Unary where
  blocking : Bool
  charge : ℕ := 0
  stage : Stage := .refused
  finished : Bool := false
  operationalActive : Bool := false
  operationalPending : Bool := false
  accepted : Bool := false
  submitted : Bool := false
  counted : Option Code := none
  reservations : ℕ := 0
  releases : ℕ := 0
  deriving DecidableEq, Repr

structure OutboundFrame where
  length : ℕ
  offset : ℕ := 0
  deriving DecidableEq, Repr

/-- A `ClientStreamState`; `outbound` and `inbound` hold the sizes of the items from their heads
on.  `retained` says that it keeps the allocator. -/
structure Stream where
  limits : BufferLimits
  charge : ℕ := 0
  stage : Stage := .refused
  retained : Bool := false
  appOwned : Bool := true
  loopOwned : Bool := true
  terminal : Bool := false
  operationalActive : Bool := false
  outbound : List OutboundFrame := []
  outboundBuffered : ℕ := 0
  inbound : List ℕ := []
  inboundBuffered : ℕ := 0
  accepted : Bool := false
  counted : Option Code := none
  reservations : ℕ := 0
  releases : ℕ := 0
  deriving DecidableEq, Repr

/-- A member of the channel's pool; the channel itself keeps the allocator, too. -/
inductive Member where
  | channel (alive : Bool)
  | unary (op : Unary)
  | stream (st : Stream)
  deriving DecidableEq, Repr

inductive Call where
  | unary (call : UnaryCall)
  | stream (call : StreamCall)
  deriving DecidableEq, Repr

def beginUnary (s : Shared) (call : UnaryCall) : Shared × Unary :=
  let op : Unary := { blocking := call.blocking }
  if !isValidMethodPath call.path || decide (maxU32 < call.maxResponseSize) then (s, op)
  else
    match call.admissionBytes with
    | none => (s, op)
    | some charge =>
      let (unary, admitted) := s.unary.reserve charge
      if admitted then
        ({ s with unary := unary }, { op with
            charge := charge
            stage := .building [.create, .path, .frame] call.metadata
            reservations := 1 })
      else ({ s with unary := unary }, op)

def beginStream (s : Shared) (call : StreamCall) : Shared × Stream :=
  let st : Stream := { limits := call.limits }
  if !call.isValid then (s, st)
  else
    match call.admissionBytes with
    | none => (s, st)
    | some charge =>
      let (stream, admitted) := s.stream.reserve charge
      if admitted then
        ({ s with stream := stream }, { st with
            charge := charge
            stage := .building [.create, .path] call.metadata
            reservations := 1 })
      else ({ s with stream := stream }, st)

def enter (s : Shared) : Call → Shared × Member
  | .unary call => let (s, op) := beginUnary s call; (s, .unary op)
  | .stream call => let (s, st) := beginStream s call; (s, .stream st)

/-! ## Unary calls -/

namespace Unary

def deinit (s : Shared) (op : Unary) : Shared × Unary :=
  ({ s with unary := s.unary.release op.charge },
    { op with stage := .freed, releases := op.releases + 1 })

def build (fails : Bool) (s : Shared) (op : Unary) : Shared × Unary :=
  match op.stage.build fails with
  | none => op.deinit s
  | some stage => (s, { op with stage := stage })

def endOperationalPending (s : Shared) (op : Unary) : Shared × Unary :=
  if op.operationalPending then
    ({ s with stats := s.stats.subtract .pendingUnaryCalls 1 },
      { op with operationalPending := false })
  else (s, op)

/-- The part of `finish` that ends the operational activity. -/
def endOperationalActive (code : Code) (s : Shared) (op : Unary) : Shared × Unary :=
  if op.operationalActive then
    ({ s with stats := s.stats.terminal .activeUnaryCalls code },
      { op with operationalActive := false, counted := some code })
  else (s, op)

/-- A blocking call's storage is freed by its caller and another one's after the callback. -/
def finish (code : Code) (s : Shared) (op : Unary) : Shared × Unary :=
  let (s, op) := endOperationalPending s { op with finished := true }
  let (s, op) := endOperationalActive code s op
  (s, { op with stage := .done })

def turnAway (s : Shared) (op : Unary) : Shared × Unary :=
  if op.blocking then op.finish .unavailable s else op.deinit s

def enqueue (running appendFails notifyFails : Bool) (s : Shared) (op : Unary) : Shared × Unary :=
  if !running then op.turnAway s
  else if appendFails then op.deinit s
  else if notifyFails then op.turnAway s
  else
    ({ s with stats := (s.stats.add .activeUnaryCalls 1).add .pendingUnaryCalls 1 }, { op with
        stage := .live
        operationalActive := true
        operationalPending := true
        accepted := true })

def startSubmission (s : Shared) (op : Unary) : Shared × Unary :=
  let (s, op) := op.endOperationalPending s
  (s, { op with submitted := true })

end Unary

/-! ## Streams -/

namespace Stream

def destroy (s : Shared) (st : Stream) : Shared × Stream :=
  ({ s with
      stats := (s.stats.subtract .streamOutboundBytes st.outboundBuffered).subtract
        .streamInboundBytes st.inboundBuffered
      stream := s.stream.release st.charge
      references := if st.retained then s.references - 1 else s.references },
    { st with
      stage := .freed
      retained := false
      outbound := []
      outboundBuffered := 0
      inbound := []
      inboundBuffered := 0
      releases := st.releases + 1 })

/-- The stream state keeps the allocator from its creation on. -/
def build (fails : Bool) (s : Shared) (st : Stream) : Shared × Stream :=
  match st.stage, st.stage.build fails with
  | _, none => st.destroy s
  | .building (.create :: _) _, some stage =>
    ({ s with references := s.references + 1 }, { st with stage := stage, retained := true })
  | _, some stage => (s, { st with stage := stage })

def openStream (available putFails notifyFails : Bool) (s : Shared) (st : Stream) :
    Shared × Stream :=
  if !available || putFails || notifyFails then
    destroy s { st with appOwned := false, loopOwned := false }
  else
    ({ s with stats := s.stats.add .activeStreams 1 },
      { st with stage := .live, operationalActive := true, accepted := true })

/-- The second critical section of `clientStreamSend` for an encoded frame of this length. -/
def send (length : ℕ) (fails : Bool) (s : Shared) (st : Stream) : Shared × Stream :=
  if !st.appOwned || st.terminal || decide (st.limits.maxOutboundBufferSize < length) ||
      decide (st.limits.maxOutboundBufferSize - st.outboundBuffered < length) || fails then (s, st)
  else
    ({ s with stats := s.stats.add .streamOutboundBytes length }, { st with
        outbound := st.outbound ++ [{ length }]
        outboundBuffered := st.outboundBuffered + length })

def readClientStreamData (outputLength : ℕ) (s : Shared) (st : Stream) : Shared × Stream :=
  match st.outbound with
  | [] => (s, st)
  | item :: rest =>
    let offset := item.offset + min (item.length - item.offset) outputLength
    if offset = item.length then
      ({ s with stats := s.stats.subtract .streamOutboundBytes item.length }, { st with
          outbound := rest
          outboundBuffered := st.outboundBuffered - item.length })
    else (s, { st with outbound := { item with offset := offset } :: rest })

def queueInboundMessage (payloadLength : ℕ) (fails : Bool) (s : Shared) (st : Stream) :
    Shared × Stream :=
  match checkedAdd payloadLength Frame.headerSize with
  | none => (s, st)
  | some bufferedSize =>
    if decide (st.limits.maxInboundBufferSize - st.inboundBuffered < bufferedSize) || fails then
      (s, st)
    else
      ({ s with stats := s.stats.add .streamInboundBytes bufferedSize }, { st with
          inbound := st.inbound ++ [bufferedSize]
          inboundBuffered := st.inboundBuffered + bufferedSize })

def deliver (s : Shared) (st : Stream) : Shared × Stream :=
  match st.inbound with
  | [] => (s, st)
  | bufferedSize :: rest =>
    ({ s with stats := s.stats.subtract .streamInboundBytes bufferedSize }, { st with
        inbound := rest
        inboundBuffered := st.inboundBuffered - bufferedSize })

def terminalize (code : Code) (s : Shared) (st : Stream) : Shared × Stream :=
  if st.terminal then (s, st)
  else if st.operationalActive then
    ({ s with stats := s.stats.terminal .activeStreams code },
      { st with terminal := true, operationalActive := false, counted := some code })
  else (s, { st with terminal := true })

def release (s : Shared) (st : Stream) : Shared × Stream :=
  let st := { st with appOwned := false }
  if st.loopOwned then (s, st) else st.destroy s

def releaseLoop (s : Shared) (st : Stream) : Shared × Stream :=
  let st := { st with loopOwned := false }
  if st.appOwned then (s, st) else st.destroy s

end Stream

/-! ## Steps -/

inductive UnaryAction where
  | build (fails : Bool)
  | enqueue (running appendFails notifyFails : Bool)
  | startSubmission
  | finish (code : Code)
  | deinit
  deriving DecidableEq, Repr

inductive StreamAction where
  | build (fails : Bool)
  | openStream (available putFails notifyFails : Bool)
  | send (length : ℕ) (fails : Bool)
  | read (outputLength : ℕ)
  | queueInbound (payloadLength : ℕ) (fails : Bool)
  | deliver
  | terminalize (code : Code)
  | release
  | releaseLoop
  deriving DecidableEq, Repr

inductive Action where
  | unary (action : UnaryAction)
  | stream (action : StreamAction)
  | setSocketBytes (bytes : ℕ)
  | deinitChannel
  deriving DecidableEq, Repr

def Unary.act (s : Shared) (op : Unary) : UnaryAction → Shared × Unary
  | .build fails => op.build fails s
  | .enqueue running appendFails notifyFails =>
    if op.stage = .built then op.enqueue running appendFails notifyFails s else (s, op)
  | .startSubmission => if op.stage = .live then op.startSubmission s else (s, op)
  | .finish code => if op.stage = .live then op.finish code s else (s, op)
  | .deinit => if op.stage = .done then op.deinit s else (s, op)

/-- The loop gives a stream up only after `terminalizeStream`. -/
def Stream.act (s : Shared) (st : Stream) : StreamAction → Shared × Stream
  | .build fails => st.build fails s
  | .openStream available putFails notifyFails =>
    if st.stage = .built then st.openStream available putFails notifyFails s else (s, st)
  | .send length fails => if st.stage = .live then st.send length fails s else (s, st)
  | .read outputLength =>
    if st.stage = .live ∧ st.loopOwned then st.readClientStreamData outputLength s else (s, st)
  | .queueInbound payloadLength fails =>
    if st.stage = .live ∧ st.loopOwned then st.queueInboundMessage payloadLength fails s
    else (s, st)
  | .deliver => if st.stage = .live ∧ st.loopOwned then st.deliver s else (s, st)
  | .terminalize code => if st.stage = .live ∧ st.loopOwned then st.terminalize code s else (s, st)
  | .release => if st.stage = .live ∧ st.appOwned then st.release s else (s, st)
  | .releaseLoop =>
    if st.stage = .live ∧ st.loopOwned ∧ st.terminal then st.releaseLoop s else (s, st)

def act (s : Shared) : Member → Action → Shared × Member
  | .unary op, .unary action => let (s, op) := op.act s action; (s, .unary op)
  | .stream st, .stream action => let (s, st) := st.act s action; (s, .stream st)
  | .channel true, .setSocketBytes bytes =>
    ({ s with stats := s.stats.setSocketBytes bytes }, .channel true)
  | .channel true, .deinitChannel => ({ s with references := s.references - 1 }, .channel false)
  | member, _ => (s, member)

abbrev Calls := Pool Shared Member

def step : Calls → Pool.Event Call Action → Calls := Pool.step enter act

def start (unary stream : Limits) : Calls :=
  ⟨{ unary := { limits := unary }, stream := { limits := stream } }, [.channel true]⟩

end GrpcLite.Channel
