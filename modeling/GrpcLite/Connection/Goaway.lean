import GrpcLite.Client.Steps
import Mathlib.Algebra.Order.Ring.Int

/-!
# GOAWAY between a client and a server

One connection between a channel and a server that is asked to drain or that finds the connection
idle.  Each side is a state machine over the fields that its GOAWAY handling reads, and the two
exchange frames in order; a frame may stay under way for any time.  What nghttp2 does on its own is
modelled as documented: the stream ids of requests are positive, and a received GOAWAY closes the
streams above its last stream id.
-/

namespace GrpcLite.Goaway

/-- Frames of the client: the headers of a request, and the end of its messages. -/
inductive ClientFrame where
  | headers (id : ℤ)
  | endStream (id : ℤ)
  deriving DecidableEq, Repr

/-- Frames of the server, where `closed` stands for whatever ends a stream. -/
inductive ServerFrame where
  | goaway (lastStreamId : ℤ)
  | closed (id : ℤ)
  deriving DecidableEq, Repr

/-! ## The server -/

/-- `goaway` is the last stream id of the GOAWAY that was submitted and `handled` are the streams
whose handler was invoked. -/
structure ServerConnection where
  draining : Bool := false
  closing : Bool := false
  closeAfterWrites : Bool := false
  session : Bool := true
  tlsHandshaking : Bool := false
  highestAcceptedStreamId : ℤ := 0
  streams : List ℤ := []
  maxConcurrentStreams : ℕ := 100
  goaway : Option ℤ := none
  handled : List ℤ := []
  deriving DecidableEq, Repr

inductive Verdict where
  | accepted
  | refused
  | failed
  deriving DecidableEq, Repr

/-- `allocated` says whether the stream can be created and registered. -/
def onBeginHeaders (c : ServerConnection) (id : ℤ) (allocated : Bool) :
    ServerConnection × Verdict :=
  if c.draining then (c, .refused)
  else if c.streams.length ≥ c.maxConcurrentStreams then (c, .refused)
  else if ¬allocated then (c, .failed)
  else
    ({ c with
        streams := id :: c.streams
        highestAcceptedStreamId := max c.highestAcceptedStreamId id }, .accepted)

/-- `invoked` says whether this frame makes the server call the request's handler, as the headers
of a streaming request and the end of a unary one do. -/
def onFrameReceived (c : ServerConnection) (id : ℤ) (invoked : Bool) : ServerConnection :=
  if id ∈ c.streams ∧ invoked then { c with handled := c.handled ++ [id] } else c

def onStreamClose (c : ServerConnection) (id : ℤ) : ServerConnection :=
  { c with streams := c.streams.erase id }

/-- What becomes of a submission: whether nghttp2 takes it and whether the flush that follows
succeeds, which for an idle connection means that the frame was queued as a whole. -/
structure Submission where
  taken : Bool
  flushed : Bool
  deriving DecidableEq, Repr

/-- What a graceful close finds: whether the notification of the TLS session could be queued, and
whether a write is pending. -/
structure Farewell where
  notified : Bool
  pendingWrites : Bool
  deriving DecidableEq, Repr

/-- The connection is closed once its writes are completed; until then it still reads. -/
def closeGracefully (c : ServerConnection) (farewell : Farewell) : ServerConnection :=
  if c.closing ∨ c.closeAfterWrites then c
  else if ¬farewell.notified then { c with closing := true }
  else { c with closeAfterWrites := true, closing := !farewell.pendingWrites }

/-- The connection starts to drain and announces the highest stream it has accepted.  It is
closed if that fails, and even then the frame may have left. -/
def submitGoAway (c : ServerConnection) (submission : Submission) :
    ServerConnection × List ServerFrame :=
  let c := { c with draining := true }
  if ¬submission.taken then ({ c with closing := true }, [])
  else
    ({ c with
        goaway := some c.highestAcceptedStreamId
        closing := c.closing || !submission.flushed }, [.goaway c.highestAcceptedStreamId])

def beginDrain (c : ServerConnection) (listenerClosed : Bool) (submission : Submission) :
    ServerConnection × List ServerFrame :=
  if ¬listenerClosed then (c, [])
  else if c.draining ∨ c.closing ∨ ¬c.session then (c, [])
  else if c.tlsHandshaking then ({ c with closing := true }, [])
  else submitGoAway c submission

def expireIdle (c : ServerConnection) (shuttingDown : Bool) (submission : Submission)
    (farewell : Farewell) : ServerConnection × List ServerFrame :=
  if c.closing ∨ ¬c.session ∨ shuttingDown then (c, [])
  else if c.streams ≠ [] ∨ c.draining then (c, [])
  else
    let (c, frames) := submitGoAway c submission
    (closeGracefully c farewell, frames)

/-! ## The client -/

inductive RpcKind where
  | unary
  | streaming
  deriving DecidableEq, Repr

/-- An `Operation` or a `ClientStreamState`.  `mapped` says that it is in `operations` or `streams`
and `rejected` that it was ended because of a GOAWAY. -/
structure Rpc where
  kind : RpcKind
  streamId : ℤ := -1
  mapped : Bool := false
  finished : Bool := false
  rejected : Bool := false
  deriving DecidableEq, Repr

inductive ConnectionState where
  | active
  | draining
  deriving DecidableEq, Repr

/-- `unsent` are the requests that nghttp2 was given and has not sent. -/
structure ClientConnection where
  connectionState : ConnectionState := .active
  nextStreamId : ℤ := 1
  unsent : List ℤ := []
  rpcs : List Rpc := []
  deriving DecidableEq, Repr

def goAwayRejectsStream (streamId lastStreamId : ℤ) : Bool :=
  streamId < 0 || streamId > lastStreamId

/-- What a GOAWAY does to one RPC: `terminalizeStreamsForGoAway` ends the streams that it rejects,
submitted or not, where a submitted one stays in `streams` until it is closed; and nghttp2 closes
the operations above its last stream id.  Operations that were not submitted wait for the next
connection. -/
def Rpc.onGoaway (lastStreamId : ℤ) (rpc : Rpc) : Rpc :=
  match rpc.kind with
  | .streaming =>
    if ¬rpc.finished ∧ (rpc.mapped ∨ rpc.streamId < 0) ∧
        goAwayRejectsStream rpc.streamId lastStreamId then
      { rpc with finished := true, rejected := true }
    else rpc
  | .unary =>
    if rpc.mapped ∧ rpc.streamId > lastStreamId then
      { rpc with finished := true, mapped := false, rejected := true }
    else rpc

def ClientConnection.onGoaway (c : ClientConnection) (lastStreamId : ℤ) : ClientConnection :=
  match c.connectionState with
  | .active =>
    { c with
      connectionState := .draining
      rpcs := c.rpcs.map (Rpc.onGoaway lastStreamId) }
  | .draining => c

/-- The loop hands an RPC to nghttp2, if the connection takes new ones. -/
def ClientConnection.submit (c : ClientConnection) (index : ℕ) : ClientConnection :=
  match c.rpcs[index]? with
  | none => c
  | some rpc =>
    if c.connectionState = .active ∧ rpc.streamId < 0 ∧ ¬rpc.finished then
      { c with
        nextStreamId := c.nextStreamId + 2
        unsent := c.unsent ++ [c.nextStreamId]
        rpcs := c.rpcs.set index { rpc with streamId := c.nextStreamId, mapped := true } }
    else c

def ClientConnection.finish (c : ClientConnection) (index : ℕ) : ClientConnection :=
  { c with rpcs := c.rpcs.modify index fun rpc => { rpc with finished := true, mapped := false } }

/-! ## The connection -/

structure Link where
  client : ClientConnection := {}
  server : ServerConnection := {}
  toServer : List ClientFrame := []
  toClient : List ServerFrame := []
  deriving DecidableEq, Repr

/-- `clientFrame` and `serverFrame` take the next frame of the peer; their parameters are the
choices of the receiver.  `serverClose` is a close for any reason, the last completed write of a
connection that waits for it included. -/
inductive Event where
  | openRpc (kind : RpcKind)
  | submit (index : ℕ)
  | send
  | endStream (id : ℤ)
  | finish (index : ℕ)
  | clientFrame
  | serverFrame (allocated invoked : Bool)
  | serverStreamClose (id : ℤ)
  | drain (listenerClosed : Bool) (submission : Submission)
  | idle (shuttingDown : Bool) (submission : Submission) (farewell : Farewell)
  | serverCloseGracefully (farewell : Farewell)
  | serverClose
  | sessionGone
  | handshaken
  deriving DecidableEq, Repr

/-- The server takes the next frame of the client, also when the connection is closing or is to be
closed after its writes: a read that is under way still reaches nghttp2, as long as there is a
session. -/
def Link.receiveServer (l : Link) (allocated invoked : Bool) : Link :=
  match l.toServer with
  | [] => l
  | frame :: rest =>
    let l := { l with toServer := rest }
    if ¬l.server.session then l
    else match frame with
      | .headers id =>
        match onBeginHeaders l.server id allocated with
        | (server, .accepted) => { l with server := onFrameReceived server id invoked }
        | (server, .refused) => { l with server := server, toClient := l.toClient ++ [.closed id] }
        | (server, .failed) => { l with server := { server with closing := true } }
      | .endStream id => { l with server := onFrameReceived l.server id invoked }

def Link.receiveClient (l : Link) : Link :=
  match l.toClient with
  | [] => l
  | .goaway lastStreamId :: rest =>
    { l with toClient := rest, client := l.client.onGoaway lastStreamId }
  | .closed id :: rest =>
    { l with
      toClient := rest
      client := { l.client with rpcs := l.client.rpcs.map fun rpc =>
        if rpc.mapped ∧ rpc.streamId = id then { rpc with finished := true, mapped := false }
        else rpc } }

def step (l : Link) : Event → Link
  | .openRpc kind =>
    { l with client := { l.client with rpcs := l.client.rpcs ++ [{ kind := kind }] } }
  | .submit index => { l with client := l.client.submit index }
  | .send =>
    match l.client.unsent with
    | [] => l
    | id :: rest =>
      { l with client := { l.client with unsent := rest }, toServer := l.toServer ++ [.headers id] }
  | .endStream id => { l with toServer := l.toServer ++ [.endStream id] }
  | .finish index => { l with client := l.client.finish index }
  | .clientFrame => l.receiveClient
  | .serverFrame allocated invoked => l.receiveServer allocated invoked
  | .serverStreamClose id =>
    { l with server := onStreamClose l.server id, toClient := l.toClient ++ [.closed id] }
  | .drain listenerClosed submission =>
    let (server, frames) := beginDrain l.server listenerClosed submission
    { l with server := server, toClient := l.toClient ++ frames }
  | .idle shuttingDown submission farewell =>
    let (server, frames) := expireIdle l.server shuttingDown submission farewell
    { l with server := server, toClient := l.toClient ++ frames }
  | .serverCloseGracefully farewell => { l with server := closeGracefully l.server farewell }
  | .serverClose => { l with server := { l.server with closing := true } }
  | .sessionGone => { l with server := { l.server with session := false } }
  | .handshaken => { l with server := { l.server with tlsHandshaking := false } }

def initial (maxConcurrentStreams : ℕ) (tls : Bool) : Link :=
  { server := { maxConcurrentStreams := maxConcurrentStreams, tlsHandshaking := tls } }

/-! ## What the server accepts -/

structure ServerConnection.Sound (c : ServerConnection) : Prop where
  accepted : ∀ id ∈ c.streams, 0 < id ∧ id ≤ c.highestAcceptedStreamId
  handled : ∀ id ∈ c.handled, 0 < id ∧ id ≤ c.highestAcceptedStreamId
  announced : ∀ last, c.goaway = some last → c.draining ∧ last = c.highestAcceptedStreamId

structure ServerConnection.Keeps (c c' : ServerConnection) : Prop where
  highest : c.highestAcceptedStreamId ≤ c'.highestAcceptedStreamId
  goaway : ∀ last, c.goaway = some last → c'.goaway = some last

theorem ServerConnection.Keeps.refl (c : ServerConnection) : c.Keeps c := ⟨le_rfl, fun _ h => h⟩

section Server

variable {c : ServerConnection}

variable (h : c.Sound)

include h

theorem onFrameReceived_sound (id : ℤ) (invoked : Bool) :
    (onFrameReceived c id invoked).Sound ∧ c.Keeps (onFrameReceived c id invoked) := by
  unfold onFrameReceived
  split
  · rename_i hmapped
    refine ⟨{ h with handled := ?_ }, le_rfl, fun _ h => h⟩
    exact List.forall_mem_append.mpr
      ⟨h.handled, List.forall_mem_singleton.mpr (h.accepted id hmapped.1)⟩
  · exact ⟨h, .refl c⟩

theorem onBeginHeaders_sound {id : ℤ} (hid : 0 < id) (allocated : Bool) :
    (onBeginHeaders c id allocated).1.Sound ∧ c.Keeps (onBeginHeaders c id allocated).1 := by
  unfold onBeginHeaders
  split
  · exact ⟨h, .refl c⟩
  · rename_i hactive
    split
    · exact ⟨h, .refl c⟩
    · split
      · exact ⟨h, .refl c⟩
      · have hle := le_max_left c.highestAcceptedStreamId id
        refine ⟨⟨fun other hmem => ?_, fun other hmem => ?_, fun last hlast => ?_⟩, hle, fun _ h =>
          h⟩
        · rcases List.mem_cons.mp hmem with rfl | hmem
          · exact ⟨hid, le_max_right _ _⟩
          · exact (h.accepted other hmem).imp_right (le_trans · hle)
        · exact (h.handled other hmem).imp_right (le_trans · hle)
        · exact absurd (h.announced last hlast).1 hactive

theorem submitGoAway_sound (hactive : c.draining = false) (submission : Submission) :
    (submitGoAway c submission).1.Sound ∧ c.Keeps (submitGoAway c submission).1 ∧
      ∀ last, ServerFrame.goaway last ∈ (submitGoAway c submission).2 →
        (submitGoAway c submission).1.goaway = some last := by
  have hnone : ∀ last, c.goaway ≠ some last := fun last hlast =>
    absurd (hactive.symm.trans (h.announced last hlast).1) Bool.false_ne_true
  unfold submitGoAway
  dsimp only
  split
  · exact ⟨⟨h.accepted, h.handled, fun last hlast => absurd hlast (hnone last)⟩,
      ⟨le_rfl, fun last hlast => absurd hlast (hnone last)⟩, nofun⟩
  · refine ⟨⟨h.accepted, h.handled, fun last hlast => ⟨rfl, (Option.some.inj hlast).symm⟩⟩,
      ⟨le_rfl, fun last hlast => absurd hlast (hnone last)⟩, fun last hmem => ?_⟩
    rw [ServerFrame.goaway.inj (List.mem_singleton.mp hmem)]

theorem closeGracefully_sound (farewell : Farewell) :
    (closeGracefully c farewell).Sound ∧ c.Keeps (closeGracefully c farewell) ∧
      (closeGracefully c farewell).goaway = c.goaway := by
  unfold closeGracefully
  split
  · exact ⟨h, .refl c, rfl⟩
  · split
    · exact ⟨{ h with }, ⟨le_rfl, fun _ h => h⟩, rfl⟩
    · exact ⟨{ h with }, ⟨le_rfl, fun _ h => h⟩, rfl⟩

theorem beginDrain_sound (listenerClosed : Bool) (submission : Submission) :
    (beginDrain c listenerClosed submission).1.Sound ∧
      c.Keeps (beginDrain c listenerClosed submission).1 ∧
      ∀ last, ServerFrame.goaway last ∈ (beginDrain c listenerClosed submission).2 →
        (beginDrain c listenerClosed submission).1.goaway = some last := by
  unfold beginDrain
  split
  · exact ⟨h, .refl c, nofun⟩
  · split
    · exact ⟨h, .refl c, nofun⟩
    · rename_i hopen
      split
      · exact ⟨{ h with }, ⟨le_rfl, fun _ h => h⟩, nofun⟩
      · rw [not_or] at hopen
        exact submitGoAway_sound h (by simpa using hopen.1) submission

theorem expireIdle_sound (shuttingDown : Bool) (submission : Submission) (farewell : Farewell) :
    (expireIdle c shuttingDown submission farewell).1.Sound ∧
      c.Keeps (expireIdle c shuttingDown submission farewell).1 ∧
      ∀ last, ServerFrame.goaway last ∈ (expireIdle c shuttingDown submission farewell).2 →
        (expireIdle c shuttingDown submission farewell).1.goaway = some last := by
  unfold expireIdle
  split
  · exact ⟨h, .refl c, nofun⟩
  · split
    · exact ⟨h, .refl c, nofun⟩
    · rename_i hidle
      rw [not_or] at hidle
      obtain ⟨hsound, hkeeps, hframes⟩ := submitGoAway_sound h (by simpa using hidle.2) submission
      obtain ⟨hclosed, hkept, hgoaway⟩ := closeGracefully_sound hsound farewell
      refine ⟨hclosed, ⟨hkeeps.highest.trans hkept.highest, fun last hlast => ?_⟩,
        fun last hmem => ?_⟩
      · exact hkept.goaway last (hkeeps.goaway last hlast)
      · exact hgoaway.trans (hframes last hmem)

end Server

/-! ## Agreement -/

/-- The RPC was not submitted, or its stream is above the last one that the server announced. -/
def Rpc.Refused (goaway : Option ℤ) (rpc : Rpc) : Prop :=
  rpc.streamId < 0 ∨ ∃ last, goaway = some last ∧ last < rpc.streamId

structure Link.Agrees (l : Link) : Prop where
  server : l.server.Sound
  next : 0 < l.client.nextStreamId
  unsent : ∀ id ∈ l.client.unsent, 0 < id
  toServer : ∀ id, .headers id ∈ l.toServer → 0 < id
  toClient : ∀ last, .goaway last ∈ l.toClient → l.server.goaway = some last
  rejected : ∀ rpc ∈ l.client.rpcs, rpc.rejected → rpc.finished ∧ rpc.Refused l.server.goaway

section Steps

variable {l : Link}

/-- A step of the server that sends `frames`. -/
theorem Link.Agrees.serverStep (h : l.Agrees) {server : ServerConnection}
    {frames : List ServerFrame}
    (hsound : server.Sound) (hkeeps : l.server.Keeps server)
    (hframes : ∀ last, .goaway last ∈ frames → server.goaway = some last) :
    Link.Agrees { l with server := server, toClient := l.toClient ++ frames } where
  server := hsound
  next := h.next
  unsent := h.unsent
  toServer := h.toServer
  toClient last hmem := by
    rcases List.mem_append.mp hmem with hmem | hmem
    · exact hkeeps.goaway last (h.toClient last hmem)
    · exact hframes last hmem
  rejected rpc hmem hrejected := by
    obtain ⟨hfinished, hrefused⟩ := h.rejected rpc hmem hrejected
    exact ⟨hfinished, hrefused.imp_right fun ⟨last, hlast, hlt⟩ =>
      ⟨last, hkeeps.goaway last hlast, hlt⟩⟩

theorem Link.Agrees.serverSilent (h : l.Agrees) {server : ServerConnection} (hsound : server.Sound)
    (hkeeps : l.server.Keeps server) : Link.Agrees { l with server := server } := by
  have hstep : Link.Agrees { l with server := server, toClient := l.toClient ++ [] } :=
    h.serverStep hsound hkeeps nofun
  rwa [List.append_nil] at hstep

theorem Link.Agrees.clientStep (h : l.Agrees) {rpcs : List Rpc}
    (hrpcs : ∀ rpc ∈ rpcs, rpc.rejected → rpc.finished ∧ rpc.Refused l.server.goaway) :
    Link.Agrees { l with client := { l.client with rpcs := rpcs } } :=
  { h with rejected := hrpcs }

theorem Rpc.onGoaway_refused {rpc : Rpc} {goaway : Option ℤ} {last : ℤ} (hlast : goaway = some last)
    (h : rpc.rejected → rpc.finished ∧ rpc.Refused goaway) :
    (rpc.onGoaway last).rejected →
      (rpc.onGoaway last).finished ∧ (rpc.onGoaway last).Refused goaway := by
  unfold onGoaway
  split
  · split
    · rename_i hrejects
      refine fun _ => ⟨rfl, ?_⟩
      have hcases : rpc.streamId < 0 ∨ rpc.streamId > last := by
        simpa [goAwayRejectsStream] using hrejects.2.2
      exact hcases.imp_right fun hgt => ⟨last, hlast, hgt⟩
    · exact h
  · split
    · rename_i habove
      exact fun _ => ⟨rfl, .inr ⟨last, hlast, habove.2⟩⟩
    · exact h

variable (h : l.Agrees)

include h

theorem Link.Agrees.onGoaway {last : ℤ} (hlast : l.server.goaway = some last) :
    Link.Agrees { l with client := l.client.onGoaway last } := by
  unfold ClientConnection.onGoaway
  split
  · refine { h with rejected := fun rpc hmem => ?_ }
    obtain ⟨old, hold, rfl⟩ := List.mem_map.mp hmem
    exact Rpc.onGoaway_refused hlast (h.rejected old hold)
  · exact h

theorem Link.Agrees.receiveClient : l.receiveClient.Agrees := by
  unfold Link.receiveClient
  split
  · exact h
  · rename_i last rest hframes
    have hlast := h.toClient last (by rw [hframes]; exact List.mem_cons_self)
    have hrest : Link.Agrees { l with toClient := rest } :=
      { h with toClient := fun other hmem =>
          h.toClient other (by rw [hframes]; exact List.mem_cons_of_mem _ hmem) }
    exact hrest.onGoaway hlast
  · rename_i rest hframes
    have hrest : Link.Agrees { l with toClient := rest } :=
      { h with toClient := fun other hmem =>
          h.toClient other (by rw [hframes]; exact List.mem_cons_of_mem _ hmem) }
    refine hrest.clientStep fun rpc hmem => ?_
    obtain ⟨old, hold, rfl⟩ := List.mem_map.mp hmem
    split
    · exact fun hrejected => ⟨rfl, (h.rejected old hold hrejected).2⟩
    · exact h.rejected old hold

theorem Link.Agrees.receiveServer (allocated invoked : Bool) :
    (l.receiveServer allocated invoked).Agrees := by
  unfold Link.receiveServer
  split
  · exact h
  · rename_i rest hframes
    have hrest : Link.Agrees { l with toServer := rest } :=
      { h with toServer := fun other hmem =>
          h.toServer other (by rw [hframes]; exact List.mem_cons_of_mem _ hmem) }
    dsimp only
    split
    · exact hrest
    · split
      · rename_i id
        have hid := h.toServer id (by rw [hframes]; exact List.mem_cons_self)
        obtain ⟨hsound, hkeeps⟩ := onBeginHeaders_sound h.server hid allocated
        split <;> rename_i server hverdict <;> rw [hverdict] at hsound hkeeps
        · obtain ⟨hsound', hkeeps'⟩ := onFrameReceived_sound hsound id invoked
          exact hrest.serverSilent hsound'
            ⟨hkeeps.highest.trans hkeeps'.highest, fun _ hl =>
              hkeeps'.goaway _ (hkeeps.goaway _ hl)⟩
        · exact hrest.serverStep hsound hkeeps (by simp)
        · exact hrest.serverSilent { hsound with } ⟨hkeeps.highest, hkeeps.goaway⟩
      · obtain ⟨hsound, hkeeps⟩ := onFrameReceived_sound h.server _ invoked
        exact hrest.serverSilent hsound hkeeps

theorem Link.Agrees.submit (index : ℕ) :
    Link.Agrees { l with client := l.client.submit index } := by
  unfold ClientConnection.submit
  split
  · exact h
  · rename_i rpc hrpc
    split
    · rename_i hopen
      refine { h with
        next := by have := h.next; dsimp only; omega
        unsent := List.forall_mem_append.mpr ⟨h.unsent, List.forall_mem_singleton.mpr h.next⟩
        rejected := fun other hmem hrejected => ?_ }
      · rcases List.mem_or_eq_of_mem_set hmem with hmem | rfl
        · exact h.rejected other hmem hrejected
        · exact absurd (h.rejected rpc (List.mem_of_getElem? hrpc) hrejected).1 hopen.2.2
    · exact h

theorem Link.Agrees.finish (index : ℕ) :
    Link.Agrees { l with client := l.client.finish index } := by
  refine h.clientStep fun rpc hmem => ?_
  obtain ⟨i, hi⟩ := List.mem_iff_getElem?.mp hmem
  rw [List.getElem?_modify] at hi
  obtain ⟨old, hold, rfl⟩ := Option.map_eq_some_iff.mp hi
  have hagrees := h.rejected old (List.mem_of_getElem? hold)
  split
  · exact fun hrejected => ⟨rfl, (hagrees hrejected).2⟩
  · exact hagrees

theorem Link.Agrees.step (event : Event) : (Goaway.step l event).Agrees := by
  cases event with
  | openRpc =>
    refine h.clientStep fun rpc hmem hrejected => ?_
    rcases List.mem_append.mp hmem with hmem | hmem
    · exact h.rejected rpc hmem hrejected
    · rw [List.mem_singleton.mp hmem] at hrejected
      exact absurd hrejected Bool.false_ne_true
  | submit index => exact h.submit index
  | send =>
    simp only [Goaway.step]
    split
    · exact h
    · rename_i id rest hunsent
      have hid : ∀ other ∈ id :: rest, 0 < other := hunsent ▸ h.unsent
      refine { h with
        unsent := fun other hmem => hid other (List.mem_cons_of_mem _ hmem)
        toServer := fun other hmem => ?_ }
      rcases List.mem_append.mp hmem with hmem | hmem
      · exact h.toServer other hmem
      · rw [ClientFrame.headers.inj (List.mem_singleton.mp hmem)]
        exact hid id List.mem_cons_self
  | endStream =>
    refine { h with toServer := fun other hmem => ?_ }
    rcases List.mem_append.mp hmem with hmem | hmem
    · exact h.toServer other hmem
    · exact absurd (List.mem_singleton.mp hmem) nofun
  | finish index => exact h.finish index
  | clientFrame => exact h.receiveClient
  | serverFrame allocated invoked => exact h.receiveServer allocated invoked
  | serverStreamClose =>
    refine h.serverStep { h.server with accepted := fun other hmem => ?_ } ⟨le_rfl, fun _ h => h⟩
      (by simp)
    exact h.server.accepted other (List.mem_of_mem_erase hmem)
  | drain listenerClosed submission =>
    obtain ⟨hsound, hkeeps, hframes⟩ := beginDrain_sound h.server listenerClosed submission
    exact h.serverStep hsound hkeeps hframes
  | idle shuttingDown submission farewell =>
    obtain ⟨hsound, hkeeps, hframes⟩ := expireIdle_sound h.server shuttingDown submission farewell
    exact h.serverStep hsound hkeeps hframes
  | serverCloseGracefully farewell =>
    obtain ⟨hsound, hkeeps, -⟩ := closeGracefully_sound h.server farewell
    exact h.serverSilent hsound hkeeps
  | serverClose | sessionGone | handshaken =>
    exact h.serverSilent { h.server with } ⟨le_rfl, fun _ h => h⟩

end Steps

theorem initial_agrees (maxConcurrentStreams : ℕ) (tls : Bool) :
    (initial maxConcurrentStreams tls).Agrees where
  server := ⟨nofun, nofun, nofun⟩
  next := Int.one_pos
  unsent := nofun
  toServer := nofun
  toClient := nofun
  rejected := nofun

theorem step_highest {l : Link} (h : l.Agrees) (event : Event) :
    l.server.highestAcceptedStreamId ≤ (step l event).server.highestAcceptedStreamId := by
  cases event with
  | send =>
    simp only [step]
    split <;> exact le_rfl
  | clientFrame =>
    simp only [step, Link.receiveClient]
    split <;> exact le_rfl
  | serverFrame allocated invoked =>
    simp only [step, Link.receiveServer]
    split
    · exact le_rfl
    · rename_i hframes
      split
      · exact le_rfl
      · split
        · rename_i id
          have hid := h.toServer id (by rw [hframes]; exact List.mem_cons_self)
          obtain ⟨hsound, hkeeps⟩ := onBeginHeaders_sound h.server hid allocated
          split <;> rename_i server hverdict <;> rw [hverdict] at hsound hkeeps
          · exact hkeeps.highest.trans (onFrameReceived_sound hsound id invoked).2.highest
          · exact hkeeps.highest
          · exact hkeeps.highest
        · exact (onFrameReceived_sound h.server _ invoked).2.highest
  | drain listenerClosed submission =>
    exact (beginDrain_sound h.server listenerClosed submission).2.1.highest
  | idle shuttingDown submission farewell =>
    exact (expireIdle_sound h.server shuttingDown submission farewell).2.1.highest
  | serverCloseGracefully farewell => exact (closeGracefully_sound h.server farewell).2.1.highest
  | _ => exact le_rfl

/-- What the client ended as rejected by a GOAWAY, the server never gave to a handler. -/
theorem goaway_agreement (maxConcurrentStreams : ℕ) (tls : Bool) (events : List Event) :
    let l := Run.final step (initial maxConcurrentStreams tls) events
    (∀ rpc ∈ l.client.rpcs, rpc.rejected → rpc.streamId ∉ l.server.handled) ∧
    (∀ event, l.server.highestAcceptedStreamId ≤ (step l event).server.highestAcceptedStreamId) ∧
    (∀ last, l.server.goaway = some last → ∀ id ∈ l.server.handled, id ≤ last) := by
  intro l
  have h : l.Agrees := Run.invariant_always (fun _ event h => h.step event) events
    (initial_agrees maxConcurrentStreams tls)
  refine ⟨fun rpc hmem hrejected hhandled => ?_, step_highest h, fun last hlast id hhandled => ?_⟩
  · obtain ⟨hpositive, hle⟩ := h.server.handled rpc.streamId hhandled
    rcases (h.rejected rpc hmem hrejected).2 with hnegative | ⟨last, hlast, hlt⟩
    · omega
    · rw [← (h.server.announced last hlast).2] at hle
      omega
  · rw [(h.server.announced last hlast).2]
    exact (h.server.handled id hhandled).2

/-- A request crosses the GOAWAY of a connection that became idle when the first one had ended; the
server reads it while its GOAWAY is still being written. -/
def crossing : List Event :=
  [.openRpc .streaming, .openRpc .streaming, .openRpc .streaming, .submit 0, .send,
    .serverFrame true true, .serverStreamClose 1, .submit 1, .send,
    .idle false ⟨true, true⟩ ⟨true, true⟩, .serverFrame true true, .clientFrame, .clientFrame]

theorem goaway_agreement_crossing :
    let l := Run.final step (initial 100 false) crossing
    (l.client.rpcs.map fun rpc => (rpc.streamId, rpc.rejected)) =
        [(1, false), (3, true), (-1, true)] ∧
      l.server.handled = [1] ∧ l.server.closing = false ∧ l.toClient = [.closed 3] ∧
      ∀ rpc ∈ l.client.rpcs, rpc.rejected → rpc.streamId ∉ l.server.handled :=
  ⟨by decide, by decide, by decide, by decide, (goaway_agreement 100 false crossing).1⟩

/-! ## The streams of the channel -/

/-- A stream of the channel as the two ends of the connection see it. -/
def Rpc.ofControl (c : Client.Control) : Rpc where
  kind := .streaming
  streamId := (c.streamId.map Int.ofNat).getD (-1)
  mapped := c.mapped
  finished := c.terminal

theorem goAwayRejectsStream_ofControl (c : Client.Control) (lastStreamId : ℕ) :
    goAwayRejectsStream (Rpc.ofControl c).streamId lastStreamId =
      Client.goAwayRejectsStream c.streamId lastStreamId := by
  unfold goAwayRejectsStream Client.goAwayRejectsStream Rpc.ofControl
  cases c.streamId with
  | none => rfl
  | some id => simp

theorem Rpc.ofControl_goesAway {c c' : Client.Control} {lastStreamId : ℕ} (hsettled : c.Settled)
    (hc : c.GoesAway lastStreamId c') :
    { (ofControl c).onGoaway lastStreamId with rejected := false } = ofControl c' := by
  have hunsubmitted : (ofControl c).streamId < 0 ↔ c.streamId = none := by
    unfold ofControl
    cases c.streamId with
    | none => simp
    | some id => simp
  unfold onGoaway
  have hkind : (ofControl c).kind = .streaming := rfl
  simp only [goAwayRejectsStream_ofControl, hunsubmitted, hkind]
  cases hc with
  | same hsubmitted hkept =>
    rw [if_neg]
    · rfl
    · rintro ⟨hopen, hmapped | hnone, hrejected⟩
      · exact hkept ⟨hmapped, hrejected⟩
      · -- a stream that is not submitted and not registered has ended
        have hunregistered : c.registered = false := by
          by_contra hregistered
          have hsome := hsubmitted (by simpa using hregistered)
          exact absurd hnone (Option.isSome_iff_ne_none.mp hsome)
        exact hopen (hsettled.gone (hsettled.owned ▸ hunregistered)).1
  | reset hmapped hrejected =>
    cases hterminal : c.terminal with
    | true =>
      rw [if_neg (by simp [ofControl, hterminal])]
      simp [ofControl, hterminal, Client.Control.force]
    | false =>
      rw [if_pos ⟨by simp [ofControl, hterminal], .inl hmapped, hrejected⟩]
      rfl
  | gaveUp hnone =>
    cases hterminal : c.terminal with
    | true =>
      rw [if_neg (by simp [ofControl, hterminal])]
      simp [ofControl, hterminal, Client.Control.gaveUp]
    | false =>
      rw [if_pos ⟨by simp [ofControl, hterminal], .inr hnone, by rw [hnone]; rfl⟩]
      rfl

/-- In every run of the channel, a GOAWAY does to a stream what `Rpc.onGoaway` says, unless its
reset cannot be submitted; then the stream has ended all the same. -/
theorem onGoAway_ofControl {w : Client.World} (hw : w.Stable) (events : List Client.Event)
    (lastStreamId : ℕ) (hactive : (Run.final Client.step w events).connection = .active) :
    Prog.wp (Client.onGoAway lastStreamId)
      (fun _ w' => Rpc.ofControl w'.control =
        { (Rpc.ofControl (Run.final Client.step w events).control).onGoaway lastStreamId with
          rejected := false })
      (fun _ w' => w'.stream.terminal) (Run.final Client.step w events) := by
  have hstable : (Run.final Client.step w events).Stable :=
    Run.invariant_always (fun _ event h => h.step event) events hw
  generalize Run.final Client.step w events = w at hactive hstable
  have hsettled := hstable.settled.draining hactive
  have hdraining : Client.At w { w.control with connection := .draining }
      { w with connection := .draining } :=
    (Client.At.self hstable.base).move (.connection .draining w.stopping w.everActive) rfl
  unfold Client.onGoAway
  rw [Prog.wp_get_when, Prog.wp_modify_bind]
  refine ⟨fun _ => Prog.wp_mono (Client.terminalizeStreamsForGoAway_at lastStreamId hdraining
    hsettled.listed hsettled.forcible fun hnone => (hsettled.fresh hnone).1)
    (fun _ w' h => ?_) fun _ w' h => ?_, fun hnot => absurd hactive hnot⟩
  · obtain ⟨c', hc', hat⟩ := h
    rw [hat.control, ← Rpc.ofControl_goesAway hsettled hc']
    rfl
  · exact (congrArg Client.Control.terminal h.2.control)

end GrpcLite.Goaway
